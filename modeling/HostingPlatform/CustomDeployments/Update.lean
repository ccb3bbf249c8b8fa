import HostingPlatform.CustomDeployments.Deployer

/-! The narrow patch of a custom deployment: what a request names is replaced, and what it does not
name is meant to stay. The schema of the request fills in defaults. -/
namespace HostingPlatform.CustomDeployments.Update

open Option Table Js

structure ResourcesBody where
  (cpuRequest memoryRequest cpuLimit memoryLimit : Option String)

structure PortBody where
  containerPort : Number
  name : String
  protocol : Option String
  (exposeAsService ingressEligible : Option Bool)

structure UpdateBody where
  restart : Option Bool
  image : Option String
  env : Option (List Env)
  resources : Option ResourcesBody
  ports : Option (List PortBody)
  pullCredentialId : Option (Option String)

structure ResourcesInput where
  (cpuRequest memoryRequest : String)
  (cpuLimit memoryLimit : Option String)

structure UpdateInput where
  restart : Option Bool
  image : Option String
  env : Option (List Env)
  resources : Option ResourcesInput
  ports : Option (List Port)
  pullCredentialId : Option (Option String)

def ResourcesBody.withDefaults (r : ResourcesBody) : ResourcesInput :=
  ⟨r.cpuRequest.getD "100m", r.memoryRequest.getD "128Mi", r.cpuLimit, r.memoryLimit⟩

def PortBody.withDefaults (p : PortBody) : Port :=
  ⟨p.containerPort, p.name, p.protocol.getD "TCP", p.exposeAsService.getD true, p.ingressEligible.getD false⟩

def UpdateBody.withDefaults (body : UpdateBody) : UpdateInput where
  restart := body.restart
  image := body.image
  env := body.env
  resources := body.resources.map ResourcesBody.withDefaults
  ports := body.ports.map (List.map PortBody.withDefaults)
  pullCredentialId := body.pullCredentialId

def resourcesSchema (r : ResourcesInput) : Bool :=
  resourceQtyRe r.cpuRequest && resourceQtyRe r.memoryRequest && r.cpuLimit.all resourceQtyRe &&
    r.memoryLimit.all resourceQtyRe

def inputSchema (patch : UpdateInput) : Bool :=
  patch.image.all (fun image => 1 ≤ length image && length image ≤ 500) &&
    patch.env.all (fun env => env.length ≤ 200 && env.all customEnvSchema) &&
    patch.resources.all resourcesSchema &&
    patch.ports.all (fun ports => ports.length ≤ 20 && ports.all customPortSchema) &&
    patch.pullCredentialId.all (fun id => id.all uuidRe)

def updateCustomDeploymentSchema (body : UpdateBody) : Option UpdateInput :=
  if inputSchema body.withDefaults then some body.withDefaults else none

/- `{ ...r, ...patch }` -/
def mergeResources (r : Resources) (patch : ResourcesInput) : Resources :=
  ⟨patch.cpuRequest, patch.memoryRequest, patch.cpuLimit <|> r.cpuLimit, patch.memoryLimit <|> r.memoryLimit⟩

def withServiceMutation (spec : Spec) (serviceName : String) (fn : Service → Service) : Spec :=
  match spec.services.get serviceName with
  | some s => { spec with services := spec.services.set serviceName (fn s) }
  | none => spec

def composeReject (field : String) : Failure :=
  apiError "NOT_SUPPORTED_FOR_COMPOSE"
    s!"Patching '{field}' on a compose-mode deployment is not supported in this release; edit the compose YAML and recreate, or wait for the per-service patch surface in the next release."
    400

structure Patching where
  nextSpec : Spec
  needsRedeploy : Bool

/- a field of the one service, if the request names it -/
def patchField (isCompose : Bool) (serviceName field : String) (mutation : Option (Service → Service))
    (p : Patching) : Except Failure Patching :=
  match mutation with
  | none => .ok p
  | some fn =>
    if isCompose then .error (composeReject field)
    else .ok ⟨withServiceMutation p.nextSpec serviceName fn, true⟩

def setImage (image : String) (s : Service) : Service := { s with image }

def setEnv (env : List Env) (s : Service) : Service := { s with env }

def setResources (patch : ResourcesInput) (s : Service) : Service :=
  { s with resources := mergeResources s.resources patch }

def setPorts (ports : List Port) (s : Service) : Service := { s with ports }

def patchCredential (patch : Option (Option String)) (p : Patching) : Patching :=
  match patch with
  | none => p
  | some id => ⟨{ p.nextSpec with pullCredentialId := id }, true⟩

def patchSpec (spec : Spec) (serviceName : String) (patch : UpdateInput) : Except Failure Patching := do
  let isCompose := spec.sourceMode == .compose
  let p ← patchField isCompose serviceName "image" (patch.image.map setImage) ⟨spec, false⟩
  let p ← patchField isCompose serviceName "env" (patch.env.map setEnv) p
  let p ← patchField isCompose serviceName "resources" (patch.resources.map setResources) p
  let p ← patchField isCompose serviceName "ports" (patch.ports.map setPorts) p
  let p := patchCredential patch.pullCredentialId p
  return ⟨p.nextSpec, p.needsRedeploy || patch.restart.getD false⟩

/- compose stacks sum across services, the simple mode uses the only service's own values -/
def rowTotals (spec : Spec) (serviceName : String) : ResourceTotals :=
  if spec.sourceMode == .compose then sumResources spec
  else
    match spec.services.get serviceName with
    | some s => ⟨s.resources.cpuRequest, s.resources.memoryRequest⟩
    | none => sumResources spec

def saveSpec (spec : Spec) (totals : ResourceTotals) (row : DeploymentRow) : DeploymentRow :=
  { row with
    customSpec := some spec
    cpuRequest := totals.cpuRequest
    memoryRequest := totals.memoryRequest
    status := .deploying
    lastError := none }

theorem saveSpec_id (spec : Spec) (totals : ResourceTotals) (row : DeploymentRow) :
    (saveSpec spec totals row).id = row.id := rfl

def corrupt : Failure :=
  apiError "CUSTOM_DEPLOYMENT_CORRUPT" "Custom deployment has no services in spec." 500

def patchContext (settings : SystemSettings) (row : DeploymentRow) (spec : Spec) : ValidatorContext :=
  ⟨.admin, settings.customDeploymentsWarnUnpinnedTags, spec.sourceMode != .compose, some row.name⟩

/- the write to the row, and the deployment of what has been written -/
def saveAndDeploy (platform : Platform) (db : Database) (current : DeploymentRow) (serviceName : String)
    (nextSpec : Spec) : Outcome :=
  let totals := rowTotals nextSpec serviceName
  let saved := db.deployments.update (fun r => r.id == current.id) (saveSpec nextSpec totals)
    (saveSpec_id nextSpec totals)
  let db := { db with deployments := saved }
  match db.tenants.select (fun t => t.id == current.tenantId) with
  | none =>
    let tenantId := current.tenantId
    refused db (apiError "CLIENT_NOT_FOUND" s!"Client '{tenantId}' not found" 404)
  | some tenant =>
    let path := current.storagePath.getD ("custom-deployment/" ++ current.name)
    deployToCluster platform db tenant { current with storagePath := some path } nextSpec

/-- The first key of the services, where it is no empty text. -/
def firstService (spec : Spec) : Option String := spec.services.keys.head?.filter (· ≠ "")

def updateCustomDeployment (platform : Platform) (db : Database) (tenantId id : Nat)
    (patch : UpdateInput) : Outcome :=
  match getCustomDeployment db tenantId id with
  | .error failure => refused db failure
  | .ok current =>
    match current.customSpec with
    | none => refused db (.thrown "Cannot read properties of null (reading 'sourceMode')")
    | some spec =>
      match firstService spec with
      | none => refused db corrupt
      | some serviceName =>
        match patchSpec spec serviceName patch with
        | .error failure => refused db failure
        | .ok p =>
          if ¬ p.needsRedeploy then ⟨db, [], .ok current⟩
          else
            let validation := validateCustomSpec p.nextSpec (patchContext db.settings current spec)
            if ¬ validation.ok then refused db (invalidDeployment validation.issues)
            else saveAndDeploy platform db current serviceName p.nextSpec

def storedSpec (db : Database) (id : Nat) : Option Spec :=
  (db.deployments.select (fun r => r.id == id)).bind DeploymentRow.customSpec

/-- The parts of a service that the body does not name have the values they had. -/
structure KeptService (body : UpdateBody) (before after : Service) : Prop where
  others : { after with
    image := before.image, env := before.env, resources := before.resources, ports := before.ports } = before
  image : body.image = none → after.image = before.image
  env : body.env = none → after.env = before.env
  ports : body.ports = none → after.ports = before.ports
  cpuRequest : body.resources.bind ResourcesBody.cpuRequest = none →
    after.resources.cpuRequest = before.resources.cpuRequest
  memoryRequest : body.resources.bind ResourcesBody.memoryRequest = none →
    after.resources.memoryRequest = before.resources.memoryRequest
  cpuLimit : body.resources.bind ResourcesBody.cpuLimit = none →
    after.resources.cpuLimit = before.resources.cpuLimit
  memoryLimit : body.resources.bind ResourcesBody.memoryLimit = none →
    after.resources.memoryLimit = before.resources.memoryLimit

structure Kept (body : UpdateBody) (before after : Spec) : Prop where
  others : { after with services := before.services, pullCredentialId := before.pullCredentialId } = before
  credential : body.pullCredentialId = none → after.pullCredentialId = before.pullCredentialId
  names : after.services.keys = before.services.keys
  services : ∀ name s s', before.services.get name = some s → after.services.get name = some s' →
    KeptService body s s'

def asked (patch : UpdateInput) (s : Service) : Service :=
  { s with
    image := patch.image.getD s.image
    env := patch.env.getD s.env
    resources := (patch.resources.map (mergeResources s.resources)).getD s.resources
    ports := patch.ports.getD s.ports }

def askedSpec (spec : Spec) (serviceName : String) (s : Service) (patch : UpdateInput) : Spec :=
  { spec with
    services := spec.services.set serviceName (asked patch s)
    pullCredentialId := patch.pullCredentialId.getD spec.pullCredentialId }

def DefaultsStored (body : UpdateBody) (s : Service) : Prop :=
  ∀ r, body.resources = some r →
    (r.cpuRequest = none → s.resources.cpuRequest = "100m") ∧
      (r.memoryRequest = none → s.resources.memoryRequest = "128Mi")

def Refused (db : Database) (row : DeploymentRow) (spec : Spec) (serviceName : String) (s : Service)
    (body : UpdateBody) : Prop :=
  (validateCustomSpec (askedSpec spec serviceName s body.withDefaults)
    (patchContext db.settings row spec)).ok = false

def LeavesRest (db : Database) (row : DeploymentRow) (spec : Spec) (body : UpdateBody) : Prop :=
  ∀ serviceName s, firstService spec = some serviceName → spec.services.get serviceName = some s →
    DefaultsStored body s ∨ Refused db row spec serviceName s body

def withService (spec : Spec) (serviceName : String) (s : Service) : Spec :=
  { spec with services := spec.services.set serviceName s }

section patch

variable {spec : Spec} {serviceName : String} {s : Service}

theorem withServiceMutation_eq (present : serviceName ∈ spec.services.keys) (fn : Service → Service) :
    withServiceMutation (withService spec serviceName s) serviceName fn = withService spec serviceName (fn s) := by
  unfold withServiceMutation withService
  rw [Record.get_set present]
  dsimp only
  rw [Record.set_set present]

theorem patchField_simple (present : serviceName ∈ spec.services.keys) (field : String)
    (mutation : Option (Service → Service)) (needs : Bool) :
    patchField false serviceName field mutation ⟨withService spec serviceName s, needs⟩ =
      .ok ⟨withService spec serviceName ((mutation.map (fun fn => fn s)).getD s), needs || mutation.isSome⟩ := by
  cases mutation with
  | none => simp [patchField]
  | some fn => simp [patchField, withServiceMutation_eq present]

/-- The request asks for something to be done. -/
def touches (patch : UpdateInput) : Bool :=
  patch.image.isSome || patch.env.isSome || patch.resources.isSome || patch.ports.isSome ||
    patch.pullCredentialId.isSome || patch.restart.getD false

theorem patchSpec_simple (simple : spec.sourceMode = .simple)
    (found : spec.services.get serviceName = some s) (patch : UpdateInput) :
    patchSpec spec serviceName patch = .ok ⟨askedSpec spec serviceName s patch, touches patch⟩ := by
  have present : serviceName ∈ spec.services.keys := List.mem_map_of_mem (Record.mem_of_get found)
  have start : spec = withService spec serviceName s := by
    rw [withService, Record.set_get found]
  have mode : (spec.sourceMode == .compose) = false := by
    rw [simple]
    rfl
  unfold patchSpec
  rw [mode]
  conv_lhs => rw [start]
  simp only [patchField_simple present, bind, Except.bind, pure]
  obtain ⟨restart, image, env, resources, ports, credential⟩ := patch
  cases image <;> cases env <;> cases resources <;> cases ports <;> cases credential <;> rfl

end patch

theorem storedSpec_deployToCluster (platform : Platform) (db : Database) (tenant : TenantRow)
    (row : DeploymentRow) (spec : Spec) (id : Nat) :
    storedSpec (deployToCluster platform db tenant row spec).db id = storedSpec db id := by
  unfold deployToCluster storedSpec
  split
  · rfl
  dsimp only
  split
  · rfl
  rename_i failure _
  rw [select_update (markFailed_id (failureMessage failure)) (fun _ => rfl), bind_map]
  congr 1
  funext r
  exact apply_column DeploymentRow.customSpec _ (markFailed (failureMessage failure)) (fun _ => rfl) r

section update

variable {platform : Platform} {db : Database} {row : DeploymentRow} {spec : Spec}

theorem storedSpec_of_mem (here : row ∈ db.deployments) : storedSpec db row.id = row.customSpec := by
  rw [storedSpec, select_key here]
  rfl

theorem getCustomDeployment_of_mem (here : row ∈ db.deployments) (custom : row.source = .custom) :
    getCustomDeployment db row.tenantId row.id = .ok row := by
  unfold getCustomDeployment
  cases found : db.deployments.select
      (fun r => r.id == row.id && r.tenantId == row.tenantId && r.source == .custom) with
  | none =>
    have other := select_none found row here
    simp [custom] at other
  | some r =>
    obtain ⟨there, selected⟩ := mem_of_select found
    simp only [Bool.and_eq_true, beq_iff_eq] at selected
    rw [db.deployments.eq_of_key there here selected.1.1]

theorem storedSpec_saveAndDeploy (here : row ∈ db.deployments) (serviceName : String) :
    storedSpec (saveAndDeploy platform db row serviceName spec).db row.id = some spec := by
  have saved : storedSpec { db with
      deployments := db.deployments.update (fun r => r.id == row.id)
        (saveSpec spec (rowTotals spec serviceName)) (saveSpec_id spec _) } row.id = some spec := by
    rw [storedSpec, select_update (saveSpec_id spec _) (fun _ => rfl), select_key here]
    simp [apply, saveSpec]
  unfold saveAndDeploy
  dsimp only
  split
  · exact saved
  · rw [storedSpec_deployToCluster]
    exact saved

theorem Kept.refl (body : UpdateBody) (spec : Spec) : Kept body spec spec where
  others := rfl
  credential _ := rfl
  names := rfl
  services name s s' found found' := by
    cases some.inj (found.symm.trans found')
    exact ⟨rfl, fun _ => rfl, fun _ => rfl, fun _ => rfl, fun _ => rfl, fun _ => rfl, fun _ => rfl, fun _ => rfl⟩

theorem keptService_iff (body : UpdateBody) (s : Service) :
    KeptService body s (asked body.withDefaults s) ↔ DefaultsStored body s := by
  obtain ⟨restart, image, env, resources, ports, credential⟩ := body
  constructor
  · rintro ⟨-, -, -, -, cpu, memory, -, -⟩ r named
    subst named
    refine ⟨fun none => ?_, fun none => ?_⟩
    · have same := cpu none
      simpa [asked, UpdateBody.withDefaults, ResourcesBody.withDefaults, mergeResources, none] using same.symm
    · have same := memory none
      simpa [asked, UpdateBody.withDefaults, ResourcesBody.withDefaults, mergeResources, none] using same.symm
  · intro stored
    cases resources with
    | none => constructor <;> simp_all [asked, UpdateBody.withDefaults]
    | some r =>
      obtain ⟨cpu, memory⟩ := stored r rfl
      constructor <;> simp_all [asked, UpdateBody.withDefaults, ResourcesBody.withDefaults, mergeResources]

theorem kept_askedSpec_iff (body : UpdateBody) {serviceName : String} {s : Service}
    (found : spec.services.get serviceName = some s) :
    Kept body spec (askedSpec spec serviceName s body.withDefaults) ↔ DefaultsStored body s := by
  have present : serviceName ∈ spec.services.keys := List.mem_map_of_mem (Record.mem_of_get found)
  have set := Record.get_set present (asked body.withDefaults s)
  rw [← keptService_iff]
  constructor
  · intro kept
    exact kept.services serviceName s _ found set
  intro kept
  refine ⟨rfl, ?_, Record.keys_set present _, ?_⟩
  · intro none
    simp [askedSpec, UpdateBody.withDefaults, none]
  intro name before after foundBefore foundAfter
  by_cases same : name = serviceName
  · subst same
    cases some.inj (found.symm.trans foundBefore)
    cases some.inj (set.symm.trans foundAfter)
    exact kept
  · have other := Record.get_set_other present (asked body.withDefaults s) same
    exact (Kept.refl body spec).services name before after foundBefore (other.symm.trans foundAfter)

theorem get_firstService {serviceName : String} (first : firstService spec = some serviceName) :
    ∃ s, spec.services.get serviceName = some s := by
  obtain ⟨head, _⟩ := filter_eq_some_iff.mp first
  obtain ⟨entry, mem, rfl⟩ := List.mem_map.mp (List.mem_of_head? head)
  exact ⟨entry.2, Record.get_of_mem mem⟩

theorem defaultsStored_of_untouched {body : UpdateBody} (untouched : touches body.withDefaults = false)
    (s : Service) : DefaultsStored body s := by
  intro r named
  simp [touches, UpdateBody.withDefaults, named] at untouched

theorem storedSpec_updated {serviceName : String} {s : Service} (here : row ∈ db.deployments)
    (custom : row.source = .custom) (stored : row.customSpec = some spec)
    (simple : spec.sourceMode = .simple) (first : firstService spec = some serviceName)
    (found : spec.services.get serviceName = some s) (patch : UpdateInput) :
    storedSpec (updateCustomDeployment platform db row.tenantId row.id patch).db row.id =
      if touches patch = true ∧ (validateCustomSpec (askedSpec spec serviceName s patch)
        (patchContext db.settings row spec)).ok = true
      then some (askedSpec spec serviceName s patch) else some spec := by
  have before : storedSpec db row.id = some spec := (storedSpec_of_mem here).trans stored
  unfold updateCustomDeployment
  rw [getCustomDeployment_of_mem here custom]
  dsimp only
  rw [stored]
  dsimp only
  rw [first]
  dsimp only
  rw [patchSpec_simple simple found]
  dsimp only
  split
  · rename_i untouched
    rw [if_neg (fun both => untouched both.1)]
    exact before
  rename_i touched
  split
  · rename_i refused
    rw [if_neg (fun both => refused both.2)]
    exact before
  · rename_i passes
    rw [if_pos ⟨not_not.mp touched, not_not.mp passes⟩]
    exact storedSpec_saveAndDeploy here serviceName

theorem storedSpec_corrupt (here : row ∈ db.deployments) (custom : row.source = .custom)
    (stored : row.customSpec = some spec) (none : firstService spec = none) (patch : UpdateInput) :
    storedSpec (updateCustomDeployment platform db row.tenantId row.id patch).db row.id = some spec := by
  unfold updateCustomDeployment
  rw [getCustomDeployment_of_mem here custom]
  dsimp only
  rw [stored]
  dsimp only
  rw [none]
  exact (storedSpec_of_mem here).trans stored

/-- What a request does not name stays as it is stored, exactly when the defaults that the schema puts
in place of the requests left out are what is stored, or the validator refuses what is asked for. -/
theorem update_keeps_rest_iff {body : UpdateBody} {input : UpdateInput} (here : row ∈ db.deployments)
    (custom : row.source = .custom) (stored : row.customSpec = some spec)
    (simple : spec.sourceMode = .simple) (accepted : updateCustomDeploymentSchema body = some input) :
    (∃ after, storedSpec (updateCustomDeployment platform db row.tenantId row.id input).db row.id =
      some after ∧ Kept body spec after) ↔ LeavesRest db row spec body := by
  have filled : input = body.withDefaults := by
    unfold updateCustomDeploymentSchema at accepted
    split at accepted
    · exact (some.inj accepted).symm
    · contradiction
  subst filled
  cases first : firstService spec with
  | none =>
    have kept : ∃ after, storedSpec (updateCustomDeployment platform db row.tenantId row.id
        body.withDefaults).db row.id = some after ∧ Kept body spec after :=
      ⟨spec, storedSpec_corrupt here custom stored first _, Kept.refl body spec⟩
    exact iff_of_true kept (fun serviceName s named => nomatch first.symm.trans named)
  | some serviceName =>
    obtain ⟨s, found⟩ := get_firstService first
    have leaves : LeavesRest db row spec body ↔
        DefaultsStored body s ∨ Refused db row spec serviceName s body := by
      constructor
      · intro leaves
        exact leaves serviceName s first found
      intro one name t named foundT
      cases some.inj (first.symm.trans named)
      cases some.inj (found.symm.trans foundT)
      exact one
    rw [leaves, storedSpec_updated here custom stored simple first found]
    split
    · rename_i both
      have passed : ¬ Refused db row spec serviceName s body := by
        intro refused
        exact Bool.false_ne_true (refused.symm.trans both.2)
      rw [or_iff_left passed, ← kept_askedSpec_iff body found]
      simp
    · rename_i either
      refine iff_of_true ⟨spec, rfl, Kept.refl body spec⟩ ?_
      cases touched : touches body.withDefaults with
      | false => exact .inl (defaultsStored_of_untouched touched s)
      | true =>
        refine .inr (Bool.eq_false_iff.mpr ?_)
        intro passes
        exact either ⟨touched, passes⟩

end update

def shopService : Service := { webService with resources := ⟨"250m", "256Mi", none, none⟩ }

def shopSpec : Spec :=
  { stack ⟨[("shop", shopService)], by decide⟩ with sourceMode := .simple }

def shopRow : DeploymentRow where
  id := 1
  tenantId := 1
  source := .custom
  customSpec := some shopSpec
  name := "shop"
  replicaCount := 1
  cpuRequest := "250m"
  memoryRequest := "256Mi"
  storagePath := some "custom-deployment/shop"
  status := .running
  lastError := none

def shopDatabase : Database where
  settings := ⟨true, true, false⟩
  tenants := ⟨[⟨1, "tenant-a", none, "local"⟩], by decide⟩
  deployments := ⟨[shopRow], by decide⟩

def quietPlatform : Platform where
  load := .only "" .null (by decide)
  pullCredential _ := .ok false
  deployCustomDeployment _ := .ok ()

/- a limit alone, and a limit with both requests -/
def limitBody (cpuRequest memoryRequest : Option String) : UpdateBody :=
  ⟨none, none, none, some ⟨cpuRequest, memoryRequest, some "1", none⟩, none, none⟩

theorem named_requests_keep_rest : ∃ after, storedSpec (updateCustomDeployment quietPlatform shopDatabase 1 1
      (limitBody (some "250m") (some "256Mi")).withDefaults).db 1 = some after ∧
        Kept (limitBody (some "250m") (some "256Mi")) shopSpec after := by
  have accepted : inputSchema (limitBody (some "250m") (some "256Mi")).withDefaults = true := by
    decide +kernel
  refine (@update_keeps_rest_iff quietPlatform shopDatabase shopRow shopSpec _ _ List.mem_cons_self rfl
    rfl rfl (if_pos accepted)).mpr ?_
  intro serviceName s _ _
  refine .inl ?_
  rintro r named
  cases named
  exact ⟨nofun, nofun⟩

/-- A limit is asked for, and the requests of the deployment are lost. -/
theorem limit_resets_requests :
    updateCustomDeploymentSchema (limitBody none none) = some (limitBody none none).withDefaults ∧
      ¬ ∃ after, storedSpec (updateCustomDeployment quietPlatform shopDatabase 1 1
        (limitBody none none).withDefaults).db 1 = some after ∧ Kept (limitBody none none) shopSpec after := by
  have accepted : inputSchema (limitBody none none).withDefaults = true := by decide +kernel
  refine ⟨if_pos accepted, ?_⟩
  rintro ⟨after, stored, kept⟩
  have first : firstService shopSpec = some "shop" := by decide
  have found : shopSpec.services.get "shop" = some shopService := rfl
  have passes : (validateCustomSpec (askedSpec shopSpec "shop" shopService (limitBody none none).withDefaults)
      (patchContext shopDatabase.settings shopRow shopSpec)).ok = true := by decide +kernel
  have now := @storedSpec_updated quietPlatform shopDatabase shopRow shopSpec _ _ List.mem_cons_self rfl rfl
    rfl first found (limitBody none none).withDefaults
  rw [if_pos ⟨rfl, passes⟩] at now
  cases some.inj (now.symm.trans stored)
  have defaults := (kept_askedSpec_iff (limitBody none none) found).mp kept _ rfl
  exact absurd (defaults.1 rfl) (by decide)

end HostingPlatform.CustomDeployments.Update
