import HostingPlatform.Deployments.Names
import HostingPlatform.Deployments.UpgradeVersion

/-! The places that render a deployment, and whether they render the same objects. -/
namespace HostingPlatform.Deployments

open List Js Results

structure Tenant where
  kubernetesNamespace : String
  (timezone nodeName : Option String)
  storageTier : Option StorageTier
  status : TenantStatus

def passwordKey (generatedEnvKeys : List String) : Option String :=
  generatedEnvKeys.find? (fun k => includes k "PASSWORD" || includes k "ROOT_PASSWORD")

/- by `createDeployment`, for the row that it has inserted; the gate of the host ports hands on the
firewall of the entry, and a storage path of one's own stands for data that are there -/
def createInput (tenant : Tenant) (entry : CatalogEntry) (row : DeploymentRow) (custom : Bool) :
    DeployCatalogEntryInput :=
  let resolved := resolveVersionAwareDeploymentConfig entry row.installedVersion
  { deploymentName := row.name
    storagePath := row.storagePath.getD ""
    namespace_ := tenant.kubernetesNamespace
    components := resolved.components
    volumes := resolved.volumes
    replicaCount := row.replicaCount
    cpuRequest := row.cpuRequest
    memoryRequest := row.memoryRequest
    configuration := some (row.configuration.getD .empty)
    fixedEnvVars := some resolved.fixedEnvVars
    configurableEnvKeys := some resolved.configurableEnvKeys
    reuseExistingData := custom
    catalogCode := some entry.code
    passwordEnvVar := passwordKey resolved.generatedEnvKeys
    timezone := tenant.timezone
    nodeName := tenant.nodeName
    storageTier := tenant.storageTier
    firewall := readEntryFirewall entry
    hostPorts := readEntryHostPorts entry }

structure UpdateResourcesInput where
  (cpuRequest memoryRequest : Option String)

/- by `updateDeploymentResources`, where there is something to change -/
def updateResourcesInput (tenant : Tenant) (entry : CatalogEntry) (row : DeploymentRow)
    (input : UpdateResourcesInput) : Option DeployCatalogEntryInput :=
  if given input.cpuRequest = none ∧ given input.memoryRequest = none then none
  else
    let resolved := resolveVersionAwareDeploymentConfig entry row.installedVersion
    some
      { deploymentName := row.name
        storagePath := row.storagePath.getD ""
        namespace_ := tenant.kubernetesNamespace
        components := resolved.components
        volumes := resolved.volumes
        replicaCount := row.replicaCount
        cpuRequest := input.cpuRequest.getD row.cpuRequest
        memoryRequest := input.memoryRequest.getD row.memoryRequest
        configuration := some (row.configuration.getD .empty)
        fixedEnvVars := some resolved.fixedEnvVars
        configurableEnvKeys := some resolved.configurableEnvKeys
        reuseExistingData := false
        catalogCode := none
        passwordEnvVar := none
        timezone := none
        nodeName := none
        storageTier := none
        firewall := readEntryFirewall entry
        hostPorts := readEntryHostPorts entry }

/- by `redeployWithCurrentConfig` -/
def redeployInput (tenant : Tenant) (entry : CatalogEntry) (row : DeploymentRow) : DeployCatalogEntryInput :=
  let resolved := resolveVersionAwareDeploymentConfig entry row.installedVersion
  { deploymentName := row.name
    storagePath := row.storagePath.getD ""
    namespace_ := tenant.kubernetesNamespace
    components := resolved.components
    volumes := resolved.volumes
    replicaCount := row.replicaCount
    cpuRequest := row.cpuRequest
    memoryRequest := row.memoryRequest
    configuration := some (row.configuration.getD .empty)
    fixedEnvVars := some resolved.fixedEnvVars
    configurableEnvKeys := some resolved.configurableEnvKeys
    reuseExistingData := false
    catalogCode := none
    passwordEnvVar := none
    timezone := none
    nodeName := none
    storageTier := none
    firewall := readEntryFirewall entry
    hostPorts := readEntryHostPorts entry }

inductive Redeploy where
  | version (operation : VersionOperation)
  | resources
  | currentConfig

/- an upgrade or a rollback to the version that is installed, and the resources that there are -/
def Redeploy.input (tenant : Tenant) (entry : CatalogEntry) (row : DeploymentRow) :
    Redeploy → Option DeployCatalogEntryInput
  | .version operation => row.installedVersion.map (fun version =>
      VersionAttempt.input ⟨operation, row, entry, version⟩ tenant.kubernetesNamespace)
  | .resources => updateResourcesInput tenant entry row ⟨some row.cpuRequest, some row.memoryRequest⟩
  | .currentConfig => some (redeployInput tenant entry row)

/- the object starts pods when it is applied; a Job that is there is left alone -/
def KubeObject.starts (jobs : String → Bool) : KubeObject → Bool
  | .deployment _ _ replicas _ => replicas != 0
  | .job name _ _ => !jobs name
  | .cronJob .. | .service .. | .networkPolicy .. => false

def Idle (tenant : Tenant) (row : DeploymentRow) : Prop := row.status = .stopped ∨ tenant.status = .suspended

section

variable (localeBefore : String → String → Bool)

/-- Every place renders the objects that were rendered at first, and starts nothing that is to be down;
`jobs` are the Jobs in the namespace. -/
structure Preserved (tenant : Tenant) (entry : CatalogEntry) (row : DeploymentRow) (jobs : String → Bool)
    (objects : List KubeObject) : Prop where
  same : ∀ call : Redeploy, ∀ input ∈ call.input tenant entry row, deployCatalogEntry localeBefore input = .ok objects
  down : Idle tenant row → ∀ call : Redeploy, ∀ input ∈ call.input tenant entry row,
    ∀ rendered, deployCatalogEntry localeBefore input = .ok rendered → ∀ o ∈ rendered, o.starts jobs = false

end

def environment (input : DeployCatalogEntryInput) : Record String :=
  rawEnv input.fixedEnvVars input.configuration input.configurableEnvKeys

/-- No time zone, or one of its own. -/
def TimezoneStays (input : DeployCatalogEntryInput) : Prop :=
  given input.timezone = none ∨ "TZ" ∈ (environment input).keys

def ResetsPassword (input : DeployCatalogEntryInput) : Prop :=
  input.reuseExistingData = true ∧ (given input.passwordEnvVar).isSome ∧
    ∃ code ∈ given input.catalogCode, (dbEngine code).isSome

/-- No pod that is kept running has a node or a reset of its password. -/
def PodsStay (input : DeployCatalogEntryInput) : Prop :=
  ∀ c ∈ input.components, runs c = true → given input.nodeName = none ∧ ¬ ResetsPassword input

def staysDown (input : DeployCatalogEntryInput) (jobs : String → Bool) (c : DeployComponentInput) : Bool :=
  match c.type with
  | .deployment | .statefulset => input.replicaCount == 0
  | .job => jobs (k8sResourceName input.deploymentName c.name input.components.length)
  | .cronjob => true

def plain (input : DeployCatalogEntryInput) : DeployCatalogEntryInput :=
  { input with
    reuseExistingData := false
    catalogCode := none
    passwordEnvVar := none
    timezone := none
    nodeName := none
    storageTier := none }

theorem redeploy_inputs {tenant : Tenant} {entry : CatalogEntry} {row : DeploymentRow}
    {input : DeployCatalogEntryInput} (call : Redeploy) (its : input ∈ call.input tenant entry row) :
    input = redeployInput tenant entry row := by
  cases call with
  | version operation =>
    obtain ⟨version, installed, rfl⟩ := Option.map_eq_some_iff.mp its
    simp [VersionAttempt.input, redeployInput, installed]
  | resources =>
    simp only [Redeploy.input, updateResourcesInput] at its
    split at its
    · cases its
    · cases its
      rfl
  | currentConfig =>
    cases its
    rfl

def mountsOf (input : DeployCatalogEntryInput) (c : DeployComponentInput) : Except String (List VolumeMount) :=
  buildVolumeMountSpec (filterVolumesForComponent input.volumes c.volumes) input.storagePath

def template (input : DeployCatalogEntryInput) (env : List (String × String))
    (allocations : Record AllocationResult) (c : DeployComponentInput) (mounts : List VolumeMount) : PodTemplate :=
  let pod := podTemplate input (buildContainer input env allocations c) mounts
  if runs c then deploymentTemplate input env pod else pod

def KubeObject.template? : KubeObject → Option PodTemplate
  | .deployment _ _ _ pod | .cronJob _ _ _ pod | .job _ _ pod => some pod
  | .service .. | .networkPolicy .. => none

variable {env : List (String × String)} {allocations : Record AllocationResult} {c : DeployComponentInput}
  {objects : List KubeObject} {components : List DeployComponentInput} {localeBefore : String → String → Bool}
  {parts : List (List KubeObject)} {jobs : String → Bool}

theorem renderComponent_ok {input : DeployCatalogEntryInput}
    (ok : renderComponent input env allocations c = .ok objects) : ∃ mounts, mountsOf input c = .ok mounts ∧
      objects.filterMap KubeObject.template? = [template input env allocations c mounts] := by
  obtain ⟨mounts, mounted, ok⟩ := bind_ok ok
  cases ok
  refine ⟨mounts, mounted, ?_⟩
  cases type : c.type <;> cases ports : c.ports <;>
    simp [renderWorkload, type, template, runs, KubeObject.template?]

theorem templates_each {input : DeployCatalogEntryInput} {objects : List (List KubeObject)}
    (ok : Forall₂ (fun c o => renderComponent input env allocations c = .ok o) components objects) :
    Forall₂ (fun c t => ∃ mounts, mountsOf input c = .ok mounts ∧ t = template input env allocations c mounts)
      components (objects.flatten.filterMap KubeObject.template?) := by
  induction ok with
  | nil => exact .nil
  | cons head _ ih =>
    obtain ⟨mounts, mounted, own⟩ := renderComponent_ok head
    rw [flatten_cons, filterMap_append, own]
    exact .cons ⟨mounts, mounted, rfl⟩ ih

structure Rendering (localeBefore : String → String → Bool) (input : DeployCatalogEntryInput)
    (objects : List KubeObject) (env : List (String × String)) (allocations : Record AllocationResult)
    (parts : List (List KubeObject)) : Prop where
  built : buildEnvVars input.fixedEnvVars input.configuration input.deploymentName
    (input.components.map DeployComponentInput.name) input.configurableEnvKeys = .ok env
  allocated : allocateResources localeBefore input.cpuRequest input.memoryRequest input.components =
    .ok allocations
  rendered : input.components.mapM (renderComponent input (withTimezone input.timezone env) allocations) = .ok parts
  objects : objects = parts.flatten ++ deployFirewallNetworkPolicy input

theorem rendering_of_ok {input : DeployCatalogEntryInput} (ok : deployCatalogEntry localeBefore input = .ok objects) :
    ∃ env allocations parts, Rendering localeBefore input objects env allocations parts := by
  obtain ⟨env, built, ok⟩ := bind_ok ok
  obtain ⟨allocations, allocated, ok⟩ := bind_ok ok
  obtain ⟨parts, rendered, ok⟩ := bind_ok ok
  cases ok
  exact ⟨env, allocations, parts, built, allocated, rendered, rfl⟩

theorem Rendering.ok {input : DeployCatalogEntryInput}
    (r : Rendering localeBefore input objects env allocations parts) :
    deployCatalogEntry localeBefore input = .ok objects := by
  unfold deployCatalogEntry
  rw [r.built, r.objects]
  simp only [bind, Except.bind]
  rw [r.allocated]
  dsimp only
  rw [r.rendered]
  rfl

theorem withTimezone_iff {timezone : Option String} :
    withTimezone timezone env = env ↔ given timezone = none ∨ "TZ" ∈ env.map Prod.fst := by
  unfold withTimezone
  cases given timezone with
  | none => simp
  | some tz =>
    by_cases own : "TZ" ∈ env.map Prod.fst
    · have there : env.any (fun e => e.1 == "TZ") = true := by
        obtain ⟨e, mem, same⟩ := mem_map.mp own
        exact any_eq_true.mpr ⟨e, mem, beq_iff_eq.mpr same⟩
      simp
    have absent : env.any (fun e => e.1 == "TZ") = false := by
      refine Bool.eq_false_iff.mpr ?_
      intro some
      obtain ⟨e, mem, same⟩ := any_eq_true.mp some
      exact own (mem_map.mpr ⟨e, mem, beq_iff_eq.mp same⟩)
    simp

theorem keys_each {f : String × String → Except String String} {raw : List (String × String)}
    (each : Forall₂ (fun e r => (f e).map (e.1, ·) = .ok r) raw env) : env.map Prod.fst = raw.map Prod.fst := by
  induction each with
  | nil => rfl
  | cons head _ ih =>
    obtain ⟨text, _, rfl⟩ := map_ok head
    rw [map_cons, map_cons, ih]

theorem environment_keys {input : DeployCatalogEntryInput}
    (built : buildEnvVars input.fixedEnvVars input.configuration input.deploymentName
      (input.components.map DeployComponentInput.name) input.configurableEnvKeys = .ok env) :
    env.map Prod.fst = (environment input).keys := keys_each (mapM_ok built)

theorem passwordReset_iff {input : DeployCatalogEntryInput} {env : List (String × String)} :
    passwordResetContainer input env = none ↔ ¬ ResetsPassword input := by
  unfold passwordResetContainer ResetsPassword
  cases reuse : input.reuseExistingData with
  | false => simp
  | true =>
    cases code : given input.catalogCode with
    | none => simp
    | some catalogCode =>
      cases key : given input.passwordEnvVar with
      | none => simp
      | some passwordEnvVar =>
        have named : passwordEnvVar ≠ "" := by
          intro empty
          simp [given, empty] at key
        simp [buildPasswordResetInitContainer, named]

def bareTemplate (input : DeployCatalogEntryInput) (pod : PodTemplate) : PodTemplate :=
  { pod with
    annotations := buildFirewallAnnotations input.firewall
    nodeSelector := none
    preferredNode := none }

theorem deploymentTemplate_bare {input : DeployCatalogEntryInput} {pod : PodTemplate}
    (node : given input.nodeName = none) (quiet : ¬ ResetsPassword input) :
    deploymentTemplate input env pod = bareTemplate input pod := by
  have reset : passwordResetContainer input env = none := passwordReset_iff.mpr quiet
  simp only [deploymentTemplate, node, reset, ite_self]
  rfl

theorem plain_quiet (input : DeployCatalogEntryInput) : ¬ ResetsPassword (plain input) := by
  intro resets
  cases resets.1

theorem renderComponent_plain {input : DeployCatalogEntryInput}
    (stays : runs c = true → given input.nodeName = none ∧ ¬ ResetsPassword input) :
    renderComponent (plain input) env allocations c = renderComponent input env allocations c := by
  have workload : ∀ name labels pod, renderWorkload (plain input) env c name labels pod =
      renderWorkload input env c name labels pod := by
    intro name labels pod
    unfold renderWorkload
    cases type : c.type with
    | cronjob | job => rfl
    | deployment | statefulset =>
      obtain ⟨node, quiet⟩ := stays (by simp [runs, type])
      rw [deploymentTemplate_bare node quiet]
      rfl
  unfold renderComponent
  simp only [workload]
  rfl

theorem template_env (input : DeployCatalogEntryInput) (env : List (String × String))
    (allocations : Record AllocationResult) (c : DeployComponentInput) (mounts : List VolumeMount) :
    (template input env allocations c mounts).container.env = env := by
  unfold template
  split <;> rfl

section

variable {input : DeployCatalogEntryInput}

theorem template_plain {env' : List (String × String)} {mounts : List VolumeMount}
    (same : template (plain input) env allocations c mounts = template input env' allocations c mounts) :
    env = env' ∧ (runs c = true → given input.nodeName = none ∧ ¬ ResetsPassword input) := by
  have envs := congrArg (fun t => t.container.env) same
  simp only [template_env] at envs
  refine ⟨envs, ?_⟩
  intro running
  simp only [template, running, if_true] at same
  rw [deploymentTemplate_bare rfl (plain_quiet input)] at same
  constructor
  · have selector := congrArg PodTemplate.nodeSelector same
    have preferred := congrArg PodTemplate.preferredNode same
    simp only [deploymentTemplate] at selector preferred
    split at selector
    · rename_i ha
      rw [if_pos ha] at preferred
      exact preferred.symm
    · exact selector.symm
  · have containers := congrArg (fun t => t.initContainers.length) same
    simp only [bareTemplate, deploymentTemplate, podTemplate] at containers
    refine (@passwordReset_iff input env').mp ?_
    cases reset : passwordResetContainer input env' with
    | none => rfl
    | some container =>
      rw [reset] at containers
      simp at containers

theorem plain_same_iff (some : input.components ≠ []) (ok : deployCatalogEntry localeBefore input = .ok objects) :
    deployCatalogEntry localeBefore (plain input) = .ok objects ↔ TimezoneStays input ∧ PodsStay input := by
  obtain ⟨env, allocations, parts, r⟩ := rendering_of_ok ok
  have keys := environment_keys r.built
  constructor
  · intro again
    obtain ⟨env', allocations', parts', r'⟩ := rendering_of_ok again
    cases Except.ok.inj (r.built.symm.trans r'.built)
    cases Except.ok.inj (r.allocated.symm.trans r'.allocated)
    have flat : parts.flatten = parts'.flatten := append_cancel_right (r.objects.symm.trans r'.objects)
    have first := templates_each (mapM_ok r.rendered)
    have second := templates_each (mapM_ok r'.rendered)
    rw [← flat] at second
    have each : ∀ c ∈ input.components, env = withTimezone input.timezone env ∧
        (runs c = true → given input.nodeName = none ∧ ¬ ResetsPassword input) := by
      intro c mem
      obtain ⟨t, _, ⟨mounts, mounted, own⟩, mounts', mounted', own'⟩ := forall₂_both first second c mem
      cases Except.ok.inj (mounted.symm.trans mounted')
      exact template_plain (own'.symm.trans own)
    obtain ⟨c, rest, components⟩ := exists_cons_of_ne_nil some
    have head := each c (by simp [components])
    refine ⟨?_, fun c mem => (each c mem).2⟩
    have stays := withTimezone_iff.mp head.1.symm
    rw [keys] at stays
    exact stays
  · intro ⟨zone, pods⟩
    have same : withTimezone input.timezone env = env := by
      refine withTimezone_iff.mpr ?_
      rw [keys]
      exact zone
    have rendered := r.rendered
    rw [same] at rendered
    have again : Rendering localeBefore (plain input) objects env allocations parts := by
      refine ⟨r.built, r.allocated, ?_, r.objects⟩
      rw [← rendered]
      exact mapM_congr (fun c mem => renderComponent_plain (pods c mem))
    exact again.ok

theorem renderComponent_down (ok : renderComponent input env allocations c = .ok objects) :
    (∀ o ∈ objects, o.starts jobs = false) ↔ staysDown input jobs c = true := by
  obtain ⟨mounts, _, ok⟩ := bind_ok ok
  cases ok
  cases type : c.type <;> cases ports : c.ports <;>
    simp [renderWorkload, staysDown, type, KubeObject.starts]

theorem parts_down (ok : Forall₂ (fun c o => renderComponent input env allocations c = .ok o) components parts) :
    (∀ o ∈ parts.flatten, o.starts jobs = false) ↔ ∀ c ∈ components, staysDown input jobs c = true := by
  induction ok with
  | nil => simp
  | cons head _ ih =>
    simp only [flatten_cons, forall_mem_append, forall_mem_cons, renderComponent_down head, ih]

end

theorem policy_down (input : DeployCatalogEntryInput) (jobs : String → Bool) :
    ∀ o ∈ deployFirewallNetworkPolicy input, o.starts jobs = false := by
  unfold deployFirewallNetworkPolicy
  split <;> simp [KubeObject.starts]

theorem down_iff {localeBefore : String → String → Bool} {input : DeployCatalogEntryInput}
    {jobs : String → Bool} {objects : List KubeObject} (ok : deployCatalogEntry localeBefore input = .ok objects) :
    (∀ o ∈ objects, o.starts jobs = false) ↔ ∀ c ∈ input.components, staysDown input jobs c = true := by
  obtain ⟨env, allocations, parts, r⟩ := rendering_of_ok ok
  rw [r.objects, forall_mem_append, parts_down (mapM_ok r.rendered)]
  exact and_iff_left (policy_down input jobs)

theorem resolveComponents_some (entry : CatalogEntry) (versionComponents : Option (List VersionComponent)) :
    resolveComponents entry versionComponents ≠ [] := by
  unfold resolveComponents
  split
  · simp
  rename_i comps some
  intro none
  exact some (map_eq_nil_iff.mp none)

def unpinned : Tenant := ⟨"tenant-a", none, none, some .localDisk, .active⟩

def pinned : Tenant := ⟨"tenant-a", some "Europe/Vienna", some "worker-1", some .localDisk, .active⟩

def before (a b : String) : Bool := decide (a < b)

/- where the pods may run, and what time zone they have -/
def whereabouts (objects : List KubeObject) : List (Option String × Option String) :=
  (objects.filterMap KubeObject.template?).map (fun t => (t.nodeSelector, t.container.env.lookup "TZ"))

end HostingPlatform.Deployments
