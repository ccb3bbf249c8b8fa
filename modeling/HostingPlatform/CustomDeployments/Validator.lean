import HostingPlatform.CustomDeployments.Schema
import HostingPlatform.Cycles
import HostingPlatform.Diagnosis

/-! The semantic validator of specs: references between their parts, cycles, names of the
resources to come. -/
namespace HostingPlatform.CustomDeployments

open List Js Cycles

inductive CallerRole where
  | superAdmin | admin | tenantAdmin | tenantUser
  deriving DecidableEq

structure ValidatorContext where
  callerRole : CallerRole
  (warnUnpinnedTags singleServiceOnly : Bool)
  deploymentName : Option String

structure ValidationResult where
  ok : Bool
  issues : List Issue

def maxIngressEligiblePortsWarn : Nat := 5

def maxDeploymentNameWithServices : Nat := 47

def isAdminRole (role : CallerRole) : Bool := role == .superAdmin || role == .admin

def require (rule : Bool) (issue : Issue) : List Issue := if rule then [] else [issue]

def errorIssue (code path message : String) : Issue := { severity := .error, code, path, message }

def errorWithHint (code path message hint : String) : Issue :=
  { severity := .error, code, path, message, hint := some hint }

def versionIssues (spec : Spec) : List Issue :=
  let specVersion := spec.specVersion
  require (specVersion == customSpecVersion) (errorIssue "SPEC_VERSION_UNSUPPORTED" "specVersion"
    s!"Unsupported customSpec specVersion {specVersion}; this server understands {customSpecVersion}.")

def countIssues (spec : Spec) (ctx : ValidatorContext) : List Issue :=
  require (!ctx.singleServiceOnly || spec.services.keys.length == 1)
    (errorWithHint "COMPOSE_NOT_SUPPORTED_YET" "services"
      "Multi-service stacks (compose) are not supported in this release; submit one service at a time."
      "Use the compose YAML editor in the next release, or split the stack into individual deployments now.")

def runsAsRoot (svc : Service) : Bool := svc.runAsUser == some 0 || svc.runAsGroup == some 0

def rootIssues (spec : Spec) (entry : String × Service) : List Issue :=
  let name := entry.1
  require (!runsAsRoot entry.2 || spec.allowRoot)
    (errorWithHint "ROOT_REQUIRES_ALLOW_ROOT" s!"services.{name}.runAsUser"
      "Service declares runAsUser:0 or runAsGroup:0 but allowRoot is not set; admin override required."
      "Ask an admin to set allowRoot on this deployment, or pick a non-zero uid/gid.")

def allowRootIssues (spec : Spec) (ctx : ValidatorContext) : List Issue :=
  require (!spec.allowRoot || isAdminRole ctx.callerRole)
    (errorIssue "ALLOW_ROOT_REQUIRES_ADMIN" "allowRoot" "allowRoot can only be set by an admin.")

def configMapNames (spec : Spec) : List String := spec.configMaps.map InlineFile.name

def secretNames (spec : Spec) : List String := spec.secrets.map InlineFile.name

def mountIssues (spec : Spec) (name : String) (vm : VolumeMount) : List Issue :=
  let ref := vm.name
  match vm.kind with
  | .configMap =>
    require ((configMapNames spec).contains ref)
      (errorWithHint "CONFIGMAP_NOT_DECLARED" s!"services.{name}.volumeMounts"
        s!"volumeMount (configMap) references undeclared configMap '{ref}'."
        s!"Add an entry under top-level configs.{ref}.")
  | .secret =>
    require ((secretNames spec).contains ref)
      (errorWithHint "SECRET_NOT_DECLARED" s!"services.{name}.volumeMounts"
        s!"volumeMount (secret) references undeclared secret '{ref}'."
        s!"Add an entry under top-level secrets.{ref}.")
  | .volume =>
    require (spec.volumes.keys.contains ref)
      (errorWithHint "VOLUME_NOT_DECLARED" s!"services.{name}.volumeMounts"
        s!"volumeMount references undeclared volume '{ref}'."
        s!"Add an entry under top-level volumes.{ref}.")

/- a reference that is left out or empty is none -/
def declaredIn (names : List String) (ref : Option String) : Bool :=
  ref.all (fun ref => ref == "" || names.contains ref)

def envIssues (spec : Spec) (name : String) (e : Env) : List Issue :=
  let env := e.name
  let secret := e.valueFromSecret.getD ""
  let configMap := e.valueFromConfigMap.getD ""
  require (declaredIn (secretNames spec) e.valueFromSecret)
      (errorIssue "ENV_SECRET_NOT_DECLARED" s!"services.{name}.env"
        s!"Env '{env}' references undeclared secret '{secret}'.") ++
    require (declaredIn (configMapNames spec) e.valueFromConfigMap)
      (errorIssue "ENV_CONFIGMAP_NOT_DECLARED" s!"services.{name}.env"
        s!"Env '{env}' references undeclared configMap '{configMap}'.")

def dependsOnIssues (spec : Spec) (name dep : String) : List Issue :=
  require (spec.services.keys.contains dep)
      (errorIssue "DEPENDS_ON_UNKNOWN_SERVICE" s!"services.{name}.dependsOn"
        s!"dependsOn references undeclared service '{dep}'.") ++
    require (dep != name)
      (errorIssue "DEPENDS_ON_SELF" s!"services.{name}.dependsOn"
        "A service cannot depend on itself.")

def duplicateIssues (issue : String → Issue) (seen : List String) : List String → List Issue
  | [] => []
  | n :: rest => require (!seen.contains n) (issue n) ++ duplicateIssues issue (n :: seen) rest

def portNameIssues (name : String) (svc : Service) : List Issue :=
  duplicateIssues (fun port => errorIssue "PORT_NAME_DUPLICATE" s!"services.{name}.ports"
    s!"Duplicate port name '{port}' within service '{name}'.") [] (svc.ports.map Port.name)

/- the quantity's number and unit -/
def quantity (qty : String) : Option (Number × String) :=
  match decimalAt qty.toList with
  | some (whole, fraction, unit) =>
    if unit = [] ∨ String.ofList unit ∈ quantityUnits then
      some (parseFloat whole fraction, String.ofList unit)
    else none
  | none => none

def cpuToMillis (qty : String) : Number :=
  match quantity qty with
  | some (n, "m") => n
  | some (n, "") => n.mul 1000
  | _ => .nan

def memoryFactor : String → Option Number
  | "k" => some 1000
  | "M" => some 1000000
  | "G" => some 1000000000
  | "T" => some 1000000000000
  | "Ki" => some 1024
  | "Mi" => some 1048576
  | "Gi" => some 1073741824
  | "Ti" => some 1099511627776
  | _ => none

def memToBytes (qty : String) : Number :=
  match quantity qty with
  | some (n, "") => n
  | some (n, unit) => ((memoryFactor unit).map n.mul).getD .nan
  | none => .nan

def limitAtLeastRequest (r l : Number) : Bool := !r.isFinite || !l.isFinite || Number.le r l

def cpuLimitAtLeastRequest (request limit : String) : Bool :=
  limitAtLeastRequest (cpuToMillis request) (cpuToMillis limit)

def memoryLimitAtLeastRequest (request limit : String) : Bool :=
  limitAtLeastRequest (memToBytes request) (memToBytes limit)

def resourceIssues (name : String) (r : Resources) : List Issue :=
  let cpuRequest := r.cpuRequest
  let cpuLimit := r.cpuLimit.getD ""
  let memoryRequest := r.memoryRequest
  let memoryLimit := r.memoryLimit.getD ""
  require (cpuLimit == "" || cpuLimitAtLeastRequest cpuRequest cpuLimit)
      (errorIssue "CPU_LIMIT_BELOW_REQUEST" s!"services.{name}.resources.cpuLimit"
        s!"cpuLimit ({cpuLimit}) must be greater than or equal to cpuRequest ({cpuRequest}).") ++
    require (memoryLimit == "" || memoryLimitAtLeastRequest memoryRequest memoryLimit)
      (errorIssue "MEMORY_LIMIT_BELOW_REQUEST" s!"services.{name}.resources.memoryLimit"
        s!"memoryLimit ({memoryLimit}) must be greater than or equal to memoryRequest ({memoryRequest}).")

def tagIssues (ctx : ValidatorContext) (name : String) (svc : Service) : List Issue :=
  let image := svc.image
  require (!ctx.warnUnpinnedTags || (parseImageReference image).all isPinnedReference)
    { severity := .warning
      code := "UNPINNED_TAG_ADVISORY"
      path := s!"services.{name}.image"
      message := s!"Image '{image}' is unpinned (no version tag or :latest). Pulled image content can change without your knowledge."
      hint := some "Consider pinning to a specific tag (`nginx:1.27.3`) or digest (`nginx@sha256:…`)." }

def serviceIssues (spec : Spec) (ctx : ValidatorContext) (entry : String × Service) : List Issue :=
  let (name, svc) := entry
  svc.volumeMounts.flatMap (mountIssues spec name) ++ svc.env.flatMap (envIssues spec name) ++
    svc.dependsOn.flatMap (dependsOnIssues spec name) ++ portNameIssues name svc ++
    resourceIssues name svc.resources ++ tagIssues ctx name svc

def dependencies (spec : Spec) (name : String) : List String :=
  (((spec.services.get name).map Service.dependsOn).getD []).filter spec.services.keys.contains

/-- A search takes one turn for each service and one to meet the first of them again. -/
def hasCycle (spec : Spec) (start : String) : Option (List String) :=
  findCycle (dependencies spec) (spec.services.keys.length + 1) [] start

def cycleIssues (spec : Spec) : List Issue :=
  match spec.services.keys.findSome? (hasCycle spec) with
  | none => []
  | some path =>
    let first := path.headD ""
    let nodes := " → ".intercalate path
    [errorIssue "DEPENDS_ON_CYCLE" s!"services.{first}.dependsOn"
      s!"dependsOn forms a cycle: {nodes} → {first}"]

def exposesPorts (svc : Service) : Bool := svc.ports.any Port.exposeAsService

def deploymentNameIssues (name : String) : List Issue :=
  let long := length name
  require (long ≤ maxDeploymentNameWithServices)
    (errorWithHint "DEPLOYMENT_NAME_TOO_LONG_FOR_SERVICE" "name"
      s!"Deployment name is {long} chars; k8s Service names ({name}-<port>) would exceed the 63-char DNS label limit. Use a name ≤ {maxDeploymentNameWithServices} chars."
      "Shorten the deployment name, or set `exposeAsService: false` on the ports.")

def serviceNameIssues (name : String) (entry : String × Service) : List Issue :=
  let svcName := entry.1
  let long := length name
  let svcLong := length svcName
  let remaining : Int := 63 - 1 - 15 - 1 - long
  require (!exposesPorts entry.2 || long + 1 + svcLong + 1 + 15 ≤ 63)
    (errorWithHint "MULTI_SERVICE_NAME_TOO_LONG" s!"services.{svcName}"
      s!"Deployment name '{name}' ({long} chars) combined with service '{svcName}' ({svcLong} chars) produces a k8s Service name > 63 chars (DNS label limit)."
      (if 0 < remaining then
        s!"Either shorten the deployment name or keep each service name ≤ {remaining} chars."
      else "The deployment name is too long for multi-service stacks; pick a shorter deployment name."))

def nameIssues (spec : Spec) (ctx : ValidatorContext) : List Issue :=
  match ctx.deploymentName with
  | none => []
  | some name =>
    if spec.services.values.any exposesPorts then
      if ctx.singleServiceOnly then deploymentNameIssues name
      else spec.services.entries.flatMap (serviceNameIssues name)
    else []

def ingressEligibleCount (spec : Spec) : Nat :=
  (spec.services.values.flatMap (fun svc =>
    svc.ports.filter (fun p => p.ingressEligible && p.exposeAsService))).length

def ingressIssues (spec : Spec) : List Issue :=
  let count := ingressEligibleCount spec
  require (count ≤ maxIngressEligiblePortsWarn)
    { severity := .warning
      code := "MANY_INGRESS_ELIGIBLE_PORTS"
      path := "services"
      message := s!"{count} ports are marked ingressEligible — verify all are intended to be externally reachable via Routes."
      hint := some "Typically only HTTP/HTTPS ports (80, 443, or app-specific) need ingressEligible:true." }

def assertUniqueNames (names : List String) (path code : String) : List Issue :=
  duplicateIssues (fun n => errorIssue code path s!"Duplicate name '{n}'.") [] names

def validationIssues (spec : Spec) (ctx : ValidatorContext) : List Issue :=
  versionIssues spec ++ countIssues spec ctx ++ spec.services.entries.flatMap (rootIssues spec) ++
    allowRootIssues spec ctx ++ spec.services.entries.flatMap (serviceIssues spec ctx) ++
    cycleIssues spec ++ nameIssues spec ctx ++ ingressIssues spec ++
    assertUniqueNames (configMapNames spec) "configMaps" "CONFIGMAP_NAME_DUPLICATE" ++
    assertUniqueNames (secretNames spec) "secrets" "SECRET_NAME_DUPLICATE"

def validateCustomSpec (spec : Spec) (ctx : ValidatorContext) : ValidationResult :=
  let issues := validationIssues spec ctx
  ⟨!issues.any isError, issues⟩

open Diagnosis

def declaredNames (spec : Spec) : MountKind → List String
  | .volume => spec.volumes.keys
  | .configMap => configMapNames spec
  | .secret => secretNames spec

/-- The names of the resources to come fit into a DNS label. -/
def NamesFit (spec : Spec) (singleServiceOnly : Bool) (name : String) : Prop :=
  (∃ svc ∈ spec.services.values, exposesPorts svc = true) →
    if singleServiceOnly then length name ≤ maxDeploymentNameWithServices
    else ∀ entry ∈ spec.services.entries, exposesPorts entry.2 = true →
      length name + 1 + length entry.1 + 1 + 15 ≤ 63

structure AcceptedService (spec : Spec) (entry : String × Service) : Prop where
  mounts : ∀ vm ∈ entry.2.volumeMounts, vm.name ∈ declaredNames spec vm.kind
  env : ∀ e ∈ entry.2.env, declaredIn (secretNames spec) e.valueFromSecret = true ∧
    declaredIn (configMapNames spec) e.valueFromConfigMap = true
  dependsOn : ∀ dep ∈ entry.2.dependsOn, dep ∈ spec.services.keys ∧ dep ≠ entry.1
  ports : (entry.2.ports.map Port.name).Nodup
  cpu : ∀ limit, entry.2.resources.cpuLimit = some limit → limit ≠ "" →
    cpuLimitAtLeastRequest entry.2.resources.cpuRequest limit = true
  memory : ∀ limit, entry.2.resources.memoryLimit = some limit → limit ≠ "" →
    memoryLimitAtLeastRequest entry.2.resources.memoryRequest limit = true

structure Accepted (spec : Spec) (ctx : ValidatorContext) : Prop where
  version : spec.specVersion = customSpecVersion
  single : ctx.singleServiceOnly = true → spec.services.keys.length = 1
  root : ∀ entry ∈ spec.services.entries, runsAsRoot entry.2 = true → spec.allowRoot = true
  admin : spec.allowRoot = true → isAdminRole ctx.callerRole = true
  services : ∀ entry ∈ spec.services.entries, AcceptedService spec entry
  acyclic : ∀ name, ¬ Relation.TransGen (Edge (dependencies spec)) name name
  names : ∀ name, ctx.deploymentName = some name → NamesFit spec ctx.singleServiceOnly name
  configMaps : (configMapNames spec).Nodup
  secrets : (secretNames spec).Nodup

variable {rule : Bool} {code path : String}

@[simp] theorem clean_require {message : String} :
    clean isError (require rule (errorIssue code path message)) = rule := by
  cases rule <;> rfl

@[simp] theorem clean_require_hint {message hint : String} :
    clean isError (require rule (errorWithHint code path message hint)) = rule := by
  cases rule <;> rfl

theorem clean_advise {issue : Issue} (advice : isError issue = false) : clean isError (require rule issue) = true := by
  cases rule <;> simp [require, clean, advice]

theorem clean_flatMap {A : Type} (f : A → List Issue) (l : List A) :
    clean isError (l.flatMap f) = l.all (fun a => clean isError (f a)) := by
  unfold clean
  rw [all_flatMap]

theorem clean_duplicates {message : String → String} (names seen : List String) :
    clean isError (duplicateIssues (fun n => errorIssue code path (message n)) seen names) = true ↔
      names.Nodup ∧ ∀ n ∈ names, n ∉ seen := by
  induction names generalizing seen with
  | nil => simp [duplicateIssues, clean]
  | cons n rest ih =>
    rw [duplicateIssues, clean_append, clean_require, Bool.and_eq_true, ih]
    simp only [Bool.not_eq_true', contains_eq_mem, decide_eq_false_iff_not, mem_cons,
      nodup_cons, forall_eq_or_imp, not_or]
    constructor
    · rintro ⟨fresh, nodup, apart⟩
      exact ⟨⟨fun mem => (apart n mem).1 rfl, nodup⟩, fresh, fun m mem => (apart m mem).2⟩
    rintro ⟨⟨once, nodup⟩, fresh, apart⟩
    refine ⟨fresh, nodup, fun m mem => ⟨?_, apart m mem⟩⟩
    rintro rfl
    exact once mem

theorem clean_unique {message : String → String} (names : List String) :
    clean isError (duplicateIssues (fun n => errorIssue code path (message n)) [] names) = true ↔ names.Nodup := by
  rw [clean_duplicates]
  exact and_iff_left (fun _ _ => not_mem_nil)

theorem ok_eq_clean (spec : Spec) (ctx : ValidatorContext) :
    (validateCustomSpec spec ctx).ok = clean isError (validateCustomSpec spec ctx).issues := by
  simp [validateCustomSpec, clean, not_any_eq_all_not]

theorem clean_mounts (spec : Spec) (name : String) (vm : VolumeMount) :
    clean isError (mountIssues spec name vm) = true ↔ vm.name ∈ declaredNames spec vm.kind := by
  unfold mountIssues declaredNames
  cases vm.kind <;> simp

theorem clean_env (spec : Spec) (name : String) (e : Env) : clean isError (envIssues spec name e) = true ↔
      declaredIn (secretNames spec) e.valueFromSecret = true ∧
        declaredIn (configMapNames spec) e.valueFromConfigMap = true := by
  simp [envIssues, clean_append, clean_require]

theorem clean_dependsOn (spec : Spec) (name dep : String) :
    clean isError (dependsOnIssues spec name dep) = true ↔ dep ∈ spec.services.keys ∧ dep ≠ name := by
  simp [dependsOnIssues, clean_append, contains_iff_mem]

theorem limit_iff {limit : Option String} {p : String → Bool} : (limit.getD "" == "" || p (limit.getD "")) = true ↔
      ∀ text, limit = some text → text ≠ "" → p text = true := by
  cases limit with
  | none => simp
  | some text => simp [or_iff_not_imp_left]

theorem clean_service (spec : Spec) (ctx : ValidatorContext) (entry : String × Service) :
    clean isError (serviceIssues spec ctx entry) = true ↔ AcceptedService spec entry := by
  have advice : clean isError (tagIssues ctx entry.1 entry.2) = true := clean_advise rfl
  unfold serviceIssues resourceIssues portNameIssues
  simp only [clean_append, advice, clean_flatMap, clean_require, Bool.and_true, Bool.and_eq_true,
    all_eq_true, clean_mounts, clean_env, clean_dependsOn, clean_unique, limit_iff]
  constructor
  · rintro ⟨⟨⟨⟨mounts, env⟩, dependsOn⟩, ports⟩, cpu, memory⟩
    exact ⟨mounts, env, dependsOn, ports, cpu, memory⟩
  · rintro ⟨mounts, env, dependsOn, ports, cpu, memory⟩
    exact ⟨⟨⟨⟨mounts, env⟩, dependsOn⟩, ports⟩, cpu, memory⟩

theorem clean_cycles (spec : Spec) : clean isError (cycleIssues spec) = true ↔
    ∀ name, ¬ Relation.TransGen (Edge (dependencies spec)) name name := by
  have closed : ∀ a, ∀ b ∈ dependencies spec a, b ∈ spec.services.keys := by
    intro a b mem
    exact contains_iff_mem.mp (mem_filter.mp mem).2
  rw [← exists_findCycle_iff closed]
  unfold cycleIssues
  split
  · rename_i none
    exact iff_of_true rfl (findSome?_eq_none_iff.mp none)
  rename_i path found
  refine iff_of_false (by simp [clean, errorIssue, isError]) ?_
  intro none
  have missing : spec.services.keys.findSome? (hasCycle spec) = .none := findSome?_eq_none_iff.mpr none
  rw [missing] at found
  contradiction

theorem clean_names (spec : Spec) (ctx : ValidatorContext) : clean isError (nameIssues spec ctx) = true ↔
      ∀ name, ctx.deploymentName = some name → NamesFit spec ctx.singleServiceOnly name := by
  unfold nameIssues
  cases ctx.deploymentName with
  | none => exact iff_of_true rfl nofun
  | some name =>
    simp only [Option.some.injEq, forall_eq', NamesFit]
    by_cases exposed : spec.services.values.any exposesPorts = true
    · have some : ∃ svc ∈ spec.services.values, exposesPorts svc = true := any_eq_true.mp exposed
      rw [if_pos exposed, forall_prop_of_true some]
      split
      · simp [deploymentNameIssues, clean_require_hint]
      simp only [clean_flatMap, serviceNameIssues, clean_require_hint, all_eq_true,
        Bool.or_eq_true, Bool.not_eq_true', decide_eq_true_eq, or_iff_not_imp_left,
        Bool.not_eq_false]
    · have hidden : ¬ ∃ svc ∈ spec.services.values, exposesPorts svc = true :=
        fun some => exposed (any_eq_true.mpr some)
      rw [if_neg exposed]
      exact iff_of_true rfl (fun some => absurd some hidden)

theorem implies_iff {p q : Bool} : (!p || q) = true ↔ (p = true → q = true) := by
  cases p <;> simp

theorem validateCustomSpec_ok_iff (spec : Spec) (ctx : ValidatorContext) :
    (validateCustomSpec spec ctx).ok = true ↔ Accepted spec ctx := by
  have advice : clean isError (ingressIssues spec) = true := clean_advise rfl
  rw [ok_eq_clean]
  simp only [validateCustomSpec, validationIssues, clean_append, versionIssues, countIssues,
    allowRootIssues, rootIssues, assertUniqueNames, clean_require, clean_require_hint,
    clean_flatMap, advice, Bool.and_true, Bool.and_eq_true, clean_cycles, clean_names, clean_unique,
    all_eq_true, clean_service, implies_iff, beq_iff_eq]
  constructor
  · rintro ⟨⟨⟨⟨⟨⟨⟨⟨version, single⟩, root⟩, admin⟩, services⟩, acyclic⟩, names⟩, configMaps⟩, secrets⟩
    exact ⟨version, single, root, admin, services, acyclic, names, configMaps, secrets⟩
  · rintro ⟨version, single, root, admin, services, acyclic, names, configMaps, secrets⟩
    exact ⟨⟨⟨⟨⟨⟨⟨⟨version, single⟩, root⟩, admin⟩, services⟩, acyclic⟩, names⟩, configMaps⟩, secrets⟩

end HostingPlatform.CustomDeployments
