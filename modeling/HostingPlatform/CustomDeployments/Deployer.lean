import HostingPlatform.CustomDeployments.ComposeService

/-! The objects that a custom deployment is rendered to, in the order in which they are applied. -/
namespace HostingPlatform.CustomDeployments

open List

def serviceResourceName (deploymentName serviceName : String) (serviceCount : Nat) : String :=
  if serviceCount ≤ 1 then deploymentName else deploymentName ++ "-" ++ serviceName

def renderConfigMapName (deploymentId : Nat) (key : String) : String :=
  s!"cd-{deploymentId}-cfg-{key}"

def renderSecretName (deploymentId : Nat) (key : String) : String :=
  s!"cd-{deploymentId}-sec-{key}"

/- what the objects say about themselves: names, the pods that they run or select, ports -/
inductive Resource where
  | configMap (name content : String)
  | secret (name content : String)
  | deployment (name app component : String) (replicas : Nat)
  | service (name app : String) (port : Port)

def applyDeployment (input : DeployCustomInput) (serviceName : String) (serviceCount : Nat) : Resource :=
  let name := serviceResourceName input.deploymentName serviceName serviceCount
  .deployment name name serviceName 1

def applyService (input : DeployCustomInput) (serviceName : String) (serviceCount : Nat) (port : Port) :
    Resource :=
  let owningDeploymentName := serviceResourceName input.deploymentName serviceName serviceCount
  .service (owningDeploymentName ++ "-" ++ port.name) owningDeploymentName port

def applyEntry (input : DeployCustomInput) (serviceCount : Nat) (entry : String × Service) :
    List Resource :=
  applyDeployment input entry.1 serviceCount ::
    (entry.2.ports.filter Port.exposeAsService).map (applyService input entry.1 serviceCount)

def deployCustomDeployment (input : DeployCustomInput) : Except String (List Resource) :=
  let serviceEntries := input.spec.services.entries
  if serviceEntries.isEmpty then .error "custom k8s-deployer: spec has no services"
  else
    .ok (input.spec.configMaps.map (fun cm =>
          .configMap (renderConfigMapName input.deploymentId cm.name) cm.content) ++
        input.spec.secrets.map (fun s =>
          .secret (renderSecretName input.deploymentId s.name) s.content) ++
        serviceEntries.flatMap (applyEntry input serviceEntries.length))

def Resource.deploymentName? : Resource → Option String
  | .deployment name _ _ _ => some name
  | _ => none

def Resource.serviceName? : Resource → Option String
  | .service name _ _ => some name
  | _ => none

def deploymentNames (input : DeployCustomInput) : List String :=
  input.spec.services.keys.map
    (fun name => serviceResourceName input.deploymentName name input.spec.services.keys.length)

def serviceNames (input : DeployCustomInput) (entry : String × Service) : List String :=
  (entry.2.ports.filter Port.exposeAsService).map (fun port =>
    serviceResourceName input.deploymentName entry.1 input.spec.services.keys.length ++ "-" ++ port.name)

theorem applyService_names (input : DeployCustomInput) (serviceName : String) (n : Nat) (ports : List Port) :
    (ports.map (applyService input serviceName n)).filterMap Resource.deploymentName? = [] ∧
      (ports.map (applyService input serviceName n)).filterMap Resource.serviceName? = ports.map (fun port =>
          serviceResourceName input.deploymentName serviceName n ++ "-" ++ port.name) := by
  induction ports with
  | nil => exact ⟨rfl, rfl⟩
  | cons port rest ih =>
    exact ⟨ih.1, congrArg (cons _) ih.2⟩

theorem applyEntry_names (input : DeployCustomInput) (n : Nat) (entry : String × Service) :
    (applyEntry input n entry).filterMap Resource.deploymentName? =
        [serviceResourceName input.deploymentName entry.1 n] ∧
      (applyEntry input n entry).filterMap Resource.serviceName? =
        (entry.2.ports.filter Port.exposeAsService).map (fun port =>
          serviceResourceName input.deploymentName entry.1 n ++ "-" ++ port.name) := by
  have ports := applyService_names input entry.1 n (entry.2.ports.filter Port.exposeAsService)
  exact ⟨congrArg (cons _) ports.1, ports.2⟩

theorem inlineFiles_names {make : InlineFile → Resource}
    (neither : ∀ f, (make f).deploymentName? = none ∧ (make f).serviceName? = none) (files : List InlineFile) :
    (files.map make).filterMap Resource.deploymentName? = [] ∧
      (files.map make).filterMap Resource.serviceName? = [] := by
  induction files with
  | nil => exact ⟨rfl, rfl⟩
  | cons f rest ih =>
    simp only [map_cons]
    rw [filterMap_cons_none (neither f).1, filterMap_cons_none (neither f).2]
    exact ih

variable {input : DeployCustomInput} {deploymentName serviceName : String} {n : Nat}

theorem deployCustomDeployment_names {resources : List Resource}
    (rendered : deployCustomDeployment input = .ok resources) :
    resources.filterMap Resource.deploymentName? = deploymentNames input ∧
      resources.filterMap Resource.serviceName? = input.spec.services.entries.flatMap (serviceNames input) := by
  unfold deployCustomDeployment at rendered
  dsimp only at rendered
  split at rendered
  · cases rendered
  cases rendered
  have maps := @inlineFiles_names (fun cm =>
    .configMap (renderConfigMapName input.deploymentId cm.name) cm.content) (fun _ => ⟨rfl, rfl⟩)
    input.spec.configMaps
  have secrets := @inlineFiles_names (fun s =>
    .secret (renderSecretName input.deploymentId s.name) s.content) (fun _ => ⟨rfl, rfl⟩)
    input.spec.secrets
  constructor
  · rw [filterMap_append, filterMap_append, maps.1, secrets.1, filterMap_flatMap]
    simp only [applyEntry_names, ← map_eq_flatMap]
    simp [deploymentNames, Js.Record.keys]
  rw [filterMap_append, filterMap_append, maps.2, secrets.2, filterMap_flatMap]
  have each : ∀ entry, serviceNames input entry =
      (applyEntry input input.spec.services.entries.length entry).filterMap Resource.serviceName? := by
    intro entry
    rw [(applyEntry_names input _ entry).2, serviceNames, Js.Record.keys, length_map]
  rw [nil_append, nil_append, ← funext each]

def webService : Service where
  image := "nginx:1.27.3"
  command := none
  entrypoint := none
  env := []
  ports := [⟨.finite 80, "http", "TCP", true, true⟩]
  volumeMounts := []
  resources := ⟨"100m", "128Mi", none, none⟩
  healthCheck := none
  restartPolicy := .always
  runAsUser := none
  runAsGroup := none
  workingDir := none
  readOnlyRootFilesystem := false
  tmpfs := []
  capAdd := []
  sysctls := none
  stopGracePeriodSeconds := none
  dependsOn := []
  labels := none

def stack (services : Js.Record Service) : Spec where
  specVersion := customSpecVersion
  sourceMode := .compose
  services := services
  volumes := .empty
  configMaps := []
  secrets := []
  allowRoot := false
  pullCredentialId := none

open Js

def staleTimeoutMs : Int := 60 * 60 * 1000

structure K8sDeployment where
  (replicas readyReplicas : Option Nat)

structure ContainerState where
  (reason message : Option String)

structure ContainerStatus where
  name : Option String
  (waiting terminated : Option ContainerState)
  ready : Option Bool
  restartCount : Option Nat

structure Pod where
  nodeName : Option String
  containerStatuses : List ContainerStatus

/- a namespace: its Deployments, and its pods by their label, if they can be listed -/
structure Cluster where
  deployments : String → Option K8sDeployment
  pods : String → Option (List Pod)

structure ReconciledRow where
  name : String
  status : DeploymentStatus
  statusMessage : Option String
  updatedAt : Int

structure ReconcileOutcome where
  status : DeploymentStatus
  (statusMessage node : Option String)

structure PodObservation where
  (node failureReason pendingReason : Option String)

def given : Option String → Option String
  | some "" => none
  | text => text

def observeContainer (seen : PodObservation) (cs : ContainerStatus) : PodObservation :=
  let name := cs.name.getD "container"
  let waiting := given (cs.waiting.bind ContainerState.reason)
  let terminated := given (cs.terminated.bind ContainerState.reason)
  let seen :=
    match waiting with
    | none => seen
    | some reason =>
      if includes reason "Err" || includes reason "BackOff" then
        let message := (cs.waiting.bind ContainerState.message).getD ""
        { seen with failureReason := some (trim s!"{name}: {reason} — {message}") }
      else if cs.ready != some true then { seen with pendingReason := some s!"{name}: {reason}" }
      else seen
  if terminated = some "OOMKilled" then
    let restarts := cs.restartCount.getD 0
    { seen with failureReason := some s!"{name}: OOMKilled (restart count {restarts})" }
  else seen

def observePod (seen : PodObservation) (pod : Pod) : PodObservation :=
  let node := (given seen.node).or (given pod.nodeName)
  pod.containerStatuses.foldl observeContainer { seen with node }

def readFirstPodObservation (cluster : Cluster) (deploymentName : String) : PodObservation :=
  match cluster.pods deploymentName with
  | none => ⟨none, none, none⟩
  | some pods => pods.foldl observePod ⟨none, none, none⟩

def missingOutcome (row : ReconciledRow) (now : Int) : ReconcileOutcome :=
  if row.status = .deploying ∨ row.status = .pending then
    if staleTimeoutMs < now - row.updatedAt then
      ⟨.failed, some "k8s Deployment was not created within 60 minutes.", none⟩
    else ⟨row.status, row.statusMessage, none⟩
  else ⟨.failed, some "k8s Deployment is missing.", none⟩

def pendingOutcome (row : ReconciledRow) (now : Int) (seen : PodObservation) : ReconcileOutcome :=
  if (row.status = .pending ∨ row.status = .deploying) ∧ staleTimeoutMs < now - row.updatedAt then
    let detail := seen.pendingReason.getD "no progress"
    ⟨.failed, some s!"Timed out after 60 minutes: {detail}", seen.node⟩
  else ⟨.pending, seen.pendingReason, seen.node⟩

def reconcileCustomRow (cluster : Cluster) (row : ReconciledRow) (now : Int) : ReconcileOutcome :=
  match cluster.deployments row.name with
  | none => missingOutcome row now
  | some k8sDeployment =>
    let ready := k8sDeployment.readyReplicas.getD 0
    let desired := k8sDeployment.replicas.getD 1
    let seen := readFirstPodObservation cluster row.name
    if desired ≤ ready ∧ 0 < desired then ⟨.running, none, seen.node⟩
    else
      match given seen.failureReason with
      | some reason => ⟨.failed, some reason, seen.node⟩
      | none => if desired = 0 then ⟨.stopped, none, seen.node⟩ else pendingOutcome row now seen

def K8sDeployment.AllReady (d : K8sDeployment) : Prop :=
  d.replicas.getD 1 ≤ d.readyReplicas.getD 0 ∧ 0 < d.replicas.getD 1

/-- The spec is rendered, and each Deployment of it is there with all its replicas ready. -/
def AllReady (cluster : Cluster) (input : DeployCustomInput) : Prop :=
  ∃ resources, deployCustomDeployment input = .ok resources ∧
    ∀ name ∈ resources.filterMap Resource.deploymentName?,
      ∃ d, cluster.deployments name = some d ∧ d.AllReady

/-- Whatever else the cluster holds. -/
def ReportsRunning (input : DeployCustomInput) (row : ReconciledRow) : Prop :=
  ∀ cluster now, AllReady cluster input → (reconcileCustomRow cluster row now).status = .running

theorem missing_not_running (row : ReconciledRow) (now : Int) : (missingOutcome row now).status ≠ .running := by
  unfold missingOutcome
  split
  · rename_i waiting
    split
    · exact nofun
    intro running
    rcases waiting with deploying | pending
    · exact absurd (deploying.symm.trans running) (by decide)
    · exact absurd (pending.symm.trans running) (by decide)
  · exact nofun

theorem serviceResourceName_single (single : n ≤ 1) :
    serviceResourceName deploymentName serviceName n = deploymentName := if_pos single

theorem serviceResourceName_ne (several : 1 < n) :
    serviceResourceName deploymentName serviceName n ≠ deploymentName := by
  rw [serviceResourceName, if_neg (Nat.not_le.mpr several)]
  intro same
  have lengths := congrArg String.length same
  simp only [String.length_append] at lengths
  have hyphen : "-".length = 1 := rfl
  omega

theorem allReady_single {cluster : Cluster} (single : input.spec.services.keys.length ≤ 1)
    (ready : AllReady cluster input) : ∃ d, cluster.deployments input.deploymentName = some d ∧ d.AllReady := by
  obtain ⟨resources, rendered, all⟩ := ready
  have names := (deployCustomDeployment_names rendered).1
  have some : input.spec.services.entries ≠ [] := by
    intro empty
    simp [deployCustomDeployment, empty] at rendered
  obtain ⟨entry, rest, entries⟩ := exists_cons_of_ne_nil some
  refine all input.deploymentName ?_
  rw [names]
  refine mem_map.mpr ⟨entry.1, ?_, serviceResourceName_single single⟩
  simp [Record.keys, entries]

/- every Deployment is there but those of one name -/
def without (name : String) : Cluster where
  deployments := fun n => if n = name then none else some ⟨some 1, some 1⟩
  pods := fun _ => some []

theorem allReady_without {input : DeployCustomInput} (several : 1 < input.spec.services.keys.length) :
    AllReady (without input.deploymentName) input := by
  have some : input.spec.services.entries.isEmpty = false := by
    cases entries : input.spec.services.entries with
    | nil => simp [Record.keys, entries] at several
    | cons entry rest => rfl
  obtain ⟨resources, rendered⟩ : ∃ resources, deployCustomDeployment input = .ok resources := by
    unfold deployCustomDeployment
    rw [if_neg (by rw [some]; exact Bool.false_ne_true)]
    exact ⟨_, rfl⟩
  refine ⟨resources, rendered, ?_⟩
  intro name mem
  rw [(deployCustomDeployment_names rendered).1] at mem
  obtain ⟨key, _, rfl⟩ := mem_map.mp mem
  exact ⟨⟨.some 1, .some 1⟩, if_neg (serviceResourceName_ne several), le_refl 1, Nat.one_pos⟩

/-- A custom deployment is reported as running whenever all that was rendered for it is ready
exactly when its spec has no second service. -/
theorem reports_running_iff (input : DeployCustomInput) (row : ReconciledRow) :
    ReportsRunning input { row with name := input.deploymentName } ↔ input.spec.services.keys.length ≤ 1 := by
  constructor
  · intro reports
    by_contra several
    have ready := allReady_without (Nat.not_le.mp several)
    have missing : (without input.deploymentName).deployments input.deploymentName = none := if_pos rfl
    have running := reports (without input.deploymentName) 0 ready
    rw [reconcileCustomRow, missing] at running
    exact missing_not_running _ 0 running
  · intro single cluster now ready
    obtain ⟨d, found, enough, positive⟩ := allReady_single single ready
    rw [reconcileCustomRow, found]
    dsimp only
    rw [if_pos ⟨enough, positive⟩]

def twoServices : Spec := stack ⟨[("web", webService), ("api", webService)], by decide⟩

def twoServicesInput : DeployCustomInput where
  deploymentId := 1
  deploymentName := "shop"
  namespace_ := "tenant-a"
  storageSubPath := "custom/shop"
  spec := twoServices
  hasPullCredential := false
  nodeName := none
  storageTier := "local"

/-- Both services of a spec that the schema and the validator accept are ready, and the status that
is reported is a failure. -/
theorem ready_stack_failed : customDeploymentSpecSchema twoServices = true ∧
      (validateCustomSpec twoServices ⟨.tenantAdmin, true, false, some "shop"⟩).ok = true ∧
      AllReady (without "shop") twoServicesInput ∧
      (reconcileCustomRow (without "shop") ⟨"shop", .running, none, 0⟩ 0).status = .failed := by
  refine ⟨by decide +kernel, by decide +kernel, ?_, rfl⟩
  exact @allReady_without twoServicesInput (by decide)

end HostingPlatform.CustomDeployments
