import HostingPlatform.Deployments.Rows
import HostingPlatform.Results

/-! The status of a deployment as a pass of the reconciler reads it from the cluster. -/
namespace HostingPlatform.Deployments

open Option List Js
open CustomDeployments (K8sDeployment staleTimeoutMs)

structure PodCondition where
  (type status message : Option String)

structure Waiting where
  (reason message : Option String)

structure Terminated where
  (reason message : Option String)
  exitCode : Option Int

structure ContainerStatus where
  waiting : Option Waiting
  terminated : Option Terminated

structure PodItem where
  (name nodeName phase : Option String)
  conditions : List PodCondition
  containerStatuses : List ContainerStatus

structure Event where
  (reason message kind objectName : Option String)

/-- What the API server answers for a namespace: a Deployment by its name, or that there is none; the
pods of a label; the events. Each call may fail. -/
structure Cluster where
  deployments : String → Except String (Option K8sDeployment)
  pods : String → Except String (List PodItem)
  events : Option (List Event)

inductive Phase where
  | running | stopped | starting | failed | notDeployed
  deriving DecidableEq

structure ComponentPodStatus where
  name : String
  phase : Phase
  (message nodeName : Option String)

/- the first occurrence of a text after which something is found -/
def findAfter {A : Type} (part : List Char) (find : List Char → Option A) : List Char → Option A
  | [] => none
  | c :: cs =>
    (if part.isPrefixOf (c :: cs) then find ((c :: cs).drop part.length) else none).or (findAfter part find cs)

/- `[^,]+=[^,]+` -/
def isPair (segment : List Char) : Bool := (segment.drop 1).dropLast.contains '='

/- `\s*([^,]+(?:,[^,]+(?:=)[^,]+)*)`, split at its commas; a blank is given back where no other
character would be left -/
def section_ (cs : List Char) : Option (List (List Char)) :=
  match (cs.dropWhile isWhite).splitOn ',' with
  | [] :: more => if (cs.takeWhile isWhite).isEmpty then none else some ([' '] :: more.takeWhile isPair)
  | first :: more => some (first :: more.takeWhile isPair)
  | [] => none

def addPair (out : Record String) (segment : List Char) : Record String :=
  match (segment.dropWhile isWhite).splitOn '=' with
  | (k :: ks) :: (v :: vs) :: _ => out.set (trim (String.ofList (k :: ks))) (trim (String.ofList (v :: vs)))
  | _ => out

def parseSection (label raw : String) : Record String :=
  ((findAfter (label ++ ":").toList section_ raw.toList).getD []).foldl addPair .empty

def quotaLabels : List (String × String) :=
  [("limits.cpu", "CPU limit"), ("limits.memory", "memory limit"), ("requests.cpu", "CPU request"),
    ("requests.memory", "memory request"), ("requests.storage", "storage request"),
    ("count/pods", "pod count"), ("count/services", "service count"),
    ("persistentvolumeclaims", "PVC count")]

def quotaPart (used limited : Record String) (entry : String × String) : String :=
  let label := (quotaLabels.lookup entry.1).getD entry.1
  let req := entry.2
  match given (some req), given (used.get entry.1), given (limited.get entry.1) with
  | some _, some cur, some lim => s!"{label}: requesting {req}, already using {cur} of {lim} limit"
  | some _, none, some lim => s!"{label}: requesting {req}, limit is {lim}"
  | _, _, _ => s!"{label}: {req}"

def formatQuotaExceededMessage (raw : String) : String :=
  let parts := (parseSection "requested" raw).entries.map
    (quotaPart (parseSection "used" raw) (parseSection "limited" raw))
  let detail := if parts.isEmpty then raw else "; ".intercalate parts
  s!"Quota exceeded — {detail}. Free up resources or upgrade the plan."

def waitingFailures : List String := ["CrashLoopBackOff", "ImagePullBackOff", "ErrImagePull"]

def terminatedFailures : List String := ["OOMKilled", "Error"]

def waitingFailure (waiting : Waiting) : Option String :=
  (waiting.reason.filter waitingFailures.contains).map (fun reason =>
    let message := waiting.message.getD ""
    trim s!"{reason}: {message}")

def terminatedFailure (terminated : Terminated) : Option String :=
  (terminated.reason.filter terminatedFailures.contains).map (fun reason =>
    let detail := (terminated.exitCode.map (fun code => s!"exit code {code}")).getD ""
    let parts := [reason, terminated.message.getD "", detail].filter (· != "")
    trim (": ".intercalate parts))

def containerFailure (cs : ContainerStatus) : Option String :=
  (cs.waiting.bind waitingFailure).or (cs.terminated.bind terminatedFailure)

def unschedulable (pod : PodItem) : Option String :=
  if pod.phase = some "Pending" ∧ pod.containerStatuses.isEmpty then
    given ((pod.conditions.find? (fun c => c.type == some "PodScheduled" && c.status == some "False")).bind
      PodCondition.message)
  else none

def podFailure (pod : PodItem) : Option String :=
  (pod.containerStatuses.findSome? containerFailure).or (unschedulable pod)

def messageOf (event : Option Event) : Option String := given (event.bind Event.message)

def replicaSetFailure (name : String) (events : List Event) : Option String :=
  (messageOf (events.find? (fun e => e.reason == some "FailedCreate" && e.kind == some "ReplicaSet" &&
    e.objectName.any (startsWith · name)))).map (fun msg =>
      if includes msg "exceeded quota" then formatQuotaExceededMessage msg else msg)

def volumeFailure (podEvents : List Event) : Option String :=
  (messageOf (podEvents.find? (fun e =>
    e.reason == some "FailedAttachVolume" || e.reason == some "FailedMount"))).map (fun msg =>
      if includes msg "not ready for workloads" || includes msg "faulted" then
        "Storage volume is faulted: replica scheduling failed (likely insufficient free disk on cluster nodes). Operator action required."
      else if includes msg "insufficient storage" then
        "Storage scheduling failed: no cluster node has enough free disk for the requested volume."
      else "Volume attach failed: " ++ slice msg 240)

/- the `i` flag folds no letter outside ASCII onto one inside -/
def foldCase (s : String) : String := String.ofList (s.toList.map Char.toLower)

def imageFailure (podEvents : List Event) : Option String :=
  ((messageOf (podEvents.find? (fun e => e.reason == some "Failed" || e.reason == some "BackOff"))).filter
    (fun msg => ["imagepull", "manifest unknown", "denied"].any (includes (foldCase msg)))).map
      (fun msg => "Image pull error: " ++ slice msg 240)

def podEventsOf (podList : List PodItem) (events : List Event) : List Event :=
  match given (podList.head?.bind PodItem.name) with
  | some podName => events.filter (fun e => e.kind == some "Pod" && e.objectName == some podName)
  | none => events.filter (fun e => e.kind == some "Pod")

def eventFailure (name : String) (podList : List PodItem) (events : List Event) : Option String :=
  ((replicaSetFailure name events).or (volumeFailure (podEventsOf podList events))).or
    (imageFailure (podEventsOf podList events))

def replicaStatus (componentName name : String) (events : Option (List Event)) (podList : List PodItem)
    (ready desired : Nat) : ComponentPodStatus :=
  let nodeName := (podList.find? (fun p => (given p.nodeName).isSome)).bind PodItem.nodeName
  match podList.findSome? podFailure with
  | some message => ⟨componentName, .failed, some message, none⟩
  | none =>
    if desired ≤ ready then ⟨componentName, .running, none, nodeName⟩
    else
      match events.bind (eventFailure name podList) with
      | some message => ⟨componentName, .failed, some message, none⟩
      | none => ⟨componentName, .starting, some s!"{ready}/{desired} replicas ready", nodeName⟩

def getK8sDeploymentStatus (cluster : Cluster) (name baseName componentName : String) :
    Except String ComponentPodStatus := do
  match ← cluster.deployments name with
  | none => return ⟨componentName, .notDeployed, none, none⟩
  | some d =>
    let desired := d.replicas.getD 1
    let ready := d.readyReplicas.getD 0
    if desired = 0 then return ⟨componentName, .stopped, none, none⟩
    else return replicaStatus componentName name cluster.events (← cluster.pods baseName) ready desired

/- a CronJob and a Job count as running -/
def componentStatus (cluster : Cluster) (deploymentName : String) (componentCount : Nat)
    (component : DeployComponentInput) : Except String ComponentPodStatus :=
  match component.type with
  | .deployment | .statefulset =>
    getK8sDeploymentStatus cluster (k8sResourceName deploymentName component.name componentCount)
      deploymentName component.name
  | .cronjob | .job => .ok ⟨component.name, .running, none, none⟩

def aggregatePhase (required : List Phase) : Phase :=
  if .failed ∈ required then .failed
  else if .notDeployed ∈ required then .notDeployed
  else if .stopped ∈ required then .stopped
  else if .starting ∈ required then .starting
  else .running

structure AggregateDeploymentStatus where
  phase : Phase
  components : List ComponentPodStatus

def requiredPhases (components : List DeployComponentInput) (statuses : List ComponentPodStatus) :
    List Phase :=
  ((components.zip statuses).filter (fun c => !c.1.optional)).map (fun c => c.2.phase)

def getDeploymentStatus (cluster : Cluster) (deploymentName : String)
    (components : List DeployComponentInput) : Except String AggregateDeploymentStatus := do
  let statuses ← components.mapM (componentStatus cluster deploymentName components.length)
  return ⟨aggregatePhase (requiredPhases components statuses), statuses⟩

def phaseToDbStatus : Phase → DeploymentStatus
  | .running => .running
  | .stopped => .stopped
  | .failed => .failed
  | .starting | .notDeployed => .pending

structure StatusUpdate where
  status : DeploymentStatus
  statusMessage : Option String
  currentNodeName : Option (Option String)

def isStale (row : DeploymentRow) (now : Int) : Prop :=
  (row.status = .pending ∨ row.status = .deploying) ∧ staleTimeoutMs < now - row.updatedAt

instance (row : DeploymentRow) (now : Int) : Decidable (isStale row now) :=
  inferInstanceAs (Decidable (_ ∧ _))

def newDbStatus (row : DeploymentRow) (phase : Phase) (now : Int) : DeploymentStatus :=
  if phaseToDbStatus phase = .pending ∧ isStale row now then .failed else phaseToDbStatus phase

def catalogUpdate (row : DeploymentRow) (seen : AggregateDeploymentStatus) (now : Int) : Option StatusUpdate :=
  let status := newDbStatus row seen.phase now
  let message := (seen.components.find? (fun c => (given c.message).isSome)).bind ComponentPodStatus.message
  let statusMessage := if status = .pending then message else none
  let observedNode := (seen.components.map ComponentPodStatus.nodeName).findSome? given
  let nodeChanged := observedNode != row.currentNodeName
  if status ≠ row.status ∨ statusMessage ≠ row.statusMessage ∨ nodeChanged then
    some ⟨status, statusMessage, if nodeChanged then some observedNode else none⟩
  else none

/- of a custom deployment the node is always written -/
def applyReconcileOutcome (row : DeploymentRow) (outcome : CustomDeployments.ReconcileOutcome) :
    Option StatusUpdate :=
  if outcome.node ≠ row.currentNodeName ∨ outcome.status ≠ row.status ∨
      outcome.statusMessage ≠ row.statusMessage then
    some ⟨outcome.status, outcome.statusMessage, some outcome.node⟩
  else none

/-- What a pass finds: the namespaces of the tenants, the catalog entries, and what the API server answers
for a namespace, to the reader of custom deployments as well, whose calls may fail too. -/
structure Surroundings where
  namespaceOf : Nat → Option String
  entries : Nat → Option CatalogEntry
  cluster : String → Cluster
  custom : String → Except String CustomDeployments.Cluster
  now : Int

def reconcileCatalogRow (s : Surroundings) (namespace_ : String) (row : DeploymentRow) : Option StatusUpdate :=
  (row.catalogEntryId.bind s.entries).bind (fun entry =>
    match getDeploymentStatus (s.cluster namespace_) row.name (resolveComponentsForReconcile entry) with
    | .error _ => none
    | .ok seen => catalogUpdate row seen s.now)

def reconcileCustom (s : Surroundings) (namespace_ : String) (row : DeploymentRow) : Option StatusUpdate :=
  match s.custom namespace_ with
  | .error _ => none
  | .ok cluster => applyReconcileOutcome row
      (CustomDeployments.reconcileCustomRow cluster ⟨row.name, row.status, row.statusMessage, row.updatedAt⟩ s.now)

/- nothing for a row that is skipped, that fails or that is as it should be -/
def reconcileRow (s : Surroundings) (row : DeploymentRow) : Option StatusUpdate :=
  (given (s.namespaceOf row.tenantId)).bind (fun namespace_ =>
    match row.source with
    | .custom => reconcileCustom s namespace_ row
    | .catalog => reconcileCatalogRow s namespace_ row)

/- every UPDATE stamps its rows -/
def StatusUpdate.apply (update : StatusUpdate) (now : Int) (row : DeploymentRow) : DeploymentRow :=
  { row with
    status := update.status
    statusMessage := update.statusMessage
    currentNodeName := update.currentNodeName.getD row.currentNodeName
    updatedAt := now }

def polledStatuses : List DeploymentStatus := [.running, .pending, .deploying, .failed]

def polled (row : DeploymentRow) : Bool := polledStatuses.contains row.status

variable {required : List Phase} {cluster : Cluster} {name label componentName : String} {n : Nat}
  {c : DeployComponentInput} {components : List DeployComponentInput} {phase : Phase}
  {statuses : List ComponentPodStatus} {seen : AggregateDeploymentStatus} {row : DeploymentRow} {now : Int}
  {s : Surroundings}

theorem aggregatePhase_running : aggregatePhase required = .running ↔ ∀ phase ∈ required, phase = .running := by
  unfold aggregatePhase
  constructor
  · intro running phase mem
    split at running; · contradiction
    split at running; · contradiction
    split at running; · contradiction
    split at running; · contradiction
    cases phase <;> first | rfl | contradiction
  · intro all
    rw [if_neg, if_neg, if_neg, if_neg]
    all_goals
      intro mem
      exact absurd (all _ mem) (by decide)

theorem aggregatePhase_stopped : aggregatePhase required = .stopped ↔
      .stopped ∈ required ∧ .failed ∉ required ∧ .notDeployed ∉ required := by
  unfold aggregatePhase
  constructor
  · intro stopped
    split at stopped; · contradiction
    split at stopped; · contradiction
    split at stopped
    · rename_i failed missing there
      exact ⟨there, failed, missing⟩
    · split at stopped <;> contradiction
  · intro ⟨there, failed, missing⟩
    rw [if_neg failed, if_neg missing, if_pos there]

/- of its only row, which nothing else changes -/
def passRow (row : DeploymentRow) (s : Surroundings) : DeploymentRow :=
  if polled row then (reconcileRow s row).elim row (fun update => update.apply s.now row) else row

def passes (row : DeploymentRow) (history : List Surroundings) : DeploymentRow := history.foldl passRow row

def isRequired (c : DeployComponentInput) : Bool := runs c && !c.optional

def desired (d : K8sDeployment) : Nat := d.replicas.getD 1

def ready (d : K8sDeployment) : Nat := d.readyReplicas.getD 0

/-- Of the Deployment that a component is, and the pods of a label where they are asked for. -/
def Answered (cluster : Cluster) (label name : String) : Prop :=
  ∃ found, cluster.deployments name = .ok found ∧
    ∀ d ∈ found, desired d ≠ 0 → ∃ pods, cluster.pods label = .ok pods

def Missing (cluster : Cluster) (name : String) : Prop := cluster.deployments name = .ok none

def ScaledToZero (cluster : Cluster) (name : String) : Prop :=
  ∃ d, cluster.deployments name = .ok (some d) ∧ desired d = 0

/-- A pod of the label shows a failure, or an event does while replicas are not ready. -/
def ShowsFailure (cluster : Cluster) (label name : String) : Prop :=
  ∃ d pods, cluster.deployments name = .ok (some d) ∧ desired d ≠ 0 ∧ cluster.pods label = .ok pods ∧
    ((∃ pod ∈ pods, (podFailure pod).isSome) ∨
      ready d < desired d ∧ (cluster.events.bind (eventFailure name pods)).isSome)

def Ready (cluster : Cluster) (name : String) : Prop :=
  ∃ d, cluster.deployments name = .ok (some d) ∧ d.AllReady

section

variable {componentName name : String} {events : Option (List Event)} {pods : List PodItem} {ready desired : Nat}

theorem replicaStatus_failed : (replicaStatus componentName name events pods ready desired).phase = .failed ↔
      (∃ pod ∈ pods, (podFailure pod).isSome) ∨
        ready < desired ∧ (events.bind (eventFailure name pods)).isSome := by
  have shown : (pods.findSome? podFailure).isSome ↔ ∃ pod ∈ pods, (podFailure pod).isSome := findSome?_isSome_iff
  unfold replicaStatus
  cases pod : pods.findSome? podFailure with
  | some message =>
    rw [pod] at shown
    simp [shown.mp rfl]
  | none =>
    rw [pod] at shown
    have quiet : ¬ ∃ pod ∈ pods, (podFailure pod).isSome := fun some => by simpa using shown.mpr some
    by_cases enough : desired ≤ ready
    · simp [quiet, enough, Nat.not_lt.mpr enough]
    cases event : events.bind (eventFailure name pods) with
    | some message => simp [enough, Nat.not_le.mp enough]
    | none => simp [quiet, enough]

theorem replicaStatus_there : (replicaStatus componentName name events pods ready desired).phase ≠ .stopped ∧
      (replicaStatus componentName name events pods ready desired).phase ≠ .notDeployed := by
  unfold replicaStatus
  split
  · simp
  split
  · simp
  · split <;> simp

theorem replicaStatus_starting (starting : (replicaStatus componentName name events pods ready desired).phase = .starting) :
    ready < desired := by
  unfold replicaStatus at starting
  split at starting
  · contradiction
  split at starting
  · contradiction
  · rename_i less
    exact Nat.not_le.mp less

end

theorem answered_iff : (∃ status, getK8sDeploymentStatus cluster name label componentName = .ok status) ↔
      Answered cluster label name := by
  unfold getK8sDeploymentStatus Answered
  cases found : cluster.deployments name with
  | error e => simp [bind, Except.bind]
  | ok there =>
    cases there with
    | none => simp [bind, Except.bind, pure, Except.pure]
    | some d =>
      by_cases zero : desired d = 0
      · have zero' : d.replicas.getD 1 = 0 := zero
        simp [bind, Except.bind, pure, Except.pure, zero, zero']
      have zero' : ¬ d.replicas.getD 1 = 0 := zero
      cases pods : cluster.pods label with
      | error e => simp [bind, Except.bind, zero, zero']
      | ok pods => simp [bind, Except.bind, pure, Except.pure, zero']

theorem phase_iff {status : ComponentPodStatus}
    (read : getK8sDeploymentStatus cluster name label componentName = .ok status) :
    (status.phase = .notDeployed ↔ Missing cluster name) ∧ (status.phase = .stopped ↔ ScaledToZero cluster name) ∧
      (status.phase = .failed ↔ ShowsFailure cluster label name) ∧
      (status.phase = .starting → ∃ d, cluster.deployments name = .ok (some d) ∧ ready d < desired d) := by
  unfold getK8sDeploymentStatus at read
  unfold Missing ScaledToZero ShowsFailure
  cases found : cluster.deployments name with
  | error e => simp [found, bind, Except.bind] at read
  | ok found' =>
    cases found' with
    | none =>
      simp only [found, bind, Except.bind, pure, Except.pure, Except.ok.injEq] at read
      simp [← read]
    | some d =>
      by_cases zero : d.replicas.getD 1 = 0
      · simp only [found, bind, Except.bind, pure, Except.pure, zero, if_true, Except.ok.injEq] at read
        simp [← read, desired, zero]
      cases pods : cluster.pods label with
      | error e => simp [found, pods, bind, Except.bind, zero] at read
      | ok pods' =>
        simp only [found, pods, bind, Except.bind, pure, Except.pure, if_neg zero, Except.ok.injEq] at read
        have there := @replicaStatus_there componentName name cluster.events pods' (d.readyReplicas.getD 0)
          (d.replicas.getD 1)
        have failed := @replicaStatus_failed componentName name cluster.events pods' (d.readyReplicas.getD 0)
          (d.replicas.getD 1)
        have starting := @replicaStatus_starting componentName name cluster.events pods'
          (d.readyReplicas.getD 0) (d.replicas.getD 1)
        rw [read] at there failed starting
        simp [there, failed, desired, ready, zero]
        exact starting

def nameIn (label : String) (components : List DeployComponentInput) (c : DeployComponentInput) : String :=
  k8sResourceName label c.name components.length

def AllAnswered (cluster : Cluster) (label : String) (components : List DeployComponentInput) : Prop :=
  ∀ c ∈ components, runs c = true → Answered cluster label (nameIn label components c)

def AllReady (cluster : Cluster) (label : String) (components : List DeployComponentInput) : Prop :=
  ∀ c ∈ components, isRequired c = true → Ready cluster (nameIn label components c)

/-- A required component is scaled to 0, none is missing, and none shows a failure. -/
def FoundStopped (cluster : Cluster) (label : String) (components : List DeployComponentInput) : Prop :=
  AllAnswered cluster label components ∧
    (∃ c ∈ components, isRequired c = true ∧ ScaledToZero cluster (nameIn label components c)) ∧
    ∀ c ∈ components, isRequired c = true → ¬ Missing cluster (nameIn label components c) ∧
      ¬ ShowsFailure cluster label (nameIn label components c)

/-- A pod with the label of the deployment shows a failure, and there is a component that is looked at. -/
def PodShowsFailure (cluster : Cluster) (label : String) (components : List DeployComponentInput) : Prop :=
  (∃ c ∈ components, isRequired c = true) ∧
    ∃ pods, cluster.pods label = .ok pods ∧ ∃ pod ∈ pods, (podFailure pod).isSome

theorem componentStatus_job (job : runs c = false) :
    componentStatus cluster label n c = .ok ⟨c.name, .running, none, none⟩ := by
  unfold componentStatus
  cases type : c.type <;> simp [runs, type] at job ⊢

theorem componentStatus_workload (workload : runs c = true) : componentStatus cluster label n c =
      getK8sDeploymentStatus cluster (k8sResourceName label c.name n) label c.name := by
  unfold componentStatus
  cases type : c.type <;> simp [runs, type] at workload ⊢

theorem statuses_iff : (∃ statuses, components.mapM (componentStatus cluster label components.length) = .ok statuses) ↔
      AllAnswered cluster label components := by
  constructor
  · intro ⟨statuses, read⟩ c mem workload
    obtain ⟨status, own⟩ := Results.mapM_each read c mem
    rw [componentStatus_workload workload] at own
    exact answered_iff.mp ⟨status, own⟩
  intro answered
  refine Results.mapM_of_ok ?_
  intro c mem
  cases workload : runs c with
  | false => exact ⟨_, componentStatus_job workload⟩
  | true =>
    rw [componentStatus_workload workload]
    exact answered_iff.mpr (answered c mem workload)

theorem mem_requiredPhases {find : DeployComponentInput → Except String ComponentPodStatus}
    (read : Forall₂ (fun c status => find c = .ok status) components statuses) :
    phase ∈ requiredPhases components statuses ↔
      ∃ c ∈ components, c.optional = false ∧ ∃ status, find c = .ok status ∧ status.phase = phase := by
  unfold requiredPhases
  induction read with
  | nil => simp
  | @cons c status cs rest head _ ih =>
    simp only [zip_cons_cons, filter_cons, exists_mem_cons_iff, ← ih]
    cases optional : c.optional with
    | true => simp
    | false =>
      simp only [Bool.not_false, if_true, map_cons, mem_cons, head, true_and, Except.ok.injEq]
      refine or_congr_left ?_
      constructor
      · intro same
        exact ⟨status, rfl, same.symm⟩
      · rintro ⟨_, rfl, same⟩
        exact same.symm

theorem getDeploymentStatus_ok (read : getDeploymentStatus cluster label components = .ok seen) :
    ∃ statuses, components.mapM (componentStatus cluster label components.length) = .ok statuses ∧
      seen.phase = aggregatePhase (requiredPhases components statuses) := by
  obtain ⟨statuses, each, same⟩ := Results.bind_ok read
  cases same
  exact ⟨statuses, each, rfl⟩

theorem getDeploymentStatus_answered :
    (∃ seen, getDeploymentStatus cluster label components = .ok seen) ↔ AllAnswered cluster label components := by
  rw [← statuses_iff]
  constructor
  · intro ⟨seen, read⟩
    obtain ⟨statuses, each, _⟩ := getDeploymentStatus_ok read
    exact ⟨statuses, each⟩
  intro ⟨statuses, each⟩
  refine ⟨⟨aggregatePhase (requiredPhases components statuses), statuses⟩, ?_⟩
  unfold getDeploymentStatus
  rw [each]
  rfl

theorem required_phase (differs : phase ≠ .running)
    (each : components.mapM (componentStatus cluster label components.length) = .ok statuses) :
    phase ∈ requiredPhases components statuses ↔ ∃ c ∈ components, isRequired c = true ∧ ∃ status,
        getK8sDeploymentStatus cluster (nameIn label components c) label c.name = .ok status ∧
          status.phase = phase := by
  rw [mem_requiredPhases (Results.mapM_ok each)]
  refine exists_congr fun c => and_congr_right fun _ => ?_
  cases workload : runs c with
  | false =>
    simp only [isRequired, workload, componentStatus_job workload, Except.ok.injEq]
    constructor
    · rintro ⟨_, _, rfl, rfl⟩
      exact absurd rfl differs
    · intro ⟨required, _⟩
      cases required
  | true => simp [isRequired, workload, componentStatus_workload workload, nameIn]

theorem foundStopped_iff (read : getDeploymentStatus cluster label components = .ok seen) :
    seen.phase = .stopped ↔ FoundStopped cluster label components := by
  have answered := getDeploymentStatus_answered.mp ⟨seen, read⟩
  obtain ⟨statuses, each, phase⟩ := getDeploymentStatus_ok read
  rw [phase, aggregatePhase_stopped, required_phase (by decide) each, required_phase (by decide) each,
    required_phase (by decide) each]
  constructor
  · rintro ⟨⟨c, mem, required, status, own, stopped⟩, healthy, there⟩
    refine ⟨answered, ⟨c, mem, required, (phase_iff own).2.1.mp stopped⟩, ?_⟩
    intro c mem required
    have workload : runs c = true := (Bool.and_eq_true _ _ |>.mp required).1
    obtain ⟨status, own⟩ := answered_iff.mpr (answered c mem workload)
    constructor
    · intro missing
      exact there ⟨c, mem, required, status, own, (phase_iff own).1.mpr missing⟩
    · intro shows
      exact healthy ⟨c, mem, required, status, own, (phase_iff own).2.2.1.mpr shows⟩
  · rintro ⟨_, ⟨c, mem, required, zero⟩, others⟩
    refine ⟨?_, ?_, ?_⟩
    · have workload : runs c = true := (Bool.and_eq_true _ _ |>.mp required).1
      obtain ⟨status, own⟩ := answered_iff.mpr (answered c mem workload)
      exact ⟨c, mem, required, status, own, (phase_iff own).2.1.mpr zero⟩
    · rintro ⟨c, mem, required, status, own, failed⟩
      exact (others c mem required).2 ((phase_iff own).2.2.1.mp failed)
    · rintro ⟨c, mem, required, status, own, missing⟩
      exact (others c mem required).1 ((phase_iff own).1.mp missing)

theorem ready_failure_iff (ready : Ready cluster name) : ShowsFailure cluster label name ↔
      ∃ pods, cluster.pods label = .ok pods ∧ ∃ pod ∈ pods, (podFailure pod).isSome := by
  obtain ⟨d, found, enough, positive⟩ := ready
  constructor
  · rintro ⟨d', pods, found', _, listed, shown | ⟨less, _⟩⟩
    · exact ⟨pods, listed, shown⟩
    rw [found] at found'
    cases found'
    exact absurd less (Nat.not_lt.mpr enough)
  · intro ⟨pods, listed, shown⟩
    exact ⟨d, pods, found, Nat.ne_of_gt positive, listed, .inl shown⟩

theorem foundRunning_iff (read : getDeploymentStatus cluster label components = .ok seen)
    (allReady : AllReady cluster label components) :
    seen.phase = .running ↔ ¬ PodShowsFailure cluster label components := by
  obtain ⟨statuses, each, phase⟩ := getDeploymentStatus_ok read
  rw [phase, aggregatePhase_running]
  constructor
  · rintro running ⟨⟨c, mem, required⟩, shown⟩
    have workload : runs c = true := (Bool.and_eq_true _ _ |>.mp required).1
    have answered := getDeploymentStatus_answered.mp ⟨seen, read⟩
    obtain ⟨status, own⟩ := answered_iff.mpr (answered c mem workload)
    have fails := (phase_iff own).2.2.1.mpr ((ready_failure_iff (allReady c mem required)).mpr shown)
    have failed : .failed ∈ requiredPhases components statuses :=
      (required_phase (by decide) each).mpr ⟨c, mem, required, status, own, fails⟩
    exact absurd (running _ failed) (by decide)
  · intro quiet phase' mem
    by_contra differs
    obtain ⟨c, there, required, status, own, same⟩ := (required_phase differs each).mp mem
    have ready := allReady c there required
    obtain ⟨missing, zero, fails, starting⟩ := phase_iff own
    obtain ⟨d, found, enough, positive⟩ := id ready
    have only : ∀ d', cluster.deployments (nameIn label components c) = .ok (some d') → d' = d := by
      intro d' found'
      rw [found] at found'
      cases found'
      rfl
    cases phase' with
    | running => exact differs rfl
    | stopped =>
      obtain ⟨d', found', none⟩ := zero.mp same
      cases only d' found'
      exact absurd positive (Nat.not_lt.mpr (Nat.le_of_eq none))
    | starting =>
      obtain ⟨d', found', less⟩ := starting same
      cases only d' found'
      exact absurd less (Nat.not_lt.mpr enough)
    | failed => exact quiet ⟨⟨c, there, required⟩, (ready_failure_iff ready).mp (fails.mp same)⟩
    | notDeployed =>
      have absent := missing.mp same
      rw [Missing, found] at absent
      cases absent

/- where to look, and for which components -/
def Surroundings.target (s : Surroundings) (row : DeploymentRow) : Option (Cluster × List DeployComponentInput) :=
  (given (s.namespaceOf row.tenantId)).bind (fun namespace_ =>
    (row.catalogEntryId.bind s.entries).map (fun entry =>
      (s.cluster namespace_, resolveComponentsForReconcile entry)))

def FindsStopped (s : Surroundings) (row : DeploymentRow) : Prop :=
  ∃ t ∈ s.target row, FoundStopped t.1 row.name t.2

def FindsPodFailure (s : Surroundings) (row : DeploymentRow) : Prop :=
  ∃ t ∈ s.target row, PodShowsFailure t.1 row.name t.2

/-- There is a place to look, every required component is ready in it, and every question is answered. -/
def FindsReady (s : Surroundings) (row : DeploymentRow) : Prop :=
  ∃ t ∈ s.target row, AllReady t.1 row.name t.2 ∧ AllAnswered t.1 row.name t.2

theorem catalogUpdate_status (row : DeploymentRow) (seen : AggregateDeploymentStatus) (now stamp : Int) :
    ((catalogUpdate row seen now).elim row (fun update => update.apply stamp row)).status =
      newDbStatus row seen.phase now := by
  unfold catalogUpdate
  dsimp only
  generalize (if newDbStatus row seen.phase now = .pending then _ else _ : Option String) = message
  split
  · rfl
  rename_i unchanged
  push Not at unchanged
  exact unchanged.1.symm

theorem newDbStatus_running : newDbStatus row phase now = .running ↔ phase = .running := by
  unfold newDbStatus
  split
  · rename_i stale
    constructor
    · intro running
      cases running
    · rintro rfl
      cases stale.1
  · cases phase <;> simp [phaseToDbStatus]

theorem newDbStatus_polled : newDbStatus row phase now ∈ polledStatuses ↔ phase ≠ .stopped := by
  unfold newDbStatus
  split
  · rename_i stale
    simp only [polledStatuses, mem_cons, reduceCtorEq, false_or, true_or, true_iff]
    rintro rfl
    cases stale.1
  · cases phase <;> simp [phaseToDbStatus, polledStatuses]

theorem polled_iff : polled row = true ↔ row.status ∈ polledStatuses := by
  simp [polled]

theorem passRow_cases (catalog : row.source = .catalog) (looked : polled row = true) :
    (∃ t ∈ s.target row, ∃ seen, getDeploymentStatus t.1 row.name t.2 = .ok seen ∧
      (passRow row s).status = newDbStatus row seen.phase s.now) ∨
    (passRow row s = row ∧ ∀ t ∈ s.target row, ¬ AllAnswered t.1 row.name t.2) := by
  simp only [passRow, if_pos looked, reconcileRow, catalog, reconcileCatalogRow, Surroundings.target]
  cases given (s.namespaceOf row.tenantId) with
  | none => simp
  | some namespace_ =>
    cases row.catalogEntryId.bind s.entries with
    | none => simp
    | some entry =>
      simp only [bind_some, map_some, mem_some_iff, exists_eq_left', forall_eq']
      cases read : getDeploymentStatus (s.cluster namespace_) row.name (resolveComponentsForReconcile entry) with
      | error e =>
        refine .inr ⟨rfl, ?_⟩
        rw [← getDeploymentStatus_answered, read]
        rintro ⟨seen, none⟩
        cases none
      | ok seen => exact .inl ⟨seen, rfl, catalogUpdate_status row seen s.now s.now⟩

theorem passRow_other (unpolled : polled row = false) : passRow row s = row := by
  rw [passRow, unpolled]
  rfl

theorem passRow_identity (row : DeploymentRow) (s : Surroundings) :
    (passRow row s).source = row.source ∧ (passRow row s).name = row.name ∧
      ∀ s' : Surroundings, s'.target (passRow row s) = s'.target row := by
  unfold passRow
  split
  · cases reconcileRow s row with
    | none | some update => exact ⟨rfl, rfl, fun _ => rfl⟩
  · exact ⟨rfl, rfl, fun _ => rfl⟩

theorem passRow_finds (row : DeploymentRow) (s s' : Surroundings) :
    FindsStopped s' (passRow row s) ↔ FindsStopped s' row := by
  unfold FindsStopped
  rw [(passRow_identity row s).2.2 s', (passRow_identity row s).2.1]

theorem passRow_polled (catalog : row.source = .catalog) :
    polled (passRow row s) = true ↔ polled row = true ∧ ¬ FindsStopped s row := by
  by_cases looked : polled row = true
  · rcases passRow_cases catalog looked with ⟨t, target, seen, read, status⟩ | ⟨same, silent⟩
    · rw [polled_iff, status, newDbStatus_polled, Ne, foundStopped_iff read]
      simp only [looked, true_and, FindsStopped, mem_def.mp target, mem_some_iff, exists_eq_left']
    rw [same]
    simp only [looked, true_and, true_iff]
    rintro ⟨t, target, found⟩
    exact silent t target found.1
  · rw [passRow_other (by simpa using looked)]
    simp [looked]

theorem passes_identity (row : DeploymentRow) (history : List Surroundings) :
    (passes row history).source = row.source ∧ (passes row history).name = row.name ∧
      ∀ s' : Surroundings, s'.target (passes row history) = s'.target row := by
  induction history generalizing row with
  | nil => exact ⟨rfl, rfl, fun _ => rfl⟩
  | cons s rest ih =>
    obtain ⟨source, name, target⟩ := ih (passRow row s)
    obtain ⟨source', name', target'⟩ := passRow_identity row s
    exact ⟨source.trans source', name.trans name', fun s' => (target s').trans (target' s')⟩

theorem passes_polled {history : List Surroundings} (catalog : row.source = .catalog) :
    polled (passes row history) = true ↔ polled row = true ∧ ∀ s ∈ history, ¬ FindsStopped s row := by
  induction history generalizing row with
  | nil => simp [passes]
  | cons s rest ih =>
    have catalog' : (passRow row s).source = .catalog := (passRow_identity row s).1.trans catalog
    have later : passes row (s :: rest) = passes (passRow row s) rest := rfl
    rw [later, ih catalog', passRow_polled catalog]
    simp [passRow_finds, forall_mem_cons, and_assoc]

/-- Once its required components are ready, the next pass that gets its answers leaves the row of a
catalog deployment running exactly when passes look at rows of its status, none has found it stopped
before, and no pod of the deployment shows a failure. -/
theorem converges_iff {row : DeploymentRow} {history : List Surroundings} {last : Surroundings}
    (catalog : row.source = .catalog) (ready : FindsReady last row) :
    (passes row (history ++ [last])).status = .running ↔
      polled row = true ∧ (∀ s ∈ history, ¬ FindsStopped s row) ∧ ¬ FindsPodFailure last row := by
  obtain ⟨source, name, target⟩ := passes_identity row history
  rw [← and_assoc, ← passes_polled catalog]
  have later : passes row (history ++ [last]) = passRow (passes row history) last := by
    simp [passes]
  rw [later]
  obtain ⟨t, found, allReady, answered⟩ := ready
  by_cases looked : polled (passes row history) = true
  · rcases passRow_cases (source.trans catalog) looked with ⟨t', target', seen, read, status⟩ | ⟨same, silent⟩
    · rw [target last, mem_def.mp found] at target'
      cases target'
      rw [name] at read
      rw [status, newDbStatus_running, foundRunning_iff read allReady]
      simp [looked, true_and, FindsPodFailure, mem_def.mp found, mem_some_iff, exists_eq_left']
    · rw [target last, name] at silent
      exact absurd answered (silent t found)
  · rw [passRow_other (by simpa using looked)]
    simp only [looked, Bool.false_eq_true, false_and, iff_false]
    intro running
    exact looked (polled_iff.mpr (by simp [running, polledStatuses]))

/- every Deployment with so many replicas, all of them ready, and no pod that shows anything -/
def scaled (replicas : Nat) : Surroundings where
  namespaceOf := fun _ => some "tenant-a"
  entries := fun _ => some wordpress
  cluster := fun _ => ⟨fun _ => .ok (some ⟨some replicas, some replicas⟩), fun _ => .ok [], some []⟩
  custom := fun _ => .error "not there"
  now := 0

theorem findsReady_scaled : FindsReady (scaled 1) blogRow :=
  ⟨_, rfl, fun _ _ _ => ⟨⟨some 1, some 1⟩, rfl, le_refl 1, Nat.one_pos⟩,
    fun _ _ _ => ⟨_, rfl, fun _ _ _ => ⟨[], rfl⟩⟩⟩

/-- A first pass over a deployment that is ready. -/
theorem blog_converges : (passes blogRow [scaled 1]).status = .running ↔
    polled blogRow = true ∧ (∀ s ∈ [], ¬ FindsStopped s blogRow) ∧ ¬ FindsPodFailure (scaled 1) blogRow :=
  @converges_iff blogRow [] (scaled 1) rfl findsReady_scaled

/-- A tenant is suspended and resumed with a pass in between: the deployment is ready again, and its row
is stopped. -/
theorem resumed_stays_stopped : blogRow.source = .catalog ∧ blogRow.status ≠ .deleted ∧
    FindsReady (scaled 1) blogRow ∧ (passes blogRow ([scaled 0] ++ [scaled 1])).status = .stopped :=
  ⟨rfl, by decide, findsReady_scaled, by decide +kernel⟩

end HostingPlatform.Deployments
