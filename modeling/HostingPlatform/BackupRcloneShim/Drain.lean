import HostingPlatform.Tasks.History
import Mathlib.Data.List.Dedup

/-! The switch of the target of a shim class: in-flight backups are waited for, the assignment is
written, and the one DaemonSet that serves all classes is rolled. Tasks come and go meanwhile. -/
namespace HostingPlatform.BackupRcloneShim

open List Transition Tasks

inductive BackupShimClass where
  | system | tenant | mail
  deriving DecidableEq

def BackupShimClass.text : BackupShimClass → String
  | .system => "system"
  | .tenant => "tenant"
  | .mail => "mail"

def SHIM_CONSUMER_TASK_KINDS : List String :=
  ["backup.run", "storage.snapshot", "storage.restore", "postgres.pitr", "backup.bundle", "restore.cart",
    "mail.snapshot.trigger", "mail.archive", "mail.archive.restore", "mail.rotate", "mail.migration",
    "backup.speedtest"]

/- the outer `none` is a kind without an entry, the inner one an entry that is null -/
def SHIM_TASK_KIND_TO_CLASS (kind : String) : Option (Option BackupShimClass) :=
  [("backup.run", some .system), ("postgres.pitr", some .system), ("storage.snapshot", none),
    ("storage.restore", none), ("backup.bundle", some .tenant), ("restore.cart", some .tenant),
    ("mail.snapshot.trigger", some .mail), ("mail.archive", some .mail), ("mail.archive.restore", some .mail),
    ("mail.rotate", some .mail), ("mail.migration", some .mail), ("backup.speedtest", none)].lookup kind

def wanted (classes : List BackupShimClass) (kind : String) : Bool :=
  (SHIM_TASK_KIND_TO_CLASS kind).any fun mapped => mapped.all classes.contains

def resolveDrainKinds (classes : List BackupShimClass) : List String :=
  if classes.isEmpty then SHIM_CONSUMER_TASK_KINDS else SHIM_CONSUMER_TASK_KINDS.filter (wanted classes)

structure InflightSample where
  kind : String
  count : Nat

def INFLIGHT_SAMPLE_KIND_CAP : Nat := 20

def counted (classes : List BackupShimClass) (r : TaskRow) : Bool :=
  (resolveDrainKinds classes).contains r.kind && r.status.inFlight && r.clearedAt.isNone

def largestFirst (a b : InflightSample) : Prop := b.count ≤ a.count

instance : DecidableRel largestFirst := fun a b => inferInstanceAs (Decidable (b.count ≤ a.count))

/- GROUP BY kind ORDER BY COUNT(*) DESC LIMIT 20 -/
def groupByKind (rows : List TaskRow) : List InflightSample :=
  (((rows.map TaskRow.kind).dedup.map fun kind =>
    InflightSample.mk kind (rows.countP fun r => r.kind == kind)).insertionSort largestFirst).take
      INFLIGHT_SAMPLE_KIND_CAP

structure Inflight where
  total : Nat
  samples : List InflightSample

def snapshotInflightShimConsumers (s : Store) (classes : List BackupShimClass) : Inflight :=
  let samples := groupByKind (s.rows.selectAll (counted classes))
  ⟨samples.foldr (fun sample acc => sample.count + acc) 0, samples⟩

inductive DrainPhase where
  | drain_skipped | drain_immediate | drain_waiting | drain_timeout_forced

structure DrainResult where
  phase : DrainPhase
  (inFlightAtStart inFlightAtEnd : Nat)
  drained : Bool
  (elapsedMs timeoutMs : Nat)
  inflightSampleKinds : List String
  inflightSamples : List InflightSample

def kindsOf (snap : Inflight) : List String := snap.samples.map InflightSample.kind

/- what one snapshot of the wait leads to: the next sleep, or the result -/
structure Wait where
  start : Nat
  initial : Inflight

def firstPoll (timeoutMs now : Nat) (snap : Inflight) : Wait ⊕ DrainResult :=
  if timeoutMs = 0 then
    .inr ⟨.drain_skipped, snap.total, snap.total, false, 0, 0, kindsOf snap, snap.samples⟩
  else if snap.total = 0 then .inr ⟨.drain_immediate, 0, 0, true, 0, timeoutMs, [], []⟩
  else .inl ⟨now, snap⟩

/- after a sleep; the loop goes on while `now - start < timeoutMs` -/
def nextPoll (timeoutMs now : Nat) (wait : Wait) (snap : Inflight) : Wait ⊕ DrainResult :=
  let elapsedMs := now - wait.start
  if snap.total = 0 then
    .inr ⟨.drain_waiting, wait.initial.total, 0, true, elapsedMs, timeoutMs, kindsOf wait.initial,
      wait.initial.samples⟩
  else if elapsedMs < timeoutMs then .inl wait
  else
    .inr ⟨.drain_timeout_forced, wait.initial.total, snap.total, false, elapsedMs, timeoutMs, kindsOf snap,
      snap.samples⟩

def DRAIN_TIMEOUT_SECONDS_DEFAULT : Nat := 300
def DRAIN_TIMEOUT_SECONDS_MIN : Nat := 30
def DRAIN_TIMEOUT_SECONDS_MAX : Nat := 1800

def resolveDrainTimeoutSeconds (override fromTarget : Option Nat) : Option Nat :=
  let candidate := (override.or fromTarget).getD DRAIN_TIMEOUT_SECONDS_DEFAULT
  if candidate < DRAIN_TIMEOUT_SECONDS_MIN || DRAIN_TIMEOUT_SECONDS_MAX < candidate then none else some candidate

/- a row of backup_configurations that is enabled -/
structure Target where
  id : Nat
  name : String
  drainTimeoutSeconds : Nat

structure ApplyArgs where
  className : BackupShimClass
  target : Option Target
  force : Bool
  drainTimeoutSecondsOverride : Option Nat
  userId : Nat

inductive Phase where
  | drain
  | sleeping (wait : Wait)
  | writeAssignment (drain : DrainResult)
  | reconcile (drain : DrainResult)
  | rolled (drain : DrainResult)
  | failed

structure Apply where
  args : ApplyArgs
  (effectiveMs taskId : Nat)
  phase : Phase

structure Cluster where
  tasks : Store
  apply : Option Apply

def Cluster.start (now : Nat) : Cluster := ⟨Store.empty now, none⟩

/-- A task event; the call begins, takes the next snapshot of its wait, writes the assignment, fails, and
the DaemonSet is rolled (by the call's own pass of the reconciler or by a periodic one after the write). -/
inductive Event where
  | task (a : Tasks.Action)
  | begin (args : ApplyArgs)
  | poll
  | writeAssignment
  | roll
  | fail

def switchLabel (args : ApplyArgs) : String :=
  match args.target with
  | none => "Unassign " ++ Js.toUpperCase args.className.text ++ " backup target"
  | some target => "Switch " ++ Js.toUpperCase args.className.text ++ " backup target to " ++ target.name

def quoted (text : String) : String := "\"" ++ text ++ "\""

def switchDetails (args : ApplyArgs) (seconds : Nat) : Json :=
  [("className", quoted args.className.text),
    ("targetId", args.target.elim "null" fun target => toString target.id),
    ("targetName", args.target.elim "null" fun target => quoted target.name),
    ("force", toString args.force), ("drainTimeoutSeconds", toString seconds)].foldl
      (fun details entry => details.set entry.1 entry.2) Js.Record.empty

def switchTask (args : ApplyArgs) (seconds now : Nat) : TaskStartArgs where
  kind := "backup.shim.target-switch"
  refId := some ("shim:" ++ args.className.text ++ ":" ++ toString now)
  scope := .admin
  userId := some args.userId
  tenantId := none
  label := switchLabel args
  target := .modal "shim-target-switch" (Js.Record.empty.set "className" (quoted args.className.text))
  progressPct := some 0
  progressText := some "Starting target switch"
  details := some (switchDetails args seconds)
  parentTaskId := none

/- begins the one call -/
def applyShimAssignmentChange (c : Cluster) (args : ApplyArgs) : Option Cluster :=
  if c.apply.isSome then none
  else
    (resolveDrainTimeoutSeconds args.drainTimeoutSecondsOverride
        (args.target.map Target.drainTimeoutSeconds)).bind fun seconds =>
      (Tasks.start c.tasks (switchTask args seconds c.tasks.now)).map fun started =>
        ⟨started.1, some ⟨args, if args.force then 0 else seconds * 1000, started.2, .drain⟩⟩

def Apply.enter (a : Apply) (phase : Phase) : Apply := { a with phase }

def afterPoll : Wait ⊕ DrainResult → Phase
  | .inl wait => .sleeping wait
  | .inr result => .writeAssignment result

def poll (tasks : Store) (a : Apply) : Option Apply :=
  let snap := snapshotInflightShimConsumers tasks [a.args.className]
  match a.phase with
  | .drain => some (a.enter (afterPoll (firstPoll a.effectiveMs tasks.now snap)))
  | .sleeping wait => some (a.enter (afterPoll (nextPoll a.effectiveMs tasks.now wait snap)))
  | _ => none

def writeAssignment (a : Apply) : Option Apply :=
  match a.phase with
  | .writeAssignment drain => some (a.enter (.reconcile drain))
  | _ => none

def roll (a : Apply) : Option Apply :=
  match a.phase with
  | .reconcile drain => some (a.enter (.rolled drain))
  | _ => none

def Cluster.run (c : Cluster) (f : Apply → Option Apply) : Option Cluster :=
  (c.apply.bind f).map fun a => { c with apply := some a }

def step (c : Cluster) : Event → Option Cluster
  | .task a => (Tasks.step c.tasks a).map fun tasks => { c with tasks }
  | .begin args => applyShimAssignmentChange c args
  | .poll => c.run (poll c.tasks)
  | .writeAssignment => c.run writeAssignment
  | .roll => c.run roll
  | .fail => c.run fun a => some (a.enter .failed)

def consumer (r : TaskRow) : Bool := SHIM_CONSUMER_TASK_KINDS.contains r.kind

/-- No task that sends its data through the shim is queued or running. -/
def Quiet (s : Store) : Prop := ∀ r ∈ s.rows, consumer r = true → r.status.inFlight = false

/- the result of the drain, once it is there and before the roll -/
def Phase.pending : Phase → Option DrainResult
  | .writeAssignment result => some result
  | .reconcile result => some result
  | _ => none

/- the call was neither forced nor timed out, and the roll is still to come -/
def drained (c : Cluster) : Bool := c.apply.any fun a => a.phase.pending.any DrainResult.drained

def RolledQuiet (now : Nat) (events : List Event) : Prop :=
  ∀ before, before ++ [.roll] <+: events → ∀ c, exec step (Cluster.start now) before = some c →
    (step c .roll).isSome = true → drained c = true → Quiet c.tasks

def Sound (c : Cluster) : Event → Prop
  | .poll => ∀ a ∈ c.apply,
      (∃ r ∈ c.tasks.rows.rows, counted [a.args.className] r = true) ∨
        ∀ r ∈ c.tasks.rows.rows, consumer r = true → r.status.inFlight = true →
          counted [a.args.className] r = true
  | .task (.start args) => drained c = true → SHIM_CONSUMER_TASK_KINDS.contains args.kind = false
  | _ => True

instance (c : Cluster) (e : Event) : Decidable (Sound c e) := by
  unfold Sound
  split <;> infer_instance

variable {r : TaskRow} {snap : Inflight} {result : DrainResult} {tasks : Store} {c c' : Cluster}

theorem groupByKind_pos {rows : List TaskRow} (mem : r ∈ rows) :
    0 < (groupByKind rows).foldr (fun sample acc => sample.count + acc) 0 := by
  have counts : ∀ sample ∈ (rows.map TaskRow.kind).dedup.map fun kind =>
      InflightSample.mk kind (rows.countP fun r => r.kind == kind), 0 < sample.count := by
    intro sample there
    obtain ⟨kind, its, rfl⟩ := mem_map.mp there
    obtain ⟨r', mem', rfl⟩ := mem_map.mp (mem_dedup.mp its)
    exact countP_pos_iff.mpr ⟨r', mem', beq_self_eq_true _⟩
  have sorted := perm_insertionSort largestFirst ((rows.map TaskRow.kind).dedup.map fun kind =>
    .mk kind (rows.countP fun r => r.kind == kind))
  have there : InflightSample.mk r.kind (rows.countP fun r' => r'.kind == r.kind) ∈
      (rows.map TaskRow.kind).dedup.map fun kind =>
        .mk kind (rows.countP fun r => r.kind == kind) :=
    mem_map_of_mem (mem_dedup.mpr (mem_map_of_mem mem))
  unfold groupByKind
  cases listed : insertionSort largestFirst ((rows.map TaskRow.kind).dedup.map fun kind =>
    .mk kind (rows.countP fun r => r.kind == kind)) with
  | nil =>
    rw [listed] at sorted
    exact absurd (sorted.mem_iff.mpr there) not_mem_nil
  | cons first rest =>
    rw [listed] at sorted
    have positive := counts first (sorted.mem_iff.mp mem_cons_self)
    rw [INFLIGHT_SAMPLE_KIND_CAP, take_succ_cons, foldr_cons]
    omega

theorem total_pos {s : Store} {classes : List BackupShimClass} (mem : r ∈ s.rows)
    (its : counted classes r = true) : 0 < (snapshotInflightShimConsumers s classes).total :=
  groupByKind_pos (Table.mem_selectAll.mpr ⟨mem, its⟩)

theorem firstPoll_drained {timeoutMs now : Nat} (ended : firstPoll timeoutMs now snap = .inr result)
    (drained : result.drained = true) : snap.total = 0 := by
  unfold firstPoll at ended
  split at ended
  · cases ended
    contradiction
  split at ended
  · assumption
  · contradiction

theorem nextPoll_drained {timeoutMs now : Nat} {wait : Wait}
    (ended : nextPoll timeoutMs now wait snap = .inr result) (drained : result.drained = true) : snap.total = 0 := by
  unfold nextPoll at ended
  dsimp only at ended
  split at ended
  · assumption
  split at ended
  · contradiction
  · cases ended
    contradiction

theorem afterPoll_pending {outcome : Wait ⊕ DrainResult}
    (pending : (afterPoll outcome).pending = some result) : outcome = .inr result := by
  cases outcome with
  | inl wait => contradiction
  | inr ended => exact congrArg Sum.inr (Option.some.inj pending)

theorem poll_drained {a a' : Apply} (polled : poll tasks a = some a')
    (pending : a'.phase.pending = some result) (drained : result.drained = true) :
    (snapshotInflightShimConsumers tasks [a.args.className]).total = 0 := by
  unfold poll at polled
  split at polled
  · cases polled
    exact firstPoll_drained (afterPoll_pending pending) drained
  · cases polled
    exact nextPoll_drained (afterPoll_pending pending) drained
  · contradiction

def Settled (c : Cluster) : Prop := drained c = true → Quiet c.tasks

theorem drained_apply {a : Apply} (is : drained ⟨tasks, some a⟩ = true) :
    ∃ result, a.phase.pending = some result ∧ result.drained = true :=
  (Option.any_eq_true _ _).mp is

theorem task_quiet {s t : Store} {a : Tasks.Action} (quiet : Quiet s)
    (other : ∀ args, a = .start args → SHIM_CONSUMER_TASK_KINDS.contains args.kind = false)
    (taken : Tasks.step s a = some t) : Quiet t := by
  intro r mem its
  rcases step_backward taken mem with ⟨old, there, change⟩ | ⟨args, rfl, rfl⟩
  · cases change with
    | same => exact quiet _ there its
    | restarted args started found =>
      have kind := (conflicting_some found).2.1
      have no := other args started
      rw [← kind] at no
      exact absurd its (Bool.eq_false_iff.mp no)
    | progressed id args | cleared => exact quiet old there its
    | finished args =>
      show args.status.status.inFlight = false
      cases args.status <;> rfl
    | reaped => rfl
  · exact absurd its (Bool.eq_false_iff.mp (other args rfl))

theorem run_settled {f : Apply → Option Apply} (settled : Settled c)
    (keeps : ∀ a a', f a = some a' → ∀ result, a'.phase.pending = some result → a.phase.pending = some result)
    (run : c.run f = some c') : Settled c' := by
  obtain ⟨a', did, rfl⟩ := Option.map_eq_some_iff.mp run
  obtain ⟨a, there, did⟩ := Option.bind_eq_some_iff.mp did
  intro is
  obtain ⟨result, pending, its⟩ := drained_apply is
  refine settled ((Option.any_eq_true _ _).mpr ⟨a, there, ?_⟩)
  exact (Option.any_eq_true _ _).mpr ⟨result, keeps a a' did result pending, its⟩

theorem poll_settled (sound : Sound c .poll) (polled : c.run (poll c.tasks) = some c') : Settled c' := by
  obtain ⟨a', did, rfl⟩ := Option.map_eq_some_iff.mp polled
  obtain ⟨a, there, did⟩ := Option.bind_eq_some_iff.mp did
  intro is r mem its
  obtain ⟨result, pending, waited⟩ := drained_apply is
  have total := poll_drained did pending waited
  have uncounted (r : TaskRow) (mem : r ∈ c.tasks.rows) : counted [a.args.className] r ≠ true := by
    intro its
    exact Nat.ne_of_gt (total_pos mem its) total
  rcases sound a there with ⟨other, mem', its'⟩ | every
  · exact absurd its' (uncounted other mem')
  refine Bool.eq_false_iff.mpr ?_
  intro busy
  exact uncounted r mem (every r mem its busy)

theorem step_settled {e : Event} (settled : Settled c) (sound : Sound c e) (taken : step c e = some c') :
    Settled c' := by
  cases e with
  | task a =>
    obtain ⟨tasks, did, rfl⟩ := Option.map_eq_some_iff.mp taken
    intro drained
    refine task_quiet (settled drained) ?_ did
    rintro args rfl
    exact sound drained
  | begin args =>
    simp only [step, applyShimAssignmentChange] at taken
    split at taken
    · contradiction
    obtain ⟨seconds, _, started⟩ := Option.bind_eq_some_iff.mp taken
    obtain ⟨_, _, rfl⟩ := Option.map_eq_some_iff.mp started
    intro is
    contradiction
  | poll => exact poll_settled sound taken
  | writeAssignment =>
    refine run_settled settled ?_ taken
    intro a a' did result pending
    unfold writeAssignment at did
    split at did
    · rename_i drain phase
      cases did
      rw [phase]
      exact pending
    · contradiction
  | roll =>
    refine run_settled settled ?_ taken
    intro a a' did result pending
    unfold roll at did
    split at did
    · cases did
      contradiction
    · contradiction
  | fail =>
    refine run_settled settled ?_ taken
    intro a a' did result pending
    cases did
    contradiction

/-- In every run in which the last poll overlooks no task in flight, and no consumer of the shim starts
from then until the roll, no consumer is in flight when the DaemonSet is rolled. -/
theorem drained_before_roll {now : Nat} {events : List Event}
    (sound : Guarded step Sound (Cluster.start now) events) : RolledQuiet now events := by
  rintro before ⟨rest, rfl⟩ c reached _ drained
  rw [append_assoc] at sound
  refine guarded_invariant (fun _ _ _ settled ok taken => step_settled settled ok taken) ?_ sound.front
    reached drained
  intro is
  contradiction

def backupOf (kind refId : String) : TaskStartArgs where
  kind := kind
  refId := some refId
  scope := .admin
  userId := some 7
  tenantId := none
  label := "Backup"
  target := .route "/backups"
  progressPct := none
  progressText := none
  details := none
  parentTaskId := none

def succeeds : TaskFinishArgs := ⟨.succeeded, none, none, none, false⟩

def switchTenant : ApplyArgs := ⟨.tenant, some ⟨1, "offsite", 300⟩, false, none, 7⟩

/- a bundle is waited for, a purge of a cache is not -/
def waited : List Event :=
  [.task (.start (backupOf "backup.bundle" "b")), .begin switchTenant, .poll, .task (.wait 5000),
    .task (.start (backupOf "cache.purge" "c")), .poll, .task (.finishByRef "backup.bundle" "b" succeeds),
    .task (.wait 5000), .poll, .writeAssignment, .roll]

theorem waited_quiet : RolledQuiet 0 waited := drained_before_roll (by decide +kernel)

/- a backup of another class runs on the one DaemonSet -/
def otherClass : List Event :=
  [.task (.start (backupOf "backup.run" "r")), .begin switchTenant, .poll, .writeAssignment, .roll]

/- a task runs again that was marked cleared when it had failed -/
def rerunCleared : List Event :=
  [.task (.start (backupOf "backup.bundle" "b")),
    .task (.finishByRef "backup.bundle" "b" ⟨.failed, none, none, none, true⟩),
    .task (.start (backupOf "backup.bundle" "b")), .begin switchTenant, .poll, .writeAssignment, .roll]

def startedLate : List Event :=
  [.begin switchTenant, .poll, .task (.start (backupOf "backup.bundle" "b")), .writeAssignment, .roll]

theorem not_quiet {now : Nat} {before : List Event}
    (fails : (exec step (Cluster.start now) before).any (fun c => (step c .roll).isSome && drained c &&
      c.tasks.rows.rows.any fun r => consumer r && r.status.inFlight) = true) :
    ¬ RolledQuiet now (before ++ [.roll]) := by
  intro claim
  obtain ⟨c, reached, its⟩ := (Option.any_eq_true _ _).mp fails
  simp only [Bool.and_eq_true, any_eq_true] at its
  obtain ⟨⟨rolls, waited⟩, r, mem, consumes, runs⟩ := its
  have quiet := claim before (prefix_refl _) c reached rolls waited r mem consumes
  rw [runs] at quiet
  contradiction

theorem rolled_under_backups : ¬ RolledQuiet 0 otherClass ∧ ¬ RolledQuiet 0 rerunCleared ∧
    ¬ RolledQuiet 0 startedLate := by
  refine ⟨?_, ?_, ?_⟩
  · exact @not_quiet 0 (otherClass.take 4) (by decide +kernel)
  · exact @not_quiet 0 (rerunCleared.take 6) (by decide +kernel)
  · exact @not_quiet 0 (startedLate.take 4) (by decide +kernel)

end HostingPlatform.BackupRcloneShim
