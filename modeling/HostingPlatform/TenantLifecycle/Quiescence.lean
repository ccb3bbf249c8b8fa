import HostingPlatform.TenantLifecycle.Steps

/-! What is left of the hook runs once no dispatcher and no tick is running. A run that is pending
is reached by its dispatcher alone, one that is running is saved by whoever marked it: the
candidates of a tick have failed. -/
namespace HostingPlatform.TenantLifecycle

open Table List Interleaving Transition

/-- The attempts are exhausted, or the failure is not to be retried. -/
def HookRun.permanentlyFailed (r : HookRun) : Prop :=
  r.state = .failed ∧ (r.nextAttemptAt = none ∨ r.maxAttempts ≤ r.attempts)

/-- Done, given up, or picked up by a tick at some later time. -/
def HookRun.settled (now : Nat) (r : HookRun) : Prop :=
  r.state.succeeded = true ∨ r.permanentlyFailed ∨ ∃ later, now ≤ later ∧ r.candidate later = true

def RowsSettle (w : Lifecycle) : Prop :=
  w.running.rows = [] → ∀ r ∈ w.db.log.hookRuns, r.settled w.db.clock

variable {r : HookRun} {running : Processes} {p : Process Task} {task' : Task} {db : Store} {x : Execution}
  {w : Lifecycle}

theorem settled_iff {now : Nat} : r.settled now ↔ r.state ≠ .pending ∧ r.state ≠ .running := by
  constructor
  · rintro (succeeded | ⟨failed, _⟩ | ⟨later, _, candidate⟩)
    · constructor <;> intro same <;> rw [same] at succeeded <;> cases succeeded
    · rw [failed]
      exact ⟨nofun, nofun⟩
    simp only [HookRun.candidate, Bool.and_eq_true, beq_iff_eq] at candidate
    rw [candidate.1.1]
    exact ⟨nofun, nofun⟩
  · rintro ⟨notPending, notRunning⟩
    cases state : r.state with
    | pending => exact absurd state notPending
    | running => exact absurd state notRunning
    | ok | noop =>
      refine .inl ?_
      rw [state]
      rfl
    | failed =>
      refine .inr ?_
      cases next : r.nextAttemptAt with
      | none => exact .inl ⟨state, .inl next⟩
      | some due =>
        by_cases exhausted : r.maxAttempts ≤ r.attempts
        · exact .inl ⟨state, .inr exhausted⟩
        · refine .inr ⟨max now due, Nat.le_max_left now due, ?_⟩
          simp [HookRun.candidate, state, next, Nat.not_le.mp exhausted, Nat.le_max_right]

def AbortsLast : Task → Prop
  | .saveResult x status =>
    x.hook.blocking = .abort → status.succeeded = false → x.caller.upcoming = []
  | _ => True

/-- A process that dies executes no hook, and if it is a dispatcher no hook run of its transition is
pending. -/
def LeavesNone (w : Lifecycle) (task : Task) : Prop :=
  (w.db.killed = true → task.executes = none ∧ ∀ r ∈ w.db.log.hookRuns.rows,
    r.state = .pending → task.dispatching ≠ some r.transitionId) ∧ AbortsLast task

/- someone is going to save the result of a run that is running, and to reach one that is pending -/
structure Attended (running : Processes) (r : HookRun) : Prop where
  executed : r.state = .running → ∃ p ∈ running, p.task.executes = some r.id
  awaited : r.state = .pending → ∃ p ∈ running,
    p.task.dispatching = some r.transitionId ∧ r.hookName ∈ p.task.upcoming

theorem Attended.of_settled (notPending : r.state ≠ .pending) (notRunning : r.state ≠ .running) : Attended running r :=
  ⟨fun is => absurd is notRunning, fun is => absurd is notPending⟩

section

variable (attended : Attended running r) (mem : p ∈ running)
include attended mem

theorem Attended.goes (executes : r.state = .running → p.task.executes = some r.id → task'.executes = some r.id)
    (awaits : r.state = .pending → p.task.dispatching = some r.transitionId → r.hookName ∈ p.task.upcoming →
      task'.dispatching = some r.transitionId ∧ r.hookName ∈ task'.upcoming) :
    Attended (resume running p.id (.next task' : Outcome Task Response)) r := by
  constructor
  · intro state
    obtain ⟨q, there, executing⟩ := attended.executed state
    by_cases same : q.id = p.id
    · obtain rfl := running.eq_of_key there mem same
      exact ⟨_, mem_resume_self mem, executes state executing⟩
    · exact ⟨q, mem_resume_other there same, executing⟩
  · intro state
    obtain ⟨q, there, dispatching, upcoming⟩ := attended.awaited state
    by_cases same : q.id = p.id
    · obtain rfl := running.eq_of_key there mem same
      exact ⟨_, mem_resume_self mem, awaits state dispatching upcoming⟩
    · exact ⟨q, mem_resume_other there same, dispatching, upcoming⟩

theorem Attended.goesOn (idle : p.task.executes = none)
    (awaits : r.state = .pending → p.task.dispatching = some r.transitionId → r.hookName ∈ p.task.upcoming →
      task'.dispatching = some r.transitionId ∧ r.hookName ∈ task'.upcoming) :
    Attended (resume running p.id (.next task' : Outcome Task Response)) r := by
  refine attended.goes mem ?_ awaits
  rw [idle]
  exact fun _ => nofun

theorem Attended.passes (idle : p.task.executes = none) (free : p.task.dispatching = none) :
    Attended (resume running p.id (.next task' : Outcome Task Response)) r := by
  refine attended.goesOn mem idle ?_
  rw [free]
  exact fun _ => nofun

theorem Attended.ends (idle : r.state = .running → p.task.executes ≠ some r.id)
    (done : r.state = .pending → p.task.dispatching = some r.transitionId → r.hookName ∉ p.task.upcoming) :
    Attended (running.delete (fun q => q.id == p.id)) r := by
  constructor
  · intro state
    obtain ⟨q, there, executing⟩ := attended.executed state
    refine ⟨q, mem_delete.mpr ⟨there, ?_⟩, executing⟩
    by_contra same
    obtain rfl := running.eq_of_key there mem (by simpa using same)
    exact idle state executing
  · intro state
    obtain ⟨q, there, dispatching, upcoming⟩ := attended.awaited state
    refine ⟨q, mem_delete.mpr ⟨there, ?_⟩, dispatching, upcoming⟩
    by_contra same
    obtain rfl := running.eq_of_key there mem (by simpa using same)
    exact done state dispatching upcoming

end

structure AllAttended (db : Store) (running : Processes) : Prop where
  orderly : Orderly db running
  rows : ∀ r ∈ db.log.hookRuns, Attended running r

theorem AllAttended.marked (inv : AllAttended db running) (mem : p ∈ running) (task : p.task = .markRunning x) :
    ∀ r ∈ (db.updateRun x.row.id (.start x.attempt) (fun _ => rfl)).log.hookRuns,
      Attended (resume running p.id (.next (.runHook x) : Outcome Task Response)) r := by
  intro r there
  have tidy := inv.orderly.tidy p mem
  rw [task] at tidy
  rcases mem_edited there with ⟨old, other⟩ | ⟨old, _, same, rfl⟩
  · refine (inv.rows r old).goes mem ?_ ?_
    · rw [task]
      exact fun _ => nofun
    rw [task]
    intro _ dispatching upcoming
    refine ⟨dispatching, ?_⟩
    obtain ⟨caller, hook, row⟩ := x
    cases caller with
    | tick t => exact absurd dispatching nofun
    | dispatcher d =>
      rcases mem_cons.mp upcoming with name | later
      · -- the row of the hook is the one that is marked
        obtain ⟨r', mem', known⟩ := tidy.rows row mem_cons_self
        obtain ⟨_, own, named⟩ := tidy.own _ rfl d rfl
        have index : r'.index = r.index := by
          rw [HookRun.same_index known]
          exact Prod.ext (own.trans (Option.some.inj dispatching)) (named.trans name.symm)
        obtain rfl := HookLog.eq_of_index mem' old index
        exact absurd (HookRun.same_id known) other
      · exact later
  · refine ⟨fun _ => ⟨_, mem_resume_self mem, ?_⟩, nofun⟩
    exact congrArg some same.symm

theorem AllAttended.saved {status : HookResultStatus} (inv : AllAttended db running) (mem : p ∈ running)
    (task : p.task = .saveResult x status) (last : AbortsLast p.task) :
    ∀ r ∈ (db.updateRun x.row.id (.settle status.saved (x.nextAttemptAt db.clock status))
        (fun _ => rfl)).log.hookRuns,
      Attended (resume running p.id (.next (x.after status) : Outcome Task Response)) r := by
  intro r there
  rw [task] at last
  have tidy := inv.orderly.tidy p mem
  rw [task] at tidy
  rcases mem_edited there with ⟨old, other⟩ | ⟨old, _, _, rfl⟩
  · refine (inv.rows r old).goes mem ?_ ?_
    · rw [task]
      intro _ executing
      exact absurd (Option.some.inj executing).symm other
    rw [task]
    intro _ dispatching upcoming
    obtain ⟨caller, hook, row⟩ := x
    cases caller with
    | tick t => cases dispatching
    | dispatcher d =>
      obtain ⟨going, _⟩ := tidy.own _ rfl d rfl
      simp only [Execution.after, Dispatch.note]
      by_cases succeeded : status.succeeded = true
      · rw [if_pos succeeded]
        refine ⟨dispatching, ?_⟩
        simpa [Task.upcoming, Caller.upcoming, Dispatch.upcoming, going] using upcoming
      rw [if_neg succeeded]
      refine ⟨dispatching, ?_⟩
      by_cases aborts : hook.blocking = .abort
      · have none : hookNames d.left = [] := last aborts (by simpa using succeeded)
        have awaited : r.hookName ∈ hookNames d.left := upcoming
        rw [none] at awaited
        exact absurd awaited not_mem_nil
      · simpa [Task.upcoming, Caller.upcoming, Dispatch.upcoming, going, aborts] using upcoming
  · exact Attended.of_settled (saved_settled status).1 (saved_settled status).2

theorem AllAttended.next {db' : Store} (inv : AllAttended db running) (mem : p ∈ running)
    (last : AbortsLast p.task) (next : Next db p.task db' task') :
    AllAttended db' (resume running p.id (.next task' : Outcome Task Response)) := by
  refine ⟨inv.orderly.next mem next, ?_⟩
  have tidy := inv.orderly.tidy p mem
  generalize task : p.task = before at next
  rw [task] at tidy
  cases next with
  | @inserted _ hook left hooks log done =>
    obtain ⟨_, _, rows⟩ := HookLog.insertRun_some done
    intro r there
    rcases (rows r).mp there with rfl | old
    · refine ⟨nofun, fun _ => ⟨_, mem_resume_self mem, rfl, ?_⟩⟩
      obtain ⟨_, some, _⟩ := tidy.inserts _ _ _ rfl
      exact mem_map_of_mem (some mem_cons_self)
    · refine (inv.rows r old).goesOn mem (by rw [task]; rfl) ?_
      rw [task]
      exact fun _ dispatching upcoming => ⟨dispatching, upcoming⟩
  | ready | ran =>
    intro r there
    refine (inv.rows r there).goes mem ?_ ?_
    · rw [task]
      exact fun _ executing => executing
    · rw [task]
      exact fun _ dispatching upcoming => ⟨dispatching, upcoming⟩
  | @hooksDone d none =>
    intro r there
    refine (inv.rows r there).goesOn mem (by rw [task]; rfl) ?_
    rw [task]
    intro _ _ upcoming
    simp [Task.upcoming, Dispatch.upcoming, none, hookNames] at upcoming
  | @passed d hook left first passed =>
    intro r there
    refine (inv.rows r there).goesOn mem (by rw [task]; rfl) ?_
    rw [task]
    intro _ dispatching upcoming
    refine ⟨dispatching, ?_⟩
    rcases passed with aborted | missing
    · simp [Task.upcoming, Dispatch.upcoming, aborted] at upcoming
    by_cases aborted : d.aborted = true
    · simp [Task.upcoming, Dispatch.upcoming, aborted] at upcoming
    · have other := missing r there (Option.some.inj dispatching).symm
      simpa [Task.upcoming, Dispatch.upcoming, first, hookNames, other] using upcoming
  | @found d hook left row first going there' own name =>
    intro r there
    refine (inv.rows r there).goesOn mem (by rw [task]; rfl) ?_
    rw [task]
    intro _ dispatching upcoming
    refine ⟨dispatching, ?_⟩
    simpa [Task.upcoming, Dispatch.upcoming, going, first, hookNames] using upcoming
  | dropped t row =>
    intro r there
    rcases mem_edited there with ⟨old, _⟩ | ⟨old, _, _, rfl⟩
    · exact (inv.rows r old).passes mem (by rw [task]; rfl) (by rw [task]; rfl)
    · exact Attended.of_settled (saved_settled .failed).1 (saved_settled .failed).2
  | marked x => exact inv.marked mem task
  | saved x status => exact inv.saved mem task last
  | _ =>
    exact fun r there => (inv.rows r there).passes mem (by rw [task]; rfl) (by rw [task]; rfl)

theorem AllAttended.last {db' : Store} (inv : AllAttended db running) (mem : p ∈ running)
    (last : Last db p.task db') : AllAttended db' (running.delete (fun q => q.id == p.id)) := by
  refine ⟨inv.orderly.ended mem last.follows, ?_⟩
  have tidy := inv.orderly.tidy p mem
  generalize task : p.task = before at last
  rw [task] at tidy
  cases last with
  | refused refused => exact absurd refused (tidy.inserted _)
  | completedEmpty | finished | ticked =>
    intro r there
    refine (inv.rows r there).ends mem ?_ ?_
    · rw [task]
      exact fun _ => nofun
    · rw [task]
      exact fun _ _ => not_mem_nil

theorem AllAttended.dies (inv : AllAttended w.db w.running) (mem : p ∈ w.running)
    (allowed : LeavesNone w p.task) (killed : w.db.killed = true) :
    AllAttended w.db (w.running.delete (fun q => q.id == p.id)) := by
  obtain ⟨idle, none⟩ := allowed.1 killed
  refine ⟨inv.orderly.ended mem (Follows.refl w.db _), ?_⟩
  intro r there
  refine (inv.rows r there).ends mem ?_ ?_
  · rw [idle]
    exact fun _ => nofun
  · exact fun pending dispatching => absurd dispatching (none r there pending)

theorem AllAttended.holds (inv : AllAttended w.db w.running) : RowsSettle w := by
  intro quiescent r there
  have nobody : ∀ p : Process Task, p ∉ w.running := by
    intro p mem
    rw [mem_rows, quiescent] at mem
    exact absurd mem not_mem_nil
  refine settled_iff.mpr ⟨?_, ?_⟩
  · intro pending
    obtain ⟨p, mem, _⟩ := (inv.rows r there).awaited pending
    exact nobody p mem
  · intro running
    obtain ⟨p, mem, _⟩ := (inv.rows r there).executed running
    exact nobody p mem

instance : (task : Task) → Decidable (AbortsLast task) := by
  intro _
  unfold AbortsLast
  split <;> infer_instance

instance (w : Lifecycle) (task : Task) : Decidable (LeavesNone w task) :=
  inferInstanceAs (Decidable ((w.db.killed = true → task.executes = none ∧
    ∀ r ∈ w.db.log.hookRuns.rows, r.state = .pending → task.dispatching ≠ some r.transitionId) ∧
    AbortsLast task))

/- a transition whose second hook fails, a tick that dies before it marks the row, and a tick that
runs the hook again -/
def retried : List (Action Task Change) :=
  .environment (.results (fun name => if name = "dns-zone-cleanup" then .retry else .noop)) ::
    .arrive 1 (.runTransition [systemTenantGuardHook, dnsZoneCleanupHook]) :: List.replicate 14 (.advance 1) ++
    [.environment (.results (fun _ => .ok)), .environment (.pass 5000),
      .arrive 2 (.runRetryTick [systemTenantGuardHook, dnsZoneCleanupHook]), .advance 2, .advance 2,
      .environment (.kill true), .advance 2, .environment (.kill false)] ++
    .arrive 3 (.runRetryTick [systemTenantGuardHook, dnsZoneCleanupHook]) :: List.replicate 10 (.advance 3)

/- the guard fails, and a hook is left behind it -/
def leftBehind : List (Action Task Change) :=
  .environment (.results (fun _ => .failed)) ::
    .arrive 1 (.runTransition [systemTenantGuardHook, dnsZoneCleanupHook]) :: List.replicate 11 (.advance 1)

end HostingPlatform.TenantLifecycle
