import HostingPlatform.TenantLifecycle.Quiescence

/-! What a hook that aborts its transition puts an end to. Its dispatcher still saves the result and the state of
the transition; every other process goes on, and the ticks may run the hook again. -/
namespace HostingPlatform.TenantLifecycle

open Table List Interleaving Transition

variable {db db' : Store} {task task' : Task} {w : Lifecycle} {p : Process Task} {transitionId : Nat}

/- the transition that a dispatcher aborts as it saves the result of a hook -/
def Task.aborts : Task → Option Nat
  | .saveResult ⟨.dispatcher d, hook, _⟩ status =>
    if hook.blocking = .abort ∧ status.succeeded = false then some d.transitionId else none
  | _ => none

/- the dispatcher has no hook to start and executes none -/
def Task.Stopped (task : Task) : Prop := task.upcoming = [] ∧ task.execution = none

theorem Next.stopped (next : Next db task db' task') (stopped : task.Stopped) : task'.Stopped ∨ task'.dispatching = none := by
  have upcoming : task'.upcoming = [] := sublist_nil.mp (stopped.1 ▸ next.upcoming)
  cases next with
  | found first running =>
    simp only [Task.Stopped, Task.upcoming, Dispatch.upcoming, running, first] at stopped
    cases stopped.1
  | taken => exact .inr rfl
  | marked | ran | saved => cases stopped.2
  | _ => exact .inl ⟨upcoming, rfl⟩

theorem Task.aborts_dispatching (aborts : task.aborts = some transitionId) : task.dispatching = some transitionId := by
  cases task with
  | saveResult x status =>
    obtain ⟨caller, hook, row⟩ := x
    cases caller with
    | tick t => cases aborts
    | dispatcher d =>
      simp only [Task.aborts] at aborts
      split at aborts <;> cases aborts
      rfl
  | _ => cases aborts

theorem Next.aborts (next : Next db task db' task') (aborts : task.aborts = some transitionId) : task'.Stopped := by
  cases next with
  | saved x status =>
    obtain ⟨caller, hook, row⟩ := x
    cases caller with
    | tick t => cases aborts
    | dispatcher d =>
      simp only [Task.aborts] at aborts
      split at aborts <;> cases aborts
      rename_i blocks
      refine ⟨?_, rfl⟩
      simp [Execution.after, Task.upcoming, Dispatch.upcoming, Dispatch.note, blocks.1, blocks.2]
  | _ => cases aborts

theorem execution_dispatching {x : Execution} (execution : task.execution = some x) :
    task.dispatching = x.caller.dispatching := by
  cases task <;> cases execution <;> rfl

/- what has been aborted is no new transition, and its dispatcher has stopped -/
structure Aborted (w : Lifecycle) : Prop where
  orderly : Orderly w.db w.running
  stopped : ∀ e ∈ w.log, ∀ id, e.task.aborts = some id → (∃ t ∈ w.db.log.transitions, t.id = id) ∧
    ∀ p ∈ w.running, p.task.dispatching = some id → p.task.Stopped
  final : w.log.Pairwise fun later earlier => ∀ id, earlier.task.aborts = some id →
    ∀ x, later.task.execution = some x → x.caller.dispatching ≠ some id

theorem advance_steps (db : Store) (task : Task) : Follows db (advance db task).1 task.dispatching ∧
    ((∃ task', (advance db task).2 = .next task' ∧ Next db task (advance db task).1 task') ∨
      ∃ response, (advance db task).2 = .answer response) := by
  unfold advance
  split
  · exact ⟨Follows.refl db _, .inr ⟨_, rfl⟩⟩
  rcases execute_steps db task with ⟨task', goes, next⟩ | ⟨response, ends, last⟩
  · exact ⟨next.follows, .inl ⟨task', goes, next⟩⟩
  · exact ⟨last.follows, .inr ⟨response, ends⟩⟩

theorem aborted_run (inv : Aborted w) (mem : p ∈ w.running) : Aborted (system.run w p) := by
  obtain ⟨follows, steps⟩ := advance_steps w.db p.task
  have goesOn : ∀ {id : Nat} {t : LifecycleTransition}, t ∈ w.db.log.transitions → t.id = id →
      ∃ t' ∈ (system.run w p).db.log.transitions, t'.id = id := by
    intro id t there same
    obtain ⟨t', there', same'⟩ := follows.transitions t there
    exact ⟨t', there', same'.trans same⟩
  refine ⟨?_, ?_, pairwise_cons.mpr ⟨?_, inv.final⟩⟩
  · show Orderly (advance w.db p.task).1 (resume w.running p.id (advance w.db p.task).2)
    rcases steps with ⟨task', goes, next⟩ | ⟨response, ends⟩
    · rw [goes]
      exact inv.orderly.next mem next
    · rw [ends]
      exact inv.orderly.ended mem follows
  · intro e meme id aborts
    rcases mem_cons.mp meme with rfl | old
    · have own := Task.aborts_dispatching aborts
      obtain ⟨t, there, same⟩ := (inv.orderly.tidy p mem).parent id own
      refine ⟨goesOn there same, ?_⟩
      intro q memq dispatching
      rcases mem_resume memq with ⟨oldq, other⟩ | ⟨task', goes, rfl⟩
      · exact absurd (congrArg Process.id (inv.orderly.alone p mem q oldq id own dispatching)).symm other
      rcases steps with ⟨left, next, step⟩ | ⟨response, ends⟩
      · cases goes.symm.trans next
        exact step.aborts aborts
      · cases goes.symm.trans ends
    · obtain ⟨⟨t, there, same⟩, stopped⟩ := inv.stopped e old id aborts
      refine ⟨goesOn there same, ?_⟩
      intro q memq dispatching
      rcases mem_resume memq with ⟨oldq, _⟩ | ⟨task', goes, rfl⟩
      · exact stopped q oldq dispatching
      rcases steps with ⟨left, next, step⟩ | ⟨response, ends⟩
      · cases goes.symm.trans next
        rcases step.dispatching with before | ⟨_, new, _⟩
        · rcases step.stopped (stopped p mem (before.symm.trans dispatching)) with still | none
          · exact still
          · cases dispatching.symm.trans none
        · cases dispatching.symm.trans new
          exact absurd same (Nat.ne_of_lt (w.db.log.transitionsDrawn t there))
      · cases goes.symm.trans ends
  · intro e old id aborts x execution dispatching
    have none := ((inv.stopped e old id aborts).2 p mem ((execution_dispatching execution).trans dispatching)).2
    cases execution.symm.trans none

/-- Once the failure of a blocking hook has been saved, the dispatcher of its transition runs no further hook,
whatever interleaves with it. -/
theorem aborts_final (db : Store) (actions : List (Action Task Change)) (w : Lifecycle)
    (run : exec system.step (World.initial db) actions = some w) :
    w.log.Pairwise fun later earlier => ∀ id, earlier.task.aborts = some id →
      ∀ x, later.task.execution = some x → x.caller.dispatching ≠ some id := by
  have inv : Aborted w := by
    refine System.invariant_always ?_ (fun v p inv mem => aborted_run inv mem) ?_ ?_ run
    · intro v running p inv requested inserted
      refine ⟨inv.orderly.arrive requested inserted, ?_, inv.final⟩
      intro e meme id aborts
      obtain ⟨known, stopped⟩ := inv.stopped e meme id aborts
      refine ⟨known, ?_⟩
      intro q memq dispatching
      rcases (mem_insert inserted).mp memq with rfl | old
      · cases (@Tidy.requested v.db q.task requested).2.symm.trans dispatching
      · exact stopped q old dispatching
    · intro v change inv
      have same : (system.environment v.db change).log = v.db.log := by cases change <;> rfl
      refine ⟨inv.orderly.environment same, ?_, inv.final⟩
      rw [same]
      exact inv.stopped
    · exact ⟨Orderly.initial db, fun _ mem => absurd mem not_mem_nil, Pairwise.nil⟩
  exact inv.final

theorem aborts_final_left_behind : ∃ w, exec system.step (World.initial freshStore) leftBehind = some w ∧
      w.log.any (fun e => e.task.aborts.isSome) = true ∧
      w.log.Pairwise fun later earlier => ∀ id, earlier.task.aborts = some id →
        ∀ x, later.task.execution = some x → x.caller.dispatching ≠ some id := by
  have runs : (exec system.step (World.initial freshStore) leftBehind).any
      (fun w => w.log.any (fun e => e.task.aborts.isSome)) = true := by decide
  obtain ⟨w, run, aborted⟩ := (Option.any_eq_true _ _).mp runs
  exact ⟨w, run, aborted, aborts_final freshStore leftBehind w run⟩

end HostingPlatform.TenantLifecycle
