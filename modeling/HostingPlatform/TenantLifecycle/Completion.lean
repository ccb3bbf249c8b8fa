import HostingPlatform.TenantLifecycle.Steps

/-! The state of a transition against the states of its hook runs. A dispatcher writes the state
its own tally calls for, a tick writes `completed` when it finds no row failed or pending. The two
agree with the rows as long as no statement of another process comes between. -/
namespace HostingPlatform.TenantLifecycle

open Table List Interleaving Transition

def AllOk (db : Store) (transitionId : Nat) : Prop :=
  ∀ r ∈ db.log.hookRuns, r.transitionId = transitionId → r.state.succeeded = true

structure Consistent (w : Lifecycle) : Prop where
  completed : w.running.rows = [] →
    ∀ t ∈ w.db.log.transitions, t.state = .completed ↔ AllOk w.db t.id
  withinBudget : ∀ r ∈ w.db.log.hookRuns, r.attempts ≤ r.maxAttempts
  apart : ∀ p ∈ w.running, ∀ q ∈ w.running, ∀ id ∈ p.task.executes,
    q.task.executes = some id → p = q

def Task.finishing : Task → Option Nat
  | .countFailed _ transitionId | .countPending _ transitionId | .complete _ transitionId =>
    some transitionId
  | _ => none

def StillFailed (db : Store) (id : Nat) : Prop :=
  ∃ r ∈ db.log.hookRuns.rows, r.id = id ∧ r.state = .failed

/-- A tick runs a row again that is still failed, once the dispatcher has left the transition, and
re-evaluates a transition that has no hook running. Every hook may be attempted. -/
def Isolated (w : Lifecycle) : Task → Prop
  | .markRunning ⟨.dispatcher _, _, row⟩ => row.attempts < row.maxAttempts
  | .markRunning ⟨.tick _, _, row⟩ => StillFailed w.db row.id ∧
      ∀ p ∈ w.running.rows, p.task.dispatching ≠ some row.transitionId
  | .dropRun _ row => StillFailed w.db row.id
  | .countFailed _ transitionId => w.db.rechecks = true ∧
      ∀ r ∈ w.db.log.hookRuns.rows, r.transitionId = transitionId → r.state ≠ .running
  | .countPending _ _ | .complete _ _ => w.db.rechecks = true
  | _ => True

/-- A process that dies has nothing under way. -/
def Undisturbed (w : Lifecycle) (task : Task) : Prop :=
  (w.db.killed = true →
    task.dispatching = none ∧ task.executes = none ∧ task.finishing = none) ∧ Isolated w task

/- the transition a tick is at, from the statement that marks one of its rows -/
def Task.retries : Task → Option Nat
  | .runHook ⟨.tick _, _, row⟩ | .saveResult ⟨.tick _, _, row⟩ _ => some row.transitionId
  | .countFailed _ transitionId | .countPending _ transitionId | .complete _ transitionId =>
    some transitionId
  | _ => none

def Caller.failures : Caller → Nat
  | .dispatcher d => d.hooksFailed
  | .tick _ => 0

def Task.failures : Task → Nat
  | .findHookRun d | .finish d => d.hooksFailed
  | .markRunning x | .runHook x | .saveResult x _ => x.caller.failures
  | _ => 0

structure Tallied (db : Store) (transitionId : Nat) (task : Task) : Prop where
  unsettled : ∀ t ∈ db.log.transitions, t.id = transitionId → t.state = .running
  waiting : ∀ r ∈ db.log.hookRuns, r.transitionId = transitionId → r.hookName ∈ task.upcoming →
    r.state = .pending
  failed : 0 < task.failures →
    ∃ r ∈ db.log.hookRuns, r.transitionId = transitionId ∧ r.state = .failed
  done : task.failures = 0 → ∀ r ∈ db.log.hookRuns, r.transitionId = transitionId →
    r.hookName ∉ task.upcoming → task.executes = some r.id ∨ r.state.succeeded = true
  aborts : ∀ d, task = .findHookRun d ∨ task = .finish d → d.aborted = true → 0 < d.hooksFailed

structure SameStates (db db' : Store) (transitionId : Nat) : Prop where
  kept : ∀ r ∈ db.log.hookRuns, r.transitionId = transitionId →
    ∃ r' ∈ db'.log.hookRuns, r'.identity = r.identity ∧ r'.state = r.state
  origin : ∀ r' ∈ db'.log.hookRuns, r'.transitionId = transitionId →
    ∃ r ∈ db.log.hookRuns, r.identity = r'.identity ∧ r.state = r'.state

variable {db db' : Store}

theorem SameStates.of_runs (same : db'.log.hookRuns = db.log.hookRuns)
    (transitionId : Nat) : SameStates db db' transitionId where
  kept r mem _ := ⟨r, same ▸ mem, rfl, rfl⟩
  origin r mem _ := ⟨r, same ▸ mem, rfl, rfl⟩

variable {transitionId : Nat}

theorem SameStates.symm (same : SameStates db db' transitionId) : SameStates db' db transitionId where
  kept := same.origin
  origin := same.kept

theorem SameStates.allOk (same : SameStates db db' transitionId) (all : AllOk db transitionId) :
    AllOk db' transitionId := by
  intro r' mem' own
  obtain ⟨r, mem, identity, state⟩ := same.origin r' mem' own
  rw [← state]
  exact all r mem ((HookRun.same_transition identity).trans own)

variable {id : Nat} {f : HookRun → HookRun} {keeps : ∀ r, (f r).identity = r.identity} {task : Task}
  {d : Dispatch} {hook : LifecycleHook} {row : HookRun} {running : Processes} {p : Process Task}

theorem SameStates.updateRun
    (spares : ∀ r ∈ db.log.hookRuns, r.id = id → r.transitionId = transitionId → (f r).state = r.state) :
    SameStates db (db.updateRun id f keeps) transitionId where
  kept r mem own := by
    by_cases same : r.id = id
    · exact ⟨f r, mem_touched mem same, keeps r, spares r mem same own⟩
    · exact ⟨r, mem_untouched mem same, rfl, rfl⟩
  origin r' mem own := by
    rcases mem_edited mem with ⟨old, _⟩ | ⟨old, there, same, rfl⟩
    · exact ⟨r', old, rfl, rfl⟩
    · exact ⟨old, there, (keeps old).symm,
        (spares old there same ((HookRun.same_transition (keeps old)).symm.trans own)).symm⟩

theorem Tallied.spared (tallied : Tallied db transitionId task) (same : SameStates db db' transitionId)
    (transitions : ∀ t ∈ db'.log.transitions, t.id = transitionId → t ∈ db.log.transitions) :
    Tallied db' transitionId task where
  unsettled t mem own := tallied.unsettled t (transitions t mem own) own
  waiting r' mem' own upcoming := by
    obtain ⟨r, mem, identity, state⟩ := same.origin r' mem' own
    rw [← state]
    rw [← HookRun.same_name identity] at upcoming
    exact tallied.waiting r mem ((HookRun.same_transition identity).trans own) upcoming
  failed some := by
    obtain ⟨r, mem, own, failed⟩ := tallied.failed some
    obtain ⟨r', mem', identity, state⟩ := same.kept r mem own
    exact ⟨r', mem', (HookRun.same_transition identity).trans own, state.trans failed⟩
  done none r' mem' own reached := by
    obtain ⟨r, mem, identity, state⟩ := same.origin r' mem' own
    rw [← HookRun.same_name identity] at reached
    rw [← state, ← HookRun.same_id identity]
    exact tallied.done none r mem ((HookRun.same_transition identity).trans own) reached
  aborts := tallied.aborts

theorem Tallied.opened (db : Store) (failures : task.failures = 0)
    (aborts : ∀ d, task ≠ .findHookRun d ∧ task ≠ .finish d) : Tallied (insertTransition db) db.log.supply task := by
  have none : ∀ r ∈ db.log.hookRuns, r.transitionId ≠ db.log.supply := by
    intro r mem
    obtain ⟨t, there, parent⟩ := db.log.references r mem
    rw [← parent]
    exact Nat.ne_of_lt (db.log.transitionsDrawn t there)
  refine ⟨?_, ?_, ?_, ?_, ?_⟩
  · intro t mem own
    rcases HookLog.mem_insertTransition.mp mem with rfl | old
    · rfl
    · exact absurd own (Nat.ne_of_lt (db.log.transitionsDrawn t old))
  · exact fun r mem own => absurd own (none r mem)
  · rw [failures]
    exact fun some => absurd some (Nat.lt_irrefl 0)
  · exact fun _ r mem own => absurd own (none r mem)
  rintro d (same | same)
  · exact absurd same (aborts d).1
  · exact absurd same (aborts d).2

theorem Tallied.inserted {hook : LifecycleHook} {left hooks : List LifecycleHook} {log : HookLog}
    (tidy : Tidy db (.insertHookRun transitionId (hook :: left) hooks))
    (tallied : Tallied db transitionId (.insertHookRun transitionId (hook :: left) hooks))
    (done : db.log.insertRun transitionId hook.name (hook.maxAttempts.getD defaultMaxAttempts) =
      some log) : Tallied { db with log } transitionId (.insertHookRun transitionId left hooks) := by
  obtain ⟨transitions, _, rows⟩ := HookLog.insertRun_some done
  obtain ⟨_, some, _⟩ := tidy.inserts _ _ _ rfl
  refine ⟨?_, ?_, ?_, ?_, ?_⟩
  · intro t mem own
    exact tallied.unsettled t (transitions ▸ mem) own
  · intro r mem own upcoming
    rcases (rows r).mp mem with rfl | old
    · rfl
    · exact tallied.waiting r old own upcoming
  · exact fun some => absurd some (Nat.lt_irrefl 0)
  · intro none r mem own reached
    rcases (rows r).mp mem with rfl | old
    · exact absurd (mem_map_of_mem (some mem_cons_self)) reached
    · exact tallied.done none r old own reached
  · rintro d (same | same) <;> cases same

theorem Tallied.goes {task' : Task} (tallied : Tallied db transitionId task)
    (failures : task'.failures = task.failures) (waiting : ∀ name ∈ task'.upcoming, name ∈ task.upcoming)
    (reached : ∀ r ∈ db.log.hookRuns, r.transitionId = transitionId →
      r.hookName ∈ task.upcoming → r.hookName ∈ task'.upcoming ∨ task'.failures ≠ 0)
    (executes : ∀ id, task.executes = some id → task'.executes = some id)
    (aborts : ∀ d, task' = .findHookRun d ∨ task' = .finish d → d.aborted = true → 0 < d.hooksFailed) :
    Tallied db transitionId task' where
  unsettled := tallied.unsettled
  waiting r mem own upcoming := tallied.waiting r mem own (waiting _ upcoming)
  failed some := tallied.failed (failures ▸ some)
  done none r mem own passed := by
    by_cases upcoming : r.hookName ∈ task.upcoming
    · rcases reached r mem own upcoming with later | some
      · exact absurd later passed
      · exact absurd none some
    · exact (tallied.done (failures ▸ none) r mem own upcoming).imp (executes _) id
  aborts := aborts

theorem Tallied.passed {d : Dispatch} {hook : LifecycleHook} {left : List LifecycleHook}
    (tallied : Tallied db d.transitionId (.findHookRun d)) (first : d.left = hook :: left) (passed : d.aborted = true ∨
      ∀ r ∈ db.log.hookRuns, r.transitionId = d.transitionId → r.hookName ≠ hook.name) :
    Tallied db d.transitionId (.findHookRun { d with left }) := by
  refine tallied.goes rfl ?_ ?_ (fun _ => id) ?_
  · intro name upcoming
    exact (Dispatch.upcoming_rest first).subset upcoming
  · intro r mem own upcoming
    by_cases aborted : d.aborted = true
    · exact .inr (Nat.ne_of_gt (tallied.aborts d (.inl rfl) aborted))
    have missing := passed.resolve_left aborted r mem own
    refine .inl ?_
    simpa [Task.upcoming, Dispatch.upcoming, first, hookNames, missing] using upcoming
  · rintro d' (same | same) aborted
    · cases same
      exact tallied.aborts d (.inl rfl) aborted
    · cases same

theorem Tallied.marked (tidy : Tidy db (.markRunning ⟨.dispatcher d, hook, row⟩))
    (tallied : Tallied db d.transitionId (.markRunning ⟨.dispatcher d, hook, row⟩)) :
    Tallied (db.updateRun row.id (.start (row.attempts + 1)) (fun _ => rfl)) d.transitionId
      (.runHook ⟨.dispatcher d, hook, row⟩) := by
  obtain ⟨r₀, mem₀, known⟩ := tidy.rows row mem_cons_self
  obtain ⟨_, own₀, name₀⟩ := tidy.own _ rfl d rfl
  have id₀ : r₀.id = row.id := HookRun.same_id known
  have named : r₀.hookName = hook.name := (HookRun.same_name known).trans name₀
  have pending : r₀.state = .pending :=
    tallied.waiting r₀ mem₀ ((HookRun.same_transition known).trans own₀) (named ▸ mem_cons_self)
  have first : hook.name ∉ hookNames d.left := (nodup_cons.mp tidy.distinct).1
  refine ⟨tallied.unsettled, ?_, ?_, ?_, ?_⟩
  · intro r mem own upcoming
    rcases mem_edited mem with ⟨old, _⟩ | ⟨old, there, same, rfl⟩
    · exact tallied.waiting r old own (mem_cons_of_mem _ upcoming)
    · obtain rfl := db.log.hookRuns.eq_of_key there mem₀ (same.trans id₀.symm)
      exact absurd (named ▸ upcoming) first
  · intro some
    obtain ⟨r, mem, own, failed⟩ := tallied.failed some
    have other : r.id ≠ row.id := by
      intro same
      obtain rfl := db.log.hookRuns.eq_of_key mem mem₀ (same.trans id₀.symm)
      rw [pending] at failed
      cases failed
    exact ⟨r, mem_untouched mem other, own, failed⟩
  · intro none r mem own reached
    rcases mem_edited mem with ⟨old, other⟩ | ⟨old, there, same, rfl⟩
    · refine (tallied.done none r old own ?_).imp nofun id
      intro upcoming
      rcases mem_cons.mp upcoming with name | later
      · have index : r.index = r₀.index := Prod.ext (own.trans ((HookRun.same_transition known).trans own₀).symm)
            (name.trans named.symm)
        obtain rfl := HookLog.eq_of_index old mem₀ index
        exact other id₀
      · exact reached later
    · exact .inl (congrArg some same.symm)
  · rintro d' (same | same) <;> cases same

theorem Tallied.saved {status : HookResultStatus} (next : Option Nat)
    (tidy : Tidy db (.saveResult ⟨.dispatcher d, hook, row⟩ status))
    (tallied : Tallied db d.transitionId (.saveResult ⟨.dispatcher d, hook, row⟩ status))
    (executing : ∃ r ∈ db.log.hookRuns, r.id = row.id ∧ r.state = .running) :
    Tallied (db.updateRun row.id (.settle status.saved next) (fun _ => rfl)) d.transitionId
      (.findHookRun (d.note hook status)) := by
  obtain ⟨r₀, mem₀, id₀, running⟩ := executing
  obtain ⟨going, own₀, _⟩ := tidy.own _ rfl d rfl
  have own : r₀.transitionId = d.transitionId := by
    obtain ⟨r, mem, known⟩ := tidy.rows row mem_cons_self
    obtain rfl := db.log.hookRuns.eq_of_key mem mem₀ ((HookRun.same_id known).trans id₀.symm)
    exact (HookRun.same_transition known).trans own₀
  have waiting : ∀ r ∈ (db.updateRun row.id (.settle status.saved next) (fun _ => rfl)).log.hookRuns,
      r.transitionId = d.transitionId → r.hookName ∈ (d.note hook status).upcoming →
      r.state = .pending := by
    intro r mem own upcoming
    have later := (Dispatch.upcoming_note d hook status).subset upcoming
    rcases mem_edited mem with ⟨old, _⟩ | ⟨old, there, same, rfl⟩
    · exact tallied.waiting r old own later
    obtain rfl := db.log.hookRuns.eq_of_key there mem₀ (same.trans id₀.symm)
    have pending := tallied.waiting old there own later
    rw [running] at pending
    cases pending
  by_cases succeeded : status.succeeded = true
  · have noted : d.note hook status = { d with hooksOk := d.hooksOk + 1 } := if_pos succeeded
    rw [noted] at waiting ⊢
    refine ⟨tallied.unsettled, waiting, ?_, ?_, ?_⟩
    · intro some
      obtain ⟨r, mem, own, failed⟩ := tallied.failed some
      have other : r.id ≠ row.id := by
        intro same
        obtain rfl := db.log.hookRuns.eq_of_key mem mem₀ (same.trans id₀.symm)
        rw [running] at failed
        cases failed
      exact ⟨r, mem_untouched mem other, own, failed⟩
    · intro none r mem own reached
      rcases mem_edited mem with ⟨old, other⟩ | ⟨old, _, _, rfl⟩
      · have passed : r.hookName ∉ hookNames d.left := by
          simpa [Task.upcoming, Dispatch.upcoming, going] using reached
        refine .inr ((tallied.done none r old own passed).resolve_left ?_)
        exact fun executes => other (Option.some.inj executes).symm
      · cases status <;> first | exact .inr rfl | cases succeeded
    · rintro d' (same | same) aborted
      · cases same
        rw [going] at aborted
        cases aborted
      · cases same
  · have noted : (d.note hook status).hooksFailed = d.hooksFailed + 1 := by
      rw [Dispatch.note, if_neg succeeded]
    have saved : status.saved = .failed := by
      cases status <;> first | rfl | exact absurd rfl succeeded
    refine ⟨tallied.unsettled, waiting, ?_, ?_, ?_⟩
    · exact fun _ => ⟨_, mem_touched mem₀ id₀, own, saved⟩
    · intro none
      rw [Task.failures, noted] at none
      cases none
    rintro d' (same | same) _
    · cases same
      rw [noted]
      exact Nat.succ_pos _
    · cases same

theorem Next.tallied {task' : Task} (next : Next db task db' task') (tidy : Tidy db task)
    (tallied : ∀ transitionId ∈ task.dispatching, Tallied db transitionId task)
    (executing : ∀ id ∈ task.executes, ∃ r ∈ db.log.hookRuns, r.id = id ∧ r.state = .running) :
    ∀ transitionId ∈ task'.dispatching, Tallied db' transitionId task' := by
  intro transitionId own
  cases next with
  | openedEmpty | opened =>
    cases own
    exact Tallied.opened db rfl (fun d => ⟨nofun, nofun⟩)
  | inserted hooks done =>
    cases own
    exact Tallied.inserted tidy (tallied _ rfl) done
  | ready t hooks =>
    cases own
    refine (tallied _ rfl).goes rfl (fun _ => id) (fun r _ _ => .inl) (fun _ => nofun) ?_
    rintro d (same | same) aborted <;> cases same
    cases aborted
  | @hooksDone d none =>
    cases own
    refine (tallied _ rfl).goes rfl (fun _ => nofun) ?_ (fun _ => nofun) ?_
    · intro r _ _ upcoming
      simp [Task.upcoming, Dispatch.upcoming, none, hookNames] at upcoming
    · rintro d' (same | same) aborted <;> cases same
      exact (tallied _ rfl).aborts d (.inl rfl) aborted
  | passed first passed =>
    cases own
    exact (tallied _ rfl).passed first passed
  | @found d hook left row first going =>
    cases own
    have same : Task.upcoming (.findHookRun d) = hook.name :: hookNames left := by
      rw [Task.upcoming, Dispatch.upcoming, going, first]
      rfl
    refine (tallied _ rfl).goes rfl ?_ ?_ (fun _ => nofun) ?_
    · intro name upcoming
      rw [same]
      exact upcoming
    · intro r _ _ upcoming
      rw [same] at upcoming
      exact .inl upcoming
    · rintro d' (other | other) <;> cases other
  | ran x =>
    refine (tallied _ own).goes rfl (fun _ => id) (fun r _ _ => .inl) (fun _ => id) ?_
    rintro d (other | other) <;> cases other
  | marked x =>
    obtain ⟨caller, hook, row⟩ := x
    cases caller with
    | dispatcher d =>
      cases own
      exact Tallied.marked tidy (tallied _ rfl)
    | tick t => cases own
  | saved x status =>
    obtain ⟨caller, hook, row⟩ := x
    cases caller with
    | dispatcher d =>
      have same : transitionId = d.transitionId := by
        simp only [Execution.after, Dispatch.note] at own
        split at own <;> exact (Option.some.inj own).symm
      subst same
      exact Tallied.saved _ tidy (tallied _ rfl) (executing _ rfl)
    | tick t =>
      simp only [Execution.after] at own
      split at own <;> cases own
  | _ => cases own

/- the rows and transitions of a store, and what the running processes make of them -/
structure Sound (db : Store) (running : Processes) : Prop where
  orderly : Orderly db running
  tallied : ∀ p ∈ running, ∀ transitionId ∈ p.task.dispatching, Tallied db transitionId p.task
  executing : ∀ p ∈ running, ∀ id ∈ p.task.executes,
    ∃ r ∈ db.log.hookRuns, r.id = id ∧ r.state = .running
  exclusive : ∀ p ∈ running, ∀ q ∈ running, ∀ id ∈ p.task.executes,
    q.task.executes = some id → p = q
  due : ∀ p ∈ running, p.task.dispatching = none →
    ∀ row ∈ p.task.rows, row.attempts < row.maxAttempts
  apart : ∀ p ∈ running, ∀ q ∈ running, ∀ transitionId ∈ p.task.retries,
    q.task.dispatching ≠ some transitionId
  known : ∀ p ∈ running, ∀ transitionId ∈ p.task.retries,
    ∃ t ∈ db.log.transitions, t.id = transitionId
  counted : ∀ p ∈ running, ∀ t transitionId, p.task = .countPending t transitionId →
    ∀ r ∈ db.log.hookRuns, r.transitionId = transitionId →
      r.state = .pending ∨ r.state.succeeded = true
  complete : ∀ p ∈ running, ∀ t transitionId, p.task = .complete t transitionId →
    AllOk db transitionId
  budget : ∀ r ∈ db.log.hookRuns, r.attempts ≤ r.maxAttempts
  completed : ∀ t ∈ db.log.transitions, t.state = .completed → AllOk db t.id
  lifted : ∀ t ∈ db.log.transitions, AllOk db t.id → t.state = .completed ∨
    ∃ p ∈ running, p.task.dispatching = some t.id ∨ p.task.finishing = some t.id

theorem Sound.holds {w : Lifecycle} (sound : Sound w.db w.running) : Consistent w := by
  refine ⟨?_, sound.budget, sound.exclusive⟩
  intro quiescent t mem
  constructor
  · exact sound.completed t mem
  intro all
  rcases sound.lifted t mem all with completed | ⟨p, running, _⟩
  · exact completed
  · rw [mem_rows, quiescent] at running
    exact absurd running not_mem_nil

theorem SameStates.execution (known : Known db row) (other : row.transitionId ≠ transitionId) :
    SameStates db (db.updateRun row.id f keeps) transitionId := by
  refine SameStates.updateRun ?_
  intro r mem same own
  obtain ⟨r₀, mem₀, identity⟩ := known
  obtain rfl := db.log.hookRuns.eq_of_key mem mem₀ (same.trans (HookRun.same_id identity).symm)
  exact absurd ((HookRun.same_transition identity).symm.trans own) other

theorem SameStates.dropped (still : StillFailed db id) (next : Option Nat) (transitionId : Nat) :
    SameStates db (db.updateRun id (.settle .failed next) (fun _ => rfl)) transitionId := by
  refine SameStates.updateRun ?_
  intro r mem same _
  obtain ⟨r₀, mem₀, same₀, failed⟩ := still
  obtain rfl := db.log.hookRuns.eq_of_key mem mem₀ (same.trans same₀.symm)
  exact failed.symm

section Step

variable {w : Lifecycle} {p : Process Task} {task task' : Task} {db' : Store}

section

variable (sound : Sound w.db w.running) (mem : p ∈ w.running) (is : p.task = task) (isolated : Isolated w task)
  (next : Next w.db task db' task')
include sound mem is isolated next

theorem Sound.others_tallied : ∀ q ∈ w.running, q.id ≠ p.id → ∀ transitionId ∈ q.task.dispatching,
      Tallied db' transitionId q.task := by
  intro q memq other transitionId own
  have tidy : Tidy w.db task := is ▸ sound.orderly.tidy p mem
  have alone : task.dispatching ≠ some transitionId := is ▸ sound.orderly.apart mem memq other transitionId own
  have retired : task.retries ≠ some transitionId := by
    intro retries
    exact sound.apart p mem q memq transitionId (is ▸ retries) own
  have tallied := sound.tallied q memq transitionId own
  have rests : ∀ t ∈ w.db.log.transitions, t.id = transitionId → t ∈ w.db.log.transitions := fun t there _ => there
  cases next with
  | openedEmpty | opened =>
    refine tallied.spared (SameStates.of_runs ?_ transitionId) ?_
    · rfl
    intro t there same
    rcases HookLog.mem_insertTransition.mp there with rfl | old
    · obtain ⟨t', there', known⟩ := (sound.orderly.tidy q memq).parent transitionId own
      exact absurd (known.trans same.symm) (Nat.ne_of_lt (w.db.log.transitionsDrawn t' there'))
    · exact old
  | @inserted mine _ _ _ log done =>
    obtain ⟨transitions, _, rows⟩ := HookLog.insertRun_some done
    refine tallied.spared ⟨?_, ?_⟩ (by rw [transitions]; exact rests)
    · exact fun r there _ => ⟨r, (rows r).mpr (.inr there), rfl, rfl⟩
    intro r there same
    rcases (rows r).mp there with rfl | old
    · exact absurd (congrArg some same) alone
    · exact ⟨r, old, rfl, rfl⟩
  | dropped t row => exact tallied.spared (SameStates.dropped isolated none transitionId) rests
  | marked x =>
    refine tallied.spared (SameStates.execution (tidy.rows x.row mem_cons_self) ?_) rests
    obtain ⟨caller, hook, row⟩ := x
    cases caller with
    | dispatcher d =>
      obtain ⟨_, same, _⟩ := tidy.own _ rfl d rfl
      intro same'
      exact alone (congrArg some (same.symm.trans same'))
    | tick t =>
      intro same
      exact isolated.2 q memq (same ▸ own)
  | saved x status =>
    refine tallied.spared (SameStates.execution (tidy.rows x.row mem_cons_self) ?_) rests
    obtain ⟨caller, hook, row⟩ := x
    cases caller with
    | dispatcher d =>
      obtain ⟨_, same, _⟩ := tidy.own _ rfl d rfl
      intro same'
      exact alone (congrArg some (same.symm.trans same'))
    | tick t => exact fun same => retired (congrArg some same)
  | completed t =>
    refine tallied.spared (SameStates.of_runs ?_ transitionId) ?_
    · rfl
    intro t there same
    rcases HookLog.mem_setState.mp there with ⟨old, _⟩ | ⟨_, _, _, rfl⟩
    · exact old
    · exact absurd (congrArg some same) retired
  | _ => exact tallied

theorem Sound.all_states {P : HookRunState → Prop} (notRunning : ¬ P .running) (notFailed : ¬ P .failed)
    {transitionId : Nat} (others : task.dispatching ≠ some transitionId)
    (all : ∀ r ∈ w.db.log.hookRuns, r.transitionId = transitionId → P r.state) :
    ∀ r ∈ db'.log.hookRuns, r.transitionId = transitionId → P r.state := by
  have tidy : Tidy w.db task := is ▸ sound.orderly.tidy p mem
  have executing : ∀ id ∈ task.executes, ∃ r ∈ w.db.log.hookRuns, r.id = id ∧ r.state = .running :=
    is ▸ sound.executing p mem
  have running : ∀ old ∈ w.db.log.hookRuns, old.transitionId = transitionId → old.state ≠ .running := by
    intro old there own state
    exact notRunning (state ▸ all old there own)
  have failed : ∀ old ∈ w.db.log.hookRuns, old.transitionId = transitionId → ¬ StillFailed w.db old.id := by
    rintro old there own ⟨r, there', same, state⟩
    obtain rfl := w.db.log.hookRuns.eq_of_key there' there same
    exact notFailed (state ▸ all r there own)
  intro r there own
  cases next with
  | inserted hooks done =>
    obtain ⟨_, _, rows⟩ := HookLog.insertRun_some done
    rcases (rows r).mp there with rfl | old
    · exact absurd (congrArg some own) others
    · exact all r old own
  | dropped t row =>
    rcases mem_edited there with ⟨old, _⟩ | ⟨old, there', same, rfl⟩
    · exact all r old own
    · exact absurd (same ▸ isolated) (failed old there' own)
  | marked x =>
    rcases mem_edited there with ⟨old, _⟩ | ⟨old, there', same, rfl⟩
    · exact all r old own
    obtain ⟨caller, hook, row⟩ := x
    cases caller with
    | dispatcher d =>
      obtain ⟨r₀, mem₀, identity⟩ := tidy.rows row mem_cons_self
      obtain rfl := w.db.log.hookRuns.eq_of_key there' mem₀ (same.trans (HookRun.same_id identity).symm)
      obtain ⟨_, mine, _⟩ := tidy.own _ rfl d rfl
      have same' := (HookRun.same_transition identity).trans mine
      exact absurd (congrArg some (same'.symm.trans own)) others
    | tick t => exact absurd (same ▸ isolated.1) (failed old there' own)
  | saved x status =>
    rcases mem_edited there with ⟨old, _⟩ | ⟨old, there', same, rfl⟩
    · exact all r old own
    obtain ⟨r₀, mem₀, same₀, state⟩ := executing _ rfl
    obtain rfl := w.db.log.hookRuns.eq_of_key there' mem₀ (same.trans same₀.symm)
    exact absurd state (running old there' own)
  | _ => exact all r there own

theorem Sound.others_executing : ∀ q ∈ w.running, q.id ≠ p.id → ∀ id ∈ q.task.executes,
      ∃ r ∈ db'.log.hookRuns, r.id = id ∧ r.state = .running := by
  intro q memq other id executes
  obtain ⟨r, there, same, running⟩ := sound.executing q memq id executes
  cases next with
  | inserted hooks done =>
    obtain ⟨_, _, rows⟩ := HookLog.insertRun_some done
    exact ⟨r, (rows r).mpr (.inr there), same, running⟩
  | dropped t row =>
    refine ⟨r, mem_untouched there ?_, same, running⟩
    obtain ⟨r₀, mem₀, same₀, failed⟩ := isolated
    intro touched
    obtain rfl := w.db.log.hookRuns.eq_of_key there mem₀ (touched.trans same₀.symm)
    rw [running] at failed
    cases failed
  | marked x =>
    by_cases touched : r.id = x.row.id
    · exact ⟨_, mem_touched there touched, same, rfl⟩
    · exact ⟨r, mem_untouched there touched, same, running⟩
  | saved x status =>
    refine ⟨r, mem_untouched there ?_, same, running⟩
    intro touched
    have twice : p = q := sound.exclusive p mem q memq x.row.id (is ▸ rfl)
      (executes.trans (congrArg some (same.symm.trans touched)))
    exact other (congrArg Process.id twice.symm)
  | _ => exact ⟨r, there, same, running⟩

end

variable {db : Store}

theorem Next.executes (next : Next db task db' task') : ∀ id ∈ task'.executes, task.executes = some id ∨
      ∃ x : Execution, task = .markRunning x ∧ x.row.id = id := by
  intro id executes
  cases next with
  | marked x => exact .inr ⟨x, rfl, Option.some.inj executes⟩
  | ran x => exact .inl executes
  | saved x status =>
    rw [(x.after_reads status).executes] at executes
    cases executes
  | _ => cases executes

theorem Next.retries (next : Next db task db' task') :
    ∀ transitionId ∈ task'.retries, task.retries = some transitionId ∨
      ∃ t hook row, task = .markRunning ⟨.tick t, hook, row⟩ ∧ row.transitionId = transitionId := by
  intro transitionId retries
  cases next with
  | marked x =>
    obtain ⟨caller, hook, row⟩ := x
    cases caller with
    | dispatcher d => cases retries
    | tick t => exact .inr ⟨t, hook, row, rfl, Option.some.inj retries⟩
  | saved x status =>
    obtain ⟨caller, hook, row⟩ := x
    cases caller with
    | dispatcher d => cases retries
    | tick t =>
      simp only [Execution.after] at retries
      split at retries
      · exact .inl retries
      · cases retries
  | ran x =>
    obtain ⟨caller, hook, row⟩ := x
    cases caller with
    | dispatcher d => cases retries
    | tick t => exact Or.inl retries
  | noneFailed | nonePending => exact .inl retries
  | _ => cases retries

theorem Sound.own_executing (sound : Sound w.db w.running) (mem : p ∈ w.running)
    (is : p.task = task) (next : Next w.db task db' task') :
    ∀ id ∈ task'.executes, ∃ r ∈ db'.log.hookRuns, r.id = id ∧ r.state = .running := by
  intro id executes
  rcases next.executes id executes with before | ⟨x, rfl, rfl⟩
  · have running := sound.executing p mem id (is ▸ before)
    cases next with
    | ran x => exact running
    | saved x status =>
      rw [(x.after_reads status).executes] at executes
      cases executes
    | _ => cases before
  · cases next with
    | marked x =>
      have tidy := sound.orderly.tidy p mem
      rw [is] at tidy
      obtain ⟨r, there, identity⟩ := tidy.rows x.row mem_cons_self
      exact ⟨_, mem_touched there (HookRun.same_id identity), HookRun.same_id identity, rfl⟩

theorem Sound.unexecuted {x : Execution} (sound : Sound w.db w.running) (mem : p ∈ w.running)
    (is : p.task = .markRunning x) (isolated : Isolated w (.markRunning x)) :
    ∀ q ∈ w.running, q.task.executes ≠ some x.row.id := by
  intro q memq executes
  obtain ⟨r, there, same, running⟩ := sound.executing q memq x.row.id executes
  have tidy := sound.orderly.tidy p mem
  rw [is] at tidy
  obtain ⟨caller, hook, row⟩ := x
  cases caller with
  | dispatcher d =>
    obtain ⟨r₀, mem₀, identity⟩ := tidy.rows row mem_cons_self
    obtain rfl := w.db.log.hookRuns.eq_of_key there mem₀ (same.trans (HookRun.same_id identity).symm)
    obtain ⟨_, own, name⟩ := tidy.own _ rfl d rfl
    have tallied := sound.tallied p mem d.transitionId (by rw [is]; rfl)
    rw [is] at tallied
    have pending := tallied.waiting r there ((HookRun.same_transition identity).trans own)
      (by rw [HookRun.same_name identity, name]; exact mem_cons_self)
    rw [running] at pending
    cases pending
  | tick t =>
    obtain ⟨⟨r₀, mem₀, same₀, failed⟩, _⟩ := isolated
    obtain rfl := w.db.log.hookRuns.eq_of_key there mem₀ (same.trans same₀.symm)
    rw [running] at failed
    cases failed

theorem Sound.own_due (sound : Sound w.db w.running) (mem : p ∈ w.running)
    (is : p.task = task) (next : Next w.db task db' task') (free : task'.dispatching = none) :
    ∀ row ∈ task'.rows, row.attempts < row.maxAttempts := by
  have due := sound.due p mem
  rw [is] at due
  intro row read
  rcases next.rows row read with held | ⟨_, candidate⟩
  · rcases next.dispatching with before | ⟨_, new, _⟩
    · exact due (before ▸ free) row held
    · rw [new] at free
      cases free
  · have retried := candidate free
    simp only [HookRun.candidate, Bool.and_eq_true, decide_eq_true_eq] at retried
    exact retried.2

variable {transitionId : Nat}

variable {state : HookRunState}

theorem remaining_none (none : db.remaining transitionId state = none) :
    ∀ r ∈ db.log.hookRuns, r.transitionId = transitionId → r.state ≠ state := by
  intro r there own same
  have other := select_none none r there
  simp [own, same] at other

theorem remaining_some (some : db.remaining transitionId state ≠ none) (bad : state.succeeded = false) :
    ¬ AllOk db transitionId := by
  intro all
  obtain ⟨r, found⟩ := Option.ne_none_iff_exists'.mp some
  obtain ⟨there, same⟩ := mem_of_select found
  simp only [Bool.and_eq_true, beq_iff_eq] at same
  have succeeded := all r there same.1
  rw [same.2, bad] at succeeded
  cases succeeded

theorem Sound.own_counted (isolated : Isolated w task) (next : Next w.db task db' task')
    (t : Tick) (transitionId : Nat) (counts : task' = .countPending t transitionId) :
    ∀ r ∈ db'.log.hookRuns, r.transitionId = transitionId → r.state = .pending ∨ r.state.succeeded = true := by
  intro r there own
  cases next with
  | noneFailed none =>
    cases counts
    have notFailed := remaining_none none r there own
    have notRunning := isolated.2 r there own
    cases state : r.state with
    | pending => exact .inl rfl
    | running => exact absurd state notRunning
    | failed => exact absurd state notFailed
    | ok | noop => exact .inr rfl
  | saved x status => exact absurd counts ((x.after_reads status).counts t transitionId)
  | _ => cases counts

theorem Sound.own_complete (sound : Sound w.db w.running) (mem : p ∈ w.running)
    (is : p.task = task) (next : Next w.db task db' task') (t : Tick) (transitionId : Nat)
    (completes : task' = .complete t transitionId) : AllOk db' transitionId := by
  intro r there own
  cases next with
  | nonePending none =>
    cases completes
    have notPending := remaining_none none r there own
    exact (sound.counted p mem _ _ is r there own).resolve_left notPending
  | saved x status => exact absurd completes ((x.after_reads status).completes t transitionId)
  | _ => cases completes

theorem Sound.next_budget (sound : Sound w.db w.running) (mem : p ∈ w.running)
    (is : p.task = task) (isolated : Isolated w task) (next : Next w.db task db' task') :
    ∀ r ∈ db'.log.hookRuns, r.attempts ≤ r.maxAttempts := by
  intro r there
  cases next with
  | inserted hooks done =>
    obtain ⟨_, _, rows⟩ := HookLog.insertRun_some done
    rcases (rows r).mp there with rfl | old
    · exact Nat.zero_le _
    · exact sound.budget r old
  | marked x =>
    rcases mem_edited there with ⟨old, _⟩ | ⟨old, there', same, rfl⟩
    · exact sound.budget r old
    have tidy := sound.orderly.tidy p mem
    have due := sound.due p mem
    rw [is] at tidy due
    obtain ⟨r₀, mem₀, identity⟩ := tidy.rows x.row mem_cons_self
    obtain rfl := w.db.log.hookRuns.eq_of_key there' mem₀ (same.trans (HookRun.same_id identity).symm)
    show x.row.attempts + 1 ≤ old.maxAttempts
    rw [HookRun.same_max identity]
    obtain ⟨caller, hook, row⟩ := x
    cases caller with
    | dispatcher d => exact isolated
    | tick t => exact due rfl row mem_cons_self
  | dropped t row | saved x status =>
    rcases mem_edited there with ⟨old, _⟩ | ⟨old, there', _, rfl⟩
    · exact sound.budget r old
    · exact sound.budget old there'
  | _ => exact sound.budget r there

theorem Next.transitions (next : Next db task db' task') :
    ∀ t ∈ db'.log.transitions, (t ∈ db.log.transitions ∧ ∀ tick, task = .complete tick t.id →
        db.rechecks = false) ∨
      t.state = .running ∧ task'.dispatching = some t.id ∨
      t.state = .completed ∧ db'.log.hookRuns = db.log.hookRuns ∧ ∃ tick, task = .complete tick t.id := by
  intro t there
  cases next with
  | openedEmpty | opened =>
    rcases HookLog.mem_insertTransition.mp there with rfl | old
    · exact .inr (.inl ⟨rfl, rfl⟩)
    · exact .inl ⟨old, fun _ => nofun⟩
  | inserted hooks done =>
    obtain ⟨transitions, _⟩ := HookLog.insertRun_some done
    exact .inl ⟨transitions ▸ there, fun _ => nofun⟩
  | completed tick works =>
    rcases HookLog.mem_setState.mp there with ⟨old, other⟩ | ⟨_, _, _, rfl⟩
    · refine .inl ⟨old, fun tick' same => ?_⟩
      cases same
      exact absurd rfl other
    · exact .inr (.inr ⟨rfl, rfl, tick, rfl⟩)
  | uncompleted tick throws => exact .inl ⟨there, fun _ _ => throws⟩
  | _ => exact .inl ⟨there, fun _ => nofun⟩

theorem Sound.next_completed (sound : Sound w.db w.running) (mem : p ∈ w.running)
    (is : p.task = task) (isolated : Isolated w task) (next : Next w.db task db' task') :
    ∀ t ∈ db'.log.transitions, t.state = .completed → AllOk db' t.id := by
  intro t there completed
  rcases next.transitions t there with ⟨old, _⟩ | ⟨running, _⟩ | ⟨_, same, tick, rfl⟩
  · have others : task.dispatching ≠ some t.id := by
      intro own
      have tallied := sound.tallied p mem t.id (is ▸ own)
      rw [tallied.unsettled t old rfl] at completed
      cases completed
    have all := sound.completed t old completed
    exact sound.all_states mem is isolated next (P := fun state => state.succeeded = true) nofun nofun others all
  · rw [running] at completed
    cases completed
  have all := sound.complete p mem tick t.id is
  unfold AllOk
  rw [same]
  exact all

theorem Next.allOk (next : Next db task db' task')
    (tidy : Tidy db task) {transitionId : Nat} (others : task.dispatching ≠ some transitionId)
    (all : AllOk db' transitionId) : AllOk db transitionId ∨ task'.finishing = some transitionId := by
  cases next with
  | inserted hooks done =>
    obtain ⟨_, _, rows⟩ := HookLog.insertRun_some done
    exact .inl (fun r there own => all r ((rows r).mpr (.inr there)) own)
  | dropped t row =>
    refine .inl (fun r there own => ?_)
    by_cases touched : r.id = row.id
    · exact absurd (all _ (mem_touched there touched) own) nofun
    · exact all r (mem_untouched there touched) own
  | marked x =>
    refine .inl (fun r there own => ?_)
    by_cases touched : r.id = x.row.id
    · exact absurd (all _ (mem_touched there touched) own) nofun
    · exact all r (mem_untouched there touched) own
  | saved x status =>
    by_cases mine : x.row.transitionId = transitionId
    · obtain ⟨caller, hook, row⟩ := x
      cases caller with
      | dispatcher d =>
        obtain ⟨_, own, _⟩ := tidy.own _ rfl d rfl
        exact absurd (congrArg some (own.symm.trans mine)) others
      | tick t =>
        obtain ⟨r, there, identity⟩ := tidy.rows row mem_cons_self
        have own := (HookRun.same_transition identity).trans mine
        have saved := all _ (mem_touched there (HookRun.same_id identity)) own
        have succeeded : status.succeeded = true := by cases status <;> first | rfl | cases saved
        refine .inr ?_
        rw [Execution.after]
        simp only [succeeded]
        exact congrArg some mine
    · refine .inl (SameStates.allOk (SameStates.symm ?_) all)
      exact SameStates.execution (tidy.rows x.row mem_cons_self) mine
  | _ => exact .inl all

theorem Next.finishing (isolated : Isolated w task) (next : Next w.db task db' task')
    {transitionId : Nat} (finishing : task.finishing = some transitionId) (all : AllOk w.db transitionId) :
    task'.finishing = some transitionId ∨ ∃ tick, task = .complete tick transitionId := by
  cases next with
  | noneFailed | nonePending => exact .inl finishing
  | someFailed some =>
    cases finishing
    exact absurd all (remaining_some (some isolated.1) rfl)
  | somePending some =>
    cases finishing
    exact absurd all (remaining_some (some isolated) rfl)
  | completed tick | uncompleted tick =>
    cases finishing
    exact .inr ⟨tick, rfl⟩
  | _ => cases finishing

section

variable (sound : Sound w.db w.running) (mem : p ∈ w.running) (is : p.task = task) (isolated : Isolated w task)
  (next : Next w.db task db' task')
include sound mem is isolated next

theorem Sound.next_lifted : ∀ t ∈ db'.log.transitions, AllOk db' t.id → t.state = .completed ∨
      ∃ q ∈ resume w.running p.id (.next task' : Outcome Task Response),
        q.task.dispatching = some t.id ∨ q.task.finishing = some t.id := by
  intro t there all
  have goesOn : (⟨p.id, task'⟩ : Process Task) ∈
      resume w.running p.id (.next task' : Outcome Task Response) := mem_resume_self mem
  rcases next.transitions t there with ⟨old, unfinished⟩ | ⟨_, opened⟩ | ⟨completed, _⟩
  · by_cases own : task.dispatching = some t.id
    · rcases next.dispatching with same | ⟨none, _⟩
      · exact .inr ⟨_, goesOn, .inl (same.trans own)⟩
      · rw [none] at own
        cases own
    have tidy := sound.orderly.tidy p mem
    rw [is] at tidy
    rcases next.allOk tidy own all with before | finishing
    · refine (sound.lifted t old before).imp id ?_
      rintro ⟨q, memq, works⟩
      by_cases same : q.id = p.id
      · obtain rfl := w.running.eq_of_key memq mem same
        rw [is] at works
        rcases next.finishing isolated (works.resolve_left own) before with goes | ⟨tick, rfl⟩
        · exact ⟨_, goesOn, .inr goes⟩
        have throws := unfinished tick rfl
        rw [show w.db.rechecks = true from isolated] at throws
        cases throws
      · exact ⟨q, mem_resume_other memq same, works⟩
    · exact .inr ⟨_, goesOn, .inr finishing⟩
  · exact .inr ⟨_, goesOn, .inl opened⟩
  · exact .inl completed

theorem Sound.next_exclusive : ∀ q ∈ w.running, q.id ≠ p.id → ∀ id ∈ task'.executes, q.task.executes ≠ some id := by
  intro q memq other id executes same
  rcases next.executes id executes with before | ⟨x, rfl, rfl⟩
  · have twice := sound.exclusive p mem q memq id (is ▸ before) same
    exact other (congrArg Process.id twice.symm)
  · exact sound.unexecuted mem is isolated q memq same

theorem Sound.next_apart : ∀ q ∈ w.running, ∀ transitionId ∈ task'.retries,
      q.task.dispatching ≠ some transitionId := by
  intro q memq transitionId retries
  rcases next.retries transitionId retries with before | ⟨t, hook, row, rfl, rfl⟩
  · exact sound.apart p mem q memq transitionId (is ▸ before)
  · exact isolated.2 q memq

end

section

variable (sound : Sound w.db w.running) (mem : p ∈ w.running) (is : p.task = task) (next : Next w.db task db' task')
include sound mem is next

theorem Sound.next_known : ∀ transitionId ∈ task'.retries, ∃ t ∈ w.db.log.transitions, t.id = transitionId := by
  intro transitionId retries
  rcases next.retries transitionId retries with before | ⟨t, hook, row, rfl, rfl⟩
  · exact sound.known p mem transitionId (is ▸ before)
  have tidy := sound.orderly.tidy p mem
  rw [is] at tidy
  obtain ⟨r, there, identity⟩ := tidy.rows row mem_cons_self
  obtain ⟨parent, there', same⟩ := w.db.log.references r there
  exact ⟨parent, there', same.trans (HookRun.same_transition identity)⟩

theorem Sound.retired {transitionId : Nat} (known : ∃ t ∈ w.db.log.transitions, t.id = transitionId) {q : Process Task}
    (memq : q ∈ w.running) (retries : q.task.retries = some transitionId) : task'.dispatching ≠ some transitionId := by
  intro own
  rcases next.dispatching with before | ⟨_, new, _⟩
  · rw [before, ← is] at own
    exact sound.apart q memq p mem transitionId retries own
  obtain ⟨t, there, same⟩ := known
  rw [new] at own
  cases own
  exact absurd same (Nat.ne_of_lt (w.db.log.transitionsDrawn t there))

end

theorem Task.retries_free {task : Task} (retries : task.retries = some transitionId) : task.dispatching = none := by
  unfold Task.retries at retries
  split at retries <;> first | rfl | cases retries

theorem Sound.next (sound : Sound w.db w.running) (mem : p ∈ w.running)
    (isolated : Isolated w p.task) (next : Next w.db p.task db' task') :
    Sound db' (resume w.running p.id (.next task' : Outcome Task Response)) := by
  have stays : ∀ t ∈ w.db.log.transitions, ∃ t' ∈ db'.log.transitions, t'.id = t.id :=
    next.follows.transitions
  constructor
  case orderly => exact sound.orderly.next mem next
  case tallied =>
    intro q memq
    rcases mem_resume_next memq with ⟨old, other⟩ | rfl
    · exact sound.others_tallied mem rfl isolated next q old other
    · exact next.tallied (sound.orderly.tidy p mem) (sound.tallied p mem) (sound.executing p mem)
  case executing =>
    intro q memq
    rcases mem_resume_next memq with ⟨old, other⟩ | rfl
    · exact sound.others_executing mem rfl isolated next q old other
    · exact sound.own_executing mem rfl next
  case exclusive =>
    intro q memq r memr id executes same
    rcases mem_resume_next memq with ⟨oldq, otherq⟩ | rfl
    · rcases mem_resume_next memr with ⟨oldr, _⟩ | rfl
      · exact sound.exclusive q oldq r oldr id executes same
      · exact absurd executes (sound.next_exclusive mem rfl isolated next q oldq otherq id same)
    · rcases mem_resume_next memr with ⟨oldr, otherr⟩ | rfl
      · exact absurd same (sound.next_exclusive mem rfl isolated next r oldr otherr id executes)
      · rfl
  case due =>
    intro q memq
    rcases mem_resume_next memq with ⟨old, _⟩ | rfl
    · exact sound.due q old
    · exact sound.own_due mem rfl next
  case apart =>
    intro q memq r memr transitionId retries
    rcases mem_resume_next memq with ⟨oldq, _⟩ | rfl
    · rcases mem_resume_next memr with ⟨oldr, _⟩ | rfl
      · exact sound.apart q oldq r oldr transitionId retries
      · exact sound.retired mem rfl next (sound.known q oldq transitionId retries) oldq retries
    · rcases mem_resume_next memr with ⟨oldr, _⟩ | rfl
      · exact sound.next_apart mem rfl isolated next r oldr transitionId retries
      · rw [Task.retries_free retries]
        exact nofun
  case known =>
    intro q memq transitionId retries
    have found : ∃ t ∈ w.db.log.transitions, t.id = transitionId := by
      rcases mem_resume_next memq with ⟨old, _⟩ | rfl
      · exact sound.known q old transitionId retries
      · exact sound.next_known mem rfl next transitionId retries
    obtain ⟨t, there, same⟩ := found
    obtain ⟨t', there', same'⟩ := stays t there
    exact ⟨t', there', same'.trans same⟩
  case counted =>
    intro q memq tick transitionId counts
    rcases mem_resume_next memq with ⟨old, _⟩ | rfl
    · have apart := sound.apart q old p mem transitionId (by rw [counts]; rfl)
      exact sound.all_states mem rfl isolated next
        (P := fun state => state = .pending ∨ state.succeeded = true) (by simp [HookRunState.succeeded])
        (by simp [HookRunState.succeeded]) apart (sound.counted q old tick transitionId counts)
    · exact Sound.own_counted isolated next tick transitionId counts
  case complete =>
    intro q memq tick transitionId completes
    rcases mem_resume_next memq with ⟨old, _⟩ | rfl
    · have apart := sound.apart q old p mem transitionId (by rw [completes]; rfl)
      exact sound.all_states mem rfl isolated next (P := fun state => state.succeeded = true)
        nofun nofun apart (sound.complete q old tick transitionId completes)
    · exact sound.own_complete mem rfl next tick transitionId completes
  case budget => exact sound.next_budget mem rfl isolated next
  case completed => exact sound.next_completed mem rfl isolated next
  case lifted => exact sound.next_lifted mem rfl isolated next

end Step

theorem Sound.ended (sound : Sound db running) (mem : p ∈ running)
    (follows : Follows db db' p.task.dispatching) (rows : db'.log.hookRuns = db.log.hookRuns)
    (transitions : ∀ t ∈ db'.log.transitions, p.task.dispatching ≠ some t.id → t ∈ db.log.transitions)
    (settled : ∀ t ∈ db'.log.transitions, p.task.dispatching = some t.id →
      (t.state = .completed ↔ AllOk db t.id)) (finished : p.task.finishing = none) :
    Sound db' (running.delete (fun q => q.id == p.id)) := by
  have left : ∀ q ∈ running.delete (fun q => q.id == p.id), q ∈ running :=
    fun q memq => (mem_delete.mp memq).1
  have same : ∀ transitionId, AllOk db' transitionId ↔ AllOk db transitionId := by
    intro transitionId
    unfold AllOk
    rw [rows]
  constructor
  case orderly => exact sound.orderly.ended mem follows
  case tallied =>
    intro q memq transitionId own
    obtain ⟨old, other⟩ := mem_delete.mp memq
    refine (sound.tallied q old transitionId own).spared (SameStates.of_runs rows _) ?_
    intro t there same
    refine transitions t there ?_
    rw [same]
    exact sound.orderly.apart mem old (by simpa using other) transitionId own
  case executing =>
    rw [rows]
    exact fun q memq => sound.executing q (left q memq)
  case exclusive => exact fun q memq r memr => sound.exclusive q (left q memq) r (left r memr)
  case due => exact fun q memq => sound.due q (left q memq)
  case apart => exact fun q memq r memr => sound.apart q (left q memq) r (left r memr)
  case known =>
    intro q memq transitionId retries
    obtain ⟨t, there, same⟩ := sound.known q (left q memq) transitionId retries
    obtain ⟨t', there', same'⟩ := follows.transitions t there
    exact ⟨t', there', same'.trans same⟩
  case counted =>
    rw [rows]
    exact fun q memq => sound.counted q (left q memq)
  case complete =>
    intro q memq t transitionId completes
    exact (same _).mpr (sound.complete q (left q memq) t transitionId completes)
  case budget =>
    rw [rows]
    exact sound.budget
  case completed =>
    intro t there completed
    refine (same _).mpr ?_
    by_cases own : p.task.dispatching = some t.id
    · exact (settled t there own).mp completed
    · exact sound.completed t (transitions t there own) completed
  case lifted =>
    intro t there all
    have before := (same _).mp all
    by_cases own : p.task.dispatching = some t.id
    · exact .inl ((settled t there own).mpr before)
    refine (sound.lifted t (transitions t there own) before).imp id ?_
    rintro ⟨q, memq, works⟩
    refine ⟨q, mem_delete.mpr ⟨memq, ?_⟩, works⟩
    by_contra same
    obtain rfl := running.eq_of_key memq mem (by simpa using same)
    rw [finished] at works
    exact own (works.resolve_right nofun)

theorem Tallied.finalState (tallied : Tallied db d.transitionId (.finish d)) :
    d.finalState = .completed ↔ AllOk db d.transitionId := by
  have ok : d.hooksFailed = 0 → AllOk db d.transitionId := by
    intro none r there own
    exact (tallied.done none r there own not_mem_nil).resolve_left nofun
  have failed : 0 < d.hooksFailed → ¬ AllOk db d.transitionId := by
    intro some all
    obtain ⟨r, there, own, state⟩ := tallied.failed some
    have succeeded := all r there own
    rw [state] at succeeded
    cases succeeded
  unfold Dispatch.finalState
  by_cases aborted : d.aborted = true
  · rw [if_pos aborted]
    exact iff_of_false nofun (failed (tallied.aborts d (.inr rfl) aborted))
  rw [if_neg aborted]
  by_cases some : 0 < d.hooksFailed
  · rw [if_pos some]
    exact iff_of_false nofun (failed some)
  · rw [if_neg some]
    exact iff_of_true rfl (ok (Nat.eq_zero_of_not_pos some))

theorem Sound.last (sound : Sound db running) (mem : p ∈ running) (last : Last db p.task db') :
    Sound db' (running.delete (fun q => q.id == p.id)) := by
  have follows := last.follows
  have tidy := sound.orderly.tidy p mem
  have tallied := sound.tallied p mem
  generalize is : p.task = task at last tidy tallied
  cases last with
  | refused refused => exact absurd refused (tidy.inserted _)
  | ticked none =>
    refine sound.ended mem follows rfl (fun t there _ => there) ?_ (by rw [is]; rfl)
    rw [is]
    exact fun _ _ => nofun
  | completedEmpty transitionId =>
    refine sound.ended mem follows rfl ?_ ?_ (by rw [is]; rfl)
    · intro t there other
      rw [is] at other
      rcases HookLog.mem_setState.mp there with ⟨old, _⟩ | ⟨_, _, _, rfl⟩
      · exact old
      · exact absurd rfl other
    intro t there own
    rw [is] at own
    rcases HookLog.mem_setState.mp there with ⟨_, other⟩ | ⟨_, _, _, rfl⟩
    · exact absurd (Option.some.inj own).symm other
    refine iff_of_true rfl ?_
    intro r there own
    exact ((tallied transitionId rfl).done rfl r there own not_mem_nil).resolve_left nofun
  | finished d =>
    refine sound.ended mem follows rfl ?_ ?_ (by rw [is]; rfl)
    · intro t there other
      rw [is] at other
      rcases HookLog.mem_setState.mp there with ⟨old, _⟩ | ⟨_, _, _, rfl⟩
      · exact old
      · exact absurd rfl other
    intro t there own
    rw [is] at own
    rcases HookLog.mem_setState.mp there with ⟨_, other⟩ | ⟨_, _, _, rfl⟩
    · exact absurd (Option.some.inj own).symm other
    · exact (tallied d.transitionId rfl).finalState

theorem Sound.environment (same : db'.log = db.log) (sound : Sound db running) : Sound db' running where
  orderly := sound.orderly.environment same
  tallied p mem transitionId own :=
    (sound.tallied p mem transitionId own).spared (SameStates.of_runs (by rw [same]) _)
      (fun t there _ => same ▸ there)
  executing := by
    rw [same]
    exact sound.executing
  exclusive := sound.exclusive
  due := sound.due
  apart := sound.apart
  known := by
    rw [same]
    exact sound.known
  counted := by
    rw [same]
    exact sound.counted
  complete := by
    unfold AllOk
    rw [same]
    exact sound.complete
  budget := by
    rw [same]
    exact sound.budget
  completed := by
    unfold AllOk
    rw [same]
    exact sound.completed
  lifted := by
    unfold AllOk
    rw [same]
    exact sound.lifted

theorem Task.requested {task : Task} (requested : request task = true) :
    task.dispatching = none ∧ task.executes = none ∧ task.retries = none ∧ task.rows = [] ∧
      task.finishing = none := by
  cases task with
  | runTransition | runRetryTick => exact ⟨rfl, rfl, rfl, rfl, rfl⟩
  | _ => cases requested

theorem Sound.arrive {running' : Processes} (sound : Sound db running) (requested : request p.task = true)
    (inserted : running.insert p = some running') : Sound db running' := by
  obtain ⟨dispatching, executes, retries, rows, finishing⟩ := Task.requested requested
  have old : ∀ q ∈ running', q ≠ p → q ∈ running :=
    fun q memq other => ((mem_insert inserted).mp memq).resolve_left other
  constructor
  case orderly => exact sound.orderly.arrive requested inserted
  case tallied =>
    intro q memq transitionId own
    by_cases new : q = p
    · rw [new, dispatching] at own
      cases own
    · exact sound.tallied q (old q memq new) transitionId own
  case executing =>
    intro q memq id running
    by_cases new : q = p
    · rw [new, executes] at running
      cases running
    · exact sound.executing q (old q memq new) id running
  case exclusive =>
    intro q memq r memr id running same
    by_cases newq : q = p
    · rw [newq, executes] at running
      cases running
    by_cases newr : r = p
    · rw [newr, executes] at same
      cases same
    · exact sound.exclusive q (old q memq newq) r (old r memr newr) id running same
  case due =>
    intro q memq free row read
    by_cases new : q = p
    · rw [new, rows] at read
      exact absurd read not_mem_nil
    · exact sound.due q (old q memq new) free row read
  case apart =>
    intro q memq r memr transitionId works own
    by_cases newq : q = p
    · rw [newq, retries] at works
      cases works
    by_cases newr : r = p
    · rw [newr, dispatching] at own
      cases own
    · exact sound.apart q (old q memq newq) r (old r memr newr) transitionId works own
  case known =>
    intro q memq transitionId works
    by_cases new : q = p
    · rw [new, retries] at works
      cases works
    · exact sound.known q (old q memq new) transitionId works
  case counted =>
    intro q memq t transitionId counts
    by_cases new : q = p
    · rw [← new, counts] at finishing
      cases finishing
    · exact sound.counted q (old q memq new) t transitionId counts
  case complete =>
    intro q memq t transitionId completes
    by_cases new : q = p
    · rw [← new, completes] at finishing
      cases finishing
    · exact sound.complete q (old q memq new) t transitionId completes
  case budget => exact sound.budget
  case completed => exact sound.completed
  case lifted =>
    intro t there all
    refine (sound.lifted t there all).imp id ?_
    rintro ⟨q, memq, works⟩
    exact ⟨q, (mem_insert inserted).mpr (.inr memq), works⟩

theorem Sound.initial (db : Store) (empty : db.log = HookLog.empty) : Sound db Table.empty := by
  have nobody : ∀ p : Process Task, p ∉ (Table.empty : Processes) := not_mem_empty
  constructor
  case orderly => exact Orderly.initial db
  case budget =>
    rw [empty]
    exact fun r there => absurd there (not_mem_empty r)
  case completed | lifted =>
    rw [empty]
    exact fun t there => absurd there (not_mem_empty t)
  all_goals exact fun p mem => absurd mem (nobody p)

/-- Transitions and their hook runs agree whenever nothing is running, as long as dispatchers and
ticks keep out of each other's way. -/
theorem transitions_consistent (db : Store) (actions : List (Action Task Change)) (w : Lifecycle)
    (empty : db.log = HookLog.empty) (guarded : Guarded system.step (onAdvance Undisturbed) (World.initial db) actions)
    (run : exec system.step (World.initial db) actions = some w) : Consistent w := by
  have sound : Sound w.db w.running := by
    refine lifecycle_invariant ?_ ?_ ?_ ?_ ?_ (Sound.initial db empty) guarded run
    · intro v running running' p sound requested inserted
      exact sound.arrive requested inserted
    · intro v p sound mem allowed killed
      obtain ⟨dispatching, _, finishing⟩ := allowed.1 killed
      refine sound.ended mem (Follows.refl v.db _) rfl (fun t there _ => there) ?_ finishing
      rw [dispatching]
      exact fun _ _ => nofun
    · intro v p db' task' sound mem allowed _ next
      exact sound.next mem allowed.2 next
    · intro v p db' sound mem _ _ last
      exact sound.last mem last
    · intro v v' running same sound
      exact sound.environment same
  exact sound.holds

instance (db : Store) (id : Nat) : Decidable (StillFailed db id) :=
  inferInstanceAs (Decidable (∃ r ∈ db.log.hookRuns.rows, r.id = id ∧ r.state = .failed))

instance (w : Lifecycle) : (task : Task) → Decidable (Isolated w task) := by
  intro _
  unfold Isolated
  split <;> infer_instance

instance (w : Lifecycle) (task : Task) : Decidable (Undisturbed w task) :=
  inferInstanceAs (Decidable ((w.db.killed = true →
    task.dispatching = none ∧ task.executes = none ∧ task.finishing = none) ∧ Isolated w task))

/- a hook fails, a tick runs it again, and the next tick finds nothing -/
def inTurn : List (Action Task Change) :=
  .environment (.results (fun name => if name = "dns-zone-cleanup" then .retry else .noop)) ::
    .arrive 1 (.runTransition [systemTenantGuardHook, dnsZoneCleanupHook]) :: List.replicate 14 (.advance 1) ++
    [.environment (.results (fun _ => .ok)), .environment (.pass 5000)] ++
    .arrive 2 (.runRetryTick [systemTenantGuardHook, dnsZoneCleanupHook]) :: List.replicate 10 (.advance 2) ++
    [.arrive 3 (.runRetryTick [systemTenantGuardHook, dnsZoneCleanupHook]), .advance 3, .advance 3]

theorem transitions_consistent_in_turn : ∃ w, exec system.step (World.initial freshStore) inTurn = some w ∧
      w.db.log.transitions.rows = [⟨0, .completed⟩] ∧ Consistent w := by
  have runs : (exec system.step (World.initial freshStore) inTurn).any
      (fun w => w.db.log.transitions.rows == [⟨0, .completed⟩]) = true := by decide
  obtain ⟨w, run, completed⟩ := (Option.any_eq_true _ _).mp runs
  exact ⟨w, run, eq_of_beq completed, transitions_consistent freshStore inTurn w rfl (by decide) run⟩

/-- The first hook fails and is to be retried; while the dispatcher runs the second, which takes
long, a tick runs the first again. Then the dispatcher writes what it has counted. -/
def retriedDuringDispatch : List (Action Task Change) :=
  .environment (.results (fun name => if name = "dns-zone-cleanup" then .retry else .ok)) ::
    .arrive 1 (.runTransition [dnsZoneCleanupHook, backupsV2BundleCleanupHook]) :: List.replicate 10 (.advance 1) ++
    [.environment (.results (fun _ => .ok)), .environment (.pass 5000)] ++
    .arrive 2 (.runRetryTick [dnsZoneCleanupHook, backupsV2BundleCleanupHook]) ::
      List.replicate 10 (.advance 2) ++ List.replicate 4 (.advance 1)

theorem dispatcher_overwrites_completion : ¬ ∀ (db : Store) (actions : List (Action Task Change)) (w : Lifecycle),
      db.log = HookLog.empty → exec system.step (World.initial db) actions = some w →
      Consistent w := by
  intro consistent
  have wrong : (exec system.step (World.initial freshStore) retriedDuringDispatch).any (fun w =>
      w.running.rows.isEmpty && w.db.log.transitions.rows == [⟨0, .failedPartial⟩] &&
        w.db.log.hookRuns.rows.all (fun r => r.state.succeeded)) = true := by decide
  obtain ⟨w, run, all⟩ := (Option.any_eq_true _ _).mp wrong
  simp only [Bool.and_eq_true, List.isEmpty_iff, beq_iff_eq, all_eq_true] at all
  obtain ⟨⟨quiescent, transitions⟩, succeeded⟩ := all
  have there : (⟨0, .failedPartial⟩ : LifecycleTransition) ∈ w.db.log.transitions := by
    rw [mem_rows, transitions]
    exact mem_singleton.mpr rfl
  have completed := (consistent freshStore retriedDuringDispatch w rfl run).completed quiescent _ there
  exact absurd (completed.mpr (fun r mem _ => succeeded r mem)) nofun

end HostingPlatform.TenantLifecycle
