import HostingPlatform.TenantLifecycle.Dispatcher
import Mathlib.Logic.Relation

/-! What one statement of a dispatcher or a tick can do, and what the run of a process then is
about: the transition it dispatches, the hooks it has yet to reach, the row it executes. -/
namespace HostingPlatform.TenantLifecycle

open Table List Interleaving

/- the statement of a task, the store after it and the task it leaves -/
inductive Next (db : Store) : Task → Store → Task → Prop where
  | openedEmpty : Next db (.runTransition []) (insertTransition db) (.completeEmpty db.log.supply)
  | opened (hook : LifecycleHook) (left : List LifecycleHook) :
    Next db (.runTransition (hook :: left)) (insertTransition db)
      (.insertHookRun db.log.supply (hook :: left) (hook :: left))
  | inserted {transitionId : Nat} {hook : LifecycleHook} {left : List LifecycleHook}
      (hooks : List LifecycleHook) {log : HookLog}
      (done : db.log.insertRun transitionId hook.name (hook.maxAttempts.getD defaultMaxAttempts) =
        some log) :
    Next db (.insertHookRun transitionId (hook :: left) hooks) { db with log }
      (.insertHookRun transitionId left hooks)
  | ready (transitionId : Nat) (hooks : List LifecycleHook) :
    Next db (.insertHookRun transitionId [] hooks) db (.findHookRun ⟨transitionId, hooks, 0, 0, false⟩)
  | hooksDone {d : Dispatch} (none : d.left = []) : Next db (.findHookRun d) db (.finish d)
  | passed {d : Dispatch} {hook : LifecycleHook} {left : List LifecycleHook}
      (first : d.left = hook :: left)
      (passed : d.aborted = true ∨
        ∀ r ∈ db.log.hookRuns, r.transitionId = d.transitionId → r.hookName ≠ hook.name) :
    Next db (.findHookRun d) db (.findHookRun { d with left })
  | found {d : Dispatch} {hook : LifecycleHook} {left : List LifecycleHook} {row : HookRun}
      (first : d.left = hook :: left) (running : d.aborted = false) (mem : row ∈ db.log.hookRuns)
      (own : row.transitionId = d.transitionId) (name : row.hookName = hook.name) :
    Next db (.findHookRun d) db (.markRunning ⟨.dispatcher { d with left }, hook, row⟩)
  | loaded (hooks : List LifecycleHook) :
    Next db (.runRetryTick hooks) db (.consider ⟨hooks, loadCandidates db⟩)
  | skipped {t : Tick} {row : HookRun} {candidates : List HookRun}
      (first : t.candidates = row :: candidates) :
    Next db (.consider t) db (.consider { t with candidates })
  | unregistered {t : Tick} {row : HookRun} {candidates : List HookRun}
      (first : t.candidates = row :: candidates) :
    Next db (.consider t) db (.dropRun { t with candidates } row)
  | registered {t : Tick} {row : HookRun} {candidates : List HookRun} (hook : LifecycleHook)
      (first : t.candidates = row :: candidates) :
    Next db (.consider t) db (.loadParent { t with candidates } hook row)
  | dropped (t : Tick) (row : HookRun) :
    Next db (.dropRun t row) (db.updateRun row.id (.settle .failed none) (fun _ => rfl)) (.consider t)
  | orphaned (t : Tick) (hook : LifecycleHook) (row : HookRun) :
    Next db (.loadParent t hook row) db (.dropRun t row)
  | taken (t : Tick) (hook : LifecycleHook) (row : HookRun) :
    Next db (.loadParent t hook row) db (.markRunning ⟨.tick t, hook, row⟩)
  | marked (x : Execution) :
    Next db (.markRunning x) (db.updateRun x.row.id (.start x.attempt) (fun _ => rfl)) (.runHook x)
  | ran (x : Execution) : Next db (.runHook x) db (.saveResult x (db.result x.hook.name))
  | saved (x : Execution) (status : HookResultStatus) :
    Next db (.saveResult x status)
      (db.updateRun x.row.id (.settle status.saved (x.nextAttemptAt db.clock status)) (fun _ => rfl))
      (x.after status)
  | noneFailed {t : Tick} {transitionId : Nat} (none : db.remaining transitionId .failed = none) :
    Next db (.countFailed t transitionId) db (.countPending t transitionId)
  | someFailed {t : Tick} {transitionId : Nat}
      (some : db.rechecks = true → db.remaining transitionId .failed ≠ none) :
    Next db (.countFailed t transitionId) db (.consider t)
  | nonePending {t : Tick} {transitionId : Nat} (none : db.remaining transitionId .pending = none) :
    Next db (.countPending t transitionId) db (.complete t transitionId)
  | somePending {t : Tick} {transitionId : Nat}
      (some : db.rechecks = true → db.remaining transitionId .pending ≠ none) :
    Next db (.countPending t transitionId) db (.consider t)
  | completed (t : Tick) {transitionId : Nat} (works : db.rechecks = true) :
    Next db (.complete t transitionId) (db.setState transitionId .completed) (.consider t)
  | uncompleted (t : Tick) {transitionId : Nat} (throws : db.rechecks = false) :
    Next db (.complete t transitionId) db (.consider t)

/- the last statement of a process -/
inductive Last (db : Store) : Task → Store → Prop where
  | completedEmpty (transitionId : Nat) :
    Last db (.completeEmpty transitionId) (db.setState transitionId .completed)
  | refused {transitionId : Nat} {hook : LifecycleHook} {left hooks : List LifecycleHook}
      (refused : db.log.insertRun transitionId hook.name
        (hook.maxAttempts.getD defaultMaxAttempts) = none) :
    Last db (.insertHookRun transitionId (hook :: left) hooks) db
  | finished (d : Dispatch) : Last db (.finish d) (db.setState d.transitionId d.finalState)
  | ticked {t : Tick} (none : t.candidates = []) : Last db (.consider t) db

def Steps (db : Store) (task : Task) (result : Store × Outcome Task Response) : Prop :=
  (∃ task', result.2 = .next task' ∧ Next db task result.1 task') ∨
    ∃ response, result.2 = .answer response ∧ Last db task result.1

variable {db db' : Store} {task' : Task}

variable {task : Task} {id : Nat} {row : HookRun} {d : Dispatch} {hook : LifecycleHook} {p : Process Task}
  {result : String → HookResultStatus} {hooks : List LifecycleHook}

theorem Steps.next (next : Next db task db' task') : Steps db task (db', .next task') := .inl ⟨task', rfl, next⟩

theorem Steps.last (response : Response) (last : Last db task db') :
    Steps db task (db', .answer response) := .inr ⟨response, rfl, last⟩

theorem findHookRun_steps (db : Store) (d : Dispatch) : Steps db (.findHookRun d) (db, findHookRun db d) := by
  unfold findHookRun
  split
  · rename_i none
    exact Steps.next (.hooksDone none)
  rename_i hook left first
  split
  · rename_i missing
    refine Steps.next (.passed first (.inr ?_))
    intro r mem own name
    have other := select_none missing r mem
    simp [own, name] at other
  rename_i row found
  obtain ⟨mem, same⟩ := mem_of_select found
  simp only [Bool.and_eq_true, beq_iff_eq] at same
  split
  · rename_i aborted
    exact Steps.next (.passed first (.inl aborted))
  rename_i running
  have going : d.aborted = false := by simpa using running
  exact Steps.next (.found first going mem same.1 same.2)

theorem consider_steps (db : Store) (t : Tick) : Steps db (.consider t) (db, consider db t) := by
  unfold consider
  split
  · rename_i none
    exact Steps.last _ (.ticked none)
  rename_i row candidates first
  split
  · exact Steps.next (.unregistered first)
  rename_i hook _
  split
  · exact Steps.next (.skipped first)
  · exact Steps.next (.registered hook first)

theorem execute_steps (db : Store) (task : Task) : Steps db task (execute db task) := by
  cases task with
  | runTransition hooks =>
    cases hooks with
    | nil => exact Steps.next .openedEmpty
    | cons hook left => exact Steps.next (.opened hook left)
  | completeEmpty transitionId => exact Steps.last _ (.completedEmpty transitionId)
  | insertHookRun transitionId left hooks =>
    cases left with
    | nil => exact Steps.next (.ready transitionId hooks)
    | cons hook left =>
      simp only [execute, insertHookRun]
      split
      · rename_i refused
        exact Steps.last _ (.refused refused)
      · rename_i log done
        exact Steps.next (.inserted hooks done)
  | findHookRun d => exact findHookRun_steps db d
  | finish d => exact Steps.last _ (.finished d)
  | runRetryTick hooks => exact Steps.next (.loaded hooks)
  | consider t => exact consider_steps db t
  | dropRun t row => exact Steps.next (.dropped t row)
  | loadParent t hook row =>
    simp only [execute, loadParent]
    split
    · exact Steps.next (.orphaned t hook row)
    · exact Steps.next (.taken t hook row)
  | markRunning x => exact Steps.next (.marked x)
  | runHook x => exact Steps.next (.ran x)
  | saveResult x status => exact Steps.next (.saved x status)
  | countFailed t transitionId =>
    simp only [execute]
    split
    · rename_i none
      exact Steps.next (.noneFailed none.2)
    · rename_i some
      exact Steps.next (.someFailed (fun works none => some ⟨works, none⟩))
  | countPending t transitionId =>
    simp only [execute]
    split
    · rename_i none
      exact Steps.next (.nonePending none.2)
    · rename_i some
      exact Steps.next (.somePending (fun works none => some ⟨works, none⟩))
  | complete t transitionId =>
    simp only [execute]
    split
    · rename_i works
      exact Steps.next (.completed t works)
    · rename_i throws
      exact Steps.next (.uncompleted t (by simpa using throws))

def Caller.dispatching : Caller → Option Nat
  | .dispatcher d => some d.transitionId
  | .tick _ => none

def Task.dispatching : Task → Option Nat
  | .completeEmpty transitionId | .insertHookRun transitionId _ _ => some transitionId
  | .findHookRun d | .finish d => some d.transitionId
  | .markRunning x | .runHook x | .saveResult x _ => x.caller.dispatching
  | _ => none

def hookNames (hooks : List LifecycleHook) : List String := hooks.map LifecycleHook.name

def Dispatch.upcoming (d : Dispatch) : List String := if d.aborted then [] else hookNames d.left

def Caller.upcoming : Caller → List String
  | .dispatcher d => hookNames d.left
  | .tick _ => []

def Task.upcoming : Task → List String
  | .runTransition hooks | .insertHookRun _ _ hooks => hookNames hooks
  | .findHookRun d => d.upcoming
  | .markRunning ⟨.dispatcher d, hook, _⟩ => hook.name :: hookNames d.left
  | .runHook x | .saveResult x _ => x.caller.upcoming
  | _ => []

/- the row that a task executes, from the statement that marked it to the one that saves it -/
def Task.executes : Task → Option Nat
  | .runHook x | .saveResult x _ => some x.row.id
  | _ => none

def Caller.candidates : Caller → List HookRun
  | .dispatcher _ => []
  | .tick t => t.candidates

/- the rows that a task has read and may write -/
def Task.rows : Task → List HookRun
  | .consider t | .countFailed t _ | .countPending t _ | .complete t _ => t.candidates
  | .dropRun t row | .loadParent t _ row => row :: t.candidates
  | .markRunning x | .runHook x | .saveResult x _ => x.row :: x.caller.candidates
  | _ => []

/- the execution a task is at, also when the row is not marked yet -/
def Task.execution : Task → Option Execution
  | .markRunning x | .runHook x | .saveResult x _ => some x
  | _ => none

def Known (db : Store) (row : HookRun) : Prop := ∃ r ∈ db.log.hookRuns, r.identity = row.identity

structure Tidy (db : Store) (task : Task) : Prop where
  rows : ∀ row ∈ task.rows, Known db row
  distinct : task.upcoming.Nodup
  parent : ∀ transitionId ∈ task.dispatching, ∃ t ∈ db.log.transitions, t.id = transitionId
  own : ∀ x ∈ task.execution, ∀ d, x.caller = .dispatcher d →
    d.aborted = false ∧ x.row.transitionId = d.transitionId ∧ x.row.hookName = x.hook.name
  inserts : ∀ transitionId left hooks, task = .insertHookRun transitionId left hooks →
    (hookNames left).Nodup ∧ left ⊆ hooks ∧
      ∀ r ∈ db.log.hookRuns, r.transitionId = transitionId → r.hookName ∉ hookNames left

/- what the statements of the dispatcher of a transition, or of no dispatcher, can change -/
structure Follows (db db' : Store) (dispatching : Option Nat) : Prop where
  rows : ∀ r ∈ db.log.hookRuns, ∃ r' ∈ db'.log.hookRuns, r'.identity = r.identity
  transitions : ∀ t ∈ db.log.transitions, ∃ t' ∈ db'.log.transitions, t'.id = t.id
  origin : ∀ r' ∈ db'.log.hookRuns, (∃ r ∈ db.log.hookRuns, r.identity = r'.identity) ∨
    dispatching = some r'.transitionId

theorem Follows.same_rows {dispatching : Option Nat} (same : db'.log.hookRuns = db.log.hookRuns)
    (transitions : ∀ t ∈ db.log.transitions, ∃ t' ∈ db'.log.transitions, t'.id = t.id) :
    Follows db db' dispatching where
  rows r mem := ⟨r, same ▸ mem, rfl⟩
  transitions := transitions
  origin r mem := .inl ⟨r, same ▸ mem, rfl⟩

theorem Follows.refl (db : Store) (dispatching : Option Nat) : Follows db db dispatching :=
  same_rows rfl (fun t mem => ⟨t, mem, rfl⟩)

theorem Follows.setState (db : Store) (id : Nat) (state : TransitionState)
    (dispatching : Option Nat) : Follows db (db.setState id state) dispatching := by
  refine same_rows rfl ?_
  intro t mem
  by_cases same : t.id = id
  · exact ⟨⟨id, state⟩, HookLog.mem_setState.mpr (.inr ⟨t, mem, same, rfl⟩), same.symm⟩
  · exact ⟨t, HookLog.mem_setState.mpr (.inl ⟨mem, same⟩), rfl⟩

variable {f : HookRun → HookRun} {r : HookRun} {keeps : ∀ r, (f r).identity = r.identity}

theorem mem_edited (mem : r ∈ (db.updateRun id f keeps).log.hookRuns) :
    r ∈ db.log.hookRuns ∧ r.id ≠ id ∨ ∃ old ∈ db.log.hookRuns, old.id = id ∧ f old = r :=
  (HookLog.mem_updateRun keeps).mp mem

theorem mem_untouched (mem : r ∈ db.log.hookRuns) (other : r.id ≠ id) : r ∈ (db.updateRun id f keeps).log.hookRuns :=
  (HookLog.mem_updateRun keeps).mpr (.inl ⟨mem, other⟩)

theorem mem_touched (mem : r ∈ db.log.hookRuns) (same : r.id = id) : f r ∈ (db.updateRun id f keeps).log.hookRuns :=
  (HookLog.mem_updateRun keeps).mpr (.inr ⟨r, mem, same, rfl⟩)

theorem Follows.updateRun (db : Store) (id : Nat) {f : HookRun → HookRun}
    (keeps : ∀ r, (f r).identity = r.identity) (dispatching : Option Nat) :
    Follows db (db.updateRun id f keeps) dispatching where
  rows r mem := by
    by_cases same : r.id = id
    · exact ⟨f r, mem_touched mem same, keeps r⟩
    · exact ⟨r, mem_untouched mem same, rfl⟩
  transitions t mem := ⟨t, mem, rfl⟩
  origin r' mem := by
    rcases mem_edited mem with ⟨old, _⟩ | ⟨old, there, _, rfl⟩
    · exact .inl ⟨r', old, rfl⟩
    · exact .inl ⟨old, there, (keeps old).symm⟩

theorem Follows.opened (db : Store) (dispatching : Option Nat) : Follows db (insertTransition db) dispatching :=
  same_rows rfl (fun t mem => ⟨t, HookLog.mem_insertTransition.mpr (.inr mem), rfl⟩)

theorem Next.follows (next : Next db task db' task') : Follows db db' task.dispatching := by
  cases next with
  | openedEmpty | opened => exact Follows.opened db _
  | inserted hooks done =>
    obtain ⟨transitions, _, rows⟩ := HookLog.insertRun_some done
    refine ⟨fun r mem => ⟨r, (rows r).mpr (.inr mem), rfl⟩, ?_, ?_⟩
    · intro t mem
      exact ⟨t, transitions ▸ mem, rfl⟩
    intro r' mem
    rcases (rows r').mp mem with rfl | old
    · exact .inr rfl
    · exact .inl ⟨r', old, rfl⟩
  | dropped t row => exact Follows.updateRun db row.id _ _
  | marked x | saved x status => exact Follows.updateRun db x.row.id _ _
  | completed t => exact Follows.setState db _ _ _
  | _ =>
    exact Follows.refl db _

theorem Last.follows (last : Last db task db') : Follows db db' task.dispatching := by
  cases last with
  | completedEmpty transitionId | finished d => exact Follows.setState db _ _ _
  | refused | ticked => exact Follows.refl db _

theorem Known.follows {dispatching : Option Nat} (known : Known db row)
    (follows : Follows db db' dispatching) : Known db' row := by
  obtain ⟨r, mem, same⟩ := known
  obtain ⟨r', mem', same'⟩ := follows.rows r mem
  exact ⟨r', mem', same'.trans same⟩

theorem Tidy.follows {dispatching : Option Nat} (tidy : Tidy db task) (follows : Follows db db' dispatching)
    (apart : ∀ transitionId ∈ task.dispatching, dispatching ≠ some transitionId) : Tidy db' task where
  rows row mem := (tidy.rows row mem).follows follows
  distinct := tidy.distinct
  parent transitionId own := by
    obtain ⟨t, mem, same⟩ := tidy.parent transitionId own
    obtain ⟨t', mem', same'⟩ := follows.transitions t mem
    exact ⟨t', mem', same'.trans same⟩
  own := tidy.own
  inserts transitionId left hooks same := by
    obtain ⟨distinct, some, missing⟩ := tidy.inserts transitionId left hooks same
    refine ⟨distinct, some, ?_⟩
    intro r mem own
    rcases follows.origin r mem with ⟨old, there, known⟩ | new
    · rw [← HookRun.same_name known]
      exact missing old there ((HookRun.same_transition known).trans own)
    subst same
    rw [own] at new
    exact absurd new (apart transitionId rfl)

theorem mem_loadCandidates (mem : row ∈ loadCandidates db) : row ∈ db.log.hookRuns ∧ row.candidate db.clock = true :=
  mem_selectAll.mp (mem_of_mem_filter (mem_of_mem_take mem))

theorem Next.rows (next : Next db task db' task') : ∀ row ∈ task'.rows, row ∈ task.rows ∨ row ∈ db.log.hookRuns ∧
      (task'.dispatching = none → row.candidate db.clock = true) := by
  intro row mem
  cases next with
  | found first running there =>
    rcases mem_cons.mp mem with rfl | none
    · exact .inr ⟨there, nofun⟩
    · exact absurd none not_mem_nil
  | loaded hooks =>
    obtain ⟨there, candidate⟩ := mem_loadCandidates mem
    exact .inr ⟨there, fun _ => candidate⟩
  | skipped first =>
    refine .inl ?_
    rw [Task.rows, first]
    exact mem_cons_of_mem _ mem
  | unregistered first | registered hook first =>
    refine .inl ?_
    rw [Task.rows, first]
    exact mem
  | dropped t row => exact .inl (mem_cons_of_mem _ mem)
  | saved x status =>
    obtain ⟨caller, hook, read⟩ := x
    cases caller with
    | dispatcher d => exact absurd mem not_mem_nil
    | tick t =>
      simp only [Execution.after] at mem
      split at mem <;> exact .inl (mem_cons_of_mem _ mem)
  | orphaned | taken | marked | ran | noneFailed | someFailed | nonePending | somePending
  | completed | uncompleted => exact .inl mem
  | _ => exact absurd mem not_mem_nil

/- what a process goes on to that looks for the next hook or row -/
structure Task.Reads (task : Task) : Prop where
  execution : task.execution = none
  executes : task.executes = none
  inserts : ∀ transitionId left hooks, task ≠ .insertHookRun transitionId left hooks
  counts : ∀ t transitionId, task ≠ .countPending t transitionId
  completes : ∀ t transitionId, task ≠ .complete t transitionId

theorem Execution.after_reads (x : Execution) (status : HookResultStatus) : (x.after status).Reads := by
  unfold Execution.after
  split
  · exact ⟨rfl, rfl, nofun, nofun, nofun⟩
  · split <;> exact ⟨rfl, rfl, nofun, nofun, nofun⟩

theorem Dispatch.upcoming_note (d : Dispatch) (hook : LifecycleHook) (status : HookResultStatus) :
    (d.note hook status).upcoming.Sublist (hookNames d.left) := by
  have left : (d.note hook status).left = d.left := by
    unfold Dispatch.note
    split <;> rfl
  rw [Dispatch.upcoming, left]
  split
  · exact nil_sublist _
  · exact Sublist.refl _

theorem Dispatch.upcoming_rest {left : List LifecycleHook} (first : d.left = hook :: left) :
    ({ d with left } : Dispatch).upcoming.Sublist d.upcoming := by
  unfold Dispatch.upcoming
  split
  · exact Sublist.refl []
  · rw [first]
    exact sublist_cons_self _ _

section

variable (next : Next db task db' task')
include next

theorem Next.upcoming : task'.upcoming.Sublist task.upcoming := by
  cases next with
  | passed first => exact Dispatch.upcoming_rest first
  | found first running =>
    rw [Task.upcoming, Dispatch.upcoming, running, first]
    exact Sublist.refl _
  | marked x =>
    obtain ⟨caller, hook, read⟩ := x
    cases caller with
    | dispatcher d => exact sublist_cons_self _ _
    | tick t => exact Sublist.refl []
  | saved x status =>
    obtain ⟨caller, hook, read⟩ := x
    cases caller with
    | dispatcher d => exact Dispatch.upcoming_note d hook status
    | tick t =>
      simp only [Execution.after]
      split <;> exact Sublist.refl []
  | inserted | ready | ran | opened => exact Sublist.refl _
  | _ =>
    exact nil_sublist _

theorem Next.dispatching : task'.dispatching = task.dispatching ∨ task.dispatching = none ∧
      task'.dispatching = some db.log.supply ∧ db' = insertTransition db := by
  cases next with
  | openedEmpty | opened => exact .inr ⟨rfl, rfl, rfl⟩
  | saved x status =>
    refine .inl ?_
    obtain ⟨caller, hook, read⟩ := x
    cases caller with
    | dispatcher d =>
      simp only [Execution.after, Dispatch.note]
      split <;> rfl
    | tick t =>
      simp only [Execution.after]
      split <;> rfl
  | _ => exact .inl rfl

theorem Next.own (tidy : Tidy db task) : ∀ x ∈ task'.execution, ∀ d, x.caller = .dispatcher d →
      d.aborted = false ∧ x.row.transitionId = d.transitionId ∧ x.row.hookName = x.hook.name := by
  intro x execution d caller
  cases next with
  | found first running mem own name =>
    cases execution
    cases caller
    exact ⟨running, own, name⟩
  | taken =>
    cases execution
    cases caller
  | marked y | ran y => exact tidy.own x execution d caller
  | saved y status =>
    rw [(y.after_reads status).execution] at execution
    cases execution
  | _ => exact absurd execution nofun

theorem Next.inserts (tidy : Tidy db task) : ∀ transitionId left hooks, task' = .insertHookRun transitionId left hooks →
      (hookNames left).Nodup ∧ left ⊆ hooks ∧
        ∀ r ∈ db'.log.hookRuns, r.transitionId = transitionId → r.hookName ∉ hookNames left := by
  intro transitionId left hooks same
  cases next with
  | opened hook rest =>
    cases same
    refine ⟨tidy.distinct, Subset.refl _, ?_⟩
    intro r mem own
    obtain ⟨t, there, parent⟩ := db.log.references r mem
    exact absurd (parent.trans own) (Nat.ne_of_lt (db.log.transitionsDrawn t there))
  | @inserted _ hook _ _ log done =>
    cases same
    obtain ⟨distinct, some, missing⟩ := tidy.inserts _ _ _ rfl
    obtain ⟨first, rest⟩ := nodup_cons.mp distinct
    refine ⟨rest, (cons_subset.mp some).2, ?_⟩
    intro r mem own
    obtain ⟨_, _, rows⟩ := HookLog.insertRun_some done
    rcases (rows r).mp mem with rfl | old
    · exact first
    · exact fun later => missing r old own (mem_cons_of_mem _ later)
  | saved y status => exact absurd same ((y.after_reads status).inserts transitionId left hooks)
  | _ => cases same

end

variable {transitionId : Nat}

theorem Tidy.inserted {hook : LifecycleHook} {left hooks : List LifecycleHook}
    (tidy : Tidy db (.insertHookRun transitionId (hook :: left) hooks)) (maxAttempts : Nat) :
    db.log.insertRun transitionId hook.name maxAttempts ≠ none := by
  intro refused
  obtain ⟨r, mem, own, name⟩ := HookLog.insertRun_none refused (tidy.parent transitionId rfl)
  obtain ⟨_, _, missing⟩ := tidy.inserts _ _ _ rfl
  exact missing r mem own (name ▸ mem_cons_self)

theorem Next.tidy (next : Next db task db' task') (tidy : Tidy db task) : Tidy db' task' where
  rows row mem := by
    rcases next.rows row mem with read | ⟨there, _⟩
    · exact (tidy.rows row read).follows next.follows
    · exact Known.follows ⟨row, there, rfl⟩ next.follows
  distinct := tidy.distinct.sublist next.upcoming
  parent transitionId own := by
    rcases next.dispatching with same | ⟨_, new, rfl⟩
    · rw [same] at own
      obtain ⟨t, mem, known⟩ := tidy.parent transitionId own
      obtain ⟨t', mem', known'⟩ := next.follows.transitions t mem
      exact ⟨t', mem', known'.trans known⟩
    · rw [new] at own
      cases own
      exact ⟨⟨db.log.supply, .running⟩, HookLog.mem_insertTransition.mpr (.inl rfl), rfl⟩
  own := next.own tidy
  inserts := next.inserts tidy

abbrev Processes := Table (Process Task) Process.id

theorem lifecycle_invariant {ok : Lifecycle → Task → Prop} {Inv : Store → Processes → Prop}
    (arrive : ∀ db (running running' : Processes) p, Inv db running → request p.task = true →
      running.insert p = some running' → Inv db running')
    (dies : ∀ (w : Lifecycle) p, Inv w.db w.running → p ∈ w.running → ok w p.task →
      w.db.killed = true → Inv w.db (w.running.delete (fun q => q.id == p.id)))
    (next : ∀ (w : Lifecycle) p db' task', Inv w.db w.running → p ∈ w.running → ok w p.task →
      w.db.killed = false → Next w.db p.task db' task' →
      Inv db' (resume w.running p.id (.next task' : Outcome Task Response)))
    (last : ∀ (w : Lifecycle) p db', Inv w.db w.running → p ∈ w.running → ok w p.task →
      w.db.killed = false → Last w.db p.task db' →
      Inv db' (w.running.delete (fun q => q.id == p.id)))
    (environment : ∀ (db db' : Store) running, db'.log = db.log → Inv db running → Inv db' running)
    {db : Store} {w : Lifecycle} {actions : List (Action Task Change)} (initial : Inv db empty)
    (guarded : Transition.Guarded system.step (onAdvance ok) (World.initial db) actions)
    (run : Transition.exec system.step (World.initial db) actions = some w) : Inv w.db w.running := by
  refine @System.invariant Store Task Response Change system ok (fun w => Inv w.db w.running)
    ?_ ?_ ?_ (World.initial db) w actions initial guarded run
  · intro v running p inv requested inserted
    exact arrive v.db v.running running p inv requested inserted
  · intro v p inv mem allowed
    show Inv (advance v.db p.task).1 (resume v.running p.id (advance v.db p.task).2)
    cases killed : v.db.killed with
    | true =>
      simp only [advance, killed]
      exact dies v p inv mem allowed killed
    | false =>
      simp only [advance, killed, Bool.false_eq_true, if_false]
      rcases execute_steps v.db p.task with ⟨task', goes, step⟩ | ⟨response, ends, step⟩
      · rw [goes]
        exact next v p _ task' inv mem allowed killed step
      · rw [ends]
        exact last v p _ inv mem allowed killed step
  · intro v change inv
    refine environment v.db _ v.running ?_ inv
    cases change <;> rfl

/-- Every process is tidy, and no transition has two dispatchers. -/
structure Orderly (db : Store) (running : Processes) : Prop where
  tidy : ∀ p ∈ running, Tidy db p.task
  alone : ∀ p ∈ running, ∀ q ∈ running, ∀ transitionId ∈ p.task.dispatching,
    q.task.dispatching = some transitionId → p = q

variable {running : Processes}

theorem Orderly.apart (orderly : Orderly db running) {q : Process Task} (mem : p ∈ running)
    (mem' : q ∈ running) (other : q.id ≠ p.id) :
    ∀ transitionId ∈ q.task.dispatching, p.task.dispatching ≠ some transitionId := by
  intro transitionId own same
  exact other (congrArg Process.id (orderly.alone q mem' p mem transitionId own same))

theorem Orderly.environment (same : db'.log = db.log) (orderly : Orderly db running) : Orderly db' running where
  tidy p mem := by
    have follows : Follows db db' none :=
      Follows.same_rows (by rw [same]) (fun t there => ⟨t, by rw [same]; exact there, rfl⟩)
    exact (orderly.tidy p mem).follows follows (fun _ _ => nofun)
  alone := orderly.alone

theorem Orderly.next (orderly : Orderly db running) (mem : p ∈ running) (next : Next db p.task db' task') :
    Orderly db' (resume running p.id (.next task' : Outcome Task Response)) := by
  have others : ∀ q ∈ running, q.id ≠ p.id → Tidy db' q.task := fun q mem' other =>
    (orderly.tidy q mem').follows next.follows (orderly.apart mem mem' other)
  -- a transition that is new has the id after all ids
  have fresh : ∀ q ∈ running, q.id ≠ p.id → ∀ transitionId ∈ q.task.dispatching,
      task'.dispatching ≠ some transitionId := by
    intro q mem' other transitionId own same
    rcases next.dispatching with before | ⟨_, new, _⟩
    · rw [before] at same
      exact orderly.apart mem mem' other transitionId own same
    obtain ⟨t, there, known⟩ := (orderly.tidy q mem').parent transitionId own
    rw [new] at same
    cases same
    exact absurd known (Nat.ne_of_lt (db.log.transitionsDrawn t there))
  constructor
  · intro q mem'
    rcases mem_resume_next mem' with ⟨old, other⟩ | rfl
    · exact others q old other
    · exact next.tidy (orderly.tidy p mem)
  intro q memq r memr transitionId own same
  rcases mem_resume_next memq with ⟨oldq, otherq⟩ | rfl
  · rcases mem_resume_next memr with ⟨oldr, otherr⟩ | rfl
    · exact orderly.alone q oldq r oldr transitionId own same
    · exact absurd same (fresh q oldq otherq transitionId own)
  · rcases mem_resume_next memr with ⟨oldr, otherr⟩ | rfl
    · exact absurd own (fresh r oldr otherr transitionId same)
    · rfl

theorem Orderly.ended (orderly : Orderly db running) (mem : p ∈ running) (follows : Follows db db' p.task.dispatching) :
    Orderly db' (running.delete (fun q => q.id == p.id)) where
  tidy q mem' := by
    obtain ⟨old, other⟩ := mem_delete.mp mem'
    exact (orderly.tidy q old).follows follows (orderly.apart mem old (by simpa using other))
  alone q memq r memr := orderly.alone q (mem_delete.mp memq).1 r (mem_delete.mp memr).1

theorem Tidy.requested {task : Task} (requested : request task = true) : Tidy db task ∧ task.dispatching = none := by
  have idle {x : Execution} (none : task.execution = none) (mem : x ∈ task.execution) : False := by
    rw [none] at mem
    exact Option.not_mem_none x mem
  cases task with
  | runTransition hooks =>
    refine ⟨⟨by simp [Task.rows], of_decide_eq_true requested, nofun, ?_, nofun⟩, rfl⟩
    exact fun _ mem => (idle rfl mem).elim
  | runRetryTick hooks =>
    refine ⟨⟨by simp [Task.rows], nodup_nil, nofun, ?_, nofun⟩, rfl⟩
    exact fun _ mem => (idle rfl mem).elim
  | _ => cases requested

theorem Orderly.arrive {running' : Processes} (orderly : Orderly db running)
    (requested : request p.task = true) (inserted : running.insert p = some running') : Orderly db running' := by
  obtain ⟨tidy, none⟩ := @Tidy.requested db p.task requested
  constructor
  · intro q mem
    rcases (mem_insert inserted).mp mem with rfl | old
    · exact tidy
    · exact orderly.tidy q old
  intro q memq r memr transitionId own same
  rcases (mem_insert inserted).mp memq with rfl | oldq
  · rw [none] at own
    exact absurd own nofun
  rcases (mem_insert inserted).mp memr with rfl | oldr
  · rw [none] at same
    exact absurd same nofun
  · exact orderly.alone q oldq r oldr transitionId own same

theorem Orderly.initial (db : Store) : Orderly db empty where
  tidy p mem := absurd mem (not_mem_empty p)
  alone p mem := absurd mem (not_mem_empty p)

open Relation

/- the loop of the dispatcher, for hooks that return `result` -/
def Dispatch.run (result : String → HookResultStatus) : Dispatch → List LifecycleHook → Dispatch
  | d, [] => d
  | d, hook :: left =>
    let rest : Dispatch := { d with left }
    if d.aborted then rest.run result left else (rest.note hook (result hook.name)).run result left

def runTransition (transitionId : Nat) (hooks : List LifecycleHook)
    (result : String → HookResultStatus) : DispatchResult :=
  if hooks.isEmpty then ⟨transitionId, .completed, 0, 0, 0⟩
  else (Dispatch.run result ⟨transitionId, hooks, 0, 0, false⟩ hooks).result

def Blocks (result : String → HookResultStatus) (hook : LifecycleHook) : Prop :=
  hook.blocking = .abort ∧ (result hook.name).succeeded = false

theorem Dispatch.note_aborted :
    (d.note hook (result hook.name)).aborted = true ↔ d.aborted = true ∨ Blocks result hook := by
  unfold Dispatch.note Blocks
  cases succeeded : (result hook.name).succeeded <;> simp

theorem Dispatch.run_aborted (result : String → HookResultStatus) (d : Dispatch) (hooks : List LifecycleHook) :
    (d.run result hooks).aborted = true ↔ d.aborted = true ∨ ∃ hook ∈ hooks, Blocks result hook := by
  induction hooks generalizing d with
  | nil => simp [Dispatch.run]
  | cons hook left ih =>
    rw [Dispatch.run]
    by_cases aborted : d.aborted = true
    · rw [if_pos aborted, ih]
      exact iff_of_true (.inl aborted) (.inl aborted)
    · rw [if_neg aborted, ih, Dispatch.note_aborted, exists_mem_cons_iff]
      exact or_assoc

theorem runTransition_blocking : (runTransition transitionId hooks result).state = .failedBlocking ↔
      ∃ hook ∈ hooks, Blocks result hook := by
  have aborted := Dispatch.run_aborted result ⟨transitionId, hooks, 0, 0, false⟩ hooks
  unfold runTransition
  cases hooks with
  | nil => simp
  | cons hook left =>
    simp only [Bool.false_eq_true, false_or] at aborted
    rw [← aborted]
    simp only [isEmpty_cons, Bool.false_eq_true, if_false, Dispatch.result, Dispatch.finalState]
    split
    · rename_i blocked
      simp [blocked]
    · rename_i unblocked
      split <;> simp [unblocked]

end HostingPlatform.TenantLifecycle
