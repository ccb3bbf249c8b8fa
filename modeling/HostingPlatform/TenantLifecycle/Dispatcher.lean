import HostingPlatform.Interleaving

/-! Transitions of tenants and the runs of their hooks, as the database keeps them: a hook runs
at most once in a transition, under its name, and every run belongs to a transition. -/
namespace HostingPlatform.TenantLifecycle

open Table

inductive HookResultStatus where
  | ok | noop | retry | failed
  deriving DecidableEq

def HookResultStatus.succeeded (status : HookResultStatus) : Bool :=
  status == .ok || status == .noop

inductive BlockingPolicy where
  | abort | continues
  deriving DecidableEq

/- `maxAttempts` and `backoffMs` may be left to their defaults -/
structure LifecycleHook where
  name : String
  blocking : BlockingPolicy
  maxAttempts : Option Nat
  backoffMs : Option (Nat → Nat)

def defaultMaxAttempts : Nat := 5

/- 5 s, 10 s, 20 s and so on, at most 5 min -/
def defaultBackoffMs (attempt : Nat) : Nat := min (5000 * Nat.pow 2 (attempt - 1)) (5 * 60 * 1000)

def systemTenantGuardHook : LifecycleHook := ⟨"system-tenant-guard", .abort, some 1, none⟩

def pvCleanupReleasedHook : LifecycleHook := ⟨"pv-cleanup-released", .continues, none, none⟩

def privateWorkersLifecycleHook : LifecycleHook := ⟨"db-private-workers", .abort, none, none⟩

def deploymentsStatusHook : LifecycleHook := ⟨"deployments-status", .abort, none, none⟩

def dnsZoneCleanupHook : LifecycleHook := ⟨"dns-zone-cleanup", .continues, some 3, none⟩

def backupsV2BundleCleanupHook : LifecycleHook :=
  ⟨"tenant-bundles-bundle-cleanup", .continues, some 3, none⟩

def clusterScopedRefsCleanupHook : LifecycleHook :=
  ⟨"cluster-scoped-refs-cleanup", .continues, some 3, none⟩

/- the hooks registered for `deleted`, in topological order -/
def deletedHooks : List LifecycleHook :=
  [systemTenantGuardHook, pvCleanupReleasedHook, privateWorkersLifecycleHook, deploymentsStatusHook,
    dnsZoneCleanupHook, backupsV2BundleCleanupHook, clusterScopedRefsCleanupHook]

inductive TransitionState where
  | running | completed | failedPartial | failedBlocking
  deriving DecidableEq

inductive HookRunState where
  | pending | running | ok | noop | failed
  deriving DecidableEq

def HookRunState.succeeded (state : HookRunState) : Bool := state == .ok || state == .noop

structure LifecycleTransition where
  id : Nat
  state : TransitionState
  deriving DecidableEq

structure HookRun where
  (id transitionId : Nat)
  hookName : String
  state : HookRunState
  (attempts maxAttempts : Nat)
  nextAttemptAt : Option Nat

def HookRun.identity (r : HookRun) : Nat × Nat × String × Nat :=
  (r.id, r.transitionId, r.hookName, r.maxAttempts)

def HookRun.index (r : HookRun) : Nat × String := (r.transitionId, r.hookName)

/- the assignments of the UPDATEs -/
def HookRun.start (attempts : Nat) (r : HookRun) : HookRun := { r with state := .running, attempts }

def HookRun.settle (state : HookRunState) (nextAttemptAt : Option Nat) (r : HookRun) : HookRun :=
  { r with state, nextAttemptAt }

variable {r r' : HookRun}

section

variable (same : r.identity = r'.identity)
include same

theorem HookRun.same_id : r.id = r'.id :=
  (Prod.mk.inj same).1

theorem HookRun.same_transition : r.transitionId = r'.transitionId :=
  (Prod.mk.inj (Prod.mk.inj same).2).1

theorem HookRun.same_name : r.hookName = r'.hookName :=
  (Prod.mk.inj (Prod.mk.inj (Prod.mk.inj same).2).2).1

theorem HookRun.same_max : r.maxAttempts = r'.maxAttempts :=
  (Prod.mk.inj (Prod.mk.inj (Prod.mk.inj same).2).2).2

theorem HookRun.same_index : r.index = r'.index :=
  Prod.ext (same_transition same) (same_name same)

end

/-- Ids are drawn from `supply`. -/
structure HookLog where
  transitions : Table LifecycleTransition LifecycleTransition.id
  hookRuns : Table HookRun HookRun.id
  supply : Nat
  transitionsDrawn : ∀ t ∈ transitions, t.id < supply
  hookRunsDrawn : ∀ r ∈ hookRuns, r.id < supply
  unique : (hookRuns.rows.map HookRun.index).Nodup
  references : ∀ r ∈ hookRuns, ∃ t ∈ transitions, t.id = r.transitionId

namespace HookLog
open Table

def empty : HookLog where
  transitions := Table.empty
  hookRuns := Table.empty
  supply := 0
  transitionsDrawn _ mem := absurd mem (Table.not_mem_empty _)
  hookRunsDrawn _ mem := absurd mem (Table.not_mem_empty _)
  unique := List.nodup_nil
  references _ mem := absurd mem (Table.not_mem_empty _)

def setTransition (state : TransitionState) (t : LifecycleTransition) : LifecycleTransition :=
  { t with state }

theorem setTransition_id (state : TransitionState) (t : LifecycleTransition) : (setTransition state t).id = t.id := rfl

def setState (log : HookLog) (id : Nat) (state : TransitionState) : HookLog :=
  { log with
    transitions := log.transitions.update (fun t => t.id == id) (setTransition state)
      (setTransition_id state)
    transitionsDrawn := fun t mem => by
      rcases (Table.mem_update _).mp mem with ⟨old, _⟩ | ⟨old, there, _, rfl⟩
      · exact log.transitionsDrawn t old
      · exact log.transitionsDrawn old there
    references := fun r mem => by
      obtain ⟨t, there, own⟩ := log.references r mem
      refine ⟨_, Table.apply_mem_update (setTransition_id state) there, ?_⟩
      rw [Table.apply_column LifecycleTransition.id _ _ (setTransition_id state)]
      exact own }

variable {log : HookLog} {id transitionId : Nat} {state : TransitionState} {t : LifecycleTransition}
  {hookName : String}

theorem mem_setState : t ∈ (log.setState id state).transitions ↔
      t ∈ log.transitions ∧ t.id ≠ id ∨ ∃ old ∈ log.transitions, old.id = id ∧ t = ⟨id, state⟩ := by
  refine (mem_update (setTransition_id state)).trans ?_
  simp only [beq_eq_false_iff_ne, beq_iff_eq, setTransition]
  constructor
  · rintro (other | ⟨old, mem, same, rfl⟩)
    · exact .inl other
    · exact .inr ⟨old, mem, same, by rw [same]⟩
  · rintro (other | ⟨old, mem, same, rfl⟩)
    · exact .inl other
    · exact .inr ⟨old, mem, same, by rw [same]⟩

def insertTransition (log : HookLog) (state : TransitionState) : HookLog where
  transitions :=
    { rows := ⟨log.supply, state⟩ :: log.transitions.rows
      keyed := by
        refine List.nodup_cons.mpr ⟨?_, log.transitions.keyed⟩
        intro mem
        obtain ⟨t, there, same⟩ := List.mem_map.mp mem
        exact absurd same (Nat.ne_of_lt (log.transitionsDrawn t there)) }
  hookRuns := log.hookRuns
  supply := log.supply + 1
  transitionsDrawn t mem := by
    rcases List.mem_cons.mp mem with rfl | old
    · exact Nat.lt_succ_self log.supply
    · exact Nat.lt_succ_of_lt (log.transitionsDrawn t old)
  hookRunsDrawn r mem := Nat.lt_succ_of_lt (log.hookRunsDrawn r mem)
  unique := log.unique
  references r mem := by
    obtain ⟨t, there, own⟩ := log.references r mem
    exact ⟨t, List.mem_cons_of_mem _ there, own⟩

theorem mem_insertTransition :
    t ∈ (log.insertTransition state).transitions ↔ t = ⟨log.supply, state⟩ ∨ t ∈ log.transitions :=
  List.mem_cons

/- `INSERT` of a pending row; the unique index and the foreign key are checked -/
def insertRun (log : HookLog) (transitionId : Nat) (hookName : String) (maxAttempts : Nat) :
    Option HookLog :=
  let r : HookRun := ⟨log.supply, transitionId, hookName, .pending, 0, maxAttempts, none⟩
  if checked : r.index ∉ log.hookRuns.rows.map HookRun.index ∧
      ∃ t ∈ log.transitions.rows, t.id = transitionId then
    some
      { transitions := log.transitions
        hookRuns :=
          { rows := r :: log.hookRuns.rows
            keyed := by
              refine List.nodup_cons.mpr ⟨?_, log.hookRuns.keyed⟩
              intro mem
              obtain ⟨old, there, same⟩ := List.mem_map.mp mem
              exact absurd same (Nat.ne_of_lt (log.hookRunsDrawn old there)) }
        supply := log.supply + 1
        transitionsDrawn := fun t mem => Nat.lt_succ_of_lt (log.transitionsDrawn t mem)
        hookRunsDrawn := fun new mem => by
          rcases List.mem_cons.mp mem with rfl | old
          · exact Nat.lt_succ_self log.supply
          · exact Nat.lt_succ_of_lt (log.hookRunsDrawn new old)
        unique := List.nodup_cons.mpr ⟨checked.1, log.unique⟩
        references := fun new mem => by
          rcases List.mem_cons.mp mem with rfl | old
          · exact checked.2
          · exact log.references new old }
  else none

theorem insertRun_some {log' : HookLog} {maxAttempts : Nat}
    (done : log.insertRun transitionId hookName maxAttempts = some log') :
    log'.transitions = log.transitions ∧ log'.supply = log.supply + 1 ∧ ∀ r, r ∈ log'.hookRuns ↔
      r = ⟨log.supply, transitionId, hookName, .pending, 0, maxAttempts, none⟩ ∨ r ∈ log.hookRuns := by
  unfold insertRun at done
  dsimp only at done
  split at done
  · cases done
    exact ⟨rfl, rfl, fun r => List.mem_cons⟩
  · contradiction

theorem insertRun_none {maxAttempts : Nat} (failed : log.insertRun transitionId hookName maxAttempts = none)
    (parent : ∃ t ∈ log.transitions, t.id = transitionId) :
    ∃ r ∈ log.hookRuns, r.transitionId = transitionId ∧ r.hookName = hookName := by
  unfold insertRun at failed
  dsimp only at failed
  split at failed
  · contradiction
  rename_i unchecked
  by_contra missing
  refine unchecked ⟨?_, parent⟩
  intro mem
  obtain ⟨r, there, same⟩ := List.mem_map.mp mem
  exact missing ⟨r, there, congrArg Prod.fst same, congrArg Prod.snd same⟩

def updateRun (log : HookLog) (id : Nat) (f : HookRun → HookRun)
    (keeps : ∀ r, (f r).identity = r.identity) : HookLog :=
  { log with
    hookRuns := log.hookRuns.update (fun r => r.id == id) f (fun r => HookRun.same_id (keeps r))
    hookRunsDrawn := fun r mem => by
      rcases (Table.mem_update _).mp mem with ⟨old, _⟩ | ⟨old, there, _, rfl⟩
      · exact log.hookRunsDrawn r old
      have same : (f old).id = old.id := HookRun.same_id (keeps old)
      rw [same]
      exact log.hookRunsDrawn old there
    unique := by
      have same : HookRun.index ∘ Table.apply (fun r => r.id == id) f = HookRun.index := by
        funext r
        exact Table.apply_column HookRun.index _ f (fun r => HookRun.same_index (keeps r)) r
      show ((log.hookRuns.rows.map _).map HookRun.index).Nodup
      rw [List.map_map, same]
      exact log.unique
    references := fun r mem => by
      rcases (Table.mem_update _).mp mem with ⟨old, _⟩ | ⟨old, there, _, rfl⟩
      · exact log.references r old
      · obtain ⟨t, known, own⟩ := log.references old there
        exact ⟨t, known, own.trans (HookRun.same_transition (keeps old)).symm⟩ }

theorem mem_updateRun {f : HookRun → HookRun} (keeps : ∀ r, (f r).identity = r.identity) {r : HookRun} :
    r ∈ (log.updateRun id f keeps).hookRuns ↔
      r ∈ log.hookRuns ∧ r.id ≠ id ∨ ∃ old ∈ log.hookRuns, old.id = id ∧ f old = r := by
  refine (mem_update (fun r => HookRun.same_id (keeps r))).trans ?_
  simp

theorem eq_of_index {r r' : HookRun} (mem : r ∈ log.hookRuns) (mem' : r' ∈ log.hookRuns)
    (same : r.index = r'.index) : r = r' :=
  List.inj_on_of_nodup_map log.unique mem mem' same

end HookLog

/-! The dispatcher, which takes a transition through its hooks, and the ticks of the scheduler, which run
failed hooks again. -/

open Interleaving

/- `result` is what a hook returns that runs now; one that throws has `failed`. A query with a
LIMIT gives some of the rows that match, `returned` says which. `killed` says that a process that
is up next dies, and `rechecks` that the re-evaluation of a transition does not throw. -/
structure Store where
  log : HookLog
  clock : Nat
  result : String → HookResultStatus
  breakerOpen : String → Bool
  returned : Nat → Bool
  (killed rechecks : Bool)

inductive Change where
  | pass (ms : Nat)
  | results (result : String → HookResultStatus)
  | breakers (breakerOpen : String → Bool)
  | limit (returned : Nat → Bool)
  | kill (killed : Bool)
  | recheck (rechecks : Bool)

def Store.change (db : Store) : Change → Store
  | .pass ms => { db with clock := db.clock + ms }
  | .results result => { db with result }
  | .breakers breakerOpen => { db with breakerOpen }
  | .limit returned => { db with returned }
  | .kill killed => { db with killed }
  | .recheck rechecks => { db with rechecks }

/- the local variables of the dispatcher's loop; `left` are the hooks that it has yet to reach -/
structure Dispatch where
  transitionId : Nat
  left : List LifecycleHook
  (hooksOk hooksFailed : Nat)
  aborted : Bool

structure Tick where
  hooks : List LifecycleHook
  candidates : List HookRun

inductive Caller where
  | dispatcher (d : Dispatch)
  | tick (t : Tick)

/- `row` is the row of the hook as its caller read it -/
structure Execution where
  caller : Caller
  hook : LifecycleHook
  row : HookRun

inductive Task where
  | runTransition (hooks : List LifecycleHook)
  | completeEmpty (transitionId : Nat)
  | insertHookRun (transitionId : Nat) (left hooks : List LifecycleHook)
  | findHookRun (d : Dispatch)
  | finish (d : Dispatch)
  | runRetryTick (hooks : List LifecycleHook)
  | consider (t : Tick)
  | dropRun (t : Tick) (row : HookRun)
  | loadParent (t : Tick) (hook : LifecycleHook) (row : HookRun)
  | markRunning (x : Execution)
  | runHook (x : Execution)
  | saveResult (x : Execution) (status : HookResultStatus)
  | countFailed (t : Tick) (transitionId : Nat)
  | countPending (t : Tick) (transitionId : Nat)
  | complete (t : Tick) (transitionId : Nat)

structure DispatchResult where
  transitionId : Nat
  state : TransitionState
  (hooksAttempted hooksOk hooksFailed : Nat)

inductive Response where
  | dispatched (result : DispatchResult)
  | ticked
  | died

def HookRun.candidate (now : Nat) (r : HookRun) : Bool :=
  r.state == .failed && r.nextAttemptAt.any (· ≤ now) && decide (r.attempts < r.maxAttempts)

def Dispatch.note (d : Dispatch) (hook : LifecycleHook) (status : HookResultStatus) : Dispatch :=
  if status.succeeded then { d with hooksOk := d.hooksOk + 1 }
  else
    { d with
      hooksFailed := d.hooksFailed + 1
      aborted := d.aborted || hook.blocking == .abort }

def Dispatch.finalState (d : Dispatch) : TransitionState :=
  if d.aborted then .failedBlocking
  else if 0 < d.hooksFailed then .failedPartial
  else .completed

def Dispatch.result (d : Dispatch) : DispatchResult where
  transitionId := d.transitionId
  state := d.finalState
  hooksAttempted := d.hooksOk + d.hooksFailed
  hooksOk := d.hooksOk
  hooksFailed := d.hooksFailed

def Execution.attempt (x : Execution) : Nat := x.row.attempts + 1

/- the dispatcher asks the hook alone, a tick falls back on the row -/
def Execution.maxAttempts (x : Execution) : Nat :=
  match x.caller with
  | .dispatcher _ => x.hook.maxAttempts.getD defaultMaxAttempts
  | .tick _ => x.hook.maxAttempts.getD x.row.maxAttempts

def Execution.nextAttemptAt (x : Execution) (now : Nat) (status : HookResultStatus) : Option Nat :=
  if status = .retry ∧ x.attempt < x.maxAttempts then
    some (now + x.hook.backoffMs.getD defaultBackoffMs x.attempt)
  else none

def HookResultStatus.saved : HookResultStatus → HookRunState
  | .ok => .ok
  | .noop => .noop
  | .retry | .failed => .failed

theorem saved_settled (status : HookResultStatus) : status.saved ≠ .pending ∧ status.saved ≠ .running := by
  cases status <;> decide

/- the dispatcher goes on to its next hook; a tick looks at the transition after a success -/
def Execution.after (x : Execution) (status : HookResultStatus) : Task :=
  match x.caller with
  | .dispatcher d => .findHookRun (d.note x.hook status)
  | .tick t => if status.succeeded then .countFailed t x.row.transitionId else .consider t

def Store.updateRun (db : Store) (id : Nat) (f : HookRun → HookRun)
    (keeps : ∀ r, (f r).identity = r.identity) : Store :=
  { db with log := db.log.updateRun id f keeps }

def Store.setState (db : Store) (id : Nat) (state : TransitionState) : Store :=
  { db with log := db.log.setState id state }

/- the SELECT of the re-evaluation: a row of the transition in the state -/
def Store.remaining (db : Store) (transitionId : Nat) (state : HookRunState) : Option HookRun :=
  db.log.hookRuns.select (fun r => r.transitionId == transitionId && r.state == state)

def insertTransition (db : Store) : Store :=
  { db with log := db.log.insertTransition .running }

def insertHookRun (db : Store) (transitionId : Nat) (hooks : List LifecycleHook) :
    List LifecycleHook → Store × Outcome Task Response
  | [] => (db, .next (.findHookRun ⟨transitionId, hooks, 0, 0, false⟩))
  | hook :: left =>
    match db.log.insertRun transitionId hook.name (hook.maxAttempts.getD defaultMaxAttempts) with
    | none => (db, .answer .died)
    | some log => ({ db with log }, .next (.insertHookRun transitionId left hooks))

def findHookRun (db : Store) (d : Dispatch) : Outcome Task Response :=
  match d.left with
  | [] => .next (.finish d)
  | hook :: left =>
    let rest : Dispatch := { d with left }
    match db.log.hookRuns.select
        (fun r => r.transitionId == d.transitionId && r.hookName == hook.name) with
    | none => .next (.findHookRun rest)
    | some row =>
      if d.aborted then .next (.findHookRun rest)
      else .next (.markRunning ⟨.dispatcher rest, hook, row⟩)

def loadCandidates (db : Store) : List HookRun :=
  ((db.log.hookRuns.selectAll (fun r => r.candidate db.clock)).filter
    (fun r => db.returned r.id)).take 50

def consider (db : Store) (t : Tick) : Outcome Task Response :=
  match t.candidates with
  | [] => .answer .ticked
  | row :: candidates =>
    let rest : Tick := { t with candidates }
    match t.hooks.find? (fun hook => hook.name == row.hookName) with
    | none => .next (.dropRun rest row)
    | some hook =>
      if db.breakerOpen hook.name then .next (.consider rest)
      else .next (.loadParent rest hook row)

def loadParent (db : Store) (t : Tick) (hook : LifecycleHook) (row : HookRun) :
    Outcome Task Response :=
  match db.log.transitions.select (fun parent => parent.id == row.transitionId) with
  | none => .next (.dropRun t row)
  | some _ => .next (.markRunning ⟨.tick t, hook, row⟩)

def execute (db : Store) : Task → Store × Outcome Task Response
  | .runTransition [] => (insertTransition db, .next (.completeEmpty db.log.supply))
  | .runTransition (hook :: left) =>
    (insertTransition db, .next (.insertHookRun db.log.supply (hook :: left) (hook :: left)))
  | .completeEmpty transitionId =>
    (db.setState transitionId .completed, .answer (.dispatched ⟨transitionId, .completed, 0, 0, 0⟩))
  | .insertHookRun transitionId left hooks => insertHookRun db transitionId hooks left
  | .findHookRun d => (db, findHookRun db d)
  | .finish d => (db.setState d.transitionId d.finalState, .answer (.dispatched d.result))
  | .runRetryTick hooks => (db, .next (.consider ⟨hooks, loadCandidates db⟩))
  | .consider t => (db, consider db t)
  | .dropRun t row =>
    (db.updateRun row.id (.settle .failed none) (fun _ => rfl), .next (.consider t))
  | .loadParent t hook row => (db, loadParent db t hook row)
  | .markRunning x => (db.updateRun x.row.id (.start x.attempt) (fun _ => rfl), .next (.runHook x))
  | .runHook x => (db, .next (.saveResult x (db.result x.hook.name)))
  | .saveResult x status =>
    (db.updateRun x.row.id (.settle status.saved (x.nextAttemptAt db.clock status)) (fun _ => rfl),
      .next (x.after status))
  | .countFailed t transitionId =>
    (db, .next (if db.rechecks ∧ db.remaining transitionId .failed = none
      then .countPending t transitionId else .consider t))
  | .countPending t transitionId =>
    (db, .next (if db.rechecks ∧ db.remaining transitionId .pending = none
      then .complete t transitionId else .consider t))
  | .complete t transitionId =>
    (if db.rechecks then db.setState transitionId .completed else db, .next (.consider t))

def advance (db : Store) (task : Task) : Store × Outcome Task Response :=
  if db.killed then (db, .answer .died) else execute db task

/- the registry keeps its hooks by name -/
def request : Task → Bool
  | .runTransition hooks => decide (hooks.map LifecycleHook.name).Nodup
  | .runRetryTick _ => true
  | _ => false

def system : System Store Task Response Change := ⟨fun _ => request, advance, Store.change⟩

abbrev Lifecycle := World Store Task Response

/- no transition so far, and every hook succeeds -/
def freshStore : Store where
  log := HookLog.empty
  clock := 0
  result _ := .ok
  breakerOpen _ := false
  returned _ := true
  killed := false
  rechecks := true

end HostingPlatform.TenantLifecycle
