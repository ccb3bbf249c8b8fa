import HostingPlatform.Table
import HostingPlatform.Js.Record
import HostingPlatform.Js.Text
import Mathlib.Data.List.Sort

/-! The table of tasks and the functions that write and read it. Each of them is one statement of the
database (retention is two), so a call that fails leaves the table as it is. -/
namespace HostingPlatform.Tasks

open Table

inductive TaskScope where
  | admin | tenant | system
  deriving DecidableEq

inductive TaskStatus where
  | queued | running | succeeded | failed | cancelled
  deriving DecidableEq

def TaskStatus.inFlight : TaskStatus → Bool
  | .queued | .running => true
  | .succeeded | .failed | .cancelled => false

def TaskStatus.terminal : TaskStatus → Bool
  | .succeeded | .failed | .cancelled => true
  | .queued | .running => false

theorem TaskStatus.not_terminal (status : TaskStatus) : status.terminal = !status.inFlight := by
  cases status <;> rfl

/- an object whose values stand as their JSON texts -/
abbrev Json := Js.Record String

inductive TaskTarget where
  | modal (modal : String) (modalProps : Json)
  | route (href : String)

/-- The ids are UUIDs, and a UUID stands as a number. -/
structure TaskRow where
  id : Nat
  kind : String
  refId : Option String
  scope : TaskScope
  (userId tenantId : Option Nat)
  label : String
  status : TaskStatus
  progressPct : Option Int
  progressText : Option String
  target : TaskTarget
  errorMessage : Option String
  details : Option Json
  (startedAt updatedAt : Nat)
  (finishedAt clearedAt parentTaskId : Option Nat)

structure TaskStartArgs where
  kind : String
  refId : Option String
  scope : TaskScope
  (userId tenantId : Option Nat)
  label : String
  target : TaskTarget
  progressPct : Option Int
  progressText : Option String
  details : Option Json
  parentTaskId : Option Nat

/- the outer `none` is a field that is not given, the inner one is null -/
structure TaskProgressArgs where
  pct : Option (Option Int)
  text : Option (Option String)
  detailsPatch : Option Json

inductive Outcome where
  | succeeded | failed | cancelled
  deriving DecidableEq

def Outcome.status : Outcome → TaskStatus
  | .succeeded => .succeeded
  | .failed => .failed
  | .cancelled => .cancelled

structure TaskFinishArgs where
  status : Outcome
  error : Option String
  detailsPatch : Option Json
  text : Option (Option String)
  clearImmediately : Bool

structure SnapshotFilter where
  userId : Nat
  (limit since : Option Nat)

def refers (kind refId : String) (r : TaskRow) : Bool := r.kind == kind && r.refId == some refId

def hasId (id : Nat) (r : TaskRow) : Bool := r.id == id

/-- Tasks_kind_ref_id_unique: a row without a reference is equal to no other. -/
def UniqueRefs (rows : Table TaskRow TaskRow.id) : Prop :=
  ∀ r ∈ rows, ∀ r' ∈ rows, r.refId.isSome = true → r.kind = r'.kind → r.refId = r'.refId → r.id = r'.id

/-- For the record: `started` has the time of the last start that gave the id back. -/
structure Store where
  rows : Table TaskRow TaskRow.id
  unique : UniqueRefs rows
  (now drawn : Nat)
  fresh : ∀ r ∈ rows, r.id < drawn
  started : Nat → Nat

def Store.empty (now : Nat) : Store where
  rows := Table.empty
  unique := fun _ mem => absurd mem List.not_mem_nil
  now := now
  drawn := 0
  fresh := fun _ mem => absurd mem List.not_mem_nil
  started := fun _ => 0

structure Keeps (f : TaskRow → TaskRow) : Prop where
  id : ∀ r, (f r).id = r.id
  kind : ∀ r, (f r).kind = r.kind
  refId : ∀ r, (f r).refId = r.refId

variable {r : TaskRow} {s : Store} {args : TaskStartArgs}

theorem update_origin {rows : Table TaskRow TaskRow.id} {p : TaskRow → Bool} {f : TaskRow → TaskRow}
    (keeps : Keeps f) (mem : r ∈ rows.update p f keeps.id) :
    ∃ old ∈ rows, r = apply p f old ∧ r.id = old.id ∧ r.kind = old.kind ∧ r.refId = old.refId := by
  obtain ⟨old, there, rfl⟩ := List.mem_map.mp mem
  exact ⟨old, there, rfl, apply_column TaskRow.id p f keeps.id old,
    apply_column TaskRow.kind p f keeps.kind old, apply_column TaskRow.refId p f keeps.refId old⟩

def Store.update (s : Store) (p : TaskRow → Bool) (f : TaskRow → TaskRow) (keeps : Keeps f) : Store :=
  { s with
    rows := s.rows.update p f keeps.id
    unique := by
      intro r mem r' mem' has kind refId
      obtain ⟨old, there, _, same, sameKind, sameRef⟩ := update_origin keeps mem
      obtain ⟨old', there', _, same', sameKind', sameRef'⟩ := update_origin keeps mem'
      rw [same, same']
      rw [sameRef] at has
      rw [sameKind, sameKind'] at kind
      rw [sameRef, sameRef'] at refId
      exact s.unique old there old' there' has kind refId
    fresh := by
      intro r mem
      obtain ⟨old, there, _, same, _⟩ := update_origin keeps mem
      exact same ▸ s.fresh old there }

def Store.delete (s : Store) (p : TaskRow → Bool) : Store :=
  { s with
    rows := s.rows.delete p
    unique := fun r mem r' mem' =>
      s.unique r (Table.mem_delete.mp mem).1 r' (Table.mem_delete.mp mem').1
    fresh := fun r mem => s.fresh r (Table.mem_delete.mp mem).1 }

def newRow (args : TaskStartArgs) (id now : Nat) : TaskRow where
  id := id
  kind := args.kind
  refId := args.refId
  scope := args.scope
  userId := args.userId
  tenantId := args.tenantId
  label := args.label
  status := .running
  progressPct := args.progressPct
  progressText := args.progressText
  target := args.target
  errorMessage := none
  details := args.details
  startedAt := now
  updatedAt := now
  finishedAt := none
  clearedAt := none
  parentTaskId := args.parentTaskId

/- the SET of ON CONFLICT (kind, ref_id) DO UPDATE -/
def restart (args : TaskStartArgs) (now : Nat) (r : TaskRow) : TaskRow :=
  { r with
    status := .running
    label := args.label
    target := args.target
    progressPct := args.progressPct
    progressText := args.progressText
    finishedAt := none
    errorMessage := none
    updatedAt := now }

theorem restart_keeps (args : TaskStartArgs) (now : Nat) : Keeps (restart args now) :=
  ⟨fun _ => rfl, fun _ => rfl, fun _ => rfl⟩

def conflicting (s : Store) (args : TaskStartArgs) : Option TaskRow :=
  args.refId.bind fun refId => s.rows.select (refers args.kind refId)

theorem conflicting_none (none : conflicting s args = none) (mem : r ∈ s.rows) (has : r.refId.isSome = true)
    (kind : r.kind = args.kind) : r.refId ≠ args.refId := by
  intro same
  rw [same, Option.isSome_iff_exists] at has
  obtain ⟨refId, given⟩ := has
  rw [conflicting, given] at none
  have differs := select_none none r mem
  simp [refers, kind, same, given] at differs

theorem conflicting_some (found : conflicting s args = some r) :
    r ∈ s.rows ∧ r.kind = args.kind ∧ r.refId = args.refId := by
  obtain ⟨refId, given, found⟩ := Option.bind_eq_some_iff.mp found
  obtain ⟨mem, same⟩ := mem_of_select found
  rw [refers, Bool.and_eq_true, beq_iff_eq, beq_iff_eq] at same
  exact ⟨mem, same.1, same.2.trans given.symm⟩

def record (s : Store) (id : Nat) : Store :=
  { s with started := fun i => if i = id then s.now else s.started i }

def insertRow (s : Store) (args : TaskStartArgs) (none : conflicting s args = none) : Store :=
  let row := newRow args s.drawn s.now
  { s with
    rows := s.rows.put row
    unique := by
      intro r mem r' mem' has kind refId
      rcases Table.mem_put.mp mem with rfl | ⟨there, _⟩
      · rcases Table.mem_put.mp mem' with rfl | ⟨there', _⟩
        · rfl
        · exact absurd refId.symm (conflicting_none none there' (refId ▸ has) kind.symm)
      · rcases Table.mem_put.mp mem' with rfl | ⟨there', _⟩
        · exact absurd refId (conflicting_none none there has kind)
        · exact s.unique r there r' there' has kind refId
    drawn := s.drawn + 1
    fresh := by
      intro r mem
      rcases Table.mem_put.mp mem with rfl | ⟨there, _⟩
      · exact Nat.lt_succ_self _
      · exact Nat.lt_succ_of_lt (s.fresh r there) }

def invalidScope (args : TaskStartArgs) : Bool :=
  args.scope == .system && args.userId.isSome || args.scope != .system && args.userId.isNone

def start (s : Store) (args : TaskStartArgs) : Option (Store × Nat) :=
  if invalidScope args then none
  else
    match found : conflicting s args with
    | some r => some (record (s.update (hasId r.id) (restart args s.now) (restart_keeps args s.now)) r.id, r.id)
    | none => some (record (insertRow s args found) s.drawn, s.drawn)

/- COALESCE(details, '{}') || patch -/
def mergePatch (patch : Option Json) (details : Option Json) : Option Json :=
  match patch with
  | none => details
  | some patch =>
    some (patch.entries.foldl (fun merged entry => merged.set entry.1 entry.2) (details.getD Js.Record.empty))

def progressUpdate (args : TaskProgressArgs) (now : Nat) (r : TaskRow) : TaskRow :=
  { r with
    updatedAt := now
    progressPct := args.pct.getD r.progressPct
    progressText := args.text.getD r.progressText
    details := mergePatch args.detailsPatch r.details }

theorem progressUpdate_keeps (args : TaskProgressArgs) (now : Nat) : Keeps (progressUpdate args now) :=
  ⟨fun _ => rfl, fun _ => rfl, fun _ => rfl⟩

def percentage (pct : Int) : Bool := decide (0 ≤ pct ∧ pct ≤ 100)

def progress (s : Store) (id : Nat) (args : TaskProgressArgs) : Option Store :=
  if (args.pct.bind fun pct => pct).all percentage then
    some (s.update (hasId id) (progressUpdate args s.now) (progressUpdate_keeps args s.now))
  else none

def buildFinishUpdate (args : TaskFinishArgs) (now : Nat) (r : TaskRow) : TaskRow :=
  { r with
    status := args.status.status
    finishedAt := some now
    updatedAt := now
    errorMessage := args.error
    progressText := args.text.getD r.progressText
    progressPct := if args.status = .succeeded then some 100 else r.progressPct
    details := mergePatch args.detailsPatch r.details
    clearedAt := if args.clearImmediately then some now else r.clearedAt }

theorem buildFinishUpdate_keeps (args : TaskFinishArgs) (now : Nat) : Keeps (buildFinishUpdate args now) :=
  ⟨fun _ => rfl, fun _ => rfl, fun _ => rfl⟩

def finishByRef (s : Store) (kind refId : String) (args : TaskFinishArgs) : Store :=
  s.update (refers kind refId) (buildFinishUpdate args s.now) (buildFinishUpdate_keeps args s.now)

def finish (s : Store) (id : Nat) (args : TaskFinishArgs) : Store :=
  s.update (hasId id) (buildFinishUpdate args s.now) (buildFinishUpdate_keeps args s.now)

def within (low high : Nat) (text : String) : Bool :=
  decide (low ≤ Js.length text ∧ Js.length text ≤ high)

def taskTargetSchema : TaskTarget → Bool
  | .modal modal _ => within 1 64 modal
  | .route href => within 1 2000 href

def taskRowSchema (r : TaskRow) : Bool :=
  within 1 64 r.kind && r.refId.all (within 1 64) && decide (1 ≤ Js.length r.label) &&
    r.progressPct.all percentage && taskTargetSchema r.target

def toTaskRow (r : TaskRow) : Option TaskRow := if taskRowSchema r then some r else none

/- milliseconds -/
def RECENT_TERMINAL_WINDOW_MS : Nat := 5 * 60 * 1000

def listed (filter : SnapshotFilter) (dateNow : Nat) (r : TaskRow) : Bool :=
  r.userId == some filter.userId &&
    (r.status.inFlight ||
      r.finishedAt.any (fun finishedAt => decide (dateNow < finishedAt + RECENT_TERMINAL_WINDOW_MS)) &&
        r.clearedAt.isNone) &&
    filter.since.all (fun since => decide (since < r.updatedAt))

def cap (filter : SnapshotFilter) : Nat := min (filter.limit.getD 100) 100

def recentFirst (r r' : TaskRow) : Prop := r'.updatedAt ≤ r.updatedAt

instance : DecidableRel recentFirst := fun r r' => inferInstanceAs (Decidable (r'.updatedAt ≤ r.updatedAt))

def selectTasks (s : Store) (filter : SnapshotFilter) (dateNow : Nat) : List TaskRow :=
  ((s.rows.selectAll (listed filter dateNow)).insertionSort recentFirst).take (cap filter)

def parentAmong (all : List TaskRow) (r : TaskRow) : Bool :=
  r.parentTaskId.any fun parent => all.any (hasId parent)

/- `dateNow` is the clock of the server that asks, not the database's -/
def snapshot (s : Store) (filter : SnapshotFilter) (dateNow : Nat) : List TaskRow :=
  let all := (selectTasks s filter dateNow).filterMap toTaskRow
  all.filter (fun r => !parentAmong all r)

def clearRow (now : Nat) (r : TaskRow) : TaskRow := { r with clearedAt := some now }

theorem clearRow_keeps (now : Nat) : Keeps (clearRow now) := ⟨fun _ => rfl, fun _ => rfl, fun _ => rfl⟩

def clearable (userId : Nat) (ids : List Nat) (r : TaskRow) : Bool :=
  r.userId == some userId && r.status.terminal &&
    if ids.isEmpty then r.clearedAt.isNone else ids.contains r.id

def clear (s : Store) (userId : Nat) (ids : List Nat) : Store × Nat :=
  (s.update (clearable userId ids) (clearRow s.now) (clearRow_keeps s.now),
    (s.rows.selectAll (clearable userId ids)).length)

def ORPHAN_REAP_MS : Nat := 24 * 60 * 60 * 1000

def TERMINAL_RETENTION_MS : Nat := 7 * 24 * 60 * 60 * 1000

def orphaned (now : Nat) (r : TaskRow) : Bool :=
  r.status.inFlight && decide (r.startedAt + ORPHAN_REAP_MS < now)

def reap (now : Nat) (r : TaskRow) : TaskRow :=
  { r with
    status := .failed
    finishedAt := some now
    updatedAt := now
    errorMessage := some "Task reaped — no progress in over 24 hours" }

theorem reap_keeps (now : Nat) : Keeps (reap now) := ⟨fun _ => rfl, fun _ => rfl, fun _ => rfl⟩

def outdated (now : Nat) (r : TaskRow) : Bool :=
  r.status.terminal && r.finishedAt.any (fun finishedAt => decide (finishedAt + TERMINAL_RETENTION_MS < now))

def reapOrphans (s : Store) : Store := s.update (orphaned s.now) (reap s.now) (reap_keeps s.now)

structure RetentionResult where
  (deletedTerminal reapedOrphans : Nat)

def runRetention (s : Store) : Store × RetentionResult :=
  let reaped := reapOrphans s
  (reaped.delete (outdated s.now),
    ⟨(reaped.rows.selectAll (outdated s.now)).length, (s.rows.selectAll (orphaned s.now)).length⟩)

end HostingPlatform.Tasks
