import HostingPlatform.TenantBundles.Failures
import HostingPlatform.TenantBundles.Schedule

/-! What a schedule records of its last run, and when it is due again. The row is claimed before
the run, so it says the same of a run that goes on, one that failed and one whose pod is gone. -/
namespace HostingPlatform.TenantBundles.Scheduler

open Option Table List Interleaving Transition

abbrev SchedulerWorld := World Db Task Response

inductive RunOutcome where
  | completed | partialBundle | thrown | killed
  deriving DecidableEq

def runOutcome (db : Db) (row : Due) : RunOutcome :=
  if db.killed then .killed
  else
    match runOneScheduledBundle db.attempt row.tenantId row.retentionDays with
    | .error _ => .thrown
    | .ok bundle =>
      if bundle.job.any (fun job => job.status == .completed) then .completed else .partialBundle

/- the schedule that a task runs, and the one it has claimed and not yet written back to -/
def Task.runs : Task → Option Due
  | .run row .. => some row
  | _ => none

def Task.holds : Task → Option Due
  | .run row .. | .markCompleted row .. | .markFailed row .. => some row
  | _ => none

def Task.pending : Task → List Due
  | .tick => []
  | .claim row rest _ => row :: rest
  | .run _ rest _ | .markCompleted _ rest _ | .markFailed _ rest _ => rest

def ranOn (tenantId : Nat) (e : Event Db Task Response) : Bool :=
  e.task.runs.any (fun row => row.tenantId == tenantId)

def lastOutcome (w : SchedulerWorld) (tenantId : Nat) : Option RunOutcome :=
  (w.log.find? (ranOn tenantId)).bind (fun e => e.task.runs.map (runOutcome e.before))

def Holds (w : SchedulerWorld) (tenantId : Nat) : Prop :=
  ∃ p ∈ w.running, ∃ row, p.task.holds = some row ∧ row.tenantId = tenantId

/- what may stand in the row of a run that has ended; nobody is left to record a killed one -/
def RunOutcome.records (status : Option BundleStatus) : RunOutcome → Prop
  | .completed => status = some .completed
  | .partialBundle => status = some .partialBundle ∨ status = some .failed
  | .thrown => status = some .failed
  | .killed => status ≠ some .completed

structure Faithful (w : SchedulerWorld) : Prop where
  alone : ∀ p ∈ w.running, ∀ q ∈ w.running, ∀ row row', p.task.runs = some row → q.task.runs = some row' →
    row.tenantId = row'.tenantId → p = q
  records : ∀ s ∈ w.db.schedules, ¬ Holds w s.tenantId →
    ∀ outcome ∈ lastOutcome w s.tenantId, outcome.records s.lastRunStatus
  dueAgain : ∀ s ∈ w.db.schedules, ¬ Holds w s.tenantId → s.enabled = true →
    w.db.tenantStatus s.tenantId = .active → ∀ outcome ∈ lastOutcome w s.tenantId,
      (isDue w.db s = true ↔ outcome ≠ .completed ∨ elapsed w.db.now s = true)

/-- Every run ends with a complete bundle and is recorded as such, before a tick reads the
schedules at which the next run of the schedule would be due. -/
def Undisturbed (w : SchedulerWorld) : Task → Prop
  | .tick => ∀ p ∈ w.running.rows, ∀ row ∈ p.task.holds, ∀ s ∈ w.db.schedules.rows,
      s.tenantId = row.tenantId → elapsed w.db.now s = false
  | .run row _ _ => runOutcome w.db row = .completed
  | .markCompleted .. => w.db.killed = false ∧ w.db.failure = none
  | .claim .. | .markFailed .. => True

instance (w : SchedulerWorld) (task : Task) : Decidable (Undisturbed w task) := by
  unfold Undisturbed
  split <;> infer_instance

/- a row of the SELECT that is still to be claimed, beside the row that is there now -/
structure Waiting (w : SchedulerWorld) (row : Due) (s : TenantBackupSchedule) : Prop where
  before : ∀ lastRunAt ∈ row.lastRunAt, lastRunAt < w.db.now
  null : s.lastRunAt = none → row.lastRunAt = none
  free : s.lastRunAt = row.lastRunAt → ¬ Holds w row.tenantId

/-- A schedule that nobody holds has never run, or its last run was completed. -/
def Settled (w : SchedulerWorld) (s : TenantBackupSchedule) : Prop :=
  s.lastRunAt = none ∧ lastOutcome w s.tenantId = none ∨
    s.lastRunAt.isSome = true ∧ lastOutcome w s.tenantId = some .completed ∧
      s.lastRunStatus = some .completed

structure Orderly (w : SchedulerWorld) : Prop where
  alone : ∀ p ∈ w.running, ∀ q ∈ w.running, ∀ row row', p.task.holds = some row → q.task.holds = some row' →
    row.tenantId = row'.tenantId → p = q
  claimed : ∀ p ∈ w.running, ∀ row ∈ p.task.holds, ∃ s ∈ w.db.schedules, s.tenantId = row.tenantId ∧
    s.lastRunAt.isSome = true
  waiting : ∀ p ∈ w.running, ∀ row ∈ p.task.pending, ∃ s ∈ w.db.schedules, s.tenantId = row.tenantId ∧
    Waiting w row s
  completes : ∀ p ∈ w.running, ∀ row rest result, p.task = .markCompleted row rest result →
    lastOutcome w row.tenantId = some .completed
  succeeds : ∀ p ∈ w.running, ∀ row rest result, p.task ≠ .markFailed row rest result
  known : ∀ tenantId, lastOutcome w tenantId ≠ none → ∃ s ∈ w.db.schedules, s.tenantId = tenantId
  settled : ∀ s ∈ w.db.schedules, ¬ Holds w s.tenantId → Settled w s

variable {row : Due} {s : TenantBackupSchedule} {w : SchedulerWorld} {p : Process Task}

theorem runs_holds {task : Task} (runs : task.runs = some row) : task.holds = some row := by
  cases task <;> simp_all [Task.runs, Task.holds]

theorem isDue_iff {db : Db} (enabled : s.enabled = true) (active : db.tenantStatus s.tenantId = .active) :
    isDue db s = true ↔ s.lastRunAt = none ∨ elapsed db.now s = true := by
  simp [isDue, enabled, active]

theorem Orderly.faithful (orderly : Orderly w) : Faithful w where
  alone p mem q mem' row row' runs runs' :=
    orderly.alone p mem q mem' row row' (runs_holds runs) (runs_holds runs')
  records s mem free outcome last := by
    rcases orderly.settled s mem free with ⟨_, never⟩ | ⟨_, completed, status⟩
    · rw [never] at last
      exact absurd last (not_mem_none outcome)
    · cases completed.symm.trans last
      exact status
  dueAgain s mem free enabled active outcome last := by
    rw [isDue_iff enabled active]
    rcases orderly.settled s mem free with ⟨_, never⟩ | ⟨ran, completed, _⟩
    · rw [never] at last
      exact absurd last (not_mem_none outcome)
    cases completed.symm.trans last
    have some : s.lastRunAt ≠ none := isSome_iff_ne_none.mp ran
    simp [some]

/-! One statement. Another process keeps its task; what changes is one process, one row, and the
log. -/

theorem lastOutcome_quiet (quiet : p.task.runs = none) (tenantId : Nat) :
    lastOutcome (scheduler.run w p) tenantId = lastOutcome w tenantId := by
  simp [lastOutcome, System.run, ranOn, quiet]

theorem lastOutcome_run (runs : p.task.runs = some row) (tenantId : Nat) : lastOutcome (scheduler.run w p) tenantId =
      if row.tenantId = tenantId then some (runOutcome w.db row) else lastOutcome w tenantId := by
  by_cases own : row.tenantId = tenantId
  · simp [lastOutcome, System.run, ranOn, runs, own]
  · simp [lastOutcome, System.run, ranOn, runs, own]

def heldAfter : Outcome Task Response → Option Due
  | .next task => task.holds
  | .answer _ => none

def pendingAfter : Outcome Task Response → List Due
  | .next task => task.pending
  | .answer _ => []

def HeldElsewhere (w : SchedulerWorld) (p : Process Task) (tenantId : Nat) : Prop :=
  ∃ q ∈ w.running, q.id ≠ p.id ∧ ∃ row, q.task.holds = some row ∧ row.tenantId = tenantId

theorem holds_iff (mem : p ∈ w.running) (tenantId : Nat) : Holds w tenantId ↔
      HeldElsewhere w p tenantId ∨ ∃ row ∈ p.task.holds, row.tenantId = tenantId := by
  constructor
  · rintro ⟨q, memq, row, held, own⟩
    by_cases same : q.id = p.id
    · rw [w.running.eq_of_key memq mem same] at held
      exact .inr ⟨row, held, own⟩
    · exact .inl ⟨q, memq, same, row, held, own⟩
  · rintro (⟨q, memq, _, row, held, own⟩ | ⟨row, held, own⟩)
    · exact ⟨q, memq, row, held, own⟩
    · exact ⟨p, mem, row, held, own⟩

theorem holds_run_iff (mem : p ∈ w.running) (tenantId : Nat) : Holds (scheduler.run w p) tenantId ↔
      HeldElsewhere w p tenantId ∨ ∃ row ∈ heldAfter (advance w.db p.task).2, row.tenantId = tenantId := by
  constructor
  · rintro ⟨q, memq, row, held, own⟩
    rcases mem_resume memq with ⟨old, other⟩ | ⟨task, next, rfl⟩
    · exact .inl ⟨q, old, other, row, held, own⟩
    have outcome : (advance w.db p.task).2 = .next task := next
    refine .inr ⟨row, ?_, own⟩
    rw [outcome]
    exact held
  · rintro (⟨q, memq, other, row, held, own⟩ | ⟨row, held, own⟩)
    · exact ⟨q, mem_resume_other memq other, row, held, own⟩
    cases outcome : (advance w.db p.task).2 with
    | answer response =>
      rw [outcome] at held
      exact absurd held (not_mem_none row)
    | next task =>
      have self : (⟨p.id, task⟩ : Process Task) ∈ (scheduler.run w p).running := by
        have resumed : (⟨p.id, task⟩ : Process Task) ∈
          resume w.running p.id (.next task : Outcome Task Response) := mem_resume_self mem
        rw [← outcome] at resumed
        exact resumed
      rw [outcome] at held
      exact ⟨_, self, row, held, own⟩

theorem Waiting.mono {w' : SchedulerWorld} {s' : TenantBackupSchedule} (waiting : Waiting w row s)
    (now : w.db.now ≤ w'.db.now) (same : s'.lastRunAt = s.lastRunAt)
    (fewer : Holds w' row.tenantId → Holds w row.tenantId) : Waiting w' row s' := by
  constructor
  · intro lastRunAt mem
    exact Nat.lt_of_lt_of_le (waiting.before lastRunAt mem) now
  · rw [same]
    exact waiting.null
  · intro unchanged held
    exact waiting.free (same.symm.trans unchanged) (fewer held)

/- what a statement has to see to, as regards the process that runs it and the schedules -/
structure Keeps (w : SchedulerWorld) (p : Process Task) (w' : SchedulerWorld) : Prop where
  fresh : ∀ row ∈ heldAfter (advance w.db p.task).2, ¬ HeldElsewhere w p row.tenantId
  claims : ∀ row ∈ heldAfter (advance w.db p.task).2, ∃ s ∈ w'.db.schedules, s.tenantId = row.tenantId ∧
    s.lastRunAt.isSome = true
  stays : ∀ s ∈ w.db.schedules, ∃ s' ∈ w'.db.schedules, s'.tenantId = s.tenantId ∧
    (s.lastRunAt.isSome = true → s'.lastRunAt.isSome = true) ∧
    ∀ row, row.tenantId = s.tenantId → Waiting w row s → Waiting w' row s'
  pending : ∀ row ∈ pendingAfter (advance w.db p.task).2, row ∈ p.task.pending ∨
    ∃ s ∈ w'.db.schedules, s.tenantId = row.tenantId ∧ Waiting w' row s
  completes : ∀ row rest result, (advance w.db p.task).2 = .next (.markCompleted row rest result) →
    lastOutcome w' row.tenantId = some .completed
  succeeds : ∀ row rest result, (advance w.db p.task).2 ≠ .next (.markFailed row rest result)
  remembers : ∀ tenantId, lastOutcome w tenantId = some .completed →
    lastOutcome w' tenantId = some .completed
  known : ∀ tenantId, lastOutcome w' tenantId ≠ none → lastOutcome w tenantId ≠ none ∨
    ∃ row ∈ p.task.holds, row.tenantId = tenantId
  settled : ∀ s ∈ w'.db.schedules, ¬ Holds w' s.tenantId → Settled w' s

theorem Keeps.orderly (orderly : Orderly w) (mem : p ∈ w.running) (keeps : Keeps w p (scheduler.run w p)) :
    Orderly (scheduler.run w p) where
  alone q memq r memr row row' held held' same := by
    rcases mem_resume memq with ⟨oldq, otherq⟩ | ⟨task, nextq, rfl⟩ <;>
      rcases mem_resume memr with ⟨oldr, otherr⟩ | ⟨task', nextr, rfl⟩
    · exact orderly.alone q oldq r oldr row row' held held' same
    · have outcome : (advance w.db p.task).2 = .next task' := nextr
      refine absurd ⟨q, oldq, otherq, row, held, same⟩ (keeps.fresh row' ?_)
      rw [outcome]
      exact held'
    · have outcome : (advance w.db p.task).2 = .next task := nextq
      refine absurd ⟨r, oldr, otherr, row', held', same.symm⟩ (keeps.fresh row ?_)
      rw [outcome]
      exact held
    · cases nextq.symm.trans nextr
      rfl
  claimed q memq row held := by
    rcases mem_resume memq with ⟨old, _⟩ | ⟨task, next, rfl⟩
    · obtain ⟨s, there, own, ran⟩ := orderly.claimed q old row held
      obtain ⟨s', there', same, keepsRan, _⟩ := keeps.stays s there
      exact ⟨s', there', same.trans own, keepsRan ran⟩
    · have outcome : (advance w.db p.task).2 = .next task := next
      refine keeps.claims row ?_
      rw [outcome]
      exact held
  waiting q memq row waits := by
    have carried : (∃ s ∈ w.db.schedules, s.tenantId = row.tenantId ∧ Waiting w row s) →
        ∃ s ∈ (scheduler.run w p).db.schedules, s.tenantId = row.tenantId ∧ Waiting (scheduler.run w p) row s := by
      rintro ⟨s, there, own, waiting⟩
      obtain ⟨s', there', same, _, waits'⟩ := keeps.stays s there
      exact ⟨s', there', same.trans own, waits' row own.symm waiting⟩
    rcases mem_resume memq with ⟨old, _⟩ | ⟨task, next, rfl⟩
    · exact carried (orderly.waiting q old row waits)
    have outcome : (advance w.db p.task).2 = .next task := next
    rcases keeps.pending row (by rw [outcome]; exact waits) with before | new
    · exact carried (orderly.waiting p mem row before)
    · exact new
  completes q memq row rest result task := by
    rcases mem_resume memq with ⟨old, _⟩ | ⟨task', next, rfl⟩
    · exact keeps.remembers row.tenantId (orderly.completes q old row rest result task)
    · exact keeps.completes row rest result (task ▸ next)
  succeeds q memq row rest result task := by
    rcases mem_resume memq with ⟨old, _⟩ | ⟨task', next, rfl⟩
    · exact orderly.succeeds q old row rest result task
    · exact keeps.succeeds row rest result (task ▸ next)
  known tenantId last := by
    have before : ∃ s ∈ w.db.schedules, s.tenantId = tenantId := by
      rcases keeps.known tenantId last with old | ⟨row, held, own⟩
      · exact orderly.known tenantId old
      · obtain ⟨s, there, its, _⟩ := orderly.claimed p mem row held
        exact ⟨s, there, its.trans own⟩
    obtain ⟨s, there, own⟩ := before
    obtain ⟨s', there', same, _⟩ := keeps.stays s there
    exact ⟨s', there', same.trans own⟩
  settled := keeps.settled

section statements

variable {w : SchedulerWorld} {p : Process Task} (orderly : Orderly w) (mem : p ∈ w.running)
include orderly mem

omit mem in
theorem settled_same {s : TenantBackupSchedule}
    (last : lastOutcome (scheduler.run w p) s.tenantId = lastOutcome w s.tenantId)
    (there : s ∈ w.db.schedules) (free : ¬ Holds w s.tenantId) : Settled (scheduler.run w p) s := by
  rw [Settled, last]
  exact orderly.settled s there free

theorem keeps_quiet (idle : p.task.holds = none) (same : (advance w.db p.task).1 = w.db)
    (still : heldAfter (advance w.db p.task).2 = none)
    (pending : ∀ row ∈ pendingAfter (advance w.db p.task).2, row ∈ p.task.pending ∨
      ∃ s ∈ w.db.schedules, s.tenantId = row.tenantId ∧ Waiting w row s) : Keeps w p (scheduler.run w p) := by
  have db : (scheduler.run w p).db = w.db := same
  have quiet : p.task.runs = none := by
    cases runs : p.task.runs with
    | none => rfl
    | some row => exact absurd (idle.symm.trans (runs_holds runs)) (some_ne_none row).symm
  have holds : ∀ tenantId, Holds (scheduler.run w p) tenantId ↔ Holds w tenantId := by
    intro tenantId
    rw [holds_run_iff mem, holds_iff mem, still, idle]
  have waits : ∀ row s, Waiting w row s → Waiting (scheduler.run w p) row s :=
    fun row s waiting => waiting.mono (by rw [db]) rfl (holds row.tenantId).mp
  have goesOn : ∀ task, (advance w.db p.task).2 = .next task → task.holds = none := by
    intro task next
    rw [next] at still
    exact still
  constructor
  · intro row held
    rw [still] at held
    exact absurd held (not_mem_none row)
  · intro row held
    rw [still] at held
    exact absurd held (not_mem_none row)
  · intro s there
    rw [db]
    exact ⟨s, there, rfl, id, fun row _ waiting => waits row s waiting⟩
  · intro row waiting
    rcases pending row waiting with before | ⟨s, there, own, its⟩
    · exact .inl before
    · rw [db]
      exact Or.inr ⟨s, there, own, waits row s its⟩
  · intro row rest result next
    cases goesOn _ next
  · intro row rest result next
    cases goesOn _ next
  · intro tenantId last
    rw [lastOutcome_quiet quiet, last]
  · intro tenantId last
    rw [lastOutcome_quiet quiet] at last
    exact .inl last
  · intro s there free
    rw [db] at there
    exact settled_same orderly (lastOutcome_quiet quiet s.tenantId) there
      (fun held => free ((holds s.tenantId).mpr held))

variable {row : Due} {rest : List Due} {result : ScheduleTickResult}

theorem keeps_claim (task : p.task = .claim row rest result)
    (done : advance w.db p.task = (claim w.db row, .next (.run row rest result)))
    (matched : w.db.schedules.rows.any (unclaimed row) = true) : Keeps w p (scheduler.run w p) := by
  have after : (scheduler.run w p).db = claim w.db row := congrArg Prod.fst done
  have quiet : p.task.runs = none := by rw [task]; rfl
  have idle : p.task.holds = none := by rw [task]; rfl
  have held : heldAfter (advance w.db p.task).2 = some row := by rw [done]; rfl
  have waits : row ∈ p.task.pending := by rw [task]; exact mem_cons_self
  -- the row that matches is the one that the SELECT read, as it was
  obtain ⟨s₀, there₀, own₀, waiting₀⟩ := orderly.waiting p mem row waits
  have unchanged : s₀.lastRunAt = row.lastRunAt := by
    obtain ⟨s, there, matches_⟩ := any_eq_true.mp matched
    simp only [unclaimed, Bool.and_eq_true, beq_iff_eq, Bool.or_eq_true, isNone_iff_eq_none] at matches_
    rw [w.db.schedules.eq_of_key there there₀ (matches_.1.trans own₀.symm)] at matches_
    rcases matches_.2 with null | same
    · rw [null, waiting₀.null null]
    · exact same
  have free : ¬ Holds w row.tenantId := waiting₀.free unchanged
  have holds : ∀ tenantId, Holds (scheduler.run w p) tenantId ↔ Holds w tenantId ∨ row.tenantId = tenantId := by
    intro tenantId
    rw [holds_run_iff mem, holds_iff mem, held, idle]
    simp
  have claimed : unclaimed row s₀ = true := by simp [unclaimed, own₀, unchanged]
  have running : setRunning w.db.now s₀ ∈ (scheduler.run w p).db.schedules := by
    rw [after]
    exact (mem_update (setRunning_key w.db.now)).mpr (.inr ⟨s₀, there₀, claimed, rfl⟩)
  have others : ∀ s, s.tenantId ≠ row.tenantId → (s ∈ (scheduler.run w p).db.schedules ↔ s ∈ w.db.schedules) := by
    intro s other
    rw [after, claim, mem_update]
    constructor
    · rintro (⟨there, _⟩ | ⟨old, _, matches_, rfl⟩)
      · exact there
      · exact absurd (eq_of_beq (Bool.and_eq_true_iff.mp matches_).1) other
    · intro there
      exact .inl ⟨there, by simp [unclaimed, other]⟩
  constructor
  · intro row' mem'
    rw [held] at mem'
    cases mem'
    rintro elsewhere
    exact free ((holds_iff mem row.tenantId).mpr (.inl elsewhere))
  · intro row' mem'
    rw [held] at mem'
    cases mem'
    exact ⟨_, running, own₀, rfl⟩
  · intro s there
    by_cases own : s.tenantId = row.tenantId
    · cases w.db.schedules.eq_of_key there there₀ (own.trans own₀.symm)
      refine ⟨_, running, rfl, fun _ => rfl, ?_⟩
      intro row' _ waiting
      -- nothing that was read can be what is written now
      have now : (scheduler.run w p).db.now = w.db.now := by rw [after]; rfl
      constructor
      · rw [now]
        exact waiting.before
      · intro null
        contradiction
      · intro same
        exact absurd (waiting.before w.db.now same.symm) (Nat.lt_irrefl _)
    · refine ⟨s, (others s own).mpr there, rfl, id, ?_⟩
      intro row' its waiting
      refine waiting.mono (by rw [after]; exact Nat.le_refl _) rfl ?_
      intro held'
      rcases (holds row'.tenantId).mp held' with before | same
      · exact before
      · exact absurd (its.symm.trans same.symm) own
  · intro row' later
    rw [done] at later
    rw [task]
    exact .inl (mem_cons_of_mem row later)
  · intro row' rest' result' next
    rw [done] at next
    cases next
  · intro row' rest' result' next
    rw [done] at next
    cases next
  · intro tenantId last
    rw [lastOutcome_quiet quiet, last]
  · intro tenantId last
    rw [lastOutcome_quiet quiet] at last
    exact .inl last
  · intro s there free'
    have other : s.tenantId ≠ row.tenantId := fun own => free' ((holds s.tenantId).mpr (.inr own.symm))
    exact settled_same orderly (lastOutcome_quiet quiet s.tenantId) ((others s other).mp there)
      (fun held' => free' ((holds s.tenantId).mpr (Or.inl held')))

theorem keeps_run (task : p.task = .run row rest result)
    (done : advance w.db p.task = (w.db, .next (.markCompleted row rest result)))
    (completed : runOutcome w.db row = .completed) : Keeps w p (scheduler.run w p) := by
  have db : (scheduler.run w p).db = w.db := congrArg Prod.fst done
  have own : p.task.holds = some row := by rw [task]; rfl
  have held : heldAfter (advance w.db p.task).2 = some row := by rw [done]; rfl
  have last : ∀ tenantId, lastOutcome (scheduler.run w p) tenantId =
      if row.tenantId = tenantId then some .completed else lastOutcome w tenantId := by
    intro tenantId
    rw [lastOutcome_run (by rw [task]; rfl), completed]
  have holds : ∀ tenantId, Holds (scheduler.run w p) tenantId ↔ Holds w tenantId := by
    intro tenantId
    rw [holds_run_iff mem, holds_iff mem, held, own]
  constructor
  · intro row' mem'
    rw [held] at mem'
    cases mem'
    rintro ⟨q, memq, other, row', held', same⟩
    exact other (congrArg Process.id (orderly.alone q memq p mem row' row held' own same))
  · intro row' mem'
    rw [held] at mem'
    cases mem'
    rw [db]
    exact orderly.claimed p mem row own
  · intro s there
    rw [db]
    exact ⟨s, there, rfl, id, fun row' _ waiting => waiting.mono (by rw [db]) rfl (holds row'.tenantId).mp⟩
  · intro row' later
    rw [done] at later
    rw [task]
    exact .inl later
  · intro row' rest' result' next
    rw [done] at next
    cases next
    rw [last, if_pos rfl]
  · intro row' rest' result' next
    rw [done] at next
    cases next
  · intro tenantId before
    rw [last, before, ite_self]
  · intro tenantId after
    by_cases its : row.tenantId = tenantId
    · exact .inr ⟨row, own, its⟩
    · rw [last, if_neg its] at after
      exact .inl after
  intro s there free
  rw [db] at there
  have other : row.tenantId ≠ s.tenantId := by
    intro its
    exact free ((holds_run_iff mem s.tenantId).mpr (.inr ⟨row, held, its⟩))
  refine settled_same orderly ?_ there (fun held' => free ((holds s.tenantId).mpr held'))
  rw [last, if_neg other]

theorem keeps_mark {result' : ScheduleTickResult} (task : p.task = .markCompleted row rest result)
    (done : advance w.db p.task = (mark w.db row.tenantId .completed, next rest result')) :
    Keeps w p (scheduler.run w p) := by
  have after : (scheduler.run w p).db = mark w.db row.tenantId .completed := congrArg Prod.fst done
  have quiet : p.task.runs = none := by rw [task]; rfl
  have own : p.task.holds = some row := by rw [task]; rfl
  have released : heldAfter (advance w.db p.task).2 = none := by
    rw [done]
    cases rest <;> rfl
  have fewer : ∀ tenantId, Holds (scheduler.run w p) tenantId → Holds w tenantId := by
    intro tenantId
    rw [holds_run_iff mem, holds_iff mem, released]
    rintro (elsewhere | ⟨row', held', _⟩)
    · exact .inl elsewhere
    · exact absurd held' (not_mem_none row')
  have others : ∀ tenantId, row.tenantId ≠ tenantId → Holds w tenantId → Holds (scheduler.run w p) tenantId := by
    intro tenantId other
    rw [holds_run_iff mem, holds_iff mem, own]
    rintro (elsewhere | ⟨row', held', its⟩)
    · exact .inl elsewhere
    · cases held'
      exact absurd its other
  have pending : ∀ row' ∈ pendingAfter (next rest result'), row' ∈ rest := by
    intro row' waits
    cases rest with
    | nil | cons first later => exact waits
  constructor
  · intro row' held'
    rw [released] at held'
    exact absurd held' (not_mem_none row')
  · intro row' held'
    rw [released] at held'
    exact absurd held' (not_mem_none row')
  · intro s there
    have same : (apply (fun s => s.tenantId == row.tenantId) (setStatus .completed) s).lastRunAt =
        s.lastRunAt :=
      apply_column TenantBackupSchedule.lastRunAt _ (setStatus .completed) (fun _ => rfl) s
    refine ⟨apply (fun s => s.tenantId == row.tenantId) (setStatus .completed) s, ?_, ?_, ?_, ?_⟩
    · rw [after]
      exact apply_mem_update (setStatus_key .completed) there
    · exact apply_column TenantBackupSchedule.tenantId _ _ (setStatus_key .completed) s
    · rw [same]
      exact id
    · intro row' _ waiting
      exact waiting.mono (by rw [after]; exact Nat.le_refl _) same (fewer row'.tenantId)
  · intro row' later
    rw [done] at later
    rw [task]
    exact .inl (pending row' later)
  · intro row' rest' result'' goesOn
    rw [done] at goesOn
    cases rest <;> cases goesOn
  · intro row' rest' result'' goesOn
    rw [done] at goesOn
    cases rest <;> cases goesOn
  · intro tenantId last
    rw [lastOutcome_quiet quiet, last]
  · intro tenantId last
    rw [lastOutcome_quiet quiet] at last
    exact .inl last
  intro s there free
  rw [after, mark, mem_update] at there
  rcases there with ⟨old, other⟩ | ⟨old, there, its, rfl⟩
  · have differs : row.tenantId ≠ s.tenantId := fun same => by simp [same] at other
    exact settled_same orderly (lastOutcome_quiet quiet s.tenantId) old
      (fun held' => free (others s.tenantId differs held'))
  obtain ⟨s₀, there₀, own₀, ran⟩ := orderly.claimed p mem row own
  cases w.db.schedules.eq_of_key there there₀ ((eq_of_beq its).trans own₀.symm)
  refine .inr ⟨ran, ?_, rfl⟩
  rw [lastOutcome_quiet quiet]
  exact (congrArg (lastOutcome w) own₀).trans (orderly.completes p mem row rest result task)

omit mem in
theorem due_waits (due : row ∈ dueSchedules w.db) (ok : Undisturbed w .tick) :
    ∃ s ∈ w.db.schedules, s.tenantId = row.tenantId ∧ Waiting w row s := by
  obtain ⟨s, selected, rfl⟩ := List.mem_map.mp due
  obtain ⟨there, isDue⟩ := Table.mem_selectAll.mp ((List.mem_insertionSort _).mp (List.mem_of_mem_take selected))
  simp only [Scheduler.isDue, Bool.and_eq_true, Bool.or_eq_true, Option.isNone_iff_eq_none] at isDue
  refine ⟨s, there, rfl, ?_, id, ?_⟩
  · intro lastRunAt its
    have read : s.lastRunAt = some lastRunAt := its
    have late : elapsed w.db.now s = true := by simpa [read] using isDue.2
    simp only [elapsed, read, Option.any_some, decide_eq_true_eq] at late
    omega
  rintro _ ⟨q, memq, row', held, own⟩
  obtain ⟨s', there', own', ran⟩ := orderly.claimed q memq row' held
  have same : s' = s := w.db.schedules.eq_of_key there' there (own'.trans own)
  have inTime := ok q memq row' held s' there' own'
  rw [same] at inTime ran
  rcases isDue.2 with never | late
  · rw [never] at ran
    contradiction
  · rw [inTime] at late
    contradiction

end statements

theorem attempt_cases (db : Db) (caught : String → Outcome Task Response)
    (done : Db × Outcome Task Response) : attempt db caught done = (db, .answer .killed) ∨
      (∃ message, attempt db caught done = (db, caught message)) ∨ attempt db caught done = done := by
  unfold attempt
  split
  · exact .inl rfl
  split
  · exact .inr (.inl ⟨_, rfl⟩)
  · exact .inr (.inr rfl)

theorem heldAfter_next (rest : List Due) (result : ScheduleTickResult) : heldAfter (next rest result) = none := by
  cases rest <;> rfl

theorem pendingAfter_next (rest : List Due) (result : ScheduleTickResult) : pendingAfter (next rest result) = rest := by
  cases rest <;> rfl

theorem orderly_advance (orderly : Orderly w) (mem : p ∈ w.running) (ok : Undisturbed w p.task) :
    Orderly (scheduler.run w p) := by
  refine Keeps.orderly orderly mem ?_
  have answers : p.task.holds = none → ∀ response, advance w.db p.task = (w.db, .answer response) →
      Keeps w p (scheduler.run w p) := by
    intro idle response done
    refine keeps_quiet orderly mem idle (congrArg Prod.fst done) (by rw [done]; rfl) ?_
    intro row waits
    rw [done] at waits
    exact absurd waits not_mem_nil
  cases task : p.task with
  | tick =>
    have idle : p.task.holds = none := by rw [task]; rfl
    rcases attempt_cases w.db throws (w.db, next (dueSchedules w.db) ⟨0, 0, 0⟩) with
      killed | ⟨message, threw⟩ | done
    · exact answers idle _ (by rw [task]; exact killed)
    · exact answers idle _ (by rw [task]; exact threw)
    have ran : advance w.db p.task = (w.db, next (dueSchedules w.db) ⟨0, 0, 0⟩) := by
      rw [task]
      exact done
    refine keeps_quiet orderly mem idle (by rw [ran]) (by rw [ran]; exact heldAfter_next _ _) ?_
    intro row waits
    rw [ran, pendingAfter_next] at waits
    exact .inr (due_waits orderly waits (task ▸ ok))
  | claim row rest result =>
    have idle : p.task.holds = none := by rw [task]; rfl
    rcases attempt_cases w.db throws
      (if w.db.schedules.rows.any (unclaimed row) then (claim w.db row, .next (.run row rest result))
       else (w.db, next rest result)) with killed | ⟨message, threw⟩ | done
    · exact answers idle _ (by rw [task]; exact killed)
    · exact answers idle _ (by rw [task]; exact threw)
    by_cases matched : w.db.schedules.rows.any (unclaimed row) = true
    · rw [if_pos matched] at done
      exact keeps_claim orderly mem task (by rw [task, advance, if_pos matched]; exact done) matched
    rw [if_neg matched] at done
    have ran : advance w.db p.task = (w.db, next rest result) := by
      rw [task, advance, if_neg matched]
      exact done
    refine keeps_quiet orderly mem idle (by rw [ran]) (by rw [ran]; exact heldAfter_next _ _) ?_
    intro row' waits
    rw [ran, pendingAfter_next] at waits
    rw [task]
    exact .inl (mem_cons_of_mem row waits)
  | run row rest result =>
    have completed : runOutcome w.db row = .completed := by
      rw [task] at ok
      exact ok
    refine keeps_run orderly mem task ?_ completed
    simp only [runOutcome] at completed
    split at completed
    · contradiction
    rename_i alive
    split at completed
    · contradiction
    · rename_i bundle ran
      rw [task, advance, if_neg alive, ran]
  | markCompleted row rest result =>
    have fine : w.db.killed = false ∧ w.db.failure = none := by
      rw [task] at ok
      exact ok
    have done : advance w.db p.task = (mark w.db row.tenantId .completed,
        next rest { result with ranBundles := result.ranBundles + 1 }) := by
      rw [task, advance, attempt, fine.1, fine.2]
      rfl
    exact keeps_mark orderly mem task done
  | markFailed row rest result => exact absurd task (orderly.succeeds p mem row rest result)

/- a row after another has been written over it that leaves its last run alone -/
structure SameRun (s s' : TenantBackupSchedule) : Prop where
  tenantId : s'.tenantId = s.tenantId
  lastRunAt : s'.lastRunAt = s.lastRunAt
  lastRunStatus : s'.lastRunStatus = s.lastRunStatus

theorem SameRun.refl (s : TenantBackupSchedule) : SameRun s s := ⟨rfl, rfl, rfl⟩

theorem environment_rows (db : Db) (change : Change) : db.now ≤ (change.apply db).now ∧
      (∀ s ∈ db.schedules, ∃ s' ∈ (change.apply db).schedules, SameRun s s') ∧
      ∀ s' ∈ (change.apply db).schedules, (∃ s ∈ db.schedules, SameRun s s') ∨
        s'.lastRunAt = none ∧ ∀ s ∈ db.schedules, s.tenantId ≠ s'.tenantId := by
  have same : ∀ s ∈ db.schedules, ∃ s' ∈ db.schedules, SameRun s s' := fun s there => ⟨s, there, SameRun.refl s⟩
  have same' : ∀ s' ∈ db.schedules, (∃ s ∈ db.schedules, SameRun s s') ∨
      s'.lastRunAt = none ∧ ∀ s ∈ db.schedules, s.tenantId ≠ s'.tenantId :=
    fun s' there => .inl ⟨s', there, SameRun.refl s'⟩
  cases change with
  | tick us => exact ⟨Nat.le_add_right _ _, same, same'⟩
  | setTenant | setAttempt | setFailure | setKilled => exact ⟨Nat.le_refl _, same, same'⟩
  | upsert tenantId enabled frequency retentionDays =>
    refine ⟨Nat.le_refl _, ?_⟩
    simp only [Change.apply, putSchedule]
    cases inserted : db.schedules.insert ⟨tenantId, enabled, frequency, retentionDays, none, none⟩ with
    | some schedules =>
      have fresh : tenantId ∉ db.schedules.rows.map TenantBackupSchedule.tenantId := by
        by_contra taken
        simp [Table.insert, taken] at inserted
      constructor
      · intro s there
        exact ⟨s, (mem_insert inserted).mpr (.inr there), SameRun.refl s⟩
      intro s' there
      rcases (mem_insert inserted).mp there with rfl | old
      · refine .inr ⟨rfl, ?_⟩
        rintro s mem rfl
        exact fresh (mem_map_of_mem mem)
      · exact .inl ⟨s', old, SameRun.refl s'⟩
    | none =>
      have edited : ∀ s, SameRun s (apply (fun s => s.tenantId == tenantId)
          (edit enabled frequency retentionDays) s) := by
        intro s
        constructor
        · exact apply_column TenantBackupSchedule.tenantId _ (edit _ _ _) (fun _ => rfl) s
        · exact apply_column TenantBackupSchedule.lastRunAt _ (edit _ _ _) (fun _ => rfl) s
        · exact apply_column TenantBackupSchedule.lastRunStatus _ (edit _ _ _) (fun _ => rfl) s
      constructor
      · intro s there
        exact ⟨_, apply_mem_update (edit_key enabled frequency retentionDays) there, edited s⟩
      intro s' there
      obtain ⟨s, old, rfl⟩ := mem_map.mp there
      exact .inl ⟨s, old, edited s⟩

theorem orderly_environment (orderly : Orderly w) (change : Change) : Orderly { w with db := change.apply w.db } := by
  obtain ⟨now, stays, comes⟩ := environment_rows w.db change
  constructor
  · exact orderly.alone
  · intro p mem row held
    obtain ⟨s, there, own, ran⟩ := orderly.claimed p mem row held
    obtain ⟨s', there', same⟩ := stays s there
    exact ⟨s', there', same.tenantId.trans own, same.lastRunAt ▸ ran⟩
  · intro p mem row waits
    obtain ⟨s, there, own, waiting⟩ := orderly.waiting p mem row waits
    obtain ⟨s', there', same⟩ := stays s there
    exact ⟨s', there', same.tenantId.trans own, waiting.mono now same.lastRunAt id⟩
  · exact orderly.completes
  · exact orderly.succeeds
  · intro tenantId last
    obtain ⟨s, there, own⟩ := orderly.known tenantId last
    obtain ⟨s', there', same⟩ := stays s there
    exact ⟨s', there', same.tenantId.trans own⟩
  intro s' there free
  rcases comes s' there with ⟨s, old, same⟩ | ⟨never, fresh⟩
  · have free' : ¬ Holds w s.tenantId := same.tenantId ▸ free
    have settled := orderly.settled s old free'
    rw [Settled, same.tenantId, same.lastRunAt, same.lastRunStatus]
    exact settled
  · refine .inl ⟨never, ?_⟩
    by_contra ran
    obtain ⟨s, there, own⟩ := orderly.known s'.tenantId ran
    exact fresh s there own

theorem orderly_arrive {running : Table (Process Task) Process.id} (orderly : Orderly w)
    (requested : p.task.isRequest = true) (inserted : w.running.insert p = some running) :
    Orderly { w with running } := by
  have tick : p.task = .tick := by
    cases task : p.task with
    | tick => rfl
    | claim | run | markCompleted | markFailed =>
      rw [task] at requested
      contradiction
  have holder : ∀ q ∈ running, ∀ row, q.task.holds = some row → q ∈ w.running := by
    intro q mem row held
    rcases (mem_insert inserted).mp mem with rfl | old
    · rw [tick] at held
      contradiction
    · exact old
  have fewer : ∀ tenantId, Holds w tenantId → Holds { w with running } tenantId := by
    rintro tenantId ⟨q, mem, row, held, own⟩
    exact ⟨q, (mem_insert inserted).mpr (.inr mem), row, held, own⟩
  have more : ∀ tenantId, Holds { w with running } tenantId → Holds w tenantId := by
    rintro tenantId ⟨q, mem, row, held, own⟩
    exact ⟨q, holder q mem row held, row, held, own⟩
  constructor
  · intro q memq r memr row row' held held'
    exact orderly.alone q (holder q memq row held) r (holder r memr row' held') row row' held held'
  · intro q mem row held
    exact orderly.claimed q (holder q mem row held) row held
  · intro q mem row waits
    rcases (mem_insert inserted).mp mem with rfl | old
    · rw [tick] at waits
      exact absurd waits not_mem_nil
    · obtain ⟨s, there, own, waiting⟩ := orderly.waiting q old row waits
      exact ⟨s, there, own, waiting.mono (Nat.le_refl _) rfl (more row.tenantId)⟩
  · intro q mem row rest result task
    refine orderly.completes q (holder q mem row ?_) row rest result task
    rw [task]
    rfl
  · intro q mem row rest result task
    refine orderly.succeeds q (holder q mem row ?_) row rest result task
    rw [task]
    rfl
  · exact orderly.known
  · intro s there free
    exact orderly.settled s there (fun held => free (fewer s.tenantId held))

theorem orderly_initial (db : Db) (none : db.schedules = empty) :
    Orderly (World.initial db : SchedulerWorld) where
  alone p mem := absurd mem not_mem_nil
  claimed p mem := absurd mem not_mem_nil
  waiting p mem := absurd mem not_mem_nil
  completes p mem := absurd mem not_mem_nil
  succeeds p mem := absurd mem not_mem_nil
  known tenantId last := absurd rfl last
  settled s mem := by
    simp only [World.initial, none] at mem
    exact absurd mem (not_mem_empty s)

/-- In every run of ticks whose bundles are complete, recorded, and done before a tick comes to
their next time, a schedule says what its last run came to and is due when it should be. -/
theorem schedules_faithful (db : Db) (actions : List (Action Task Change)) (w : SchedulerWorld)
    (none : db.schedules = empty)
    (guarded : Guarded scheduler.step (onAdvance Undisturbed) (World.initial db) actions)
    (run : exec scheduler.step (World.initial db) actions = some w) : Faithful w := by
  have orderly : Orderly w :=
    System.invariant (fun _ _ _ orderly requested inserted => orderly_arrive orderly requested inserted)
      (fun _ _ orderly mem ok => orderly_advance orderly mem ok)
      (fun _ change orderly => orderly_environment orderly change) (orderly_initial db none) guarded run
  exact orderly.faithful

def goesWell : Attempt where
  cfg := .ok (some ⟨1, "s3", false, .ok ()⟩)
  configuredKey := true
  production := true
  world := Failures.aWorld fun _ => none
  bundleId := 1

/- the database dump fails, and the bundle is partial -/
def incomplete : Attempt :=
  { goesWell with world := { goesWell.world with configDump := .error "timeout" } }

def noTarget : Attempt := { goesWell with cfg := .ok none }

def someDb : Db where
  schedules := Table.empty
  tenantStatus := fun _ => .active
  attempt := goesWell
  failure := none
  killed := false
  now := 0

def firstTick (id : Nat) : List (Action Task Change) :=
  [.environment (.upsert 1 true .daily 14), .arrive id .tick, .advance id, .advance id]

/- the bundle is complete, and the next tick has nothing to do -/
def calmDay : List (Action Task Change) :=
  List.flatten [firstTick 1, [.environment (.tick hour), .advance 1, .advance 1], [.arrive 2 .tick, .advance 2]]

theorem schedules_faithful_calm_day : ∃ w, exec scheduler.step (World.initial someDb) calmDay = some w ∧ Faithful w :=
  ⟨_, rfl, schedules_faithful someDb calmDay _ rfl (by decide) rfl⟩

theorem not_holds {tenantId : Nat}
    (others : w.running.rows.all (fun p => p.task.holds.all (fun row => row.tenantId != tenantId)) = true) :
    ¬ Holds w tenantId := by
  rintro ⟨p, mem, row, held, own⟩
  have other := all_eq_true.mp others p mem
  simp [held, own] at other

/- a run under an attempt, and what is written after it -/
def under (attempt : Attempt) : List (Action Task Change) :=
  List.flatten [[.environment (.setAttempt attempt)], firstTick 1, [.advance 1, .advance 1]]

def podKilled : List (Action Task Change) :=
  List.flatten [firstTick 1, [.environment (.setKilled true), .advance 1]]

/- a run of more than a day, which the next day's tick starts again beside it -/
def longRun : List (Action Task Change) :=
  List.flatten [firstTick 1, [.environment (.tick (24 * hour)), .arrive 2 .tick, .advance 2, .advance 2]]

def Misrecords (actions : List (Action Task Change)) : Prop :=
  ∃ w, exec scheduler.step (World.initial someDb) actions = some w ∧ ¬ Faithful w

/-- A partial bundle is recorded as completed; a run that threw and one whose pod was killed are not
due again; a long run is run twice at a time. -/
theorem outcomes_lost : Misrecords (under incomplete) ∧ Misrecords (under noTarget) ∧ Misrecords podKilled ∧
      Misrecords longRun := by
  refine ⟨⟨_, rfl, ?_⟩, ⟨_, rfl, ?_⟩, ⟨_, rfl, ?_⟩, ⟨_, rfl, ?_⟩⟩
  · intro faithful
    have records := faithful.records ⟨1, true, .daily, 14, some 0, some .completed⟩
      (mem_rows.mpr (by decide)) (not_holds (by decide)) .partialBundle rfl
    simp [RunOutcome.records] at records
  · intro faithful
    have due := faithful.dueAgain ⟨1, true, .daily, 14, some 0, some .failed⟩
      (mem_rows.mpr (by decide)) (not_holds (by decide)) rfl rfl .thrown rfl
    exact absurd (due.mpr (.inl (by decide))) (by decide)
  · intro faithful
    have due := faithful.dueAgain ⟨1, true, .daily, 14, some 0, some .running⟩
      (mem_rows.mpr (by decide)) (not_holds (by decide)) rfl rfl .killed rfl
    exact absurd (due.mpr (.inl (by decide))) (by decide)
  · intro faithful
    have one := faithful.alone _ (mem_cons_self) _ (mem_cons_of_mem _ mem_cons_self) _ _
      rfl rfl rfl
    exact absurd (congrArg Process.id one) (by decide)

end HostingPlatform.TenantBundles.Scheduler
