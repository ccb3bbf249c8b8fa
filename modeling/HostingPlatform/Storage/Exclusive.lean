import HostingPlatform.Storage.Lifecycle

/-! One orchestrator at a time for each tenant. An orchestrator holds the tenant's row from
its claim to its last write there: the row names its operation and is not idle. Nothing
in the statements keeps others off the row, so runs are guarded. -/
namespace HostingPlatform.Storage

open Table List Interleaving Transition

abbrev Lifecycle := World Db Task Response

/- a snapshot that has given its tenant back still reads its row -/
def Orchestrator.executing (o : Orchestrator) : Bool := o.steps.any (fun s => s != .readSnapshot)

def Task.executes : Task → Option Orchestrator
  | .orchestrate o => if o.executing then some o else none
  | _ => none

/- the operation that a finished cancellation was about -/
def cancelledOp (e : Event Db Task Response) : Option Nat :=
  match e.task, e.outcome with
  | .cancelTenant _ _ opId _, .answer (.cancelled ..) => opId
  | _, _ => none

/-- The row of a tenant that another operation holds keeps its state and that operation. -/
def LeavesOthers (ext : External) (e : Event Db Task Response) : Prop :=
  ∀ o, e.task = .orchestrate o → ∀ tenant ∈ e.before.tenants, ∀ opId ∈ tenant.activeStorageOpId,
    opId ≠ o.opId → ∃ after ∈ (advance ext e.before e.task).1.tenants, after.id = tenant.id ∧
      after.storageLifecycleState = tenant.storageLifecycleState ∧
      after.activeStorageOpId = tenant.activeStorageOpId

structure LifecycleHolds (ext : External) (w : Lifecycle) : Prop where
  oneExecuting : ∀ p ∈ w.running, ∀ p' ∈ w.running, ∀ o ∈ p.task.executes,
    ∀ o' ∈ p'.task.executes, o.tenantId = o'.tenantId → p = p'
  idleWhenNone : ∀ tenant ∈ w.db.tenants, tenant.storageLifecycleState = .idle →
    ∀ p ∈ w.running, ∀ o ∈ p.task.executes, o.tenantId ≠ tenant.id
  cancelledStops : w.log.Pairwise (fun later earlier => ∀ opId ∈ cancelledOp earlier,
    ∀ o ∈ later.task.executes, o.opId ≠ opId)
  othersKept : ∀ e ∈ w.log, LeavesOthers ext e

/-- A claim finds no operation in the tenant's row, a cancellation resets the row while no
orchestrator is executing for the tenant, and the SELECT of a finished snapshot does not
throw. -/
def Uncontested (w : Lifecycle) : Task → Prop
  | .claim _ tenantId _ _ =>
    ∀ tenant ∈ w.db.tenants.rows, tenant.id = tenantId → tenant.activeStorageOpId = none
  | .cancelTenant tenantId _ _ _ =>
    ∀ p ∈ w.running.rows, ∀ o ∈ p.task.executes, o.tenantId ≠ tenantId
  | .orchestrate o => o.steps.head? = some .readSnapshot → w.db.cluster.failure = none
  | _ => True

instance decUncontested (w : Lifecycle) (task : Task) : Decidable (Uncontested w task) := by
  unfold Uncontested
  split <;> infer_instance

/- nothing but the reading of the snapshot comes after the tenant has been given back, and
no progress is reported as idle -/
def givesBackLast : List Step → Bool
  | [] => true
  | .markTenant _ :: rest => rest.all (fun s => s == .readSnapshot)
  | .mirrorState state :: rest => state != .idle && givesBackLast rest
  | _ :: rest => givesBackLast rest

/-- The operation is known, and is the tenant's if it has a row. -/
def OpOf (db : Db) (opId tenantId : Nat) : Prop :=
  opId < db.supply ∧ ∀ op ∈ db.operations, op.id = opId → op.tenantId = tenantId

def Held (db : Db) (o : Orchestrator) : Prop :=
  ∃ tenant ∈ db.tenants, tenant.id = o.tenantId ∧ tenant.activeStorageOpId = some o.opId ∧
    tenant.storageLifecycleState ≠ .idle

structure OrchestratorSafe (db : Db) (o : Orchestrator) : Prop where
  op : ∃ op ∈ db.operations, op.id = o.opId ∧ op.tenantId = o.tenantId
  read : ∀ tenantId ∈ o.cId, tenantId = o.tenantId
  steps : givesBackLast o.steps = true
  handler : givesBackLast o.handler = true
  held : o.executing = true → Held db o

def TaskSafe (db : Db) : Task → Prop
  | .orchestrate o => OrchestratorSafe db o
  | .claim orchestration _ _ _ =>
    givesBackLast orchestration.body = true ∧ givesBackLast orchestration.handler = true ∧
      orchestration.state ≠ .idle
  | .cancelJobs tenantId _ activeOpId => ∀ opId ∈ activeOpId, OpOf db opId tenantId
  | .cancelOp tenantId _ activeOpId _ => ∀ opId ∈ activeOpId, OpOf db opId tenantId
  | .cancelTenant tenantId _ activeOpId _ => ∀ opId ∈ activeOpId, OpOf db opId tenantId
  | _ => True

structure LifecycleSafe (ext : External) (w : Lifecycle) : Prop where
  bound : ∀ op ∈ w.db.operations, op.id < w.db.supply
  active : ∀ tenant ∈ w.db.tenants, ∀ opId ∈ tenant.activeStorageOpId, OpOf w.db opId tenant.id
  tasks : ∀ p ∈ w.running, TaskSafe w.db p.task
  apart : ∀ p ∈ w.running, ∀ p' ∈ w.running, ∀ o o', p.task = .orchestrate o →
    p'.task = .orchestrate o' → o.opId = o'.opId → p = p'
  cancelled : ∀ e ∈ w.log, ∀ opId ∈ cancelledOp e, opId < w.db.supply ∧
    ∀ p ∈ w.running, ∀ o ∈ p.task.executes, o.opId ≠ opId
  stopped : w.log.Pairwise (fun later earlier => ∀ opId ∈ cancelledOp earlier,
    ∀ o ∈ later.task.executes, o.opId ≠ opId)
  kept : ∀ e ∈ w.log, LeavesOthers ext e

variable {task : Task} {o : Orchestrator} {opId tenantId : Nat} {step : Step} {rest : List Step}
  {w : Lifecycle} {p : Process Task} {orchestration : Orchestration} {outcome : Outcome Task Response}

theorem executes_iff : o ∈ task.executes ↔ task = .orchestrate o ∧ o.executing = true := by
  cases task with
  | orchestrate o' =>
    simp only [Task.executes, Task.orchestrate.injEq]
    constructor
    · intro mem
      split at mem
      · rename_i executing
        cases mem
        exact ⟨rfl, executing⟩
      · contradiction
    · rintro ⟨rfl, executing⟩
      rw [if_pos executing]
      rfl
  | _ => simp [Task.executes]

variable {db db' : Db}

theorem OpOf.mono (keeps : KeepsOperations db db') (opOf : OpOf db opId tenantId) : OpOf db' opId tenantId := by
  refine ⟨Nat.lt_of_lt_of_le opOf.1 keeps.supply, ?_⟩
  intro op' mem same
  rcases keeps.origin op' mem with ⟨fresh, _⟩ | ⟨op, memOp, id, tenant⟩
  · have bound := opOf.1
    omega
  · rw [← tenant]
    exact opOf.2 op memOp (id.trans same)

theorem executing_of_next (next : o.steps = step :: rest) (acts : step ≠ .readSnapshot) : o.executing = true := by
  simp [Orchestrator.executing, next, acts]

variable {ext : External}

theorem held_survives {q : Process Task} (inv : LifecycleSafe ext w) (memp : p ∈ w.running)
    (memq : q ∈ w.running) (other : q.id ≠ p.id) (ok : Uncontested w p.task)
    (task : q.task = .orchestrate o) (executing : o.executing = true) (held : Held w.db o) :
    Held (advance ext w.db p.task).1 o := by
  obtain ⟨tenant, mem, id, active, state⟩ := held
  obtain ⟨g, rows, rewrites⟩ := advance_rewrites ext w.db p.task
  have memAfter : g tenant ∈ (advance ext w.db p.task).1.tenants := by
    rw [mem_rows, rows]
    exact mem_map_of_mem mem
  obtain ⟨sameId, rewritten⟩ := rewrites tenant
  have executes : o ∈ q.task.executes := executes_iff.mpr ⟨task, executing⟩
  generalize mine : p.task = taskp at rewritten ok memAfter ⊢
  cases rewritten with
  | kept sameState sameActive =>
    exact ⟨g tenant, memAfter, sameId.trans id, sameActive.trans active, by rw [sameState]; exact state⟩
  | @mirrored op rest tenant after next own sameActive =>
    have safe : OrchestratorSafe w.db op := by
      have safe := inv.tasks p memp
      rw [mine] at safe
      exact safe
    have notIdle : (g tenant).storageLifecycleState ≠ .idle := by
      have steps := safe.steps
      rw [next] at steps
      simp only [givesBackLast, Bool.and_eq_true, bne_iff_ne] at steps
      exact steps.1
    exact ⟨g tenant, memAfter, sameId.trans id, sameActive.trans active, notIdle⟩
  | @released op rest tenant after next read none =>
    have safe : OrchestratorSafe w.db op := by
      have safe := inv.tasks p memp
      rw [mine] at safe
      exact safe
    obtain ⟨row, memRow, idRow, activeRow, _⟩ := safe.held (executing_of_next next (by simp))
    have same : row = tenant := w.db.tenants.eq_of_key memRow mem (idRow.trans (safe.read tenant.id read).symm)
    rw [same, active, Option.some.injEq] at activeRow
    exact absurd (congrArg Process.id (inv.apart q memq p memp o op task mine activeRow)) other
  | claimed =>
    rw [ok tenant mem rfl] at active
    contradiction
  | reset => exact absurd id.symm (ok q memq o executes)

/-- How an orchestrator goes on after a statement: with the next one, or, where the statement
threw and left the store alone, with the `catch` block. -/
structure GoesOn (db : Db) (o o' : Orchestrator) (db' : Db) : Prop where
  opId : o'.opId = o.opId
  tenantId : o'.tenantId = o.tenantId
  handler : o'.handler = o.handler
  read : o'.cId = o.cId ∨
    o'.cId = (db.operations.select (fun op => op.id == o.opId)).map (·.tenantId)
  steps : (∃ step, o.steps = step :: o'.steps) ∨
    o'.steps = o.handler ∧ db' = db ∧ db.cluster.failure.isSome = true

variable {o' : Orchestrator}

theorem goOn_next (next : o.goOn rest = .next (.orchestrate o')) : o' = { o with steps := rest } := by
  cases rest with
  | nil => contradiction
  | cons step rest =>
    simp only [Orchestrator.goOn, Outcome.next.injEq, Task.orchestrate.injEq] at next
    exact next.symm

theorem orchestrator_goes_on (next : (o.advance db).2 = .next (.orchestrate o')) : GoesOn db o o' (o.advance db).1 := by
  unfold Orchestrator.advance at next ⊢
  split at next
  · contradiction
  rename_i step rest steps
  split at next
  · have onward := goOn_next next
    rw [onward]
    cases step with
    | currentTenantId => exact ⟨rfl, rfl, rfl, .inr rfl, .inl ⟨.currentTenantId, steps⟩⟩
    | quiesce => exact ⟨rfl, rfl, rfl, .inl rfl, .inl ⟨.quiesce, steps⟩⟩
    | _ => exact ⟨rfl, rfl, rfl, .inl rfl, .inl ⟨_, steps⟩⟩
  · rename_i message failure
    split at next
    · have onward := goOn_next next
      rw [onward]
      exact ⟨rfl, rfl, rfl, .inl rfl, .inl ⟨step, steps⟩⟩
    unfold Orchestrator.throw at next
    split at next
    · simp only [Outcome.next.injEq, Task.orchestrate.injEq] at next
      rw [← next]
      exact ⟨rfl, rfl, rfl, .inl rfl, .inr ⟨rfl, rfl, by rw [failure]; rfl⟩⟩
    · contradiction

theorem orchestrates_on (next : (o.advance db).2 = .next task) : ∃ o', task = .orchestrate o' := by
  simp only [Orchestrator.advance, Orchestrator.throw] at next
  repeat' split at next
  all_goals first
    | contradiction
    | (unfold Orchestrator.goOn at next
       split at next
       · contradiction
       · cases next
         exact ⟨_, rfl⟩)
    | (cases next
       exact ⟨_, rfl⟩)

theorem goes_on_executing (goes : GoesOn w.db o o' db') (started : o.steps ≠ [])
    (ok : Uncontested w (.orchestrate o)) (executing : o'.executing = true) : o.executing = true := by
  rcases goes.steps with ⟨step, steps⟩ | ⟨_, _, failed⟩
  · simp only [Orchestrator.executing] at executing ⊢
    rw [steps, any_cons, executing, Bool.or_true]
  obtain ⟨step, rest, steps⟩ := exists_cons_of_ne_nil started
  refine executing_of_next steps ?_
  rintro rfl
  have down := ok (by rw [steps]; rfl)
  rw [down] at failed
  contradiction

theorem next_started (next : (o.advance db).2 = .next task) : o.steps ≠ [] := by
  intro steps
  rw [Orchestrator.advance, steps] at next
  contradiction

theorem gives_back_tail (givesBack : givesBackLast (step :: rest) = true) : givesBackLast rest = true := by
  cases step with
  | markTenant state =>
    induction rest with
    | nil => rfl
    | cons next rest ih =>
      simp only [givesBackLast, all_cons, Bool.and_eq_true, beq_iff_eq] at givesBack ih
      rw [givesBack.1]
      exact ih givesBack.2
  | mirrorState state =>
    simp only [givesBackLast, Bool.and_eq_true] at givesBack
    exact givesBack.2
  | _ => exact givesBack

theorem orchestrator_safe (ext : External) {o' : Orchestrator} (safe : OrchestratorSafe w.db o)
    (ok : Uncontested w (.orchestrate o)) (next : (o.advance w.db).2 = .next (.orchestrate o')) :
    OrchestratorSafe (o.advance w.db).1 o' := by
  have goes := orchestrator_goes_on next
  have keeps : KeepsOperations w.db (o.advance w.db).1 := advance_keeps ext w.db (.orchestrate o)
  refine ⟨?_, ?_, ?_, ?_, ?_⟩
  · obtain ⟨op, mem, id, tenant⟩ := safe.op
    obtain ⟨op', mem', sameId, sameTenant⟩ := keeps.kept op mem
    exact ⟨op', mem', by rw [sameId, id, goes.opId], by rw [sameTenant, tenant, goes.tenantId]⟩
  · intro tenantId mem
    rw [goes.tenantId]
    rcases goes.read with same | fresh
    · rw [same] at mem
      exact safe.read tenantId mem
    rw [fresh] at mem
    obtain ⟨op, found, rfl⟩ := Option.map_eq_some_iff.mp mem
    obtain ⟨memOp, idOp⟩ := mem_of_select found
    obtain ⟨own, memOwn, idOwn, tenant⟩ := safe.op
    rw [w.db.operations.eq_of_key memOp memOwn ((eq_of_beq idOp).trans idOwn.symm)]
    exact tenant
  · rcases goes.steps with ⟨step, steps⟩ | ⟨handler, _⟩
    · have givesBack := safe.steps
      rw [steps] at givesBack
      exact gives_back_tail givesBack
    · rw [handler]
      exact safe.handler
  · rw [goes.handler]
    exact safe.handler
  intro executing
  have before := goes_on_executing goes (next_started next) ok executing
  obtain ⟨tenant, mem, id, active, state⟩ := safe.held before
  rw [← goes.opId] at active
  rw [← goes.tenantId] at id
  rcases goes.steps with ⟨step, steps⟩ | ⟨_, same, _⟩
  · obtain ⟨g, rows, rewrites⟩ := advance_rewrites ext w.db (.orchestrate o)
    have memAfter : g tenant ∈ (o.advance w.db).1.tenants := by
      have mapped : g tenant ∈ (advance ext w.db (.orchestrate o)).1.tenants := by
        rw [mem_rows, rows]
        exact mem_map_of_mem mem
      exact mapped
    obtain ⟨sameId, rewritten⟩ := rewrites tenant
    cases rewritten with
    | kept sameState sameActive =>
      exact ⟨g tenant, memAfter, sameId.trans id, sameActive.trans active, by rw [sameState]; exact state⟩
    | mirrored next own sameActive =>
      refine ⟨g tenant, memAfter, sameId.trans id, sameActive.trans active, ?_⟩
      have givesBack := safe.steps
      rw [next] at givesBack
      simp only [givesBackLast, Bool.and_eq_true, bne_iff_ne] at givesBack
      exact givesBack.1
    | released next read none =>
      -- nothing is left to execute after the tenant has been given back
      have givesBack := safe.steps
      rw [next] at givesBack
      rw [next, cons.injEq] at steps
      rw [steps.2] at givesBack
      simp only [givesBackLast, all_eq_true, beq_iff_eq] at givesBack
      simp only [Orchestrator.executing, any_eq_true, bne_iff_ne] at executing
      obtain ⟨s, memS, acts⟩ := executing
      exact absurd (givesBack s memS) acts
  · rw [same]
    exact ⟨tenant, mem, id, active, state⟩

theorem claim_safe (body : givesBackLast orchestration.body = true)
    (handler : givesBackLast orchestration.handler = true) (state : orchestration.state ≠ .idle)
    (spec : Claimed w.db orchestration tenantId o db') : OrchestratorSafe db' o := by
  have opRow := (mem_insertOperation spec.operations).mpr (.inl rfl)
  refine ⟨⟨_, opRow, spec.opId.symm, spec.tenant.symm⟩, ?_, ?_, ?_, ?_⟩
  · intro read mem
    rw [spec.tenant]
    exact spec.cId read mem
  · rw [spec.steps]
    exact body
  · rw [spec.handler]
    exact handler
  intro _
  obtain ⟨row, mem, id⟩ := spec.exists_tenant
  refine ⟨claimed orchestration.state w.db.supply row, ?_, ?_, ?_, state⟩
  · rw [spec.tenants]
    exact (mem_update (claimed_id orchestration.state w.db.supply)).mpr (.inr ⟨row, mem, by simp [id], rfl⟩)
  · rw [spec.tenant]
    exact id
  · rw [spec.opId]
    rfl

theorem attempt_next {done : Db × Outcome Task Response} (next : (attempt db done).2 = .next task) :
    attempt db done = done ∧ done.2 = .next task := by
  unfold attempt at next ⊢
  split at next
  · exact ⟨rfl, next⟩
  · contradiction

theorem after_idle_check {tenant : Tenant} {request : Request}
    (next : afterIdleCheck tenant request = .next task) : TaskSafe db task := by
  cases request with
  | snapshotTenant kind =>
    cases next
    trivial
  | resizeTenant newMib newGi =>
    cases newMib <;> cases newGi <;> cases next <;> trivial
  | suspendTenant | resumeTenant | archiveTenant | restoreArchivedTenant =>
    simp only [afterIdleCheck] at next
    split at next
    · contradiction
    · cases next
      trivial

theorem next_safe (inv : LifecycleSafe ext w) (mem : p ∈ w.running) (ok : Uncontested w p.task)
    (next : (advance ext w.db p.task).2 = .next task) : TaskSafe (advance ext w.db p.task).1 task := by
  have safe := inv.tasks p mem
  generalize mine : p.task = current at next ok safe ⊢
  cases current with
  | mustGetTenant request tenantId =>
    obtain ⟨_, next⟩ := attempt_next next
    split at next
    · contradiction
    · cases next
      trivial
  | mustBeIdle request tenant =>
    obtain ⟨_, next⟩ := attempt_next next
    split at next
    · contradiction
    split at next
    · exact after_idle_check next
    · contradiction
  | enforceSnapshotQuota kind tenant | resizeGrow newMib tenantId =>
    obtain ⟨_, next⟩ := attempt_next next
    split at next
    · contradiction
    · cases next
      exact ⟨rfl, rfl, nofun⟩
  | resizeDryRun newMib tenantId =>
    obtain ⟨_, next⟩ := attempt_next next
    repeat' split at next
    all_goals first | contradiction | (cases next; first | trivial | exact ⟨rfl, rfl, nofun⟩)
  | resizeNoop tenantId =>
    obtain ⟨_, next⟩ := attempt_next next
    split at next <;> contradiction
  | lastSuspend tenant | restorePlan tenant snapId =>
    obtain ⟨_, next⟩ := attempt_next next
    cases next
    exact ⟨rfl, rfl, nofun⟩
  | lastArchive newGi tenant =>
    obtain ⟨_, next⟩ := attempt_next next
    split at next
    · contradiction
    · cases next
      exact ⟨rfl, rfl, nofun⟩
    · cases next
      trivial
  | claim orchestration tenantId snapId quiesceSnap =>
    obtain ⟨body, handler, state⟩ := safe
    simp only [advance] at next ⊢
    obtain ⟨done, next⟩ := attempt_next next
    rw [done]
    split at next
    · rename_i o db' committed
      cases next
      exact claim_safe body handler state (claim_spec committed)
    · contradiction
  | orchestrate o =>
    obtain ⟨o', rfl⟩ := orchestrates_on next
    exact orchestrator_safe ext safe ok next
  | cancelStorageOperation tenantId =>
    simp only [advance, attempt_same] at next ⊢
    obtain ⟨_, next⟩ := attempt_next next
    split at next
    · contradiction
    rename_i tenant found
    split at next
    · contradiction
    cases next
    obtain ⟨memTenant, id⟩ := findTenant_id found
    rw [← id]
    exact inv.active tenant memTenant
  | cancelJobs tenantId state activeOpId =>
    cases next
    exact safe
  | cancelOp tenantId state activeOpId deletedJobs =>
    have keeps := advance_keeps ext w.db (.cancelOp tenantId state activeOpId deletedJobs)
    cases activeOpId with
    | none =>
      cases next
      exact safe
    | some opId =>
      obtain ⟨_, given⟩ := attempt_next next
      cases given
      exact fun op memOp => OpOf.mono keeps (safe op memOp)
  | cancelTenant tenantId state activeOpId deletedJobs =>
    obtain ⟨_, next⟩ := attempt_next next
    contradiction

theorem next_orchestrates (ok : Uncontested w task) (next : (advance ext w.db task).2 = .next (.orchestrate o')) :
    (∃ o, task = .orchestrate o ∧ o'.opId = o.opId ∧ (o'.executing = true → o.executing = true)) ∨
      o'.opId = w.db.supply := by
  cases task with
  | orchestrate o =>
    have goes := orchestrator_goes_on next
    exact .inl ⟨o, rfl, goes.opId, goes_on_executing goes (next_started next) ok⟩
  | claim orchestration tenantId snapId quiesceSnap =>
    obtain ⟨_, next⟩ := attempt_next next
    split at next
    · rename_i o db' committed
      cases next
      exact .inr (claim_spec committed).opId
    · contradiction
  | mustBeIdle request tenant =>
    obtain ⟨_, next⟩ := attempt_next next
    split at next
    · cases next
    split at next
    · cases request with
      | resizeTenant newMib newGi =>
        cases newMib <;> cases newGi <;> cases next
      | _ =>
        simp only [afterIdleCheck] at next
        repeat' split at next
        all_goals cases next
    · cases next
  | cancelOp tenantId state activeOpId deletedJobs =>
    cases activeOpId with
    | none => cases next
    | some opId =>
      obtain ⟨_, next⟩ := attempt_next next
      cases next
  | cancelJobs => cases next
  | _ =>
    obtain ⟨_, next⟩ := attempt_next next
    repeat' split at next
    all_goals cases next

theorem leaves_others (inv : LifecycleSafe ext w) (mem : p ∈ w.running) : LeavesOthers ext ⟨w.db, p.task, outcome⟩ := by
  intro o task tenant memTenant opId active other
  obtain ⟨g, rows, rewrites⟩ := advance_rewrites ext w.db p.task
  have memAfter : g tenant ∈ (advance ext w.db p.task).1.tenants := by
    rw [mem_rows, rows]
    exact mem_map_of_mem memTenant
  obtain ⟨sameId, rewritten⟩ := rewrites tenant
  refine ⟨g tenant, memAfter, sameId, ?_⟩
  have safe := inv.tasks p mem
  simp only at task
  rw [task] at rewritten safe
  cases rewritten with
  | kept sameState sameActive => exact ⟨sameState, sameActive⟩
  | mirrored next own sameActive =>
    rw [active] at own
    exact absurd (Option.some.inj own) other
  | released next read none =>
    obtain ⟨row, memRow, id, held, _⟩ := safe.held (executing_of_next next (by simp))
    have same : row = tenant := w.db.tenants.eq_of_key memRow memTenant (id.trans (safe.read tenant.id read).symm)
    rw [same, active] at held
    exact absurd (Option.some.inj held) other

theorem claim_opOf (bound : ∀ op ∈ db.operations, op.id < db.supply)
    (committed : Claimed db orchestration tenantId o db') : OpOf db' db.supply tenantId := by
  refine ⟨by rw [committed.supply]; omega, ?_⟩
  intro op mem id
  rcases (mem_insertOperation committed.operations).mp mem with rfl | old
  · rfl
  · have older := bound op old
    omega

theorem cancelledOp_eq (cancelled : opId ∈ cancelledOp ⟨db, task, outcome⟩) :
    ∃ tenantId state deletedJobs, task = .cancelTenant tenantId state (some opId) deletedJobs ∧
      ∀ next, outcome ≠ .next next := by
  simp only [cancelledOp] at cancelled
  split at cancelled
  · rename_i tenantId state activeOpId deletedJobs _ _ _
    cases cancelled
    exact ⟨tenantId, state, deletedJobs, rfl, fun next => by simp⟩
  · contradiction

theorem safe_initial (ext : External) : LifecycleSafe ext (World.initial Db.empty) where
  bound := fun _ mem => absurd mem (not_mem_empty _)
  active := fun _ mem => absurd mem (not_mem_empty _)
  tasks := fun _ mem => absurd mem (not_mem_empty _)
  apart := fun _ mem => absurd mem (not_mem_empty _)
  cancelled := fun _ mem => absurd mem not_mem_nil
  stopped := .nil
  kept := fun _ mem => absurd mem not_mem_nil

theorem safe_arrive {running : Table (Process Task) Process.id} (inv : LifecycleSafe ext w)
    (requested : p.task.isRequest = true) (inserted : w.running.insert p = some running) :
    LifecycleSafe ext { w with running } := by
  have fresh : ∀ o, p.task ≠ .orchestrate o := by
    intro o task
    rw [task] at requested
    contradiction
  refine { inv with tasks := ?_, apart := ?_, cancelled := ?_ }
  · intro q mem
    rcases (mem_insert inserted).mp mem with rfl | old
    · generalize q.task = task at requested
      cases task <;> trivial
    · exact inv.tasks q old
  · intro q mem q' mem' o o' task task' same
    rcases (mem_insert inserted).mp mem with rfl | old
    · exact absurd task (fresh o)
    rcases (mem_insert inserted).mp mem' with rfl | old'
    · exact absurd task' (fresh o')
    · exact inv.apart q old q' old' o o' task task' same
  · intro e mem opId cancelled
    refine ⟨(inv.cancelled e mem opId cancelled).1, ?_⟩
    intro q memq o executes
    rcases (mem_insert inserted).mp memq with rfl | old
    · exact absurd (executes_iff.mp executes).1 (fresh o)
    · exact (inv.cancelled e mem opId cancelled).2 q old o executes

theorem held_rows {g : Tenant → Tenant} (rows : ∀ tenant ∈ db.tenants, g tenant ∈ db'.tenants)
    (id : ∀ tenant, (g tenant).id = tenant.id)
    (state : ∀ tenant, (g tenant).storageLifecycleState = tenant.storageLifecycleState)
    (active : ∀ tenant, (g tenant).activeStorageOpId = tenant.activeStorageOpId) (held : Held db o) : Held db' o := by
  obtain ⟨tenant, mem, sameId, own, notIdle⟩ := held
  exact ⟨g tenant, rows tenant mem, (id tenant).trans sameId, (active tenant).trans own,
    by rw [state tenant]; exact notIdle⟩

section

variable (inv : LifecycleSafe ext w)
include inv

theorem safe_change (operations : db.operations = w.db.operations) (supply : db.supply = w.db.supply)
    (active : ∀ tenant ∈ db.tenants, tenant.activeStorageOpId = none ∨ ∃ old ∈ w.db.tenants,
      old.id = tenant.id ∧ old.activeStorageOpId = tenant.activeStorageOpId)
    (held : ∀ o, Held w.db o → Held db o) : LifecycleSafe ext { w with db } := by
  have opOf : ∀ {opId tenantId : Nat}, OpOf w.db opId tenantId → OpOf db opId tenantId :=
    OpOf.mono (keeps_same operations supply)
  refine { inv with bound := ?_, active := ?_, tasks := ?_, cancelled := ?_ }
  · rw [operations, supply]
    exact inv.bound
  · intro tenant mem opId mine
    rcases active tenant mem with none | ⟨old, memOld, id, same⟩
    · rw [none] at mine
      contradiction
    · rw [← id]
      exact opOf (inv.active old memOld opId (by rw [same]; exact mine))
  · intro p mem
    have safe := inv.tasks p mem
    generalize p.task = task at safe ⊢
    cases task with
    | orchestrate o =>
      exact { safe with op := by rw [operations]; exact safe.op, held := fun e => held o (safe.held e) }
    | cancelJobs | cancelOp | cancelTenant => exact fun opId memOp => opOf (safe opId memOp)
    | _ => exact safe
  · rw [supply]
    exact inv.cancelled

theorem safe_environment (change : Change) : LifecycleSafe ext { w with db := change.apply w.db } := by
  cases change with
  | provision tenantId planId =>
    cases inserted : w.db.tenants.insert ⟨tenantId, .pending, planId, none, .idle, none⟩ with
    | none =>
      refine safe_change inv rfl rfl ?_ ?_ <;> simp only [Change.apply, inserted]
      · exact fun tenant mem => .inr ⟨tenant, mem, rfl, rfl⟩
      · exact fun o held => held
    | some tenants =>
      refine safe_change inv rfl rfl ?_ ?_ <;> simp only [Change.apply, inserted]
      · intro tenant mem
        rcases (mem_insert inserted).mp mem with rfl | old
        · exact .inl rfl
        · exact .inr ⟨tenant, old, rfl, rfl⟩
      · exact fun o held => held_rows (g := id)
          (fun tenant mem => (mem_insert inserted).mpr (.inr mem)) (fun _ => rfl)
          (fun _ => rfl) (fun _ => rfl) held
  | editTenant tenantId status planId =>
    refine safe_change inv rfl rfl ?_ ?_
    · intro tenant mem
      rcases (mem_update (edited_id status planId)).mp mem with ⟨old, _⟩ | ⟨old, memOld, _, rfl⟩
      · exact .inr ⟨tenant, old, rfl, rfl⟩
      · exact .inr ⟨old, memOld, rfl, rfl⟩
    · exact fun o held => held_rows (fun tenant mem => apply_mem_update (edited_id status planId) mem)
        (apply_column _ _ _ (edited_id status planId))
        (apply_column _ _ _ (fun _ => rfl)) (apply_column _ _ _ (fun _ => rfl)) held
  | putPlan | setCluster =>
    exact safe_change inv rfl rfl (fun tenant mem => .inr ⟨tenant, mem, rfl, rfl⟩) (fun o held => held)

theorem safe_advance (mem : p ∈ w.running) (ok : Uncontested w p.task) :
    LifecycleSafe ext ((lifecycle ext).run w p) := by
  have keeps := advance_keeps ext w.db p.task
  -- a running request is an old one, or the one that ran the statement
  have origin : ∀ q ∈ ((lifecycle ext).run w p).running, q ∈ w.running ∧ q.id ≠ p.id ∨
      q.id = p.id ∧ (advance ext w.db p.task).2 = .next q.task := by
    intro q memq
    rcases mem_resume memq with old | ⟨task, next, rfl⟩
    · exact .inl old
    · exact .inr ⟨rfl, next⟩
  have known : ∀ q ∈ w.running, ∀ o, q.task = .orchestrate o → o.opId < w.db.supply := by
    intro q memq o task
    have safe := inv.tasks q memq
    rw [task] at safe
    obtain ⟨op, memOp, id, _⟩ := safe.op
    rw [← id]
    exact inv.bound op memOp
  -- the orchestrator of the one that ran the statement has an id that no other has
  have fresh : ∀ q ∈ w.running, q.id ≠ p.id → ∀ o o', q.task = .orchestrate o →
      (advance ext w.db p.task).2 = .next (.orchestrate o') → o.opId ≠ o'.opId := by
    intro q memq other o o' task next same
    rcases next_orchestrates ok next with ⟨mine, taskp, sameId, _⟩ | supply
    · exact other (congrArg Process.id (inv.apart q memq p mem o mine task taskp (same.trans sameId)))
    · have bound := known q memq o task
      omega
  refine ⟨?_, ?_, ?_, ?_, ?_, ?_, ?_⟩
  · intro op' memOp
    rcases keeps.origin op' memOp with ⟨fresh, grown⟩ | ⟨op, memOld, id, _⟩
    · rw [fresh]
      exact grown
    · rw [← id]
      exact Nat.lt_of_lt_of_le (inv.bound op memOld) keeps.supply
  · intro after memAfter opId active
    obtain ⟨g, rows, rewrites⟩ := advance_rewrites ext w.db p.task
    have mapped : after ∈ w.db.tenants.rows.map g := by
      rw [← rows]
      exact memAfter
    obtain ⟨tenant, memTenant, rfl⟩ := mem_map.mp mapped
    obtain ⟨sameId, rewritten⟩ := rewrites tenant
    simp only [System.run]
    rw [sameId]
    generalize p.task = task at rewritten keeps ⊢
    cases rewritten with
    | kept _ sameActive | mirrored _ _ sameActive =>
      rw [sameActive] at active
      exact OpOf.mono keeps (inv.active tenant memTenant opId active)
    | released _ _ none | reset none =>
      rw [none] at active
      contradiction
    | claimed committed _ own =>
      rw [own] at active
      cases active
      exact claim_opOf inv.bound committed
  · intro q memq
    rcases origin q memq with ⟨old, other⟩ | ⟨_, next⟩
    · have safe := inv.tasks q old
      generalize task : q.task = current at safe ⊢
      cases current with
      | orchestrate o =>
        obtain ⟨op, memOp, id, tenant⟩ := safe.op
        obtain ⟨op', memOp', sameId, sameTenant⟩ := keeps.kept op memOp
        exact { safe with
          op := ⟨op', memOp', sameId.trans id, sameTenant.trans tenant⟩
          held := fun executing =>
            held_survives inv mem old other ok task executing (safe.held executing) }
      | cancelJobs | cancelOp | cancelTenant =>
        exact fun opId memOp => OpOf.mono keeps (safe opId memOp)
      | _ => exact safe
    · exact next_safe inv mem ok next
  · intro q memq q' memq' o o' task task' same
    rcases origin q memq with ⟨old, other⟩ | ⟨mine, next⟩ <;>
      rcases origin q' memq' with ⟨old', other'⟩ | ⟨mine', next'⟩
    · exact inv.apart q old q' old' o o' task task' same
    · rw [task'] at next'
      exact absurd same (fresh q old other o o' task next')
    · rw [task] at next
      exact absurd same.symm (fresh q' old' other' o' o task' next)
    · exact eq_of_key _ memq memq' (mine.trans mine'.symm)
  · intro e memE opId cancelled
    rcases mem_cons.mp memE with rfl | old
    · obtain ⟨tenantId, state, deletedJobs, task, answer⟩ := cancelledOp_eq cancelled
      have opOf : OpOf w.db opId tenantId := by
        have safe := inv.tasks p mem
        rw [task] at safe
        exact safe opId rfl
      refine ⟨Nat.lt_of_lt_of_le opOf.1 keeps.supply, ?_⟩
      intro q memq o executes same
      rcases origin q memq with ⟨old, _⟩ | ⟨_, next⟩
      · obtain ⟨taskq, _⟩ := executes_iff.mp executes
        have safe := inv.tasks q old
        rw [taskq] at safe
        obtain ⟨op, memOp, id, tenant⟩ := safe.op
        rw [task] at ok
        exact ok q old o executes (tenant.symm.trans (opOf.2 op memOp (id.trans same)))
      · exact answer q.task next
    · obtain ⟨bound, others⟩ := inv.cancelled e old opId cancelled
      refine ⟨Nat.lt_of_lt_of_le bound keeps.supply, ?_⟩
      intro q memq o executes
      rcases origin q memq with ⟨oldq, _⟩ | ⟨_, next⟩
      · exact others q oldq o executes
      obtain ⟨task, executing⟩ := executes_iff.mp executes
      rw [task] at next
      rcases next_orchestrates ok next with ⟨mine, taskp, sameId, before⟩ | supply
      · rw [sameId]
        exact others p mem mine (executes_iff.mpr ⟨taskp, before executing⟩)
      · omega
  · refine .cons ?_ inv.stopped
    intro e memE opId cancelled o executes
    exact (inv.cancelled e memE opId cancelled).2 p mem o executes
  · intro e memE
    rcases mem_cons.mp memE with rfl | old
    · exact leaves_others inv mem
    · exact inv.kept e old

theorem executing_held (mem : p ∈ w.running) (executes : o ∈ p.task.executes) :
    p.task = .orchestrate o ∧ Held w.db o := by
  obtain ⟨task, executing⟩ := executes_iff.mp executes
  have safe := inv.tasks p mem
  rw [task] at safe
  exact ⟨task, safe.held executing⟩

theorem LifecycleSafe.holds : LifecycleHolds ext w := by
  refine ⟨?_, ?_, inv.stopped, inv.kept⟩
  · intro p mem p' mem' o executes o' executes' same
    obtain ⟨task, tenant, memTenant, id, active, _⟩ := executing_held inv mem executes
    obtain ⟨task', tenant', memTenant', id', active', _⟩ := executing_held inv mem' executes'
    have row : tenant = tenant' := w.db.tenants.eq_of_key memTenant memTenant' (id.trans (same.trans id'.symm))
    rw [row, active', Option.some.injEq] at active
    exact inv.apart p mem p' mem' o o' task task' active.symm
  · intro tenant mem idle p memp o executes same
    obtain ⟨_, row, memRow, id, _, notIdle⟩ := executing_held inv memp executes
    rw [w.db.tenants.eq_of_key memRow mem (id.trans same)] at notIdle
    exact notIdle idle

end

/-- In every run whose claims and cancellations find the tenant free, one orchestrator at
most is executing for a tenant, no tenant is idle meanwhile, a cancelled operation does
nothing more, and no operation touches the row that another one holds. -/
theorem lifecycle_holds_uncontested (ext : External) (actions : List (Action Task Change)) (w : Lifecycle)
    (guarded : Guarded (lifecycle ext).step (onAdvance Uncontested) (World.initial Db.empty) actions)
    (run : exec (lifecycle ext).step (World.initial Db.empty) actions = some w) : LifecycleHolds ext w := by
  have safe : LifecycleSafe ext w :=
    System.invariant (fun _ _ _ inv requested inserted => safe_arrive inv requested inserted)
      (fun _ _ inv mem ok => safe_advance inv mem ok)
      (fun _ change inv => safe_environment inv change) (safe_initial ext) guarded run
  exact safe.holds

def plainExternal : External where
  requiredBytes := fun usedBytes => (usedBytes * 11 + 9) / 10
  gib := fun bytes => toString (bytes / 1073741824)
  mib := fun bytes => toString (bytes / 1048576)

/- a tenant whose claim has 2 GiB -/
def twoGiB : List (Action Task Change) :=
  [.environment (.provision 1 1),
    .environment (.setCluster { Cluster.empty with pvcMib := fun _ => some 2048 })]

/- a shrink to 1 GiB up to the end of its orchestrator, a suspension, and a cancellation
that comes when nothing is left to cancel -/
def inTurn : List (Action Task Change) :=
  twoGiB ++
    .arrive 1 (.mustGetTenant (.resizeTenant (some 1024) none) 1) :: List.replicate 30 (.advance 1) ++
    .arrive 2 (.mustGetTenant .suspendTenant 1) :: List.replicate 7 (.advance 2) ++
    [.arrive 3 (.cancelStorageOperation 1), .advance 3]

theorem lifecycle_holds_in_turn : ∃ w, exec (lifecycle plainExternal).step (World.initial Db.empty) inTurn = some w ∧
      LifecycleHolds plainExternal w := by
  have runs : (exec (lifecycle plainExternal).step (World.initial Db.empty) inTurn).isSome = true := by
    decide
  obtain ⟨w, run⟩ := Option.isSome_iff_exists.mp runs
  exact ⟨w, run, lifecycle_holds_uncontested plainExternal inTurn w (by decide) run⟩

/- the same shrink, cancelled while its workloads are scaled down -/
def cancelWhileQuiescing : List (Action Task Change) :=
  twoGiB ++
    .arrive 1 (.mustGetTenant (.resizeTenant (some 1024) none) 1) :: List.replicate 8 (.advance 1) ++
    .arrive 2 (.cancelStorageOperation 1) :: List.replicate 4 (.advance 2)

theorem cancelled_resize_goes_on : ¬ ∀ (ext : External) (actions : List (Action Task Change)) (w : Lifecycle),
      exec (lifecycle ext).step (World.initial Db.empty) actions = some w →
      LifecycleHolds ext w := by
  intro holds
  have goesOn : (exec (lifecycle plainExternal).step (World.initial Db.empty) cancelWhileQuiescing).any (fun w =>
        w.db.tenants.rows.any (fun t => t.id == 1 && t.storageLifecycleState == .idle) &&
        w.running.rows.any (fun p => p.task.executes.any (fun o =>
          o.tenantId == 1 && o.steps.contains .deletePVC))) = true := by decide
  obtain ⟨w, run, both⟩ := (Option.any_eq_true _ _).mp goesOn
  rw [Bool.and_eq_true, any_eq_true, any_eq_true] at both
  obtain ⟨⟨tenant, memTenant, idle⟩, p, mem, executes⟩ := both
  rw [Bool.and_eq_true] at idle
  obtain ⟨o, executing, own⟩ := (Option.any_eq_true _ _).mp executes
  rw [Bool.and_eq_true] at own
  exact (holds plainExternal cancelWhileQuiescing w run).idleWhenNone tenant memTenant
    (eq_of_beq idle.2) p mem o executing ((eq_of_beq own.1).trans (eq_of_beq idle.1).symm)

end HostingPlatform.Storage
