import HostingPlatform.Storage.HandingBack

/-! The storage lifecycle of tenants whose rows are captured and restored. A capture saves the row
of its tenant whenever it comes; a restore puts back a row that was saved. -/
namespace HostingPlatform.BackupRestore.StorageState

open Option Table Interleaving Transition Storage

structure History where
  db : Db
  bundles : List Tenant

def History.empty : History := ⟨Db.empty, []⟩

/- the operations that are requested past `Storage.Request` -/
inductive Maintenance where
  | rollbackToSnapshot (snapshotId : Nat)
  | startFsck (dryRun clean : Bool)

inductive HistoryTask where
  | lifecycle (task : Task)
  | mustGetTenant (request : Maintenance) (tenantId : Nat)
  | mustBeIdle (request : Maintenance) (tenantId : Nat)
  | selectSnapshot (snapshotId tenantId : Nat)
  | claimRollback (snapId tenantId : Nat)
  | clearFailedStorageState (tenantId : Nat)
  | clearTenant (tenantId : Nat)
  | selectTenantRows (tenantId : Nat)
  | upsertRow (row : Tenant)

inductive Reply where
  | lifecycle (response : Response)
  | cleared (previousState : LifecycleState)
  | captured
  | restored

def failed (error : ApiError) : Outcome HistoryTask Reply := .answer (.lifecycle (.failed error))

def afterIdleCheck (tenantId : Nat) : Maintenance → Outcome HistoryTask Reply
  | .rollbackToSnapshot snapshotId => .next (.selectSnapshot snapshotId tenantId)
  | .startFsck dryRun clean => .next (.lifecycle (.claim (runFsckOp dryRun clean) tenantId none none))

def attempt (h : History) (done : History × Outcome HistoryTask Reply) :
    History × Outcome HistoryTask Reply :=
  match h.db.cluster.failure with
  | none => done
  | some message => (h, .answer (.lifecycle (.threw message)))

def advance (ext : External) (h : History) : HistoryTask → History × Outcome HistoryTask Reply
  | .lifecycle task =>
    let done := Storage.advance ext h.db task
    ({ h with db := done.1 }, done.2.map .lifecycle .lifecycle)
  | .mustGetTenant request tenantId =>
    attempt h (h,
      match findTenant h.db tenantId with
      | none => failed (tenantNotFound tenantId)
      | some _ => .next (.mustBeIdle request tenantId))
  | .mustBeIdle request tenantId =>
    attempt h (h,
      match findTenant h.db tenantId with
      | none => failed (tenantNotFound tenantId)
      | some tenant =>
        if tenant.storageLifecycleState = .idle then afterIdleCheck tenantId request
        else failed (operationInProgress tenant))
  | .selectSnapshot snapshotId tenantId =>
    attempt h (h,
      match h.db.snapshots.select
        (fun s => s.id == snapshotId && s.tenantId == tenantId && s.status == .ready) with
      | none => failed ⟨"SNAPSHOT_NOT_FOUND",
          s!"Snapshot {snapshotId} not found, not owned by tenant {tenantId}, or not in 'ready' status", 404⟩
      | some snap => .next (.claimRollback snap.id tenantId))
  -- the orchestrator is handed its tenant
  | .claimRollback snapId tenantId =>
    attempt h (
      match claim h.db runRollbackToSnapshot tenantId (some snapId) none with
      | some (o, db) =>
        ({ h with db }, .next (.lifecycle (.orchestrate { o with cId := some tenantId })))
      | none => (h, .answer (.lifecycle (.threw "constraint violated"))))
  | .clearFailedStorageState tenantId =>
    attempt h (h,
      match findTenant h.db tenantId with
      | none => failed (tenantNotFound tenantId)
      | some tenant =>
        if tenant.storageLifecycleState = .failed then .next (.clearTenant tenantId)
        else failed ⟨"NOT_IN_FAILED_STATE",
          s!"Client is in state '{tenant.storageLifecycleState.text}', not 'failed' — only failed ops can be force-cleared",
          409⟩)
  | .clearTenant tenantId =>
    attempt h ({ h with db := markTenantState h.db tenantId .idle }, .answer (.cleared .failed))
  | .selectTenantRows tenantId =>
    attempt h ({ h with bundles := (findTenant h.db tenantId).toList ++ h.bundles }, .answer .captured)
  | .upsertRow row =>
    attempt h ({ h with db := { h.db with tenants := h.db.tenants.put row } }, .answer .restored)

def HistoryTask.isRequest (h : History) : HistoryTask → Bool
  | .lifecycle task => task.isRequest
  | .mustGetTenant .. | .clearFailedStorageState _ | .selectTenantRows _ => true
  | .upsertRow row => decide (row ∈ h.bundles)
  | _ => false

def histories (ext : External) : System History HistoryTask Reply Change where
  request := fun w task => task.isRequest w.db
  advance := advance ext
  environment := fun h change => { h with db := change.apply h.db }

abbrev Histories := World History HistoryTask Reply

def InProgress (w : Histories) (opId : Nat) : Prop :=
  ∃ p ∈ w.running, ∃ o, p.task = .lifecycle (.orchestrate o) ∧ o.opId = opId

/-- An exception in the `catch` block of its orchestrator has ended the operation. -/
def Abandoned (w : Histories) (opId : Nat) : Prop :=
  ∃ e ∈ w.log, ∃ o message, e.task = .lifecycle (.orchestrate o) ∧ o.opId = opId ∧
    e.outcome = .answer (.lifecycle (.threw message))

/-- A tenant is idle only while the operation its row names is at work. -/
def BusyOnlyInProgress (w : Histories) : Prop :=
  ∀ tenant ∈ w.db.db.tenants, tenant.storageLifecycleState ≠ .idle →
    ∃ opId ∈ tenant.activeStorageOpId, InProgress w opId

/-- A row names an operation unless it is idle or failed, and an operation that a row names is at
work or was abandoned. -/
structure NamesOperations (w : Histories) : Prop where
  busy : ∀ tenant ∈ w.db.db.tenants, tenant.storageLifecycleState ≠ .idle →
    tenant.storageLifecycleState ≠ .failed →
    ∃ opId ∈ tenant.activeStorageOpId, InProgress w opId ∨ Abandoned w opId
  named : ∀ tenant ∈ w.db.db.tenants, ∀ opId ∈ tenant.activeStorageOpId,
    InProgress w opId ∨ Abandoned w opId
  free : ∀ tenant ∈ w.db.db.tenants, tenant.activeStorageOpId = none →
    tenant.storageLifecycleState = .idle ∨ tenant.storageLifecycleState = .failed

/- a row is restored if no operation was active when it was captured -/
def CapturedFree (_ : Histories) : HistoryTask → Prop
  | .upsertRow row => row.activeStorageOpId = none
  | _ => True

instance decCapturedFree (w : Histories) (task : HistoryTask) : Decidable (CapturedFree w task) := by
  unfold CapturedFree
  split <;> infer_instance

def TaskReturns (db : Db) : HistoryTask → Prop
  | .lifecycle (.orchestrate o) => Returns db o
  | .lifecycle task => task.Plain
  | .upsertRow row => row.Consistent
  | _ => True

structure HistorySafe (w : Histories) : Prop where
  bound : ∀ op ∈ w.db.db.operations, op.id < w.db.db.supply
  active : ∀ tenant ∈ w.db.db.tenants, ∀ opId ∈ tenant.activeStorageOpId, opId < w.db.db.supply
  consistent : ∀ tenant ∈ w.db.db.tenants, tenant.Consistent
  bundles : ∀ row ∈ w.db.bundles, row.Consistent
  tasks : ∀ p ∈ w.running, TaskReturns w.db.db p.task
  named : ∀ tenant ∈ w.db.db.tenants, ∀ opId ∈ tenant.activeStorageOpId,
    InProgress w opId ∨ Abandoned w opId

variable {w : Histories} {h : History} {outcome : Outcome HistoryTask Reply} {db : Db} {after : Tenant}
  {task : HistoryTask} {ext : External} {p : Process HistoryTask}

theorem HistorySafe.names (safe : HistorySafe w) : NamesOperations w := by
  have free : ∀ tenant ∈ w.db.db.tenants, tenant.activeStorageOpId = none →
      tenant.storageLifecycleState = .idle ∨ tenant.storageLifecycleState = .failed := by
    intro tenant mem none
    have settled := (safe.consistent tenant mem).mp none
    cases state : tenant.storageLifecycleState <;> simp [state, LifecycleState.settled] at settled ⊢
  refine ⟨?_, safe.named, free⟩
  intro tenant mem notIdle notFailed
  cases active : tenant.activeStorageOpId with
  | none => exact absurd (free tenant mem active) (by simp [notIdle, notFailed])
  | some opId => exact ⟨opId, rfl, safe.named tenant mem opId active⟩

theorem attempt_cases (h : History) (done : History × Outcome HistoryTask Reply) :
    attempt h done = done ∨ (attempt h done).1 = h ∧ ∀ task, (attempt h done).2 ≠ .next task := by
  unfold attempt
  split
  · exact .inl rfl
  · exact .inr ⟨rfl, by simp⟩

theorem attempt_db : (attempt h (h, outcome)).1 = h := by
  rcases attempt_cases h (h, outcome) with same | ⟨same, _⟩
  · rw [same]
  · exact same

theorem plain_returns {task : Task} (plain : task.Plain) : TaskReturns db (.lifecycle task) := by
  cases task with
  | orchestrate o => exact plain.elim
  | _ => exact plain

theorem returns_settles {task : Task} (safe : TaskReturns db (.lifecycle task)) : task.Settles := by
  cases task with
  | orchestrate o => exact safe.steps
  | claim orchestration tenantId snapId quiesceSnap => exact safe.state
  | _ => trivial

/- where a row comes from, after a statement of a history -/
inductive RowOrigin (h : History) (outcome : Outcome HistoryTask Reply) (after : Tenant) : Prop where
  | kept (tenant : Tenant) (mem : tenant ∈ h.db.tenants) (id : tenant.id = after.id)
    (active : after.activeStorageOpId = tenant.activeStorageOpId)
    (consistent : tenant.Consistent → after.Consistent)
  | free (active : after.activeStorageOpId = none) (consistent : after.Consistent)
  | claimed (o : Orchestrator) (goesOn : outcome = .next (.lifecycle (.orchestrate o)))
    (opId : o.opId = h.db.supply) (active : after.activeStorageOpId = some h.db.supply)
    (consistent : after.Consistent)

theorem RowOrigin.same {tenant : Tenant} (mem : tenant ∈ h.db.tenants) : RowOrigin h outcome tenant :=
  .kept tenant mem rfl rfl (fun consistent => consistent)

theorem origin_of_after {outcome : Outcome Task Response} (row : RowAfter h.db outcome after) :
    RowOrigin h (outcome.map .lifecycle .lifecycle) after := by
  cases row with
  | kept tenant mem id active consistent => exact .kept tenant mem id active consistent
  | handedBack active state => exact .free active (by simp [Tenant.Consistent, active, state])
  | claimed o goesOn opId active state =>
    exact .claimed o (by rw [goesOn]; rfl) opId active (by simp [Tenant.Consistent, active, state])

theorem row_origin (safe : TaskReturns w.db.db task) (ok : CapturedFree w task)
    (mem : after ∈ (advance ext w.db task).1.db.tenants) : RowOrigin w.db (advance ext w.db task).2 after := by
  cases task with
  | lifecycle task => exact origin_of_after (advance_after (returns_settles safe) mem)
  | claimRollback snapId tenantId =>
    simp only [advance] at mem ⊢
    unfold attempt at mem ⊢
    split at mem
    · split at mem
      · rename_i o db committed
        have row : RowAfter w.db.db (.next (.orchestrate { o with cId := some tenantId })) after :=
          claim_after (claim_spec committed) rfl rfl mem
        exact origin_of_after row
      · exact RowOrigin.same mem
    · exact RowOrigin.same mem
  | clearTenant tenantId =>
    simp only [advance] at mem ⊢
    unfold attempt at mem ⊢
    split at mem
    · rcases (mem_update (release_id .idle)).mp mem with ⟨old, _⟩ | ⟨_, _, _, rfl⟩
      · exact RowOrigin.same old
      · exact .free rfl (by simp [Tenant.Consistent, release, LifecycleState.settled])
    · exact RowOrigin.same mem
  | upsertRow row =>
    simp only [advance] at mem ⊢
    unfold attempt at mem ⊢
    split at mem
    · rcases mem_put.mp mem with rfl | ⟨old, _⟩
      · exact .free ok safe
      · exact RowOrigin.same old
    · exact RowOrigin.same mem
  | selectTenantRows tenantId =>
    simp only [advance] at mem ⊢
    unfold attempt at mem ⊢
    split at mem <;> exact RowOrigin.same mem
  | mustGetTenant | mustBeIdle | selectSnapshot | clearFailedStorageState =>
    simp only [advance, attempt_db] at mem
    exact RowOrigin.same mem

theorem history_keeps (ext : External) (h : History) (task : HistoryTask) :
    KeepsOperations h.db (advance ext h task).1.db := by
  cases task with
  | lifecycle task => exact advance_keeps ext h.db task
  | claimRollback snapId tenantId =>
    simp only [advance]
    unfold attempt
    repeat' split
    · rename_i o db committed
      have spec := claim_spec committed
      exact keeps_insert rfl spec.operations (by rw [spec.supply]; omega)
    · exact keeps_same rfl rfl
    · exact keeps_same rfl rfl
  | clearTenant | selectTenantRows | upsertRow =>
    simp only [advance]
    unfold attempt
    split <;> exact keeps_same rfl rfl
  | mustGetTenant | mustBeIdle | selectSnapshot | clearFailedStorageState =>
    simp only [advance, attempt_db]
    exact keeps_same rfl rfl

theorem history_bundles {row : Tenant} (mem : row ∈ (advance ext h task).1.bundles) :
    row ∈ h.bundles ∨ row ∈ h.db.tenants := by
  cases task with
  | lifecycle task => exact .inl mem
  | selectTenantRows tenantId =>
    simp only [advance] at mem
    unfold attempt at mem
    split at mem
    · rcases List.mem_append.mp mem with new | old
      · exact .inr (findTenant_id (mem_toList.mp new)).1
      · exact .inl old
    · exact .inl mem
  | claimRollback | clearTenant | upsertRow =>
    simp only [advance] at mem
    unfold attempt at mem
    repeat' split at mem
    all_goals exact .inl mem
  | mustGetTenant | mustBeIdle | selectSnapshot | clearFailedStorageState =>
    simp only [advance, attempt_db] at mem
    exact .inl mem

theorem attempt_goes_on {done : History × Outcome HistoryTask Reply}
    (next : (attempt h done).2 = .next task) : attempt h done = done ∧ done.2 = .next task := by
  rcases attempt_cases h done with same | ⟨_, ends⟩
  · exact ⟨same, same ▸ next⟩
  · exact absurd next (ends task)

theorem next_returns {task' : HistoryTask} (inv : HistorySafe w) (safe : TaskReturns w.db.db task)
    (next : (advance ext w.db task).2 = .next task') : TaskReturns (advance ext w.db task).1.db task' := by
  have fresh : ∀ tenant ∈ w.db.db.tenants, tenant.activeStorageOpId ≠ some w.db.db.supply := by
    intro tenant mem active
    have known := inv.active tenant mem w.db.db.supply active
    omega
  cases task with
  | lifecycle task =>
    simp only [advance] at next ⊢
    cases goes : (Storage.advance ext w.db.db task).2 with
    | answer response =>
      rw [goes] at next
      contradiction
    | next task'' =>
      rw [goes] at next
      cases next
      rcases plain_next goes with ⟨o, o', rfl, rfl⟩ | ⟨orchestration, t, snapId, snap, o', rfl, rfl, committed⟩ | plain
      · exact (orchestrator_returns safe goes).1
      · have known : o'.cId = if orchestration.awaited.isSome then some t else none := by
          simp only [claim, bind_eq_some_iff, map_eq_some_iff, Prod.mk.injEq] at committed
          obtain ⟨_, _, _, _, rfl, _⟩ := committed
          rfl
        refine @claim_returns _ _ _ _ o' o'.cId (claim_spec committed) ?_ (claim_spec committed).cId fresh
        have same : o'.cId.isSome = orchestration.awaited.isSome := by
          rw [known]
          cases orchestration.awaited <;> rfl
        rw [same]
        exact safe
      · exact plain_returns plain
  | mustBeIdle request tenantId =>
    obtain ⟨_, next⟩ := attempt_goes_on next
    split at next
    · contradiction
    split at next
    · cases request with
      | rollbackToSnapshot snapshotId =>
        cases next
        trivial
      | startFsck dryRun clean =>
        cases next
        exact runFsckOp_hands_back dryRun clean
    · contradiction
  | claimRollback snapId tenantId =>
    simp only [advance] at next ⊢
    obtain ⟨done, next⟩ := attempt_goes_on next
    rw [done]
    split at next
    · rename_i o db committed
      cases next
      refine claim_returns (claim_spec committed) runRollbackToSnapshot_hands_back ?_ fresh
      intro t mem
      cases mem
      rfl
    · contradiction
  | mustGetTenant | selectSnapshot | clearFailedStorageState =>
    obtain ⟨_, next⟩ := attempt_goes_on next
    repeat' split at next
    all_goals first | contradiction | (cases next; trivial)
  | clearTenant | selectTenantRows | upsertRow =>
    obtain ⟨_, next⟩ := attempt_goes_on next
    contradiction

theorem still_in_progress {log : List (Event History HistoryTask Reply)} (mem : p ∈ w.running)
    (outcome : Outcome HistoryTask Reply) (next : outcome = .next task) {o : Orchestrator}
    (goesOn : task = .lifecycle (.orchestrate o)) : InProgress ⟨h, resume w.running p.id outcome, log⟩ o.opId := by
  rw [next]
  exact ⟨⟨p.id, task⟩, @mem_resume_self _ Reply _ _ task mem, o, goesOn, rfl⟩

theorem still_named {opId : Nat} (safe : HistorySafe w) (mem : p ∈ w.running)
    (named : InProgress w opId ∨ Abandoned w opId) (row : after ∈ ((histories ext).run w p).db.db.tenants)
    (active : after.activeStorageOpId = some opId) :
    InProgress ((histories ext).run w p) opId ∨ Abandoned ((histories ext).run w p) opId := by
  rcases named with ⟨q, memq, o, task, own⟩ | ⟨e, meme, abandoned⟩
  · by_cases same : q.id = p.id
    · have this : q = p := eq_of_key _ memq mem same
      rw [this] at task
      have returns := safe.tasks p mem
      rw [task] at returns
      subst own
      cases goes : (o.advance w.db.db).2 with
      | next task' =>
        obtain ⟨o', rfl⟩ := orchestrates_on goes
        rw [← (orchestrator_returns returns goes).2]
        refine .inl (still_in_progress mem _ ?_ rfl)
        rw [task]
        show (o.advance w.db.db).2.map _ _ = _
        rw [goes]
        rfl
      | answer response =>
        rcases orchestrator_ends returns goes with ⟨message, rfl⟩ | none
        · refine .inr ⟨_, List.mem_cons_self, o, message, task, rfl, ?_⟩
          rw [task]
          show (o.advance w.db.db).2.map _ _ = _
          rw [goes]
          rfl
        have there : after ∈ (o.advance w.db.db).1.tenants := by
          have ran : after ∈ (advance ext w.db p.task).1.db.tenants := row
          rw [task] at ran
          exact ran
        exact absurd active (none after there)
    · exact .inl ⟨q, mem_resume_other memq same, o, task, own⟩
  · exact .inr ⟨e, List.mem_cons_of_mem _ meme, abandoned⟩

theorem safe_advance (safe : HistorySafe w) (mem : p ∈ w.running) (ok : CapturedFree w p.task) :
    HistorySafe ((histories ext).run w p) := by
  have keeps := history_keeps ext w.db p.task
  have mine := safe.tasks p mem
  have origin : ∀ after ∈ ((histories ext).run w p).db.db.tenants,
      RowOrigin w.db (advance ext w.db p.task).2 after :=
    fun after row => row_origin mine ok row
  refine ⟨?_, ?_, ?_, ?_, ?_, ?_⟩
  · intro op memOp
    rcases keeps.origin op memOp with ⟨fresh, grown⟩ | ⟨old, memOld, id, _⟩
    · rw [fresh]
      exact grown
    · rw [← id]
      exact Nat.lt_of_lt_of_le (safe.bound old memOld) keeps.supply
  · intro after row opId active
    rcases origin after row with ⟨tenant, memTenant, _, same, _⟩ | ⟨none, _⟩ | ⟨o, goesOn, own, claimed, _⟩
    · rw [same] at active
      exact Nat.lt_of_lt_of_le (safe.active tenant memTenant opId active) keeps.supply
    · rw [none] at active
      contradiction
    rw [claimed] at active
    cases active
    -- the operation's row is there
    obtain ⟨op, memOp, id, _⟩ := (next_returns safe mine goesOn).op
    rcases keeps.origin op memOp with ⟨_, grown⟩ | ⟨old, memOld, same, _⟩
    · exact grown
    · have bound := safe.bound old memOld
      omega
  · intro after row
    rcases origin after row with ⟨tenant, memTenant, _, _, consistent⟩ | ⟨_, consistent⟩ | ⟨_, _, _, _, consistent⟩
    · exact consistent (safe.consistent tenant memTenant)
    · exact consistent
    · exact consistent
  · intro row saved
    rcases history_bundles saved with old | live
    · exact safe.bundles row old
    · exact safe.consistent row live
  · intro q memq
    rcases mem_resume memq with ⟨old, _⟩ | ⟨task, next, rfl⟩
    · have other := safe.tasks q old
      generalize q.task = task at other ⊢
      cases task with
      | lifecycle task =>
        cases task with
        | orchestrate o =>
          refine Returns.mono other keeps ?_
          intro after row active
          rcases origin after row with ⟨tenant, memTenant, id, same, _⟩ | ⟨none, _⟩ | ⟨_, _, _, claimed, _⟩
          · exact ⟨tenant, memTenant, id, same ▸ active⟩
          · rw [none] at active
            contradiction
          -- a new operation is no other's
          rw [claimed, some.injEq] at active
          obtain ⟨op, memOp, id, _⟩ := other.op
          have bound := safe.bound op memOp
          omega
        | _ => exact other
      | _ => exact other
    · exact next_returns safe mine next
  · intro after row opId active
    rcases origin after row with ⟨tenant, memTenant, _, same, _⟩ | ⟨none, _⟩ | ⟨o, goesOn, own, claimed, _⟩
    · exact still_named safe mem (safe.named tenant memTenant opId (same ▸ active)) row active
    · rw [none] at active
      contradiction
    rw [claimed] at active
    cases active
    rw [← own]
    exact .inl (still_in_progress mem _ goesOn rfl)

theorem safe_arrive {running : Table (Process HistoryTask) Process.id} (safe : HistorySafe w)
    (requested : p.task.isRequest w.db = true) (inserted : w.running.insert p = some running) :
    HistorySafe { w with running } := by
  have there : ∀ q ∈ w.running, q ∈ running := fun q mem => (mem_insert inserted).mpr (.inr mem)
  refine { safe with tasks := ?_, named := ?_ }
  · intro q mem
    rcases (mem_insert inserted).mp mem with rfl | old
    · generalize q.task = task at requested
      cases task with
      | lifecycle task =>
        cases task <;> first | contradiction | trivial
      | upsertRow row => exact safe.bundles row (of_decide_eq_true requested)
      | _ => first | contradiction | trivial
    · exact safe.tasks q old
  · intro tenant mem opId active
    rcases safe.named tenant mem opId active with ⟨q, memq, at_work⟩ | abandoned
    · exact .inl ⟨q, there q memq, at_work⟩
    · exact .inr abandoned

theorem safe_environment (safe : HistorySafe w) (change : Change) :
    HistorySafe { w with db := { w.db with db := change.apply w.db.db } } := by
  have operations : (change.apply w.db.db).operations = w.db.db.operations := by cases change <;> rfl
  have supply : (change.apply w.db.db).supply = w.db.db.supply := by cases change <;> rfl
  have origin : ∀ after ∈ (change.apply w.db.db).tenants, after.activeStorageOpId = none ∧ after.Consistent ∨
      ∃ tenant ∈ w.db.db.tenants, tenant.id = after.id ∧
        tenant.activeStorageOpId = after.activeStorageOpId ∧ (tenant.Consistent → after.Consistent) := by
    intro after mem
    cases change with
    | provision tenantId planId =>
      have row : after ∈ (w.db.db.tenants.insert ⟨tenantId, .pending, planId, none, .idle, none⟩).getD
          w.db.db.tenants := mem
      cases inserted : w.db.db.tenants.insert ⟨tenantId, .pending, planId, none, .idle, none⟩ with
      | none =>
        rw [inserted] at row
        exact .inr ⟨after, row, rfl, rfl, fun consistent => consistent⟩
      | some tenants =>
        rw [inserted] at row
        rcases (mem_insert inserted).mp row with rfl | old
        · exact .inl ⟨rfl, by simp [Tenant.Consistent, LifecycleState.settled]⟩
        · exact .inr ⟨after, old, rfl, rfl, fun consistent => consistent⟩
    | editTenant tenantId status planId =>
      rcases (mem_update (edited_id status planId)).mp mem with ⟨old, _⟩ | ⟨tenant, old, _, rfl⟩
      · exact .inr ⟨after, old, rfl, rfl, fun consistent => consistent⟩
      · exact .inr ⟨tenant, old, rfl, rfl, fun consistent => consistent⟩
    | putPlan | setCluster => exact .inr ⟨after, mem, rfl, rfl, fun consistent => consistent⟩
  refine { safe with bound := ?_, active := ?_, consistent := ?_, tasks := ?_, named := ?_ }
  · rw [operations, supply]
    exact safe.bound
  · intro after mem opId active
    rw [supply]
    rcases origin after mem with ⟨none, _⟩ | ⟨tenant, old, _, same, _⟩
    · rw [none] at active
      contradiction
    · exact safe.active tenant old opId (same ▸ active)
  · intro after mem
    rcases origin after mem with ⟨_, consistent⟩ | ⟨tenant, old, _, _, consistent⟩
    · exact consistent
    · exact consistent (safe.consistent tenant old)
  · intro p mem
    have other := safe.tasks p mem
    generalize p.task = task at other ⊢
    cases task with
    | lifecycle task =>
      cases task with
      | orchestrate o =>
        refine Returns.mono other (keeps_same operations supply) ?_
        intro after row active
        rcases origin after row with ⟨none, _⟩ | ⟨tenant, old, id, same, _⟩
        · rw [none] at active
          contradiction
        · exact ⟨tenant, old, id, same ▸ active⟩
      | _ => exact other
    | _ => exact other
  · intro after mem opId active
    rcases origin after mem with ⟨none, _⟩ | ⟨tenant, old, _, same, _⟩
    · rw [none] at active
      contradiction
    · exact safe.named tenant old opId (same ▸ active)

theorem safe_initial : HistorySafe (World.initial History.empty) where
  bound := fun _ mem => absurd mem (not_mem_empty _)
  active := fun _ mem => absurd mem (not_mem_empty _)
  consistent := fun _ mem => absurd mem (not_mem_empty _)
  bundles := fun _ mem => absurd mem List.not_mem_nil
  tasks := fun _ mem => absurd mem (not_mem_empty _)
  named := fun _ mem => absurd mem (not_mem_empty _)

/-- In every history whose restores apply rows that were captured free, a tenant that is neither
idle nor failed names an operation that is at work or was abandoned. -/
theorem names_operations (ext : External) (actions : List (Action HistoryTask Change)) (w : Histories)
    (guarded : Guarded (histories ext).step (onAdvance CapturedFree) (World.initial History.empty) actions)
    (run : exec (histories ext).step (World.initial History.empty) actions = some w) : NamesOperations w := by
  have safe : HistorySafe w :=
    System.invariant (fun _ _ _ inv requested inserted => safe_arrive inv requested inserted)
      (fun _ _ inv mem ok => safe_advance inv mem ok)
      (fun _ change inv => safe_environment inv change) safe_initial guarded run
  exact safe.names

/- a tenant, and a backup of it -/
def aTenant : List (Action HistoryTask Change) :=
  [.environment (.provision 1 1), .environment (.setCluster { Cluster.empty with pvcMib := fun _ => some 1024 })]

def backup (id : Nat) : List (Action HistoryTask Change) :=
  [.arrive id (.selectTenantRows 1), .advance id]

def restore (id : Nat) (row : Tenant) : List (Action HistoryTask Change) :=
  [.arrive id (.upsertRow row), .advance id]

def suspension (id : Nat) : Action HistoryTask Change :=
  .arrive id (.lifecycle (.mustGetTenant .suspendTenant 1))

def suspended (state : LifecycleState) (active : Option Nat) (status : TenantStatus) : Tenant :=
  ⟨1, status, 1, none, state, active⟩

/- a backup before a suspension, which is restored while the suspension is at work -/
def restoredFree : List (Action HistoryTask Change) :=
  List.flatten [aTenant, backup 1, [suspension 2], List.replicate 4 (.advance 2),
    restore 3 (suspended .idle none .pending), List.replicate 3 (.advance 2)]

theorem names_operations_restored :
    ∃ w, exec (histories plainExternal).step (World.initial History.empty) restoredFree = some w ∧
      NamesOperations w := by
  refine ⟨_, rfl, names_operations plainExternal restoredFree _ ?_ rfl⟩
  decide

/- an operation that fails: the growth of a volume that the cluster does not grow -/
def growth : List (Action HistoryTask Change) :=
  List.flatten [aTenant, [.arrive 1 (.lifecycle (.mustGetTenant (.resizeTenant (some 2048) none) 1))],
    List.replicate 6 (.advance 1),
    [.environment (.setCluster { Cluster.empty with failure := some "timeout" }), .advance 1,
      .environment (.setCluster Cluster.empty)], List.replicate 3 (.advance 1)]

/- a backup in the middle of a suspension, which is restored when the suspension is through -/
def restoredBusy : List (Action HistoryTask Change) :=
  List.flatten [aTenant, [suspension 1], List.replicate 3 (.advance 1), backup 2,
    List.replicate 4 (.advance 1), restore 3 (suspended .quiescing (some 0) .pending)]

/- nothing is at work, and the tenant is in this state -/
def Left (state : LifecycleState) (w : Histories) : Bool :=
  w.running.rows.isEmpty && w.db.db.tenants.rows.any (fun t => t.storageLifecycleState == state)

theorem left_breaks {state : LifecycleState} (left : Left state w = true) (notIdle : state ≠ .idle) :
    ¬ BusyOnlyInProgress w := by
  intro only
  rw [Left, Bool.and_eq_true, List.any_eq_true] at left
  obtain ⟨none, tenant, mem, same⟩ := left
  obtain ⟨_, _, p, memp, _⟩ := only tenant mem (eq_of_beq same ▸ notIdle)
  have empty : w.running.rows = [] := List.isEmpty_iff.mp none
  rw [mem_rows, empty] at memp
  contradiction

/-- A resize that failed, and a restored row: neither state is that of an operation at work. -/
theorem failed_and_restored_states_stay :
    (∃ w, exec (histories plainExternal).step (World.initial History.empty) growth = some w ∧
      ¬ BusyOnlyInProgress w) ∧
    ∃ w, exec (histories plainExternal).step (World.initial History.empty) restoredBusy = some w ∧
      ¬ BusyOnlyInProgress w := by
  have failedState : (exec (histories plainExternal).step (World.initial History.empty) growth).any
      (Left .failed) = true := by decide
  have busyState : (exec (histories plainExternal).step (World.initial History.empty) restoredBusy).any
      (Left .quiescing) = true := by decide
  obtain ⟨w, run, left⟩ := (any_eq_true _ _).mp failedState
  obtain ⟨w', run', left'⟩ := (any_eq_true _ _).mp busyState
  exact ⟨⟨w, run, left_breaks left (by decide)⟩, w', run', left_breaks left' (by decide)⟩

end HostingPlatform.BackupRestore.StorageState
