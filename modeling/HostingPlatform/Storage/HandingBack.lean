import HostingPlatform.Storage.Exclusive
import HostingPlatform.Storage.Work

/-! Every orchestrator hands its tenant back. It writes the tenant's row once it knows whose it is,
and leaves it idle or failed, unless its handler throws. -/
namespace HostingPlatform.Storage

open Table Interleaving

/- what runFsck reports, `clean`, decides how the operation ends -/
def runFsckOp (dryRun clean : Bool) : Orchestration where
  opType := .fsck
  state := .quiescing
  creates := none
  body := [.locateTenantVolume] ++ progress .quiescing ++ [.quiesce, .waitForQuiesced] ++
    progress .quiescing ++ [.attachLonghornVolume, .waitForVolumeAttached] ++
    progress .quiescing ++ [.currentTenantId, .runFsck (!dryRun), .detachLonghornVolume] ++
    progress .unquiescing ++ [.unquiesce, .ensureVolumeReattached,
      .updateOp (some (if clean then .idle else .failed)), .currentTenantId,
      .markTenant (if clean then .idle else .failed)]
  handler := [.updateOp (some .failed), .detachLonghornVolume, .unquiesceQuietly,
    .ensureVolumeReattached, .currentTenantId, .markTenant .failed]
  awaited := none

def LifecycleState.settled : LifecycleState → Bool
  | .idle | .failed => true
  | _ => false

/- a tenant is settled when it is handed back, and not before -/
def Step.settles : Step → Bool
  | .markTenant state => state.settled
  | .mirrorState state => !state.settled
  | _ => true

/- `known`: the orchestrator knows its tenant -/
def handsBack (known : Bool) : List Step → Bool
  | [] => false
  | .markTenant _ :: rest => known || handsBack known rest
  | .currentTenantId :: rest => handsBack true rest
  | _ :: rest => handsBack known rest

structure Orchestration.HandsBack (orchestration : Orchestration) (known : Bool) : Prop where
  state : orchestration.state.settled = false
  steps : orchestration.body.all Step.settles = true
  handler : orchestration.handler.all Step.settles = true
  returns : handsBack known orchestration.body = true
  caught : handsBack known orchestration.handler = true

theorem runRollbackToSnapshot_hands_back : runRollbackToSnapshot.HandsBack true :=
  ⟨rfl, rfl, rfl, rfl, rfl⟩

theorem runFsckOp_hands_back (dryRun clean : Bool) : (runFsckOp dryRun clean).HandsBack false := by
  cases clean <;> exact ⟨rfl, rfl, rfl, rfl, rfl⟩

/-- A row whose state says whether an operation holds it. -/
def Tenant.Consistent (tenant : Tenant) : Prop :=
  tenant.activeStorageOpId = none ↔ tenant.storageLifecycleState.settled = true

/- what is true of an orchestrator at work: once it is through, no row names its operation -/
structure Returns (db : Db) (o : Orchestrator) : Prop where
  op : ∃ op ∈ db.operations, op.id = o.opId ∧ op.tenantId = o.tenantId
  read : ∀ tenantId ∈ o.cId, tenantId = o.tenantId
  steps : o.steps.all Step.settles = true
  handler : o.handler.all Step.settles = true
  caught : handsBack o.cId.isSome o.handler = true
  held : ∀ tenant ∈ db.tenants, tenant.activeStorageOpId = some o.opId →
    tenant.id = o.tenantId ∧ handsBack o.cId.isSome o.steps = true

variable {known : Bool} {step : Step} {rest : List Step} {db db' : Db} {o : Orchestrator}
  {after tenant : Tenant} {task : Task} {ext : External} {outcome : Outcome Task Response}

theorem handsBack_known {steps : List Step} (returns : handsBack known steps = true) : handsBack true steps = true := by
  induction steps generalizing known with
  | nil => exact returns
  | cons step rest ih =>
    cases step with
    | markTenant state => rfl
    | currentTenantId => exact returns
    | _ => exact ih returns

theorem handsBack_quiet (quiet : step.quiet = true) (returns : handsBack known (step :: rest) = true) :
    handsBack known rest = true := by
  cases step with
  | markTenant | currentTenantId => contradiction
  | _ => exact returns

theorem Returns.mono (safe : Returns db o) (keeps : KeepsOperations db db')
    (held : ∀ after ∈ db'.tenants, after.activeStorageOpId = some o.opId →
      ∃ tenant ∈ db.tenants, tenant.id = after.id ∧ tenant.activeStorageOpId = some o.opId) : Returns db' o := by
  refine { safe with op := ?_, held := ?_ }
  · obtain ⟨op, mem, id, tenant⟩ := safe.op
    obtain ⟨op', mem', sameId, sameTenant⟩ := keeps.kept op mem
    exact ⟨op', mem', sameId.trans id, sameTenant.trans tenant⟩
  · intro after mem active
    obtain ⟨tenant, memTenant, sameId, own⟩ := held after mem active
    obtain ⟨id, returns⟩ := safe.held tenant memTenant own
    exact ⟨sameId ▸ id, returns⟩

theorem remember_opId {db : Db} {o : Orchestrator} {step : Step} :
    (step.remember db o).opId = o.opId ∧ (step.remember db o).tenantId = o.tenantId ∧
      (step.remember db o).handler = o.handler := by
  cases step <;> exact ⟨rfl, rfl, rfl⟩

theorem remember_read (safe : Returns db o) (step : Step) :
    (∀ tenantId ∈ (step.remember db o).cId, tenantId = o.tenantId) ∧
      ((step.remember db o).cId = o.cId ∨ (step.remember db o).cId.isSome = true) := by
  cases step with
  | currentTenantId =>
    obtain ⟨own, memOwn, idOwn, tenant⟩ := safe.op
    have found : db.operations.select (fun op => op.id == o.opId) = some own := by
      cases selected : db.operations.select (fun op => op.id == o.opId) with
      | none => simpa [idOwn] using select_none selected own memOwn
      | some op =>
        obtain ⟨mem, id⟩ := mem_of_select selected
        rw [db.operations.eq_of_key mem memOwn ((eq_of_beq id).trans idOwn.symm)]
    simp only [Step.remember, found]
    constructor
    · intro tenantId mem
      cases mem
      exact tenant
    · exact .inr rfl
  | _ => exact ⟨safe.read, .inl rfl⟩

theorem performed_held (safe : Returns db o) (next : o.steps = step :: rest)
    (mem : after ∈ (step.perform db o).tenants) (active : after.activeStorageOpId = some o.opId) :
    after.id = o.tenantId ∧ handsBack (step.remember db o).cId.isSome rest = true := by
  obtain ⟨g, rows, rewrites⟩ := perform_rewrites next
  have mapped : after ∈ db.tenants.rows.map g := by
    rw [← rows]
    exact mem
  obtain ⟨tenant, memTenant, rfl⟩ := List.mem_map.mp mapped
  obtain ⟨sameId, rewritten⟩ := rewrites tenant
  have own : tenant.activeStorageOpId = some o.opId := by
    cases rewritten with
    | kept _ sameActive => exact sameActive ▸ active
    | mirrored _ own _ => exact own
    | released _ _ none =>
      rw [none] at active
      contradiction
  obtain ⟨id, returns⟩ := safe.held tenant memTenant own
  rw [next] at returns
  refine ⟨sameId.trans id, ?_⟩
  cases step with
  | currentTenantId =>
    rcases (remember_read safe .currentTenantId).2 with same | read
    · rw [same]
      obtain ⟨op, memOp, idOp, _⟩ := safe.op
      cases known : o.cId with
      | some tenantId => exact returns
      | none =>
        -- the operation's row is there to be read
        rw [known] at same
        have missing := Option.map_eq_none_iff.mp same
        simpa [idOp] using select_none missing op memOp
    · rw [read]
      exact returns
  | markTenant state =>
    cases known : o.cId with
    | none =>
      exact known ▸ returns
    | some tenantId =>
      -- the row has been handed back
      have mine : tenantId = o.tenantId := safe.read tenantId (by rw [known]; rfl)
      have updated : (Step.perform db o (.markTenant state)).tenants =
          db.tenants.update (fun t => t.id == tenantId) (release state) (release_id state) := by
        simp [Step.perform, known, markTenantState]
      rw [updated] at mem
      rcases (mem_update (release_id state)).mp mem with ⟨_, other⟩ | ⟨_, _, _, released⟩
      · rw [sameId, id, mine] at other
        simp at other
      · rw [← released] at active
        contradiction
  | _ => exact returns

theorem settles_tail (settles : (step :: rest).all Step.settles = true) : rest.all Step.settles = true := by
  rw [List.all_cons, Bool.and_eq_true] at settles
  exact settles.2

theorem orchestrator_returns {o' : Orchestrator} (safe : Returns db o)
    (next : (o.advance db).2 = .next (.orchestrate o')) : Returns (o.advance db).1 o' ∧ o'.opId = o.opId := by
  unfold Orchestrator.advance at next ⊢
  split at next
  · contradiction
  rename_i step rest steps
  have settles : rest.all Step.settles = true := settles_tail (steps ▸ safe.steps)
  split at next
  · rw [goOn_next next]
    obtain ⟨opId, tenantId, handler⟩ := @remember_opId db o step
    obtain ⟨read, known⟩ := remember_read safe step
    refine ⟨⟨?_, ?_, settles, ?_, ?_, ?_⟩, opId⟩
    · obtain ⟨op, mem, id, tenant⟩ := safe.op
      obtain ⟨op', mem', sameId, sameTenant⟩ := (perform_keeps db o step).kept op mem
      exact ⟨op', mem', (sameId.trans id).trans opId.symm, (sameTenant.trans tenant).trans tenantId.symm⟩
    · exact fun t mem => (read t mem).trans tenantId.symm
    · rw [handler]
      exact safe.handler
    · rw [handler]
      rcases known with same | known
      · rw [same]
        exact safe.caught
      · rw [known]
        exact handsBack_known safe.caught
    · intro after mem active
      rw [opId] at active
      rw [tenantId]
      exact performed_held safe steps mem active
  · split at next
    · rename_i quiet
      rw [goOn_next next]
      refine ⟨{ safe with steps := settles, held := ?_ }, rfl⟩
      intro tenant mem active
      obtain ⟨id, returns⟩ := safe.held tenant mem active
      rw [steps] at returns
      exact ⟨id, handsBack_quiet quiet returns⟩
    · unfold Orchestrator.throw at next
      split at next
      · simp only [Outcome.next.injEq, Task.orchestrate.injEq] at next
        rw [← next]
        refine ⟨{ safe with steps := safe.handler, held := ?_ }, rfl⟩
        exact fun tenant mem active => ⟨(safe.held tenant mem active).1, safe.caught⟩
      · contradiction

theorem orchestrator_ends {response : Response} (safe : Returns db o) (ends : (o.advance db).2 = .answer response) :
    (∃ message, response = .threw message) ∨
      ∀ tenant ∈ (o.advance db).1.tenants, tenant.activeStorageOpId ≠ some o.opId := by
  have last : ∀ {o' : Orchestrator} {rest : List Step}, o'.goOn rest = .answer response → rest = [] := by
    intro o' rest ended
    cases rest with
    | nil => rfl
    | cons step rest => contradiction
  unfold Orchestrator.advance at ends ⊢
  split at ends
  · rename_i none
    refine .inr ?_
    intro tenant mem active
    have returns := (safe.held tenant mem active).2
    rw [none] at returns
    contradiction
  · rename_i step rest steps
    split at ends
    · refine .inr ?_
      intro tenant mem active
      have returns := (performed_held safe steps mem active).2
      rw [last ends] at returns
      contradiction
    split at ends
    · rename_i quiet
      refine .inr ?_
      intro tenant mem active
      have returns := (safe.held tenant mem active).2
      rw [steps] at returns
      have later := handsBack_quiet quiet returns
      rw [last ends] at later
      contradiction
    · unfold Orchestrator.throw at ends
      split at ends
      · contradiction
      · cases ends
        exact .inl ⟨_, rfl⟩

theorem claim_returns {db db' : Db} {orchestration : Orchestration} {tenantId : Nat}
    {o : Orchestrator} {cId : Option Nat} (spec : Claimed db orchestration tenantId o db')
    (hands : orchestration.HandsBack cId.isSome) (read : ∀ t ∈ cId, t = tenantId)
    (fresh : ∀ tenant ∈ db.tenants, tenant.activeStorageOpId ≠ some db.supply) : Returns db' { o with cId } := by
  have opRow := (mem_insertOperation spec.operations).mpr (.inl rfl)
  refine ⟨⟨_, opRow, spec.opId.symm, spec.tenant.symm⟩, ?_, ?_, ?_, ?_, ?_⟩
  · exact fun t mem => (read t mem).trans spec.tenant.symm
  · rw [spec.steps]
    exact hands.steps
  · rw [spec.handler]
    exact hands.handler
  · rw [spec.handler]
    exact hands.caught
  intro tenant mem active
  rw [spec.tenants] at mem
  rcases (mem_update (claimed_id _ _)).mp mem with ⟨old, _⟩ | ⟨old, _, own, rfl⟩
  · rw [spec.opId] at active
    exact absurd active (fresh tenant old)
  refine ⟨(eq_of_beq own).trans spec.tenant.symm, ?_⟩
  rw [spec.steps]
  exact hands.returns

/- what the requests leave to be done: no orchestrator yet, and claims that hand back -/
def Task.Plain : Task → Prop
  | .orchestrate _ => False
  | .claim orchestration _ _ _ => orchestration.HandsBack orchestration.awaited.isSome
  | _ => True

theorem after_idle_check_plain {request : Request} (next : afterIdleCheck tenant request = .next task) :
    task.Plain := by
  cases request with
  | snapshotTenant kind =>
    cases next
    trivial
  | resizeTenant newMib newGi => cases newMib <;> cases newGi <;> cases next <;> trivial
  | suspendTenant | resumeTenant | archiveTenant | restoreArchivedTenant =>
    simp only [afterIdleCheck] at next
    split at next
    · contradiction
    · cases next
      first | trivial | exact ⟨rfl, rfl, rfl, rfl, rfl⟩

theorem plain_next {task' : Task} (next : (advance ext db task).2 = .next task') :
    (∃ o o', task = .orchestrate o ∧ task' = .orchestrate o') ∨ (∃ orchestration tenantId snapId quiesceSnap o',
        task = .claim orchestration tenantId snapId quiesceSnap ∧ task' = .orchestrate o' ∧
        claim db orchestration tenantId snapId quiesceSnap = some (o', (advance ext db task).1)) ∨
      task'.Plain := by
  cases task with
  | orchestrate o =>
    obtain ⟨o', rfl⟩ := orchestrates_on next
    exact .inl ⟨o, o', rfl, rfl⟩
  | claim orchestration tenantId snapId quiesceSnap =>
    simp only [advance] at next ⊢
    obtain ⟨done, next⟩ := attempt_next next
    rw [done]
    split at next
    · rename_i o db' committed
      cases next
      exact .inr (.inl ⟨orchestration, tenantId, snapId, quiesceSnap, o, rfl, rfl, committed⟩)
    · contradiction
  | mustBeIdle request tenant =>
    obtain ⟨_, next⟩ := attempt_next next
    split at next
    · contradiction
    split at next
    · exact .inr (.inr (after_idle_check_plain next))
    · contradiction
  | cancelJobs =>
    cases next
    exact .inr (.inr trivial)
  | cancelOp tenantId state activeOpId deletedJobs =>
    cases activeOpId with
    | none =>
      cases next
      exact .inr (.inr trivial)
    | some opId =>
      obtain ⟨_, given⟩ := attempt_next next
      cases given
      exact .inr (.inr trivial)
  | cancelTenant =>
    obtain ⟨_, next⟩ := attempt_next next
    contradiction
  | lastSuspend | restorePlan =>
    obtain ⟨_, next⟩ := attempt_next next
    cases next
    exact .inr (.inr ⟨rfl, rfl, rfl, rfl, rfl⟩)
  | resizeNoop =>
    obtain ⟨_, next⟩ := attempt_next next
    split at next <;> contradiction
  | _ =>
    obtain ⟨_, next⟩ := attempt_next next
    repeat' split at next
    all_goals first
      | contradiction
      | (cases next
         exact .inr (.inr (by first | trivial | exact ⟨rfl, rfl, rfl, rfl, rfl⟩)))

/- where a tenant's row comes from, after a statement: it was there and keeps its operation, or it
was handed back, or the statement claimed it for an operation that goes on -/
inductive RowAfter (db : Db) (outcome : Outcome Task Response) (after : Tenant) : Prop where
  | kept (tenant : Tenant) (mem : tenant ∈ db.tenants) (id : tenant.id = after.id)
    (active : after.activeStorageOpId = tenant.activeStorageOpId)
    (consistent : tenant.Consistent → after.Consistent)
  | handedBack (active : after.activeStorageOpId = none)
    (state : after.storageLifecycleState.settled = true)
  | claimed (o : Orchestrator) (goesOn : outcome = .next (.orchestrate o)) (opId : o.opId = db.supply)
    (active : after.activeStorageOpId = some db.supply)
    (state : after.storageLifecycleState.settled = false)

theorem RowAfter.same (mem : tenant ∈ db.tenants) : RowAfter db outcome tenant :=
  .kept tenant mem rfl rfl (fun consistent => consistent)

/- what keeps a statement from leaving a row inconsistent -/
def Task.Settles : Task → Prop
  | .orchestrate o => o.steps.all Step.settles = true
  | .claim orchestration _ _ _ => orchestration.state.settled = false
  | _ => True

theorem rewritten_after (settles : task.Settles) (mem : tenant ∈ db.tenants) (id : tenant.id = after.id)
    (rewrites : Rewrites db db' task tenant after)
    (others : ∀ t state activeOpId deletedJobs, task ≠ .cancelTenant t state activeOpId deletedJobs)
    (claims : ∀ orchestration t snapId quiesceSnap, task ≠ .claim orchestration t snapId quiesceSnap) :
    RowAfter db outcome after := by
  cases rewrites with
  | kept state active =>
    refine .kept tenant mem id active ?_
    unfold Tenant.Consistent
    rw [state, active]
    exact fun consistent => consistent
  | mirrored next own active =>
    refine .kept tenant mem id active ?_
    intro _
    have unsettled : after.storageLifecycleState.settled = false := by
      simp only [Task.Settles, next, List.all_cons, Bool.and_eq_true] at settles
      simpa [Step.settles] using settles.1
    simp [Tenant.Consistent, active, own, unsettled]
  | released next read active =>
    refine .handedBack active ?_
    simp only [Task.Settles, next, List.all_cons, Bool.and_eq_true] at settles
    exact settles.1
  | claimed => exact absurd rfl (claims _ _ _ _)
  | reset => exact absurd rfl (others _ _ _ _)

theorem claim_after {orchestration : Orchestration} {tenantId : Nat} {o' : Orchestrator}
    (spec : Claimed db orchestration tenantId o db') (state : orchestration.state.settled = false)
    (own : o'.opId = o.opId) (mem : after ∈ db'.tenants) : RowAfter db (.next (.orchestrate o')) after := by
  rw [spec.tenants] at mem
  rcases (mem_update (claimed_id _ _)).mp mem with ⟨old, _⟩ | ⟨old, _, _, rfl⟩
  · exact RowAfter.same old
  · exact .claimed o' rfl (own.trans spec.opId) rfl state

theorem advance_after (settles : task.Settles) (mem : after ∈ (advance ext db task).1.tenants) :
    RowAfter db (advance ext db task).2 after := by
  have rewritten (others : ∀ t state activeOpId deletedJobs, task ≠ .cancelTenant t state activeOpId deletedJobs)
      (claims : ∀ orchestration t snapId quiesceSnap, task ≠ .claim orchestration t snapId quiesceSnap) :
      RowAfter db (advance ext db task).2 after := by
    obtain ⟨g, rows, rewrites⟩ := advance_rewrites ext db task
    have mapped : after ∈ db.tenants.rows.map g := by
      rw [← rows]
      exact mem
    obtain ⟨tenant, memTenant, rfl⟩ := List.mem_map.mp mapped
    obtain ⟨sameId, rewritten⟩ := rewrites tenant
    exact rewritten_after settles memTenant sameId.symm rewritten others claims
  cases task with
  | claim orchestration tenantId snapId quiesceSnap =>
    simp only [advance] at mem ⊢
    unfold attempt at mem ⊢
    split at mem
    · split at mem
      · rename_i o db' committed
        exact claim_after (claim_spec committed) settles rfl mem
      · exact RowAfter.same mem
    · exact RowAfter.same mem
  | cancelTenant tenantId state activeOpId deletedJobs =>
    simp only [advance] at mem ⊢
    unfold attempt at mem ⊢
    split at mem
    · rcases (mem_update (release_id .idle)).mp mem with ⟨old, _⟩ | ⟨_, _, _, rfl⟩
      · exact RowAfter.same old
      · exact .handedBack rfl rfl
    · exact RowAfter.same mem
  | _ => exact rewritten (by simp) (by simp)

end HostingPlatform.Storage
