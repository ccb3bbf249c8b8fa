import HostingPlatform.Storage.Orchestrator

/-! The requests of the storage lifecycle, statement by statement. The check that a tenant
is idle and the transaction that claims the tenant are two statements; the orchestrator
goes on in the place of its request, which a detached one has answered by then. -/
namespace HostingPlatform.Storage

open Option Table Interleaving

/- floating-point arithmetic and its rendering: `Math.ceil(usedBytes * 1.1)`, and bytes
written as GiB and as MiB -/
structure External where
  requiredBytes : Nat → Nat
  (gib mib : Nat → String)

inductive Request where
  | snapshotTenant (kind : SnapshotKind)
  | resizeTenant (newMib newGi : Option Nat)
  | suspendTenant
  | resumeTenant
  | archiveTenant
  | restoreArchivedTenant (newGi : Option Nat)

inductive Task where
  | mustGetTenant (request : Request) (tenantId : Nat)
  | mustBeIdle (request : Request) (tenant : Tenant)
  | enforceSnapshotQuota (kind : SnapshotKind) (tenant : Tenant)
  | resizeDryRun (newMib tenantId : Nat)
  | resizeNoop (tenantId : Nat)
  | resizeGrow (newMib tenantId : Nat)
  | lastSuspend (tenant : Tenant)
  | lastArchive (newGi : Option Nat) (tenant : Tenant)
  | restorePlan (tenant : Tenant) (snapId : Nat)
  | claim (orchestration : Orchestration) (tenantId : Nat) (snapId : Option Nat)
      (quiesceSnap : Option QuiesceSnapshot)
  | orchestrate (o : Orchestrator)
  | cancelStorageOperation (tenantId : Nat)
  | cancelJobs (tenantId : Nat) (state : LifecycleState) (activeOpId : Option Nat)
  | cancelOp (tenantId : Nat) (state : LifecycleState) (activeOpId : Option Nat) (deletedJobs : Nat)
  | cancelTenant (tenantId : Nat) (state : LifecycleState) (activeOpId : Option Nat)
      (deletedJobs : Nat)

/- `ended`: a detached orchestrator; its request was answered at its claim -/
inductive Response where
  | failed (error : ApiError)
  | threw (message : String)
  | operation (opId : Nat)
  | cancelled (previousState : LifecycleState) (deletedJobs : Nat) (cancelledOpId : Option Nat)
  | ended

def operationInProgress (tenant : Tenant) : ApiError :=
  ⟨"STORAGE_OP_IN_PROGRESS",
    s!"A {tenant.storageLifecycleState.text} operation is already in progress for this tenant", 409⟩

/- hundredths rounded to a whole number, halves up -/
def roundGi (hundredths : Nat) : Nat := (hundredths + 50) / 100

def getPlanStorageGi (db : Db) (planId : Nat) : Nat :=
  match db.plans.select (fun p => p.id == planId) with
  | some plan => roundGi (if plan.storageLimit = 0 then 1000 else plan.storageLimit)
  | none => 10

/- the size that the PVC requests; where it cannot be read, the override or the plan's -/
def currentMib (db : Db) (tenant : Tenant) : Nat :=
  match db.cluster.pvcMib tenant.id with
  | some mib => mib
  | none =>
    let override := roundGi (tenant.storageLimitOverride.getD 0)
    (if override = 0 then getPlanStorageGi db tenant.planId else override) * 1024

def willFit (ext : External) (db : Db) (tenantId newMib : Nat) : Bool :=
  decide (ext.requiredBytes (db.cluster.usedBytes tenantId) ≤ newMib * 1048576)

def rejectReason (ext : External) (usedBytes newMib : Nat) : String :=
  s!"Used {ext.mib usedBytes} MiB × 1.1 safety buffer = {ext.mib (ext.requiredBytes usedBytes)} MiB exceeds requested {newMib} MiB"

/- snapshots that count, and the bytes of those that are ready -/
def snapshotUsage (db : Db) (tenantId : Nat) : Nat × Nat :=
  ((db.snapshots.selectAll (fun s => s.tenantId == tenantId && s.status != .failed)).length,
    (db.snapshots.selectAll (fun s => s.tenantId == tenantId && s.status == .ready)).foldl
      (fun bytes s => bytes + s.sizeBytes) 0)

def quotaError (ext : External) (plan : Plan) (count bytes : Nat) : Option ApiError :=
  if plan.maxSnapshotCount ≤ count then
    some ⟨"STORAGE_QUOTA_EXCEEDED",
      s!"Tenant has {count} snapshots, plan cap is {plan.maxSnapshotCount}. Delete an existing snapshot before creating another.",
      409⟩
  else if plan.maxSnapshotSizeBytes ≤ bytes then
    some ⟨"STORAGE_QUOTA_EXCEEDED",
      s!"Tenant snapshots consume {ext.gib bytes} GiB, plan cap is {ext.gib plan.maxSnapshotSizeBytes} GiB. Delete older snapshots or upgrade the plan.",
      409⟩
  else none

/- the operation's row refers to a tenant's -/
def insertOperation (db : Db) (op : Operation) : Option (Table Operation Operation.id) :=
  if (findTenant db op.tenantId).isSome then db.operations.insert op else none

def claimed (state : LifecycleState) (opId : Nat) (tenant : Tenant) : Tenant :=
  { tenant with storageLifecycleState := state, activeStorageOpId := some opId }

theorem claimed_id (state : LifecycleState) (opId : Nat) (tenant : Tenant) :
    (claimed state opId tenant).id = tenant.id := rfl

/-- The claim of a tenant, one transaction: the operation's row, the row of the snapshot it
creates, and the tenant's state and active operation. -/
def claim (db : Db) (orchestration : Orchestration) (tenantId : Nat) (snapId : Option Nat)
    (quiesceSnap : Option QuiesceSnapshot) : Option (Orchestrator × Db) :=
  let opId := db.supply
  let created := orchestration.creates.map
    (fun kind => (⟨db.supply + 1, tenantId, kind, .creating, 0⟩ : Snapshot))
  (created.elim (some db.snapshots) db.snapshots.insert).bind (fun snapshots =>
    (insertOperation db ⟨opId, tenantId, orchestration.opType, orchestration.state, none⟩).map
      (fun operations =>
        ({ opId, tenantId, quiesceSnap
           snapId := (created.map (·.id)).or snapId
           cId := if orchestration.awaited.isSome then some tenantId else none
           caught := none
           awaited := orchestration.awaited
           steps := orchestration.body
           handler := orchestration.handler },
          { db with
            operations, snapshots
            tenants := db.tenants.update (fun t => t.id == tenantId)
              (claimed orchestration.state opId) (claimed_id orchestration.state opId)
            supply := db.supply + 2 })))

def Orchestrator.response (o : Orchestrator) : Response :=
  match o.awaited, o.caught with
  | none, _ => .ended
  | some _, none => .operation o.opId
  | some code, some message =>
    .failed ⟨code, if code = "SNAPSHOT_FAILED" then s!"Snapshot failed: {message}" else message, 502⟩

def Orchestrator.goOn (o : Orchestrator) : List Step → Outcome Task Response
  | [] => .answer o.response
  | rest => .next (.orchestrate { o with steps := rest })

def Orchestrator.throw (o : Orchestrator) (message : String) : Outcome Task Response :=
  match o.caught with
  | none => .next (.orchestrate { o with caught := some message, steps := o.handler })
  | some _ => .answer (.threw message)

def Orchestrator.advance (db : Db) (o : Orchestrator) : Db × Outcome Task Response :=
  match o.steps with
  | [] => (db, .answer o.response)
  | step :: rest =>
    match db.cluster.failure with
    | none => (step.perform db o, (step.remember db o).goOn rest)
    | some message => (db, if step.quiet then o.goOn rest else o.throw message)

/- after `mustBeIdle` -/
def afterIdleCheck (tenant : Tenant) : Request → Outcome Task Response
  | .snapshotTenant kind => .next (.enforceSnapshotQuota kind tenant)
  | .resizeTenant none none =>
    .answer (.failed ⟨"VALIDATION_ERROR", "One of newMib or newGi is required", 400⟩)
  | .resizeTenant (some newMib) _ => .next (.resizeDryRun newMib tenant.id)
  | .resizeTenant none (some newGi) => .next (.resizeDryRun (newGi * 1024) tenant.id)
  | .suspendTenant =>
    if tenant.status = .suspended then
      .answer (.failed ⟨"ALREADY_SUSPENDED", "Client is already suspended", 409⟩)
    else .next (.claim suspendTenant tenant.id none none)
  | .resumeTenant =>
    if tenant.status ≠ .suspended then
      .answer (.failed ⟨"NOT_SUSPENDED", "Client is not suspended", 409⟩)
    else .next (.lastSuspend tenant)
  | .archiveTenant =>
    if tenant.status = .archived then
      .answer (.failed ⟨"ALREADY_ARCHIVED", "Client is already archived", 409⟩)
    else .next (.claim runArchive tenant.id none none)
  | .restoreArchivedTenant newGi =>
    if tenant.status ≠ .archived then
      .answer (.failed ⟨"NOT_ARCHIVED", "Client is not in archived state", 409⟩)
    else .next (.lastArchive newGi tenant)

/- a statement whose exception nothing catches -/
def attempt (db : Db) (done : Db × Outcome Task Response) : Db × Outcome Task Response :=
  match db.cluster.failure with
  | none => done
  | some message => (db, .answer (.threw message))

def advance (ext : External) (db : Db) : Task → Db × Outcome Task Response
  | .mustGetTenant request tenantId =>
    attempt db (db,
      match findTenant db tenantId with
      | none => .answer (.failed (tenantNotFound tenantId))
      | some tenant => .next (.mustBeIdle request tenant))
  | .mustBeIdle request tenant =>
    attempt db (db,
      match findTenant db tenant.id with
      | none => .answer (.failed (tenantNotFound tenant.id))
      | some row =>
        if row.storageLifecycleState = .idle then afterIdleCheck tenant request
        else .answer (.failed (operationInProgress row)))
  | .enforceSnapshotQuota kind tenant =>
    let usage := snapshotUsage db tenant.id
    attempt db (db,
      match (db.plans.select (fun p => p.id == tenant.planId)).bind
        (fun plan => quotaError ext plan usage.1 usage.2) with
      | some error => .answer (.failed error)
      | none => .next (.claim (snapshotTenant kind) tenant.id none none))
  | .resizeDryRun newMib tenantId =>
    attempt db (db,
      match findTenant db tenantId with
      | none => .answer (.failed (tenantNotFound tenantId))
      | some tenant =>
        if newMib = currentMib db tenant then .next (.resizeNoop tenantId)
        else if currentMib db tenant < newMib then .next (.resizeGrow newMib tenantId)
        else if willFit ext db tenantId newMib then
          .next (.claim (runResizeDestructive newMib) tenantId none none)
        else
          .answer (.failed
            ⟨"RESIZE_UNSAFE", rejectReason ext (db.cluster.usedBytes tenantId) newMib, 400⟩))
  | .resizeNoop tenantId =>
    attempt db (
      match insertOperation db ⟨db.supply, tenantId, .resize, .idle, none⟩ with
      | some operations =>
        ({ db with operations, supply := db.supply + 1 }, .answer (.operation db.supply))
      | none => (db, .answer (.threw "constraint violated")))
  | .resizeGrow newMib tenantId =>
    attempt db (db,
      match findTenant db tenantId with
      | none => .answer (.failed (tenantNotFound tenantId))
      | some _ => .next (.claim (runGrowOnline newMib) tenantId none none))
  -- ORDER BY created_at DESC: the newest row stands first
  | .lastSuspend tenant =>
    let suspendOp := db.operations.select
      (fun op => op.tenantId == tenant.id && op.opType == .suspend)
    attempt db (db,
      .next (.claim resumeTenant tenant.id none (suspendOp.bind (·.quiesceSnapshot))))
  | .lastArchive newGi tenant =>
    attempt db (db,
      match db.snapshots.select
        (fun s => s.tenantId == tenant.id && s.kind == .preArchive && s.status == .ready), newGi with
      | none, _ =>
        .answer (.failed ⟨"NO_ARCHIVE_SNAPSHOT",
          "No ready pre-archive snapshot found — the archive window may have expired", 404⟩)
      | some snap, some gi => .next (.claim (runRestoreArchive gi) tenant.id (some snap.id) none)
      | some snap, none => .next (.restorePlan tenant snap.id))
  | .restorePlan tenant snapId =>
    attempt db (db,
      .next (.claim (runRestoreArchive (getPlanStorageGi db tenant.planId)) tenant.id
        (some snapId) none))
  | .claim orchestration tenantId snapId quiesceSnap =>
    attempt db (
      match claim db orchestration tenantId snapId quiesceSnap with
      | some (o, db') => (db', .next (.orchestrate o))
      | none => (db, .answer (.threw "constraint violated")))
  | .orchestrate o => o.advance db
  | .cancelStorageOperation tenantId =>
    attempt db (db,
      match findTenant db tenantId with
      | none => .answer (.failed (tenantNotFound tenantId))
      | some tenant =>
        if tenant.storageLifecycleState = .idle then .answer (.cancelled .idle 0 none)
        else .next (.cancelJobs tenantId tenant.storageLifecycleState tenant.activeStorageOpId))
  -- failures to list or to delete the Jobs are tolerated
  | .cancelJobs tenantId state activeOpId =>
    (db, .next (.cancelOp tenantId state activeOpId
      (if db.cluster.failure.isSome then 0 else db.cluster.jobs tenantId)))
  | .cancelOp tenantId state activeOpId deletedJobs =>
    let next := .next (.cancelTenant tenantId state activeOpId deletedJobs)
    match activeOpId with
    | none => (db, next)
    | some opId =>
      attempt db (
        { db with
          operations := db.operations.update (fun op => op.id == opId) (setOpState .failed)
            (setOpState_id .failed) }, next)
  | .cancelTenant tenantId state activeOpId deletedJobs =>
    attempt db (markTenantState db tenantId .idle,
      .answer (.cancelled state deletedJobs activeOpId))

def Task.isRequest : Task → Bool
  | .mustGetTenant .. | .cancelStorageOperation .. => true
  | _ => false

/-- What else happens: tenants and plans are added, a tenant's status and plan are edited, and
the cluster is as it is. -/
inductive Change where
  | provision (tenantId planId : Nat)
  | putPlan (plan : Plan)
  | editTenant (tenantId : Nat) (status : TenantStatus) (planId : Nat)
  | setCluster (cluster : Cluster)

def edited (status : TenantStatus) (planId : Nat) (tenant : Tenant) : Tenant :=
  { tenant with status, planId }

theorem edited_id (status : TenantStatus) (planId : Nat) (tenant : Tenant) :
    (edited status planId tenant).id = tenant.id := rfl

def Change.apply (db : Db) : Change → Db
  | .provision tenantId planId =>
    { db with
      tenants := (db.tenants.insert ⟨tenantId, .pending, planId, none, .idle, none⟩).getD db.tenants }
  | .putPlan plan => { db with plans := db.plans.put plan }
  | .editTenant tenantId status planId =>
    { db with
      tenants := db.tenants.update (fun t => t.id == tenantId) (edited status planId)
        (edited_id status planId) }
  | .setCluster cluster => { db with cluster }

def lifecycle (ext : External) : System Db Task Response Change where
  request := fun _ task => task.isRequest
  advance := advance ext
  environment := Change.apply

/- what the claiming transaction has done when it commits -/
structure Claimed (db : Db) (orchestration : Orchestration) (tenantId : Nat) (o : Orchestrator)
    (db' : Db) : Prop where
  opId : o.opId = db.supply
  tenant : o.tenantId = tenantId
  steps : o.steps = orchestration.body
  handler : o.handler = orchestration.handler
  caught : o.caught = none
  cId : ∀ read ∈ o.cId, read = tenantId
  exists_tenant : ∃ row ∈ db.tenants, row.id = tenantId
  tenants : db'.tenants = db.tenants.update (fun t => t.id == tenantId)
    (claimed orchestration.state db.supply) (claimed_id orchestration.state db.supply)
  operations : insertOperation db
    ⟨db.supply, tenantId, orchestration.opType, orchestration.state, none⟩ = some db'.operations
  supply : db'.supply = db.supply + 2

variable {db db' : Db} {o : Orchestrator} {task : Task}

theorem claim_spec {orchestration : Orchestration} {tenantId : Nat} {snapId : Option Nat}
    {quiesceSnap : Option QuiesceSnapshot} (done : claim db orchestration tenantId snapId quiesceSnap = some (o, db')) :
    Claimed db orchestration tenantId o db' := by
  simp only [claim, bind_eq_some_iff, map_eq_some_iff] at done
  obtain ⟨snapshots, _, operations, inserted, rfl, rfl⟩ := done
  have row : ∃ row ∈ db.tenants, row.id = tenantId := by
    unfold insertOperation at inserted
    split at inserted
    · rename_i found
      obtain ⟨row, found⟩ := isSome_iff_exists.mp found
      exact ⟨row, findTenant_id found⟩
    · contradiction
  have read : ∀ read ∈ (if orchestration.awaited.isSome then some tenantId else none), read = tenantId := by
    intro read mem
    split at mem
    · exact (some.inj mem).symm
    · contradiction
  exact ⟨rfl, rfl, rfl, rfl, rfl, read, row, rfl, inserted, rfl⟩

/- what becomes of the state and the active operation in a tenant's row -/
inductive Rewrites (db db' : Db) : Task → Tenant → Tenant → Prop where
  | kept {task : Task} {tenant after : Tenant}
    (state : after.storageLifecycleState = tenant.storageLifecycleState)
    (active : after.activeStorageOpId = tenant.activeStorageOpId) : Rewrites db db' task tenant after
  | mirrored {o : Orchestrator} {rest : List Step} {tenant after : Tenant}
    (next : o.steps = .mirrorState after.storageLifecycleState :: rest)
    (own : tenant.activeStorageOpId = some o.opId)
    (active : after.activeStorageOpId = tenant.activeStorageOpId) :
    Rewrites db db' (.orchestrate o) tenant after
  | released {o : Orchestrator} {rest : List Step} {tenant after : Tenant}
    (next : o.steps = .markTenant after.storageLifecycleState :: rest)
    (read : o.cId = some tenant.id) (active : after.activeStorageOpId = none) :
    Rewrites db db' (.orchestrate o) tenant after
  | claimed {orchestration : Orchestration} {snapId : Option Nat}
    {quiesceSnap : Option QuiesceSnapshot} {o : Orchestrator} {tenant after : Tenant}
    (committed : Claimed db orchestration tenant.id o db')
    (state : after.storageLifecycleState = orchestration.state)
    (active : after.activeStorageOpId = some db.supply) :
    Rewrites db db' (.claim orchestration tenant.id snapId quiesceSnap) tenant after
  | reset {state : LifecycleState} {activeOpId : Option Nat} {deletedJobs : Nat}
    {tenant after : Tenant} (active : after.activeStorageOpId = none) :
    Rewrites db db' (.cancelTenant tenant.id state activeOpId deletedJobs) tenant after

def RewritesRows (db : Db) (task : Task) (db' : Db) : Prop :=
  ∃ g : Tenant → Tenant, db'.tenants.rows = db.tenants.rows.map g ∧
    ∀ tenant, (g tenant).id = tenant.id ∧ Rewrites db db' task tenant (g tenant)

theorem rewrites_same (same : db'.tenants = db.tenants) : RewritesRows db task db' := by
  refine ⟨id, ?_, ?_⟩
  · rw [same, List.map_id]
  · exact fun tenant => ⟨rfl, .kept rfl rfl⟩

theorem rewrites_update {p : Tenant → Bool} {f : Tenant → Tenant} (keeps : ∀ t, (f t).id = t.id)
    (updated : db'.tenants = db.tenants.update p f keeps)
    (rewrites : ∀ tenant, p tenant = true → Rewrites db db' task tenant (f tenant)) : RewritesRows db task db' := by
  refine ⟨apply p f, ?_, ?_⟩
  · rw [updated]
    rfl
  intro tenant
  refine ⟨apply_column _ p f keeps tenant, ?_⟩
  unfold apply
  split
  · rename_i selected
    exact rewrites tenant selected
  · exact .kept rfl rfl

theorem attempt_same {outcome : Outcome Task Response} : (attempt db (db, outcome)).1 = db := by
  unfold attempt
  split <;> rfl

theorem perform_rewrites {step : Step} {rest : List Step} (next : o.steps = step :: rest) :
    RewritesRows db (.orchestrate o) (step.perform db o) := by
  cases step with
  | mirrorState state =>
    refine rewrites_update (setState_id state) rfl ?_
    intro tenant own
    exact .mirrored next (eq_of_beq own) rfl
  | saveOverride mib =>
    exact rewrites_update (setOverride_id mib) rfl (fun tenant _ => .kept rfl rfl)
  | cascade status =>
    exact rewrites_update (setStatus_id status) rfl (fun tenant _ => .kept rfl rfl)
  | markTenant state =>
    cases read : o.cId with
    | none =>
      refine rewrites_same ?_
      simp [Step.perform, read]
    | some tenantId =>
      have updated : (Step.perform db o (.markTenant state)).tenants =
          db.tenants.update (fun t => t.id == tenantId) (release state) (release_id state) := by
        simp [Step.perform, read, markTenantState]
      refine rewrites_update (release_id state) updated ?_
      intro tenant same
      exact .released next (by rw [read, eq_of_beq same]) rfl
  | updateOp state => cases state <;> exact rewrites_same rfl
  | _ => exact rewrites_same rfl

theorem advance_rewrites (ext : External) (db : Db) (task : Task) : RewritesRows db task (advance ext db task).1 := by
  cases task with
  | claim orchestration tenantId snapId quiesceSnap =>
    simp only [advance]
    unfold attempt
    repeat' split
    · rename_i o db' committed
      have spec := claim_spec committed
      refine rewrites_update (claimed_id orchestration.state db.supply) spec.tenants ?_
      intro tenant same
      rw [← eq_of_beq same] at spec ⊢
      exact .claimed spec rfl rfl
    · exact rewrites_same rfl
    · exact rewrites_same rfl
  | orchestrate o =>
    simp only [advance, Orchestrator.advance]
    split
    · exact rewrites_same rfl
    rename_i step rest next
    split
    · exact perform_rewrites next
    · exact rewrites_same rfl
  | cancelTenant tenantId state activeOpId deletedJobs =>
    simp only [advance]
    unfold attempt
    split
    · refine rewrites_update (release_id .idle) rfl ?_
      intro tenant same
      rw [← eq_of_beq same]
      exact .reset rfl
    · exact rewrites_same rfl
  | cancelOp tenantId state activeOpId deletedJobs =>
    cases activeOpId with
    | none => exact rewrites_same rfl
    | some opId =>
      simp only [advance]
      unfold attempt
      split <;> exact rewrites_same rfl
  | cancelJobs => exact rewrites_same rfl
  | resizeNoop tenantId =>
    simp only [advance]
    unfold attempt
    repeat' split
    all_goals exact rewrites_same rfl
  | _ =>
    simp only [advance, attempt_same]
    exact rewrites_same rfl

/- operations are never deleted, and keep their tenant; a new one takes the next id -/
structure KeepsOperations (db db' : Db) : Prop where
  kept : ∀ op ∈ db.operations, ∃ op' ∈ db'.operations, op'.id = op.id ∧ op'.tenantId = op.tenantId
  origin : ∀ op' ∈ db'.operations, op'.id = db.supply ∧ db.supply < db'.supply ∨
    ∃ op ∈ db.operations, op.id = op'.id ∧ op.tenantId = op'.tenantId
  supply : db.supply ≤ db'.supply

theorem keeps_same (operations : db'.operations = db.operations) (supply : db'.supply = db.supply) :
    KeepsOperations db db' := by
  refine ⟨?_, ?_, ?_⟩
  · rw [operations]
    exact fun op mem => ⟨op, mem, rfl, rfl⟩
  · rw [operations]
    exact fun op mem => .inr ⟨op, mem, rfl, rfl⟩
  · exact Nat.le_of_eq supply.symm

theorem keeps_update {p : Operation → Bool} {f : Operation → Operation} (keeps : ∀ op, (f op).id = op.id)
    (operations : db'.operations = db.operations.update p f keeps)
    (tenant : ∀ op, (f op).tenantId = op.tenantId) (supply : db'.supply = db.supply) : KeepsOperations db db' := by
  refine ⟨?_, ?_, ?_⟩
  · intro op mem
    rw [operations]
    exact ⟨apply p f op, apply_mem_update keeps mem, apply_column _ p f keeps op,
      apply_column _ p f tenant op⟩
  · intro op' mem
    rw [operations] at mem
    rcases (mem_update keeps).mp mem with ⟨old, _⟩ | ⟨old, memOld, _, rfl⟩
    · exact .inr ⟨op', old, rfl, rfl⟩
    · exact .inr ⟨old, memOld, (keeps old).symm, (tenant old).symm⟩
  · exact Nat.le_of_eq supply.symm

theorem mem_insertOperation {op r : Operation} {operations : Table Operation Operation.id}
    (inserted : insertOperation db op = some operations) : r ∈ operations ↔ r = op ∨ r ∈ db.operations := by
  unfold insertOperation at inserted
  split at inserted
  · exact mem_insert inserted
  · contradiction

theorem keeps_insert {op : Operation} (id : op.id = db.supply)
    (inserted : insertOperation db op = some db'.operations) (supply : db.supply < db'.supply) :
    KeepsOperations db db' := by
  refine ⟨?_, ?_, Nat.le_of_lt supply⟩
  · intro old mem
    exact ⟨old, (mem_insertOperation inserted).mpr (.inr mem), rfl, rfl⟩
  intro op' mem
  rcases (mem_insertOperation inserted).mp mem with rfl | old
  · exact .inl ⟨id, supply⟩
  · exact .inr ⟨op', old, rfl, rfl⟩

theorem perform_keeps (db : Db) (o : Orchestrator) (step : Step) : KeepsOperations db (step.perform db o) := by
  cases step with
  | updateOp state =>
    cases state with
    | none => exact keeps_same rfl rfl
    | some state => exact keeps_update (setOpState_id state) rfl (fun _ => rfl) rfl
  | saveQuiesceSnapshot =>
    exact keeps_update (setQuiesceSnapshot_id o.quiesceSnap) rfl (fun _ => rfl) rfl
  | markTenant state =>
    cases read : o.cId <;> exact keeps_same (by simp [Step.perform, read, markTenantState])
      (by simp [Step.perform, read, markTenantState])
  | _ => exact keeps_same rfl rfl

theorem advance_keeps (ext : External) (db : Db) (task : Task) : KeepsOperations db (advance ext db task).1 := by
  cases task with
  | claim orchestration tenantId snapId quiesceSnap =>
    simp only [advance]
    unfold attempt
    repeat' split
    · rename_i o db' committed
      have spec := claim_spec committed
      exact keeps_insert rfl spec.operations (by rw [spec.supply]; omega)
    · exact keeps_same rfl rfl
    · exact keeps_same rfl rfl
  | resizeNoop tenantId =>
    simp only [advance]
    unfold attempt
    repeat' split
    · rename_i operations inserted
      exact keeps_insert rfl inserted (Nat.lt_succ_self db.supply)
    · exact keeps_same rfl rfl
    · exact keeps_same rfl rfl
  | orchestrate o =>
    simp only [advance, Orchestrator.advance]
    split
    · exact keeps_same rfl rfl
    rename_i step rest _
    split
    · exact perform_keeps db o step
    · exact keeps_same rfl rfl
  | cancelOp tenantId state activeOpId deletedJobs =>
    cases activeOpId with
    | none => exact keeps_same rfl rfl
    | some opId =>
      simp only [advance]
      unfold attempt
      split
      · exact keeps_update (setOpState_id .failed) rfl (fun _ => rfl) rfl
      · exact keeps_same rfl rfl
  | cancelTenant tenantId state activeOpId deletedJobs =>
    simp only [advance]
    unfold attempt
    split <;> exact keeps_same rfl rfl
  | cancelJobs => exact keeps_same rfl rfl
  | _ =>
    simp only [advance, attempt_same]
    exact keeps_same rfl rfl

end HostingPlatform.Storage
