import HostingPlatform.Shared
import HostingPlatform.Interleaving

/-! The tables of the storage lifecycle, and what it learns from the cluster. A tenant has
a namespace of its own, which stands for the tenant here. Ids are drawn from one supply
that never repeats a value. -/
namespace HostingPlatform.Storage

open Table

inductive LifecycleState where
  | idle | snapshotting | quiescing | resizing | replacing | restoring | unquiescing | archiving
  | failed
  deriving DecidableEq

def LifecycleState.text : LifecycleState → String
  | .idle => "idle"
  | .snapshotting => "snapshotting"
  | .quiescing => "quiescing"
  | .resizing => "resizing"
  | .replacing => "replacing"
  | .restoring => "restoring"
  | .unquiescing => "unquiescing"
  | .archiving => "archiving"
  | .failed => "failed"

inductive OpType where
  | snapshot | resize | suspend | resume | archive | restore | fsck
  deriving DecidableEq

inductive SnapshotKind where
  | manual | preResize | preArchive | scheduled | preRestore
  deriving DecidableEq

inductive SnapshotStatus where
  | creating | ready | failed
  deriving DecidableEq

/- `storage_limit_override` is a numeric(10,2) of GiB, in hundredths here -/
structure Tenant where
  id : Nat
  status : TenantStatus
  planId : Nat
  storageLimitOverride : Option Nat
  storageLifecycleState : LifecycleState
  activeStorageOpId : Option Nat
  deriving DecidableEq

/- `storage_limit` in hundredths of a GiB -/
structure Plan where
  (id storageLimit maxSnapshotSizeBytes maxSnapshotCount : Nat)

/- what the workloads of a namespace were before they were scaled to zero -/
structure QuiesceSnapshot where
  deployments : List (String × Nat)
  cronJobs : List (String × Bool)

structure Operation where
  (id tenantId : Nat)
  opType : OpType
  state : LifecycleState
  quiesceSnapshot : Option QuiesceSnapshot

structure Snapshot where
  (id tenantId : Nat)
  kind : SnapshotKind
  status : SnapshotStatus
  sizeBytes : Nat

/-- What calls to the cluster return, for each namespace; `failure` is what the next call to
the cluster or to the database throws. -/
structure Cluster where
  pvcMib : Nat → Option Nat
  (usedBytes archiveBytes : Nat → Nat)
  workloads : Nat → QuiesceSnapshot
  jobs : Nat → Nat
  failure : Option String

structure Db where
  tenants : Table Tenant Tenant.id
  plans : Table Plan Plan.id
  operations : Table Operation Operation.id
  snapshots : Table Snapshot Snapshot.id
  cluster : Cluster
  supply : Nat

def Cluster.empty : Cluster where
  pvcMib := fun _ => none
  usedBytes := fun _ => 0
  archiveBytes := fun _ => 0
  workloads := fun _ => ⟨[], []⟩
  jobs := fun _ => 0
  failure := none

def Db.empty : Db := ⟨Table.empty, Table.empty, Table.empty, Table.empty, Cluster.empty, 0⟩

def findTenant (db : Db) (id : Nat) : Option Tenant := db.tenants.select (fun t => t.id == id)

theorem findTenant_id {db : Db} {id : Nat} {tenant : Tenant}
    (found : findTenant db id = some tenant) : tenant ∈ db.tenants ∧ tenant.id = id := by
  obtain ⟨mem, same⟩ := mem_of_select found
  exact ⟨mem, eq_of_beq same⟩

def tenantNotFound (id : Nat) : ApiError := ⟨"CLIENT_NOT_FOUND", s!"Client {id} not found", 404⟩

/-! The orchestrators, as the list of the statements in their `try` block and the list in their `catch` block.
-/

inductive Step where
  | updateOp (state : Option LifecycleState)
  | saveQuiesceSnapshot
  | mirrorState (state : LifecycleState)
  | snapshotStatus (status : SnapshotStatus)
  | currentTenantId
  | saveOverride (mib : Nat)
  | markTenant (state : LifecycleState)
  | readSnapshot
  | quiesce
  | waitForQuiesced
  | unquiesce
  | unquiesceQuietly
  | snapshotTenantPVC
  | restoreTenantPVC
  | patchPVC (mib : Nat)
  | waitForPvcCapacity
  | deletePVC
  | waitForPvcGone
  | applyPVC (mib : Nat)
  | deleteWorkloads
  | cascade (status : TenantStatus)
  | locateTenantVolume
  | attachLonghornVolume
  | waitForVolumeAttached
  | runFsck (repair : Bool)
  | detachLonghornVolume
  | ensureVolumeReattached
  deriving DecidableEq

/- `.catch(() => {})`, and the dispatcher of the cascades, which swallows its errors -/
def Step.quiet : Step → Bool
  | .unquiesceQuietly | .detachLonghornVolume | .ensureVolumeReattached => true
  | .cascade _ => true
  | _ => false

/- a request whose orchestrator is awaited answers its failure with this code -/
structure Orchestration where
  opType : OpType
  state : LifecycleState
  creates : Option SnapshotKind
  (body handler : List Step)
  awaited : Option String

/- the state of the operation, and of the tenant whose operation it still is -/
def progress (state : LifecycleState) : List Step := [.updateOp (some state), .mirrorState state]

def snapshotTenant (kind : SnapshotKind) : Orchestration where
  opType := .snapshot
  state := .snapshotting
  creates := some kind
  body := [.quiesce, .waitForQuiesced, .updateOp none, .snapshotTenantPVC, .snapshotStatus .ready,
    .updateOp (some .idle), .unquiesce, .updateOp (some .idle), .markTenant .idle,
    .readSnapshot]
  handler := [.snapshotStatus .failed, .updateOp (some .failed), .unquiesceQuietly,
    .markTenant .idle]
  awaited := some "SNAPSHOT_FAILED"

def runGrowOnline (newMib : Nat) : Orchestration where
  opType := .resize
  state := .resizing
  creates := none
  body := progress .resizing ++ [.patchPVC newMib] ++ progress .resizing ++
    [.waitForPvcCapacity, .currentTenantId, .saveOverride newMib, .updateOp (some .idle),
      .currentTenantId, .markTenant .idle]
  handler := [.updateOp (some .failed), .currentTenantId, .markTenant .failed]
  awaited := none

def runResizeDestructive (newMib : Nat) : Orchestration where
  opType := .resize
  state := .snapshotting
  creates := some .preResize
  body := progress .quiescing ++ [.quiesce, .waitForQuiesced] ++
    progress .snapshotting ++ [.currentTenantId, .snapshotTenantPVC, .snapshotStatus .ready] ++
    progress .replacing ++ [.deletePVC, .waitForPvcGone, .applyPVC newMib] ++
    progress .restoring ++ [.currentTenantId, .restoreTenantPVC] ++
    progress .unquiescing ++ [.unquiesce, .currentTenantId, .saveOverride newMib,
      .updateOp (some .idle), .currentTenantId, .markTenant .idle]
  handler := [.updateOp (some .failed), .unquiesceQuietly, .currentTenantId,
    .markTenant .failed]
  awaited := none

def suspendTenant : Orchestration where
  opType := .suspend
  state := .quiescing
  creates := none
  body := [.quiesce, .cascade .suspended, .saveQuiesceSnapshot, .markTenant .idle]
  handler := [.updateOp (some .failed), .markTenant .idle]
  awaited := some "SUSPEND_FAILED"

def resumeTenant : Orchestration where
  opType := .resume
  state := .unquiescing
  creates := none
  body := [.unquiesce, .cascade .active, .updateOp (some .idle), .markTenant .idle]
  handler := [.updateOp (some .failed), .markTenant .idle]
  awaited := some "RESUME_FAILED"

/- its `progress` leaves the tenant's row alone -/
def runArchive : Orchestration where
  opType := .archive
  state := .quiescing
  creates := some .preArchive
  body := [.updateOp (some .quiescing), .quiesce, .waitForQuiesced, .updateOp (some .snapshotting),
    .currentTenantId, .snapshotTenantPVC, .snapshotStatus .ready, .updateOp (some .replacing),
    .deleteWorkloads, .deletePVC, .updateOp (some .archiving), .cascade .archived,
    .updateOp (some .idle), .markTenant .idle]
  handler := [.updateOp (some .failed), .snapshotStatus .failed, .unquiesceQuietly,
    .currentTenantId, .markTenant .failed]
  awaited := none

def runRestoreArchive (newGi : Nat) : Orchestration where
  opType := .restore
  state := .replacing
  creates := none
  body := [.applyPVC (newGi * 1024), .updateOp (some .restoring), .currentTenantId,
    .restoreTenantPVC, .updateOp (some .idle), .cascade .active, .markTenant .idle]
  handler := [.updateOp (some .failed), .currentTenantId, .markTenant .failed]
  awaited := none

/-- A running orchestrator: the statements before it, and its local variables. -/
structure Orchestrator where
  opId : Nat
  snapId : Option Nat
  tenantId : Nat
  cId : Option Nat
  quiesceSnap : Option QuiesceSnapshot
  (caught awaited : Option String)
  (steps handler : List Step)

def setOpState (state : LifecycleState) (op : Operation) : Operation := { op with state }

theorem setOpState_id (state : LifecycleState) (op : Operation) : (setOpState state op).id = op.id :=
  rfl

def setQuiesceSnapshot (snap : Option QuiesceSnapshot) (op : Operation) : Operation :=
  { op with state := .idle, quiesceSnapshot := snap }

theorem setQuiesceSnapshot_id (snap : Option QuiesceSnapshot) (op : Operation) :
    (setQuiesceSnapshot snap op).id = op.id := rfl

def setState (state : LifecycleState) (tenant : Tenant) : Tenant :=
  { tenant with storageLifecycleState := state }

theorem setState_id (state : LifecycleState) (tenant : Tenant) : (setState state tenant).id = tenant.id :=
  rfl

def release (state : LifecycleState) (tenant : Tenant) : Tenant :=
  { tenant with storageLifecycleState := state, activeStorageOpId := none }

theorem release_id (state : LifecycleState) (tenant : Tenant) : (release state tenant).id = tenant.id :=
  rfl

/- GiB with two decimals, rounded to the nearest -/
def setOverride (mib : Nat) (tenant : Tenant) : Tenant :=
  { tenant with storageLimitOverride := some ((mib * 200 + 1024) / 2048) }

theorem setOverride_id (mib : Nat) (tenant : Tenant) : (setOverride mib tenant).id = tenant.id := rfl

def setStatus (status : TenantStatus) (tenant : Tenant) : Tenant := { tenant with status }

theorem setStatus_id (status : TenantStatus) (tenant : Tenant) : (setStatus status tenant).id = tenant.id :=
  rfl

def setSnapshotStatus (status : SnapshotStatus) (sizeBytes : Nat) (snap : Snapshot) : Snapshot :=
  { snap with status, sizeBytes := if status = .ready then sizeBytes else snap.sizeBytes }

theorem setSnapshotStatus_id (status : SnapshotStatus) (sizeBytes : Nat) (snap : Snapshot) :
    (setSnapshotStatus status sizeBytes snap).id = snap.id := rfl

def markTenantState (db : Db) (tenantId : Nat) (state : LifecycleState) : Db :=
  { db with
    tenants := db.tenants.update (fun t => t.id == tenantId) (release state) (release_id state) }

/-- What a statement that does not throw does to the store. The calls to the cluster leave
no trace here: what the cluster makes of them shows in what later calls return. -/
def Step.perform (db : Db) (o : Orchestrator) : Step → Db
  | .updateOp (some state) =>
    { db with
      operations := db.operations.update (fun op => op.id == o.opId) (setOpState state)
        (setOpState_id state) }
  | .saveQuiesceSnapshot =>
    { db with
      operations := db.operations.update (fun op => op.id == o.opId)
        (setQuiesceSnapshot o.quiesceSnap) (setQuiesceSnapshot_id o.quiesceSnap) }
  | .mirrorState state =>
    { db with
      tenants := db.tenants.update (fun t => t.activeStorageOpId == some o.opId) (setState state)
        (setState_id state) }
  | .snapshotStatus status =>
    let size := db.cluster.archiveBytes o.tenantId
    { db with
      snapshots := db.snapshots.update (fun s => some s.id == o.snapId)
        (setSnapshotStatus status size) (setSnapshotStatus_id status size) }
  | .saveOverride mib =>
    { db with
      tenants := db.tenants.update (fun t => some t.id == o.cId) (setOverride mib)
        (setOverride_id mib) }
  | .markTenant state => o.cId.elim db (markTenantState db · state)
  | .cascade status =>
    { db with
      tenants := db.tenants.update (fun t => some t.id == o.cId) (setStatus status)
        (setStatus_id status) }
  | _ => db

/- … and to the orchestrator's variables -/
def Step.remember (db : Db) (o : Orchestrator) : Step → Orchestrator
  | .currentTenantId =>
    { o with cId := (db.operations.select (fun op => op.id == o.opId)).map (·.tenantId) }
  | .quiesce => { o with quiesceSnap := some (db.cluster.workloads o.tenantId) }
  | _ => o

end HostingPlatform.Storage
