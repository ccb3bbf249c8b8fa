import HostingPlatform.Pausing
import HostingPlatform.Programs
import HostingPlatform.Storage.Lifecycle

/-! One tenant with its namespace: its rows, its volume and its workloads, and what the
statements of an orchestrator make of them. How a call turns out is chosen by the world. -/
namespace HostingPlatform.Storage

open Option Pausing Programs

/- `custom`: labelled with the id of a custom deployment of the tenant; `managed`: labelled
`platform.io/managed=true` -/
structure Labels where
  (custom managed : Bool)

/- its setting is `spec.replicas` -/
abbrev Deployment := Workload Labels Nat

/- its setting is `spec.suspend` -/
abbrev CronJob := Workload Labels Bool

/- what a volume or an archive holds; `files` stands for any file tree, also a broken one -/
inductive Contents where
  | blank
  | files (tree : Nat)
  deriving DecidableEq

/-- Rows stand newest first, and ids are drawn from `supply`. `data` is what the tenant's data
is, wherever it is held: what its workloads wrote last, or what it was set back to. -/
structure Site where
  tenant : Tenant
  (isSystem subscriptionExpired : Bool)
  operations : List Operation
  snapshots : List Snapshot
  supply : Nat
  volume : Option Contents
  archives : Nat → Option Contents
  deployments : List Deployment
  cronJobs : List CronJob
  data : Contents

/-- How a statement turns out. One that throws may still have taken effect (`lands`). Of the
calls for single workloads some may fail: those for the Deployments and CronJobs missed.
`left` is what an interrupted Job leaves behind. -/
structure Fate where
  (throws lands : Bool)
  (missed missedJobs : List String)
  left : Contents

def Fate.smooth : Fate := ⟨false, false, [], [], .blank⟩

def Fate.takes (o : Fate) : Bool := !o.throws || o.lands

/- the local variables of an orchestrator -/
structure Locals where
  opType : OpType
  opId : Nat
  snapId : Option Nat
  quiesceSnap : Option QuiesceSnapshot

def Site.updateOperation (s : Site) (opId : Nat) (f : Operation → Operation) : Site :=
  { s with operations := s.operations.map (Table.apply (fun op => op.id == opId) f) }

def Site.updateSnapshot (s : Site) (snapId : Option Nat) (f : Snapshot → Snapshot) : Site :=
  { s with snapshots := s.snapshots.map (Table.apply (fun snap => some snap.id == snapId) f) }

/- the size of the archive is of no consequence here -/
def setSnapshotState (status : SnapshotStatus) (snap : Snapshot) : Snapshot := { snap with status }

def Site.workloads (s : Site) : QuiesceSnapshot := ⟨record s.deployments, record s.cronJobs⟩

/- where it throws it has scaled some workloads and missed the others -/
def Site.quiesce (s : Site) (o : Fate) : Site :=
  { s with
    deployments := s.deployments.map (pause 0 (if o.throws then o.missed else []))
    cronJobs := s.cronJobs.map (pause true (if o.throws then o.missedJobs else [])) }

/- every failure is taken for a workload that is gone -/
def Site.unquiesce (s : Site) (snap : QuiesceSnapshot) (o : Fate) : Site :=
  { s with
    deployments := s.deployments.map (resume 0 o.missed snap.deployments)
    cronJobs := s.cronJobs.map (resume true o.missedJobs snap.cronJobs) }

def Site.deleteAllDeploymentsCronJobsServices (s : Site) (o : Fate) : Site :=
  { s with
    deployments := s.deployments.filter (fun w => !w.labels.managed || w.name ∈ o.missed)
    cronJobs := s.cronJobs.filter (fun w => !w.labels.managed || w.name ∈ o.missedJobs) }

/- the Deployment of the private workers, which the hook of the private workers tears down -/
def FRPS_DEPLOYMENT_NAME : String := "private-worker-server"

def tearDown (o : Fate) (deployments : List Deployment) : List Deployment :=
  deployments.filter (fun w => w.name ≠ FRPS_DEPLOYMENT_NAME || w.name ∈ o.missed)

def scaleCustomK8sDeployments (replicas : Nat) (o : Fate) (w : Deployment) : Deployment :=
  if w.labels.custom ∧ w.name ∉ o.missed then { w with setting := replicas } else w

/-- The hooks of a transition that touch the status or the workloads. Their failures are
swallowed; the status is stamped by the last that may abort the transition, and the first
aborts it for the SYSTEM tenant. -/
def Site.cascade (s : Site) (status : TenantStatus) (o : Fate) : Site :=
  let tenant := if o.takes then setStatus status s.tenant else s.tenant
  match status with
  | .suspended | .archived =>
    if s.isSystem then s
    else { s with
      tenant
      deployments := (tearDown o s.deployments).map (scaleCustomK8sDeployments 0 o) }
  | .active => { s with tenant, deployments := s.deployments.map (scaleCustomK8sDeployments 1 o) }
  | .pending => s

/-- What a Job needs that is not in the hands of the world: a volume to mount, an archive to
read; and a volume that is there is not gone. -/
def Site.possible (s : Site) (v : Locals) : Step → Bool
  | .snapshotTenantPVC => s.volume.isSome && v.snapId.isSome
  | .restoreTenantPVC => s.volume.isSome && (v.snapId.bind s.archives).isSome
  | .waitForPvcGone => s.volume.isNone
  | _ => true

def Site.archive (s : Site) (v : Locals) (o : Fate) : Site :=
  match v.snapId, s.volume with
  | some id, some contents =>
    if o.throws then
      if o.lands then { s with archives := Function.update s.archives id (some o.left) } else s
    else { s with archives := Function.update s.archives id (some contents) }
  | _, _ => s

/- a Job that unpacks an archive over a volume; once it has begun, the tenant's data is what
the archive holds -/
def Site.unpack (s : Site) (v : Locals) (o : Fate) : Site :=
  match v.snapId.bind s.archives, s.volume with
  | some contents, some _ =>
    if o.throws then
      if o.lands then { s with volume := some o.left, data := contents } else s
    else { s with volume := some contents, data := contents }
  | _, _ => s

/- a write to the database, which may land although it throws -/
def Site.write (s : Site) (o : Fate) (written : Site) : Site := if o.takes then written else s

def Step.act (s : Site) (v : Locals) (o : Fate) : Step → Site
  | .updateOp (some state) => s.write o (s.updateOperation v.opId (setOpState state))
  | .saveQuiesceSnapshot => s.write o (s.updateOperation v.opId (setQuiesceSnapshot v.quiesceSnap))
  | .mirrorState state =>
    if s.tenant.activeStorageOpId = some v.opId then
      s.write o { s with tenant := setState state s.tenant }
    else s
  | .snapshotStatus status => s.write o (s.updateSnapshot v.snapId (setSnapshotState status))
  | .saveOverride mib => s.write o { s with tenant := setOverride mib s.tenant }
  | .markTenant state => s.write o { s with tenant := release state s.tenant }
  | .quiesce => s.quiesce o
  | .unquiesce | .unquiesceQuietly => v.quiesceSnap.elim s (s.unquiesce · o)
  | .snapshotTenantPVC => s.archive v o
  | .restoreTenantPVC => s.unpack v o
  | .deletePVC => s.write o { s with volume := none }
  | .applyPVC _ => s.write o { s with volume := s.volume.or (some .blank) }
  | .deleteWorkloads => s.deleteAllDeploymentsCronJobsServices o
  | .cascade status => s.cascade status o
  -- a repair may leave anything of the contents
  | .runFsck repair =>
    if repair && o.lands then { s with volume := s.volume.map (fun _ => o.left) } else s
  | .locateTenantVolume | .attachLonghornVolume | .waitForVolumeAttached | .detachLonghornVolume
  | .ensureVolumeReattached => s
  | .updateOp none | .currentTenantId | .readSnapshot | .waitForQuiesced | .patchPVC _
  | .waitForPvcCapacity | .waitForPvcGone => s

/- a `quiesce` that throws assigns nothing -/
def Step.note (s : Site) (v : Locals) (o : Fate) : Step → Locals
  | .quiesce => if o.throws then v else { v with quiesceSnap := some s.workloads }
  | _ => v

def statements : Language (Site × Locals) Step Fate where
  perform := fun (s, v) step o => (step.act s v o, step.note s v o)
  throws := fun (s, v) step o => !step.quiet && (o.throws || !s.possible v step)

theorem throws_iff {s : Site} {v : Locals} {step : Step} {o : Fate} : statements.throws (s, v) step o = true ↔
      step.quiet = false ∧ (o.throws = true ∨ s.possible v step = false) := by
  simp [statements]

theorem not_throws_iff {s : Site} {v : Locals} {step : Step} {o : Fate} : statements.throws (s, v) step o = false ↔
      step.quiet = true ∨ o.throws = false ∧ s.possible v step = true := by
  cases quiet : step.quiet <;> simp [statements, quiet]

/-! The operations on one tenant: the requests that claim it, the orchestrator at work, and the requests that
write its status past the claims. -/

def runRollbackToSnapshot : Orchestration where
  opType := .restore
  state := .restoring
  creates := none
  body := [.readSnapshot, .quiesce, .waitForQuiesced, .updateOp none, .restoreTenantPVC,
    .updateOp none, .unquiesce, .updateOp (some .idle), .markTenant .idle]
  handler := [.unquiesceQuietly, .updateOp (some .failed), .markTenant .failed]
  awaited := none

/- `newGi` is the size asked for, or where none is, the plan's -/
inductive Call where
  | snapshotTenant (kind : SnapshotKind)
  | suspendTenant
  | resumeTenant
  | archiveTenant
  | restoreArchivedTenant (newGi : Nat)
  | rollbackToSnapshot (snapshotId : Nat)

/- what a request that passes its checks claims the tenant for -/
structure Admission where
  orchestration : Orchestration
  snapId : Option Nat
  quiesceSnap : Option QuiesceSnapshot

/- ORDER BY created_at DESC LIMIT 1 -/
def Site.lastSuspend (s : Site) : Option Operation :=
  s.operations.find? (fun op => op.opType == .suspend)

def Site.lastArchive (s : Site) : Option Snapshot :=
  s.snapshots.find? (fun snap => snap.kind == .preArchive && snap.status == .ready)

/- the checks of a request once `mustBeIdle` has passed; the quota of a snapshot is the
business of its request -/
def Site.accept (s : Site) : Call → Option Admission
  | .snapshotTenant kind => some ⟨snapshotTenant kind, none, none⟩
  | .suspendTenant =>
    if s.tenant.status = .suspended then none else some ⟨suspendTenant, none, none⟩
  | .resumeTenant =>
    if s.tenant.status = .suspended then
      some ⟨resumeTenant, none, s.lastSuspend.bind (·.quiesceSnapshot)⟩
    else none
  | .archiveTenant => if s.tenant.status = .archived then none else some ⟨runArchive, none, none⟩
  | .restoreArchivedTenant newGi =>
    if s.tenant.status = .archived then
      s.lastArchive.map (fun snap => ⟨runRestoreArchive newGi, some snap.id, none⟩)
    else none
  | .rollbackToSnapshot snapshotId =>
    (s.snapshots.find? (fun snap => snap.id == snapshotId && snap.status == .ready)).map
      (fun snap => ⟨runRollbackToSnapshot, some snap.id, none⟩)

/- one transaction: the operation's row, the row of the snapshot it creates, the tenant's -/
def Site.claim (s : Site) (a : Admission) : Site × Locals :=
  let opId := s.supply
  let created := a.orchestration.creates.map
    (fun kind => (⟨s.supply + 1, s.tenant.id, kind, .creating, 0⟩ : Snapshot))
  ({ s with
     operations :=
       ⟨opId, s.tenant.id, a.orchestration.opType, a.orchestration.state, none⟩ :: s.operations
     snapshots := created.toList ++ s.snapshots
     tenant := claimed a.orchestration.state opId s.tenant
     supply := s.supply + 2 },
   { opType := a.orchestration.opType, opId
     snapId := (created.map (·.id)).or a.snapId, quiesceSnap := a.quiesceSnap })

def Orchestration.program (o : Orchestration) : Option (Program Step) :=
  remaining o.body (some o.handler)

structure Running where
  locals : Locals
  program : Program Step

/- a tenant, the orchestrator that works on it, and whether it has been deleted -/
structure Work where
  site : Site
  running : Option Running
  deleted : Bool

inductive BulkAction where
  | suspend | reactivate

/-- Requests; statements of the orchestrator; the recovery of a tenant whose orchestrator has
ended without giving it back; what the tenant's workloads write, workloads that go away,
subscriptions that run out. A request that fails before its claim is no action. -/
inductive Move where
  | call (c : Call)
  | updateTenant (status : TenantStatus) (planGi : Nat)
  | bulkUpdateTenantStatus (action : BulkAction) (o : Fate)
  | suspendExpiredTenants (o : Fate)
  | deleteTenant
  | advance (o : Fate)
  | recover
  | write (contents : Contents)
  | remove (name : String)
  | setExpiry (expired : Bool)

def Work.call (w : Work) (c : Call) : Work :=
  if w.running.isNone ∧ w.site.tenant.storageLifecycleState = .idle then
    (w.site.accept c).elim w (fun a =>
      { w with
        site := (w.site.claim a).1
        running := a.orchestration.program.map (fun p => ⟨(w.site.claim a).2, p⟩) })
  else w

/- the statuses that an orchestrator or a cascade writes itself -/
def statusOwnedByLifecycle (existing status : TenantStatus) : Bool :=
  status == .archived && existing != .archived || status == .active && existing == .archived ||
    status == .suspended && existing != .suspended || status == .active && existing == .suspended

def Work.writeStatus (w : Work) (status : TenantStatus) : Work :=
  if statusOwnedByLifecycle w.site.tenant.status status then w
  else { w with site := { w.site with tenant := setStatus status w.site.tenant } }

/- the request that a PATCH hands the change of status to -/
def statusCall (existing status : TenantStatus) (planGi : Nat) : Option Call :=
  match status with
  | .archived => if existing = .archived then none else some .archiveTenant
  | .suspended => some .suspendTenant
  | .active =>
    if existing = .archived then some (.restoreArchivedTenant planGi) else some .resumeTenant
  | .pending => none

/-- A PATCH that sets the status. From archived it goes nowhere but to active. -/
def Work.updateTenant (w : Work) (status : TenantStatus) (planGi : Nat) : Work :=
  if w.site.isSystem ∧ status ≠ .active then w
  else if w.site.tenant.status = .archived ∧ status ≠ .archived ∧ status ≠ .active then w
  else (statusCall w.site.tenant.status status planGi).elim (w.writeStatus status)
    (w.writeStatus status).call

/- for each tenant of the bulk, the SYSTEM tenant is refused a suspension -/
def Site.bulkUpdateTenantStatus (s : Site) (o : Fate) : BulkAction → Site
  | .suspend => if s.isSystem then s else s.cascade .suspended o
  | .reactivate => s.cascade .active o

def Site.suspendExpiredTenants (s : Site) (o : Fate) : Site :=
  if s.tenant.status = .active ∧ !s.isSystem ∧ s.subscriptionExpired then s.cascade .suspended o
  else s

/- `clearFailedStorageState`, or `cancelStorageOperation` where no orchestrator works -/
def Site.recover (s : Site) : Site :=
  let released := { s with tenant := release .idle s.tenant }
  if s.tenant.storageLifecycleState = .idle then s
  else if s.tenant.storageLifecycleState = .failed then released
  else s.tenant.activeStorageOpId.elim released (fun opId =>
    released.updateOperation opId (setOpState .failed))

/- workloads are up, or a CronJob may start some -/
def Site.busy (s : Site) : Bool :=
  s.deployments.any (fun d => d.setting ≠ 0) || s.cronJobs.any (fun c => !c.setting)

def Running.advance (s : Site) (r : Running) (o : Fate) : Site × Option Running :=
  let result := statements.next (s, r.locals) r.program o
  (result.1.1, result.2.map (fun p => ⟨result.1.2, p⟩))

def Work.step (w : Work) (action : Move) : Option Work :=
  if w.deleted then none
  else match action with
  | .call c => some (w.call c)
  | .updateTenant status planGi => some (w.updateTenant status planGi)
  | .bulkUpdateTenantStatus action o =>
    some { w with site := w.site.bulkUpdateTenantStatus o action }
  | .suspendExpiredTenants o => some { w with site := w.site.suspendExpiredTenants o }
  | .deleteTenant => some { w with deleted := true }
  | .advance o => w.running.map (fun r =>
      { w with site := (r.advance w.site o).1, running := (r.advance w.site o).2 })
  | .recover => if w.running.isNone then some { w with site := w.site.recover } else none
  | .write contents =>
    if w.site.busy ∧ w.site.volume.isSome then
      some { w with site := { w.site with volume := some contents, data := contents } }
    else none
  | .remove name =>
    some { w with
      site := { w.site with
        deployments := w.site.deployments.filter (fun d => d.name ≠ name)
        cronJobs := w.site.cronJobs.filter (fun c => c.name ≠ name) } }
  | .setExpiry expired => some { w with site := { w.site with subscriptionExpired := expired } }

/- what an action does, with what it takes -/
inductive Taken (w : Work) : Move → Work → Prop where
  | call (c : Call) : Taken w (.call c) (w.call c)
  | updateTenant (status : TenantStatus) (planGi : Nat) :
      Taken w (.updateTenant status planGi) (w.updateTenant status planGi)
  | bulkUpdateTenantStatus (action : BulkAction) (o : Fate) :
      Taken w (.bulkUpdateTenantStatus action o)
        { w with site := w.site.bulkUpdateTenantStatus o action }
  | suspendExpiredTenants (o : Fate) :
      Taken w (.suspendExpiredTenants o) { w with site := w.site.suspendExpiredTenants o }
  | deleteTenant : Taken w .deleteTenant { w with deleted := true }
  | advance (r : Running) (o : Fate) (running : w.running = some r) :
      Taken w (.advance o)
        { w with site := (r.advance w.site o).1, running := (r.advance w.site o).2 }
  | recover (ended : w.running = none) : Taken w .recover { w with site := w.site.recover }
  | write (contents : Contents) (busy : w.site.busy = true) (there : w.site.volume.isSome = true) :
      Taken w (.write contents)
        { w with site := { w.site with volume := some contents, data := contents } }
  | remove (name : String) : Taken w (.remove name)
      { w with site := { w.site with
          deployments := w.site.deployments.filter (fun d => d.name ≠ name)
          cronJobs := w.site.cronJobs.filter (fun c => c.name ≠ name) } }
  | setExpiry (expired : Bool) :
      Taken w (.setExpiry expired) { w with site := { w.site with subscriptionExpired := expired } }

theorem step_taken {w w' : Work} {action : Move} (taken : w.step action = some w') :
    w.deleted = false ∧ Taken w action w' := by
  unfold Work.step at taken
  split at taken
  · contradiction
  rename_i kept
  refine ⟨by simpa using kept, ?_⟩
  cases action with
  | advance o =>
    obtain ⟨r, running, same⟩ := map_eq_some_iff.mp taken
    cases same
    exact .advance r o running
  | recover =>
    obtain ⟨ended, same⟩ := ite_none_right_eq_some.mp taken
    cases same
    exact .recover (isNone_iff_eq_none.mp ended)
  | write contents =>
    obtain ⟨⟨busy, there⟩, same⟩ := ite_none_right_eq_some.mp taken
    cases same
    exact .write contents busy there
  | _ =>
    cases taken
    constructor

def Work.begin (s : Site) : Work := ⟨s, none, false⟩

/- a tenant with three replicas of one Deployment and a nightly CronJob -/
def demo : Site where
  tenant := ⟨1, .active, 1, none, .idle, none⟩
  isSystem := false
  subscriptionExpired := false
  operations := []
  snapshots := []
  supply := 0
  volume := some (.files 7)
  archives := fun _ => none
  deployments := [⟨"web", ⟨false, true⟩, 3⟩]
  cronJobs := [⟨"nightly", ⟨false, true⟩, false⟩]
  data := .files 7

end HostingPlatform.Storage
