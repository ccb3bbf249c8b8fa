import HostingPlatform.Storage.Exclusive

/-! The storage of a tenant in `updateTenant`: the gate that refuses to shrink it without a
confirmation, and the resize that the PATCH starts after its writes. The gate goes by the
size that the database has recorded, in hundredths of a GiB; the resize goes by the volume.
What else a PATCH does is a change of the tenant or a request of its own here. -/
namespace HostingPlatform.Tenants.Patch

open Interleaving Transition

/- a JSON number of GiB: the digits that `String(gi)` writes, and how many of them follow
the point -/
structure StorageLimit where
  (digits places : Nat)
  least : Nat.pow 10 places ≤ digits
  most : digits ≤ 10000 * Nat.pow 10 places

/- an absent field, `null` and a number are three values of an override -/
structure UpdateTenantInput where
  storageLimitOverride : Option (Option StorageLimit)
  planId : Option Nat
  confirmDestructiveShrink : Bool

/- `Math.round(gi * 1024)`, of a number with the digits and the places -/
def toMib (digits places : Nat) : Nat :=
  (digits * 2048 + Nat.pow 10 places) / (2 * Nat.pow 10 places)

def StorageLimit.hundredths (limit : StorageLimit) : Nat :=
  (limit.digits * 200 + Nat.pow 10 limit.places) / (2 * Nat.pow 10 limit.places)

/- in hundredths of a GiB -/
def getPlanStorageGi (db : Storage.Db) (planId : Nat) : Nat :=
  match db.plans.select (fun p => p.id == planId) with
  | some plan => plan.storageLimit
  | none => 1000

def currentMib (db : Storage.Db) (existing : Storage.Tenant) : Nat :=
  match existing.storageLimitOverride with
  | some override => toMib override 2
  | none => toMib (getPlanStorageGi db existing.planId) 2

def targetMib (db : Storage.Db) (input : UpdateTenantInput) (existing : Storage.Tenant) : Nat :=
  match input.storageLimitOverride, existing.storageLimitOverride with
  | some none, _ => toMib (getPlanStorageGi db (input.planId.getD existing.planId)) 2
  | some (some newOverride), _ => toMib newOverride.digits newOverride.places
  | none, some override => toMib override 2
  | none, none => toMib (getPlanStorageGi db (input.planId.getD existing.planId)) 2

/- `pendingGrowMib` or `pendingShrinkMib`; without a confirmation it is a growth -/
structure PendingResize where
  (currentMib targetMib : Nat)
  confirmed : Bool
  gated : confirmed = false → currentMib < targetMib

inductive Task where
  | getTenantById (input : UpdateTenantInput) (id : Nat)
  | currentMib (input : UpdateTenantInput) (existing : Storage.Tenant)
  | targetMib (input : UpdateTenantInput) (existing : Storage.Tenant) (currentMib : Nat)
  | dryRun (input : UpdateTenantInput) (id : Nat) (pending : PendingResize)
  | update (input : UpdateTenantInput) (id : Nat) (pending : Option PendingResize)
  | resize (pending : PendingResize) (task : Storage.Task)
  | lifecycle (task : Storage.Task)

inductive Response where
  | failed (error : ApiError)
  | threw (message : String)
  | updated
  | lifecycle (response : Storage.Response)

def tenantNotFound (id : Nat) : ApiError := ⟨"CLIENT_NOT_FOUND", s!"Client '{id}' not found", 404⟩

def resizeRequired (currentMib targetMib : Nat) : ApiError :=
  ⟨"STORAGE_RESIZE_REQUIRED",
    s!"Shrinking storage from {currentMib} MiB to {targetMib} MiB is destructive and requires confirmation",
    409⟩

/- the override or the plan is in the body, and the plan is another one -/
def resizes (input : UpdateTenantInput) (existing : Storage.Tenant) : Bool :=
  input.storageLimitOverride.isSome || input.planId.any (fun planId => planId != existing.planId)

def shrinkGate (input : UpdateTenantInput) (id currentMib targetMib : Nat) : Outcome Task Response :=
  if targetMib < currentMib then
    if input.confirmDestructiveShrink then
      .next (.dryRun input id ⟨currentMib, targetMib, true, fun confirmed => nomatch confirmed⟩)
    else .answer (.failed (resizeRequired currentMib targetMib))
  else if grows : currentMib < targetMib then
    .next (.update input id
      (some ⟨currentMib, targetMib, input.confirmDestructiveShrink, fun _ => grows⟩))
  else .next (.update input id none)

def updated (input : UpdateTenantInput) (tenant : Storage.Tenant) : Storage.Tenant :=
  { tenant with
    planId := input.planId.getD tenant.planId
    storageLimitOverride := (input.storageLimitOverride.map (·.map StorageLimit.hundredths)).getD
      tenant.storageLimitOverride }

theorem updated_id (input : UpdateTenantInput) (tenant : Storage.Tenant) : (updated input tenant).id = tenant.id := rfl

/-- Only that a shrink does not fit is thrown on. A detached orchestrator ends after the PATCH
has been answered. -/
def PendingResize.answer (pending : PendingResize) : Storage.Response → Response
  | .failed error =>
    if error.code = "RESIZE_UNSAFE" ∧ pending.targetMib < pending.currentMib then .failed error
    else .updated
  | _ => .updated

/- a statement whose exception nothing catches -/
def attempt (db : Storage.Db) (done : Storage.Db × Outcome Task Response) :
    Storage.Db × Outcome Task Response :=
  match db.cluster.failure with
  | none => done
  | some message => (db, .answer (.threw message))

def advance (ext : Storage.External) (db : Storage.Db) :
    Task → Storage.Db × Outcome Task Response
  | .getTenantById input id =>
    attempt db (db,
      match Storage.findTenant db id with
      | none => .answer (.failed (tenantNotFound id))
      | some existing =>
        if resizes input existing then .next (.currentMib input existing)
        else .next (.update input id none))
  | .currentMib input existing =>
    attempt db (db, .next (.targetMib input existing (currentMib db existing)))
  | .targetMib input existing currentMib =>
    attempt db (db, shrinkGate input existing.id currentMib (targetMib db input existing))
  -- what the dry run throws, other than an answer to the client, leaves it to the resize
  | .dryRun input id pending =>
    (db,
      match db.cluster.failure, Storage.findTenant db id with
      | some _, _ => .next (.update input id (some pending))
      | none, none => .answer (.failed (Storage.tenantNotFound id))
      | none, some _ =>
        if Storage.willFit ext db id pending.targetMib then .next (.update input id (some pending))
        else
          .answer (.failed ⟨"RESIZE_UNSAFE",
            Storage.rejectReason ext (db.cluster.usedBytes id) pending.targetMib, 400⟩))
  | .update input id pending =>
    attempt db (
      { db with
        tenants := db.tenants.update (fun t => t.id == id) (updated input) (updated_id input) },
      match pending with
      | none => .answer .updated
      | some pending =>
        .next (.resize pending (.mustGetTenant (.resizeTenant (some pending.targetMib) none) id)))
  | .resize pending task =>
    let done := Storage.advance ext db task
    (done.1, done.2.map (.resize pending) pending.answer)
  | .lifecycle task =>
    let done := Storage.advance ext db task
    (done.1, done.2.map .lifecycle .lifecycle)

def Task.isRequest : Task → Bool
  | .getTenantById .. => true
  | .lifecycle task => task.isRequest
  | _ => false

/-- The resizes that PATCHes start run beside the other requests of the storage lifecycle, and
the cluster and the limits of the plans change between any two statements. -/
def patching (ext : Storage.External) : System Storage.Db Task Response Storage.Change where
  request := fun _ task => task.isRequest
  advance := advance ext
  environment := Storage.Change.apply

/- what is left to do deletes the PVC, to recreate it -/
def deletesVolume : Storage.Task → Bool
  | .claim orchestration _ _ _ => orchestration.body.contains .deletePVC
  | .orchestrate o => o.steps.contains .deletePVC
  | _ => false

/- `resizeTenant` has taken its destructive branch for a PATCH that does not confirm it -/
def Task.shrinksUnconfirmed : Task → Bool
  | .resize pending task => !pending.confirmed && deletesVolume task
  | _ => false

def VolumesKept (w : World Storage.Db Task Response) : Prop :=
  ∀ p ∈ w.running, p.task.shrinksUnconfirmed = false

/-- The volume is found to be bigger than it is to be, and its files would fit. -/
def Overruns (ext : Storage.External) (db : Storage.Db) (newMib tenantId : Nat) : Prop :=
  db.cluster.failure = none ∧ Storage.willFit ext db tenantId newMib = true ∧
    ∃ tenant ∈ db.tenants.rows, tenant.id = tenantId ∧ newMib < Storage.currentMib db tenant

instance decOverruns (ext : Storage.External) (db : Storage.Db) (newMib tenantId : Nat) :
    Decidable (Overruns ext db newMib tenantId) :=
  inferInstanceAs (Decidable (_ ∧ _ ∧ ∃ tenant ∈ db.tenants.rows,
    tenant.id = tenantId ∧ newMib < Storage.currentMib db tenant))

/-- Where an unconfirmed PATCH asks for more than was recorded, it does not ask for less than
the volume has by the time the resize measures it. -/
def Measured (ext : Storage.External) (w : World Storage.Db Task Response) : Task → Prop
  | .resize pending (.resizeDryRun newMib tenantId) =>
    pending.confirmed = false → pending.currentMib < newMib → ¬ Overruns ext w.db newMib tenantId
  | _ => True

instance decMeasured (ext : Storage.External) (w : World Storage.Db Task Response) (task : Task) :
    Decidable (Measured ext w task) := by
  unfold Measured
  split <;> infer_instance

/- how far `resizeTenant` has come on the way that leaves the PVC where it is -/
def Grows (pending : PendingResize) : Storage.Task → Prop
  | .mustGetTenant request _ => request = .resizeTenant (some pending.targetMib) none
  | .mustBeIdle request _ => request = .resizeTenant (some pending.targetMib) none
  | .resizeDryRun newMib _ => newMib = pending.targetMib
  | .resizeNoop _ => True
  | .resizeGrow _ _ => True
  | .claim orchestration _ _ _ => .deletePVC ∉ orchestration.body ∧ .deletePVC ∉ orchestration.handler
  | .orchestrate o => .deletePVC ∉ o.steps ∧ .deletePVC ∉ o.handler
  | _ => False

variable {pending : PendingResize} {task : Storage.Task} {tenantId : Nat} {w : World Storage.Db Task Response}

theorem Grows.keeps_volume (grows : Grows pending task) : deletesVolume task = false := by
  cases task with
  | claim orchestration => exact (by simpa using grows.1 : orchestration.body.contains .deletePVC = false)
  | orchestrate o => exact (by simpa using grows.1 : o.steps.contains .deletePVC = false)
  | _ => rfl

variable {ext : Storage.External} {db : Storage.Db} {newMib : Nat}

theorem overruns_iff {tenant : Storage.Tenant} (found : Storage.findTenant db tenantId = some tenant) :
    Overruns ext db newMib tenantId ↔ db.cluster.failure = none ∧
      Storage.willFit ext db tenantId newMib = true ∧ newMib < Storage.currentMib db tenant := by
  obtain ⟨mem, own⟩ := Storage.findTenant_id found
  constructor
  · rintro ⟨calm, fits, other, there, id, bigger⟩
    rw [db.tenants.eq_of_key there mem (id.trans own.symm)] at bigger
    exact ⟨calm, fits, bigger⟩
  · rintro ⟨calm, fits, bigger⟩
    exact ⟨calm, fits, tenant, mem, own, bigger⟩

/- the three ways on from the dry run of `resizeTenant`, with what it has measured -/
inductive Dispatched (newMib tenantId measured : Nat) (willFit : Bool) : Storage.Task → Prop where
  | noop : newMib = measured → Dispatched newMib tenantId measured willFit (.resizeNoop tenantId)
  | grow : measured < newMib →
      Dispatched newMib tenantId measured willFit (.resizeGrow newMib tenantId)
  | destroy : newMib < measured → willFit = true →
      Dispatched newMib tenantId measured willFit
        (.claim (Storage.runResizeDestructive newMib) tenantId none none)

theorem dispatched (next : (Storage.advance ext db (.resizeDryRun newMib tenantId)).2 = .next task) :
    db.cluster.failure = none ∧ ∃ tenant, Storage.findTenant db tenantId = some tenant ∧
      Dispatched newMib tenantId (Storage.currentMib db tenant) (Storage.willFit ext db tenantId newMib) task := by
  have calm : db.cluster.failure = none := by
    cases failure : db.cluster.failure with
    | none => rfl
    | some message =>
      rw [Storage.advance, Storage.attempt, failure] at next
      contradiction
  obtain ⟨_, next⟩ := Storage.attempt_next next
  split at next
  · contradiction
  rename_i tenant found
  refine ⟨calm, tenant, found, ?_⟩
  split at next
  · rename_i same
    cases next
    exact .noop same
  split at next
  · rename_i smaller
    cases next
    exact .grow smaller
  split at next
  · rename_i fits
    cases next
    exact .destroy (by omega) fits
  · contradiction

theorem grown_orchestrator {o : Storage.Orchestrator} (grows : Grows pending (.orchestrate o))
    (next : (o.advance db).2 = .next task) : Grows pending task := by
  obtain ⟨o', rfl⟩ := Storage.orchestrates_on next
  have goes := Storage.orchestrator_goes_on next
  constructor
  · rcases goes.steps with ⟨step, steps⟩ | ⟨steps, _⟩
    · have kept := grows.1
      rw [steps] at kept
      exact fun mem => kept (List.mem_cons_of_mem step mem)
    · rw [steps]
      exact grows.2
  · rw [goes.handler]
    exact grows.2

theorem grows_next {task' : Storage.Task} (grows : Grows pending task)
    (measured : ∀ newMib tenantId, task = .resizeDryRun newMib tenantId → ¬ Overruns ext db newMib tenantId)
    (next : (Storage.advance ext db task).2 = .next task') : Grows pending task' := by
  cases task with
  | mustGetTenant request tenantId =>
    obtain ⟨_, next⟩ := Storage.attempt_next next
    split at next
    · contradiction
    · cases next
      exact grows
  | mustBeIdle request tenant =>
    obtain ⟨_, next⟩ := Storage.attempt_next next
    split at next
    · contradiction
    split at next
    · cases (grows : request = _)
      cases next
      rfl
    · contradiction
  | resizeDryRun newMib tenantId =>
    obtain ⟨calm, tenant, found, way⟩ := dispatched next
    cases way with
    | noop _ => trivial
    | grow _ => trivial
    | destroy bigger fits =>
      have overruns := (overruns_iff found).mpr ⟨calm, fits, bigger⟩
      exact absurd overruns (measured newMib tenantId rfl)
  | resizeNoop tenantId =>
    obtain ⟨_, next⟩ := Storage.attempt_next next
    split at next <;> contradiction
  | resizeGrow newMib tenantId =>
    obtain ⟨_, next⟩ := Storage.attempt_next next
    split at next
    · contradiction
    cases next
    constructor
    · simp [Storage.runGrowOnline, Storage.progress]
    · simp [Storage.runGrowOnline]
  | claim orchestration tenantId snapId quiesceSnap =>
    obtain ⟨_, next⟩ := Storage.attempt_next next
    split at next
    · rename_i o db' committed
      cases next
      have started := Storage.claim_spec committed
      exact ⟨by rw [started.steps]; exact grows.1, by rw [started.handler]; exact grows.2⟩
    · contradiction
  | orchestrate o => exact grown_orchestrator grows next
  | _ => contradiction

/-- In every reachable state: an unconfirmed PATCH only ever grows. -/
def Growing (w : World Storage.Db Task Response) : Prop :=
  ∀ p ∈ w.running, ∀ pending task, p.task = .resize pending task → pending.confirmed = false →
    Grows pending task

theorem attempt_next {done : Storage.Db × Outcome Task Response} {task : Task}
    (next : (attempt db done).2 = .next task) : done.2 = .next task := by
  unfold attempt at next
  split at next
  · exact next
  · contradiction

theorem resize_origin {task : Task} {next : Storage.Task}
    (taken : (advance ext db task).2 = .next (.resize pending next)) :
    (∃ input id, task = .update input id (some pending) ∧
      next = .mustGetTenant (.resizeTenant (some pending.targetMib) none) id) ∨
    ∃ current, task = .resize pending current ∧ (Storage.advance ext db current).2 = .next next := by
  cases task with
  | getTenantById input id =>
    have onward := attempt_next taken
    repeat' split at onward
    all_goals cases onward
  | currentMib input existing => cases attempt_next taken
  | targetMib input existing measured =>
    have onward := attempt_next taken
    simp only [shrinkGate] at onward
    repeat' split at onward
    all_goals cases onward
  | dryRun input id started =>
    simp only [advance] at taken
    repeat' split at taken
    all_goals cases taken
  | update input id started =>
    cases started with
    | none => cases attempt_next taken
    | some started =>
      cases attempt_next taken
      exact .inl ⟨input, id, rfl, rfl⟩
  | resize pending' current =>
    cases onward : (Storage.advance ext db current).2 with
    | answer response =>
      simp only [advance, onward] at taken
      cases taken
    | next task =>
      simp only [advance, onward] at taken
      cases taken
      exact .inr ⟨current, rfl, onward⟩
  | lifecycle current =>
    cases onward : (Storage.advance ext db current).2 with
    | answer response | next task =>
      simp only [advance, onward] at taken
      cases taken

theorem growing_next {p : Process Task} (growing : Growing w) (mem : p ∈ w.running)
    (measured : Measured ext w p.task) (next : (advance ext w.db p.task).2 = .next (.resize pending task))
    (unconfirmed : pending.confirmed = false) : Grows pending task := by
  rcases resize_origin next with ⟨input, id, _, rfl⟩ | ⟨current, own, onward⟩
  · rfl
  have grows := growing p mem pending current own unconfirmed
  rw [own] at measured
  refine grows_next grows ?_ onward
  -- what the gate has let through is more than what was recorded
  rintro newMib tenantId rfl
  have target : newMib = pending.targetMib := grows
  refine measured unconfirmed ?_
  rw [target]
  exact pending.gated unconfirmed

theorem volumes_kept (growing : Growing w) : VolumesKept w := by
  intro p mem
  cases current : p.task with
  | resize pending task =>
    cases unconfirmed : pending.confirmed with
    | true => simp [Task.shrinksUnconfirmed, unconfirmed]
    | false =>
      have grows := growing p mem pending task current unconfirmed
      simp [Task.shrinksUnconfirmed, grows.keeps_volume]
  | _ => rfl

/- 2.4424 and 2.4414 GiB: 2501 and 2500 MiB, and both 2.44 in the database, 2499 MiB -/
def larger : StorageLimit := ⟨24424, 4, by decide, by decide⟩

def smaller : StorageLimit := ⟨24414, 4, by decide, by decide⟩

def override (limit : StorageLimit) (confirmDestructiveShrink : Bool) : UpdateTenantInput :=
  ⟨some (some limit), none, confirmDestructiveShrink⟩

def volumeOf (mib : Nat) : Action Task Storage.Change :=
  .environment (.setCluster { Storage.Cluster.empty with pvcMib := fun _ => some mib })

/- a tenant on a plan of 2 GiB is given 2.4424 GiB, and has them -/
def grown : List (Action Task Storage.Change) :=
  [.environment (.putPlan ⟨1, 200, 0, 0⟩), .environment (.provision 1 1), volumeOf 2048,
    .arrive 1 (.getTenantById (override larger false) 1)] ++ List.replicate 14 (.advance 1) ++
    volumeOf 2501 :: List.replicate 6 (.advance 1)

/- … and then 2.4414 GiB, for which the PATCH does not ask to shrink it -/
def shrunk : List (Action Task Storage.Change) :=
  grown ++ .arrive 2 (.getTenantById (override smaller false) 1) :: List.replicate 7 (.advance 2)

end HostingPlatform.Tenants.Patch
