import Mathlib.Data.List.Sort
import HostingPlatform.Interleaving
import HostingPlatform.BackupRestore.Schema

/-! The requests on restore carts, statement by statement. An executor is one await, which throws
or does not; the requests that only read are left out. -/
namespace HostingPlatform.BackupRestore.Cart

open Table List Interleaving

structure BackupJob where
  (id tenantId : Nat)

/- `failure` is what the next call to the database, the cluster or a store throws -/
structure CartDb where
  jobs : Table RestoreJob RestoreJob.id
  items : Table RestoreItem RestoreItem.id
  bundles : Table BackupJob BackupJob.id
  supply : Nat
  failure : Option Failure

def CartDb.empty : CartDb := ⟨Table.empty, Table.empty, Table.empty, 0, none⟩

/- where an execute request is, once it has claimed its cart -/
inductive Stage where
  | selectJob
  | selectItems (job : RestoreJob)
  | snapshot (tenantId : Nat) (items : List RestoreItem)
  | recordSnapshot (snapId : Nat) (items : List RestoreItem)
  | snapshotFailed
  | apply (item : RestoreItem) (rest : List RestoreItem)
  | dispatch (item : RestoreItem) (rest : List RestoreItem)
  | itemDone (item : RestoreItem) (rest : List RestoreItem)
  | itemFailed (item : RestoreItem) (failure : Failure)
  | finish (firstFailureMsg : Option String)

inductive CartTask where
  | addItem (cartId bundleId : Nat) (payload : ItemPayload)
  | selectBundle (job : RestoreJob) (bundleId : Nat) (payload : ItemPayload)
  | insertItem (cartId bundleId : Nat) (payload : ItemPayload)
  | selectItem (itemId : Nat)
  | removeItem (cartId itemId : Nat)
  | deleteItem (cartId itemId : Nat)
  | execute (cartId : Nat)
  | notClaimed (cartId : Nat)
  | run (cartId : Nat) (stage : Stage)
  | summary (cartId : Nat)
  | deleteCart (cartId : Nat)
  | deleteJob (cartId : Nat)
  | rollback (cartId : Nat)
  | rollbackToSnapshot (tenantId snapshotId : Nat)

inductive Reply where
  | failed (failure : Failure)
  | item (item : RestoreItem)
  | removed
  | detail (job : RestoreJob) (items : List RestoreItem)
  | rolledBack (operationId snapshotId : Nat)

def findJob (db : CartDb) (cartId : Nat) : Option RestoreJob := db.jobs.select (fun j => j.id == cartId)

/- ORDER BY seq -/
def itemsOf (db : CartDb) (cartId : Nat) : List RestoreItem :=
  (db.items.selectAll (fun i => i.restoreJobId == cartId)).insertionSort (fun i j => i.seq ≤ j.seq)

def refused (code message : String) (status : Nat) : Outcome CartTask Reply :=
  .answer (.failed (.api ⟨code, message, status⟩))

def cartNotFound : Outcome CartTask Reply := refused "NOT_FOUND" "Restore cart not found" 404

def statusOf : JobStatus → String
  | .draft => "draft"
  | .executing => "executing"
  | .paused => "paused"
  | .done => "done"
  | .failed => "failed"

def itemType : ItemPayload → String
  | .configTables _ => "config-tables"
  | .deploymentsById _ => "deployments-by-id"
  | .domainsById _ => "domains-by-id"
  | .filesPaths _ => "files-paths"
  | .mailboxesByAddress _ => "mailboxes-by-address"
  | .unknown type => type

def complete : ItemStatus → Bool
  | .done | .skipped => true
  | _ => false

def safeMsg (failure : Failure) : String :=
  let safeCode := match failure with
    | .api error => if error.code.length ≤ 64 then error.code else "EXECUTOR_FAILED"
    | .error _ => "EXECUTOR_FAILED"
  s!"{safeCode}: restore item failed (see server logs)"

def setStatus (status : JobStatus) (lastError : Option String) (job : RestoreJob) : RestoreJob :=
  { job with status, lastError }

def claimed (job : RestoreJob) : RestoreJob := { job with status := .executing }

def setSnapshot (snapId : Nat) (job : RestoreJob) : RestoreJob :=
  { job with preRestoreSnapshotId := some snapId }

def setItem (status : ItemStatus) (lastError : Option String) (item : RestoreItem) : RestoreItem :=
  { item with status, lastError }

/- the last error was cleared when the item was applied -/
def setDone (item : RestoreItem) : RestoreItem := { item with status := .done }

/- the loop over the items that were pending when they were read -/
def applyNext : List RestoreItem → Stage
  | [] => .finish none
  | item :: rest => .apply item rest

def pending (items : List RestoreItem) : List RestoreItem := items.filter (fun i => !complete i.status)

def touchesFiles (item : RestoreItem) : Bool :=
  match item.payload with
  | .filesPaths _ => item.status != .done
  | _ => false

/- a statement outside of a `try` block -/
def attempt (db : CartDb) (done : CartDb × Outcome CartTask Reply) : CartDb × Outcome CartTask Reply :=
  match db.failure with
  | none => done
  | some failure => (db, .answer (.failed failure))

/- … and one inside -/
def guardedBy (db : CartDb) (caught : Failure → CartTask) (done : CartDb × Outcome CartTask Reply) :
    CartDb × Outcome CartTask Reply :=
  match db.failure with
  | none => done
  | some failure => (db, .next (caught failure))

def advanceRun (db : CartDb) (cartId : Nat) : Stage → CartDb × Outcome CartTask Reply
  | .selectJob =>
    attempt db (db,
      match findJob db cartId with
      | none => refused "NOT_FOUND" "Restore cart vanished mid-claim" 404
      | some job => .next (.run cartId (.selectItems job)))
  | .selectItems job =>
    let items := itemsOf db cartId
    attempt db (db, .next (.run cartId
      (if job.preRestoreSnapshotId.isNone && items.any touchesFiles then
        .snapshot job.tenantId (pending items)
      else applyNext (pending items))))
  | .snapshot _ items =>
    guardedBy db (fun _ => .run cartId .snapshotFailed)
      ({ db with supply := db.supply + 1 }, .next (.run cartId (.recordSnapshot db.supply items)))
  | .recordSnapshot snapId items =>
    guardedBy db (fun _ => .run cartId .snapshotFailed)
      ({ db with
          jobs := db.jobs.update (fun j => j.id == cartId) (setSnapshot snapId) (fun _ => rfl) },
        .next (.run cartId (applyNext items)))
  | .snapshotFailed =>
    attempt db
      ({ db with
          jobs := db.jobs.update (fun j => j.id == cartId)
            (setStatus .failed (some "PRE_RESTORE_SNAPSHOT_FAILED: see server logs")) (fun _ => rfl) },
        refused "SNAPSHOT_FAILED" "Pre-restore snapshot failed; cart aborted to preserve current state" 500)
  | .apply item rest =>
    attempt db
      ({ db with
          items := db.items.update (fun i => i.id == item.id) (setItem .applying none) (fun _ => rfl) },
        .next (.run cartId (.dispatch item rest)))
  | .dispatch item rest =>
    guardedBy db (fun failure => .run cartId (.itemFailed item failure))
      (db, .next (.run cartId (.itemDone item rest)))
  | .itemDone item rest =>
    guardedBy db (fun failure => .run cartId (.itemFailed item failure))
      ({ db with items := db.items.update (fun i => i.id == item.id) setDone (fun _ => rfl) },
        .next (.run cartId (applyNext rest)))
  | .itemFailed item failure =>
    attempt db
      ({ db with
          items := db.items.update (fun i => i.id == item.id) (setItem .failed (some (safeMsg failure)))
            (fun _ => rfl) },
        .next (.run cartId
          (.finish (some s!"item {item.id} ({itemType item.payload}): {safeMsg failure}"))))
  | .finish firstFailureMsg =>
    attempt db
      ({ db with
          jobs := db.jobs.update (fun j => j.id == cartId)
            (setStatus (if firstFailureMsg.isSome then .failed else .done) firstFailureMsg) (fun _ => rfl) },
        .next (.summary cartId))

/- one transaction, with the cart's row locked; the item's row refers to the cart's -/
def insertItem (db : CartDb) (cartId bundleId : Nat) (payload : ItemPayload) :
    Option (Table RestoreItem RestoreItem.id) :=
  if (findJob db cartId).isSome then
    let nextSeq := (itemsOf db cartId).foldl (fun seq i => max seq (i.seq + 1)) 0
    db.items.insert ⟨db.supply, cartId, bundleId, payload, nextSeq, .pending, none⟩
  else none

def advance (db : CartDb) : CartTask → CartDb × Outcome CartTask Reply
  | .addItem cartId bundleId payload =>
    attempt db (db,
      match findJob db cartId with
      | none => cartNotFound
      | some job =>
        if job.status = .draft then .next (.selectBundle job bundleId payload)
        else refused "VALIDATION_ERROR"
          s!"Cannot add items to cart in status '{statusOf job.status}' (must be 'draft')" 400)
  | .selectBundle job bundleId payload =>
    attempt db (db,
      match db.bundles.select (fun b => b.id == bundleId) with
      | none => refused "NOT_FOUND" "Bundle not found" 404
      | some bundle =>
        if bundle.tenantId = job.tenantId then .next (.insertItem job.id bundleId payload)
        else refused "VALIDATION_ERROR" "Bundle belongs to a different tenant than the cart" 400)
  | .insertItem cartId bundleId payload =>
    attempt db (
      match insertItem db cartId bundleId payload with
      | some items => ({ db with items, supply := db.supply + 1 }, .next (.selectItem db.supply))
      | none => (db, .answer (.failed (.error "constraint violated"))))
  | .selectItem itemId =>
    attempt db (db,
      match db.items.select (fun i => i.id == itemId) with
      | some item => .answer (.item item)
      | none => .answer (.failed (.error "Cannot read properties of undefined")))
  | .removeItem cartId itemId =>
    attempt db (db,
      match findJob db cartId with
      | none => cartNotFound
      | some job =>
        if job.status = .draft then .next (.deleteItem cartId itemId)
        else refused "VALIDATION_ERROR"
          s!"Cannot remove items from cart in status '{statusOf job.status}'" 400)
  | .deleteItem cartId itemId =>
    attempt db
      ({ db with items := db.items.delete (fun i => i.restoreJobId == cartId && i.id == itemId) },
        .answer .removed)
  | .execute cartId =>
    attempt db (
      if (db.jobs.select (fun j => j.id == cartId && j.status != .executing)).isSome then
        ({ db with
            jobs := db.jobs.update (fun j => j.id == cartId && j.status != .executing) claimed
              (fun _ => rfl) },
          .next (.run cartId .selectJob))
      else (db, .next (.notClaimed cartId)))
  | .notClaimed cartId =>
    attempt db (db,
      match findJob db cartId with
      | none => cartNotFound
      | some _ => refused "CONFLICT" "Cart is already executing — wait for completion" 409)
  | .run cartId stage => advanceRun db cartId stage
  | .summary cartId =>
    attempt db (db,
      match findJob db cartId with
      | some job => .answer (.detail job (itemsOf db cartId))
      | none => .answer (.failed (.error "Cannot read properties of undefined")))
  | .deleteCart cartId =>
    attempt db (db,
      match findJob db cartId with
      | none => cartNotFound
      | some job =>
        if job.status = .executing then
          refused "VALIDATION_ERROR" "Cannot delete an executing cart; wait for completion or pause first" 400
        else .next (.deleteJob cartId))
  -- the items go with their cart
  | .deleteJob cartId =>
    attempt db
      ({ db with
          jobs := db.jobs.delete (fun j => j.id == cartId)
          items := db.items.delete (fun i => i.restoreJobId == cartId) },
        .answer .removed)
  | .rollback cartId =>
    attempt db (db,
      match findJob db cartId with
      | none => cartNotFound
      | some job =>
        match job.preRestoreSnapshotId with
        | none => refused "NO_PRE_RESTORE_SNAPSHOT"
            "This cart has no pre-restore snapshot to roll back to. Snapshots are only taken when a cart contains files-paths items."
            400
        | some snapshotId =>
          if job.status = .executing then
            refused "VALIDATION_ERROR"
              "Cannot rollback while cart is executing — wait for completion or failure" 400
          else .next (.rollbackToSnapshot job.tenantId snapshotId))
  | .rollbackToSnapshot _ snapshotId =>
    match db.failure with
    | none => ({ db with supply := db.supply + 1 }, .answer (.rolledBack db.supply snapshotId))
    | some (.api error) => (db, .answer (.failed (.api error)))
    | some (.error message) =>
      (db, refused "ROLLBACK_FAILED" s!"Rollback dispatch failed: {message}" 500)

def CartTask.isRequest : CartTask → Bool
  | .addItem .. | .removeItem .. | .execute _ | .deleteCart _ | .rollback _ => true
  | _ => false

/- carts are created, and bundles come and go -/
inductive Change where
  | createCart (tenantId : Nat)
  | putBundle (bundle : BackupJob)
  | deleteBundle (id : Nat)
  | setFailure (failure : Option Failure)

def Change.apply (db : CartDb) : Change → CartDb
  | .createCart tenantId =>
    { db with
      jobs := (db.jobs.insert ⟨db.supply, tenantId, .draft, none, none⟩).getD db.jobs
      supply := db.supply + 1 }
  | .putBundle bundle => { db with bundles := db.bundles.put bundle }
  | .deleteBundle id => { db with bundles := db.bundles.delete (fun b => b.id == id) }
  | .setFailure failure => { db with failure }

def carts : System CartDb CartTask Reply Change where
  request := fun _ task => task.isRequest
  advance := advance
  environment := Change.apply

abbrev Carts := World CartDb CartTask Reply

/- the items that a stage still has before it, the one at work among them -/
def Stage.items : Stage → List RestoreItem
  | .snapshot _ items | .recordSnapshot _ items => items
  | .apply item rest | .dispatch item rest | .itemDone item rest => item :: rest
  | .itemFailed item _ => [item]
  | .selectJob | .selectItems _ | .snapshotFailed | .finish _ => []

def Stage.onTrack : Stage → Bool
  | .snapshot .. | .recordSnapshot .. | .apply .. | .dispatch .. | .itemDone .. | .finish none => true
  | .selectJob | .selectItems _ | .snapshotFailed | .itemFailed .. | .finish (some _) => false

/- its statement stands outside of the `try` blocks -/
def Stage.bare : Stage → Bool
  | .selectJob | .selectItems _ | .snapshotFailed | .apply .. | .itemFailed .. | .finish _ => true
  | .snapshot .. | .recordSnapshot .. | .dispatch .. | .itemDone .. => false

def Tracked (db : CartDb) (cartId : Nat) (items : List RestoreItem) : Prop :=
  ∀ row ∈ db.items, row.restoreJobId = cartId → complete row.status = true ∨ ∃ item ∈ items, item.id = row.id

/- how an execute goes on: what it writes, and what it has before it -/
structure GoesOn (db : CartDb) (cartId : Nat) (stage : Stage) (db' : CartDb) (stage' : Stage) : Prop where
  supply : db.supply ≤ db'.supply
  jobs : ∃ f : RestoreJob → RestoreJob, db'.jobs.rows = db.jobs.rows.map f ∧
    ∀ job, (f job).id = job.id ∧ (f job).status = job.status
  items : ∃ g : RestoreItem → RestoreItem, db'.items.rows = db.items.rows.map g ∧
    ∀ row, (g row).id = row.id ∧ (g row).restoreJobId = row.restoreJobId ∧
      ((g row).status = row.status ∨ ∃ item ∈ stage.items, item.id = row.id)
  pending : ∀ item ∈ stage'.items, item ∈ stage.items ∨ item ∈ db.items ∧ item.restoreJobId = cartId
  tracked : (stage.onTrack = true → Tracked db cartId stage.items) → stage'.onTrack = true →
    Tracked db' cartId stage'.items

/- what a statement does to the carts -/
inductive Effect (db : CartDb) : CartTask → CartDb → Outcome CartTask Reply → Prop where
  | quiet {task : CartTask} {db' : CartDb} {outcome : Outcome CartTask Reply}
    (jobs : db'.jobs = db.jobs) (items : db'.items = db.items) (supply : db.supply ≤ db'.supply)
    (plain : ∀ cartId stage, outcome ≠ .next (.run cartId stage))
    (left : ∀ cartId stage, task = .run cartId stage → ∀ job ∈ db.jobs, job.id = cartId →
      stage.bare = true ∧ db.failure ≠ none) :
    Effect db task db' outcome
  | claimed {cartId : Nat} (free : ∃ job ∈ db.jobs, job.id = cartId ∧ job.status ≠ .executing) :
    Effect db (.execute cartId)
      { db with
        jobs := db.jobs.update (fun j => j.id == cartId && j.status != .executing) Cart.claimed
          (fun _ => rfl) }
      (.next (.run cartId .selectJob))
  | inserted {cartId bundleId : Nat} {payload : ItemPayload} {items : Table RestoreItem RestoreItem.id}
    (works : db.failure = none) (done : insertItem db cartId bundleId payload = some items) :
    Effect db (.insertItem cartId bundleId payload) { db with items, supply := db.supply + 1 }
      (.next (.selectItem db.supply))
  | removed {cartId itemId : Nat} (works : db.failure = none) :
    Effect db (.deleteItem cartId itemId)
      { db with items := db.items.delete (fun i => i.restoreJobId == cartId && i.id == itemId) }
      (.answer .removed)
  | deleted {cartId : Nat} :
    Effect db (.deleteJob cartId)
      { db with
        jobs := db.jobs.delete (fun j => j.id == cartId)
        items := db.items.delete (fun i => i.restoreJobId == cartId) }
      (.answer .removed)
  | goesOn {cartId : Nat} {stage stage' : Stage} {db' : CartDb} (goes : GoesOn db cartId stage db' stage') :
    Effect db (.run cartId stage) db' (.next (.run cartId stage'))
  | settled {cartId : Nat} {stage : Stage} {status : JobStatus} {lastError : Option String}
    {outcome : Outcome CartTask Reply} (ends : status ≠ .executing)
    (done : status = .done → stage = .finish none)
    (plain : ∀ cartId stage, outcome ≠ .next (.run cartId stage)) :
    Effect db (.run cartId stage)
      { db with
        jobs := db.jobs.update (fun j => j.id == cartId) (setStatus status lastError) (fun _ => rfl) }
      outcome

variable {db : CartDb} {task : CartTask} {cartId : Nat} {stage stage' : Stage} {item : RestoreItem}

theorem quiet_attempt {outcome : Outcome CartTask Reply} (plain : ∀ cartId stage, outcome ≠ .next (.run cartId stage))
    (other : ∀ cartId stage, task ≠ .run cartId stage) :
    Effect db task (attempt db (db, outcome)).1 (attempt db (db, outcome)).2 := by
  have left : ∀ cartId stage, task = .run cartId stage → ∀ job ∈ db.jobs, job.id = cartId →
      stage.bare = true ∧ db.failure ≠ none := fun cartId stage same => absurd same (other cartId stage)
  unfold attempt
  split
  · exact .quiet rfl rfl (Nat.le_refl _) plain left
  · exact .quiet rfl rfl (Nat.le_refl _) (by simp) left

theorem thrown {failure : Failure} (failed : db.failure = some failure)
    (bare : ∀ cartId stage, task = .run cartId stage → stage.bare = true) :
    Effect db task db (.answer (.failed failure)) :=
  .quiet rfl rfl (Nat.le_refl _) (by simp)
    (fun cartId stage same _ _ _ => ⟨bare cartId stage same, by simp [failed]⟩)

theorem GoesOn.reading {db' : CartDb} (supply : db.supply ≤ db'.supply) (jobs : db'.jobs = db.jobs)
    (items : db'.items = db.items)
    (pending : ∀ item ∈ stage'.items, item ∈ stage.items ∨ item ∈ db.items ∧ item.restoreJobId = cartId)
    (tracked : (stage.onTrack = true → Tracked db cartId stage.items) → stage'.onTrack = true →
      Tracked db cartId stage'.items) : GoesOn db cartId stage db' stage' := by
  refine ⟨supply, ⟨id, ?_, fun _ => ⟨rfl, rfl⟩⟩, ⟨id, ?_, fun _ => ⟨rfl, rfl, .inl rfl⟩⟩, pending, ?_⟩
  · rw [jobs, map_id]
  · rw [items, map_id]
  unfold Tracked at tracked ⊢
  rw [items]
  exact tracked

theorem applyNext_items (items : List RestoreItem) : (applyNext items).items = items := by
  cases items <;> rfl

theorem mem_itemsOf : item ∈ itemsOf db cartId ↔ item ∈ db.items ∧ item.restoreJobId = cartId := by
  simp [itemsOf, mem_selectAll]

theorem mem_pending {items : List RestoreItem} :
    item ∈ pending items ↔ item ∈ items ∧ complete item.status = false := by
  simp [pending]

theorem tracked_pending (db : CartDb) (cartId : Nat) : Tracked db cartId (pending (itemsOf db cartId)) := by
  intro row mem own
  cases status : complete row.status with
  | true => exact .inl rfl
  | false => exact .inr ⟨row, mem_pending.mpr ⟨mem_itemsOf.mpr ⟨mem, own⟩, status⟩, rfl⟩

theorem GoesOn.marking (item : RestoreItem) (rest : List RestoreItem) (g : RestoreItem → RestoreItem)
    (id : ∀ row, (g row).id = row.id) (own : ∀ row, (g row).restoreJobId = row.restoreJobId)
    (here : item ∈ stage.items) (later : ∀ i ∈ stage'.items, i ∈ stage.items)
    (before : stage'.onTrack = true → stage.onTrack = true ∧ stage.items = item :: rest)
    (after : stage'.onTrack = true → stage'.items = item :: rest ∨
      stage'.items = rest ∧ ∀ row, complete (g row).status = true) : GoesOn db cartId stage
      { db with items := db.items.update (fun i => i.id == item.id) g id } stage' := by
  refine ⟨Nat.le_refl _, ⟨fun job => job, (map_id _).symm, fun _ => ⟨rfl, rfl⟩⟩,
    ⟨apply (fun i => i.id == item.id) g, rfl, ?_⟩, fun i mem => .inl (later i mem), ?_⟩
  · intro row
    refine ⟨apply_column _ _ g id row, apply_column _ _ g own row, ?_⟩
    unfold apply
    split
    · rename_i selected
      exact .inr ⟨item, here, (eq_of_beq selected).symm⟩
    · exact .inl rfl
  · intro tracked onTrack row mem ownRow
    obtain ⟨stageTrack, items⟩ := before onTrack
    have all := tracked stageTrack
    rw [items] at all
    rcases (mem_update id).mp mem with ⟨old, other⟩ | ⟨old, memOld, selected, rfl⟩
    · rcases all row old ownRow with done | ⟨i, memi, same⟩
      · exact .inl done
      rcases mem_cons.mp memi with rfl | tail
      · rw [← same] at other
        simp at other
      refine .inr ⟨i, ?_, same⟩
      rcases after onTrack with all | ⟨all, _⟩
      · rw [all]
        exact memi
      · rw [all]
        exact tail
    · rcases after onTrack with all | ⟨_, completes⟩
      · rw [all]
        exact .inr ⟨item, mem_cons_self, ((id old).trans (eq_of_beq selected)).symm⟩
      · exact .inl (completes old)

theorem goes_on_same (items : stage'.items = stage.items)
    (track : stage'.onTrack = true → stage.onTrack = true) : GoesOn db cartId stage db stage' := by
  refine GoesOn.reading (Nat.le_refl _) rfl rfl ?_ ?_
  · rw [items]
    exact fun item mem => .inl mem
  · rw [items]
    exact fun tracked onTrack => tracked (track onTrack)

theorem goes_on_failed : GoesOn db cartId stage db .snapshotFailed :=
  GoesOn.reading (Nat.le_refl _) rfl rfl (fun _ mem => absurd mem not_mem_nil)
    (fun _ onTrack => absurd onTrack (by simp [Stage.onTrack]))

theorem run_effect (db : CartDb) (cartId : Nat) (stage : Stage) :
    Effect db (.run cartId stage) (advanceRun db cartId stage).1 (advanceRun db cartId stage).2 := by
  have bare {stage : Stage} (is : stage.bare = true) :
      ∀ c s, CartTask.run cartId stage = .run c s → s.bare = true := by
    intro c s same
    cases same
    exact is
  cases stage with
  | selectJob =>
    simp only [advanceRun]
    unfold attempt
    split
    · cases found : findJob db cartId with
      | none =>
        refine .quiet rfl rfl (Nat.le_refl _) (by simp [refused]) ?_
        intro c s same job mem own
        cases same
        simpa [own] using select_none found job mem
      | some job => exact .goesOn (goes_on_same rfl (by simp [Stage.onTrack]))
    · exact thrown (by assumption) (bare rfl)
  | selectItems job =>
    simp only [advanceRun]
    unfold attempt
    split
    · refine .goesOn (GoesOn.reading (Nat.le_refl _) rfl rfl ?_ ?_)
      · intro item mem
        refine .inr (mem_itemsOf.mp (mem_pending.mp ?_).1)
        split at mem
        · exact mem
        · rw [applyNext_items] at mem
          exact mem
      · intro _ _
        split
        · exact tracked_pending db cartId
        · rw [applyNext_items]
          exact tracked_pending db cartId
    · exact thrown (by assumption) (bare rfl)
  | snapshot tenantId items =>
    simp only [advanceRun]
    unfold guardedBy
    split
    · exact .goesOn (GoesOn.reading (Nat.le_succ _) rfl rfl (fun _ mem => .inl mem) (fun tracked _ => tracked rfl))
    · exact .goesOn goes_on_failed
  | recordSnapshot snapId items =>
    simp only [advanceRun]
    unfold guardedBy
    split
    · refine .goesOn ⟨Nat.le_refl _, ⟨apply (fun j => j.id == cartId) (setSnapshot snapId), rfl, ?_⟩,
        ⟨fun row => row, (map_id _).symm, fun _ => ⟨rfl, rfl, .inl rfl⟩⟩, ?_, ?_⟩
      · intro job
        exact ⟨apply_column _ _ (setSnapshot snapId) (fun _ => rfl) job,
          apply_column _ _ (setSnapshot snapId) (fun _ => rfl) job⟩
      · rw [applyNext_items]
        exact fun item mem => .inl mem
      · rw [applyNext_items]
        exact fun tracked _ => tracked rfl
    · exact .goesOn goes_on_failed
  | snapshotFailed =>
    simp only [advanceRun]
    unfold attempt
    split
    · exact .settled (by simp) (by simp) (by simp [refused])
    · exact thrown (by assumption) (bare rfl)
  | apply item rest =>
    simp only [advanceRun]
    unfold attempt
    split
    · exact .goesOn (GoesOn.marking item rest (setItem .applying none) (fun _ => rfl)
        (fun _ => rfl) mem_cons_self (fun _ mem => mem) (fun _ => ⟨rfl, rfl⟩) (fun _ => .inl rfl))
    · exact thrown (by assumption) (bare rfl)
  | dispatch item rest =>
    simp only [advanceRun]
    unfold guardedBy
    split
    · exact .goesOn (goes_on_same rfl (fun _ => rfl))
    refine .goesOn (GoesOn.reading (Nat.le_refl _) rfl rfl ?_ (fun _ onTrack => ?_))
    · intro i mem
      rw [mem_singleton.mp mem]
      exact .inl mem_cons_self
    · contradiction
  | itemDone item rest =>
    simp only [advanceRun]
    unfold guardedBy
    split
    · refine .goesOn (GoesOn.marking item rest setDone (fun _ => rfl) (fun _ => rfl)
        mem_cons_self ?_ (fun _ => ⟨rfl, rfl⟩) (fun _ => .inr ⟨applyNext_items rest, fun _ => rfl⟩))
      rw [applyNext_items]
      exact fun i mem => mem_cons_of_mem _ mem
    refine .goesOn (GoesOn.reading (Nat.le_refl _) rfl rfl ?_ (fun _ onTrack => ?_))
    · intro i mem
      rw [mem_singleton.mp mem]
      exact .inl mem_cons_self
    · contradiction
  | itemFailed item failure =>
    simp only [advanceRun]
    unfold attempt
    split
    · refine .goesOn (GoesOn.marking item [] (setItem .failed (some (safeMsg failure)))
        (fun _ => rfl) (fun _ => rfl) mem_cons_self (fun _ mem => absurd mem not_mem_nil) ?_ ?_)
      · exact fun onTrack => absurd onTrack (by simp [Stage.onTrack])
      · exact fun onTrack => absurd onTrack (by simp [Stage.onTrack])
    · exact thrown (by assumption) (bare rfl)
  | finish firstFailureMsg =>
    simp only [advanceRun]
    unfold attempt
    split
    · refine .settled ?_ ?_ (by simp)
      · cases firstFailureMsg <;> simp
      · cases firstFailureMsg <;> simp
    · exact thrown (by assumption) (bare rfl)

theorem advance_effect (db : CartDb) (task : CartTask) : Effect db task (advance db task).1 (advance db task).2 := by
  cases task with
  | run cartId stage => exact run_effect db cartId stage
  | execute cartId =>
    simp only [advance]
    unfold attempt
    split
    · split
      · rename_i found
        obtain ⟨job, found⟩ := Option.isSome_iff_exists.mp found
        obtain ⟨mem, own⟩ := mem_of_select found
        simp only [Bool.and_eq_true, beq_iff_eq, bne_iff_ne] at own
        exact .claimed ⟨job, mem, own⟩
      · exact .quiet rfl rfl (Nat.le_refl _) (by simp) (by simp)
    · exact thrown (by assumption) (by simp)
  | insertItem cartId bundleId payload =>
    simp only [advance]
    unfold attempt
    split
    · split
      · exact .inserted (by assumption) (by assumption)
      · exact .quiet rfl rfl (Nat.le_refl _) (by simp) (by simp)
    · exact thrown (by assumption) (by simp)
  | deleteItem cartId itemId =>
    simp only [advance]
    unfold attempt
    split
    · exact .removed (by assumption)
    · exact thrown (by assumption) (by simp)
  | deleteJob cartId =>
    simp only [advance]
    unfold attempt
    split
    · exact .deleted
    · exact thrown (by assumption) (by simp)
  | rollbackToSnapshot tenantId snapshotId =>
    simp only [advance]
    split
    · exact .quiet rfl rfl (Nat.le_succ _) (by simp) (by simp)
    · exact thrown (by assumption) (by simp)
    · exact .quiet rfl rfl (Nat.le_refl _) (by simp [refused]) (by simp)
  | _ =>
    refine quiet_attempt ?_ (by simp)
    intro c s
    repeat' split
    all_goals simp [refused, cartNotFound]

end HostingPlatform.BackupRestore.Cart
