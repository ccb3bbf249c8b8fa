import HostingPlatform.BackupRestore.Cart

/-! What holds of restore carts while requests come in any order. A cart is claimed by one request
at a time; what the others checked is not checked again when they write. -/
namespace HostingPlatform.BackupRestore.Cart

open Table List Interleaving Transition

def CartTask.executes : CartTask → Option RestoreItem
  | .run _ (.apply item _) | .run _ (.dispatch item _) | .run _ (.itemDone item _)
  | .run _ (.itemFailed item _) => some item
  | _ => none

def HasItem (db : CartDb) (cartId itemId : Nat) : Prop :=
  ∃ item ∈ db.items, item.restoreJobId = cartId ∧ item.id = itemId

def KeepsItems (db db' : CartDb) : Prop :=
  ∀ job ∈ db.jobs, (∃ after ∈ db'.jobs, after.id = job.id) → job.status ≠ .draft →
    ∀ itemId, HasItem db job.id itemId ↔ HasItem db' job.id itemId

def ItemsChangeInDraft (e : Event CartDb CartTask Reply) : Prop :=
  KeepsItems e.before (advance e.before e.task).1

structure CartHolds (w : Carts) : Prop where
  oneExecutor : ∀ p ∈ w.running, ∀ p' ∈ w.running, ∀ item ∈ p.task.executes,
    ∀ item' ∈ p'.task.executes, item.id = item'.id → p = p'
  changesInDraft : ∀ e ∈ w.log, ItemsChangeInDraft e
  doneComplete : ∀ job ∈ w.db.jobs, job.status = .done → ∀ item ∈ w.db.items,
    item.restoreJobId = job.id → item.status = .done ∨ item.status = .skipped
  released : ∀ job ∈ w.db.jobs, job.status = .executing →
    ∃ p ∈ w.running, ∃ stage, p.task = .run job.id stage

/-- An item that is added or removed finds its cart still a draft, and no statement of an execute
that stands outside of the `try` blocks throws. -/
def Undisturbed (w : Carts) : CartTask → Prop
  | .insertItem cartId _ _ =>
    w.db.failure = none → ∀ job ∈ w.db.jobs.rows, job.id = cartId → job.status = .draft
  | .deleteItem cartId itemId =>
    w.db.failure = none → (∃ item ∈ w.db.items.rows, item.restoreJobId = cartId ∧ item.id = itemId) →
      ∀ job ∈ w.db.jobs.rows, job.id = cartId → job.status = .draft
  | .run cartId stage =>
    stage.bare = true → (∃ job ∈ w.db.jobs.rows, job.id = cartId) → w.db.failure = none
  | _ => True

instance decUndisturbed (w : Carts) (task : CartTask) : Decidable (Undisturbed w task) := by
  unfold Undisturbed
  split <;> infer_instance

structure RunSafe (db : CartDb) (cartId : Nat) (stage : Stage) : Prop where
  bound : cartId < db.supply
  executing : ∀ job ∈ db.jobs, job.id = cartId → job.status = .executing
  own : ∀ item ∈ stage.items, item.id < db.supply ∧
    ∀ row ∈ db.items, row.id = item.id → row.restoreJobId = cartId
  tracked : stage.onTrack = true → Tracked db cartId stage.items

structure CartSafe (w : Carts) : Prop where
  jobBound : ∀ job ∈ w.db.jobs, job.id < w.db.supply
  itemBound : ∀ item ∈ w.db.items, item.id < w.db.supply
  runs : ∀ p ∈ w.running, ∀ cartId stage, p.task = .run cartId stage → RunSafe w.db cartId stage
  apart : ∀ p ∈ w.running, ∀ p' ∈ w.running, ∀ cartId stage stage', p.task = .run cartId stage →
    p'.task = .run cartId stage' → p = p'
  agree : ∀ p ∈ w.running, ∀ p' ∈ w.running, ∀ cartId stage cartId' stage',
    p.task = .run cartId stage → p'.task = .run cartId' stage' →
    ∀ item ∈ stage.items, ∀ item' ∈ stage'.items, item.id = item'.id → cartId = cartId'
  doneComplete : ∀ job ∈ w.db.jobs, job.status = .done → ∀ item ∈ w.db.items,
    item.restoreJobId = job.id → complete item.status = true
  released : ∀ job ∈ w.db.jobs, job.status = .executing →
    ∃ p ∈ w.running, ∃ stage, p.task = .run job.id stage
  changes : ∀ e ∈ w.log, ItemsChangeInDraft e

theorem executes_run {task : CartTask} {item : RestoreItem} (executes : item ∈ task.executes) :
    ∃ cartId stage, task = .run cartId stage ∧ item ∈ stage.items := by
  unfold CartTask.executes at executes
  split at executes
  · cases executes
    exact ⟨_, _, rfl, mem_cons_self⟩
  · cases executes
    exact ⟨_, _, rfl, mem_cons_self⟩
  · cases executes
    exact ⟨_, _, rfl, mem_cons_self⟩
  · cases executes
    exact ⟨_, _, rfl, mem_cons_self⟩
  · contradiction

theorem complete_iff {status : ItemStatus} : complete status = true ↔ status = .done ∨ status = .skipped := by
  cases status <;> simp [complete]

variable {w : Carts} {db db' : CartDb} {cartId : Nat} {p : Process CartTask}

theorem CartSafe.holds (safe : CartSafe w) : CartHolds w := by
  refine ⟨?_, safe.changes, ?_, safe.released⟩
  · intro p mem p' mem' item executes item' executes' same
    obtain ⟨cartId, stage, task, pending⟩ := executes_run executes
    obtain ⟨cartId', stage', task', pending'⟩ := executes_run executes'
    have carts := safe.agree p mem p' mem' cartId stage cartId' stage' task task' item pending item' pending' same
    subst carts
    exact safe.apart p mem p' mem' cartId stage stage' task task'
  · intro job mem done item there own
    exact complete_iff.mp (safe.doneComplete job mem done item there own)

theorem RunSafe.frame {stage : Stage} (safe : RunSafe db cartId stage) (supply : db.supply ≤ db'.supply)
    (jobs : ∀ after ∈ db'.jobs, after.id = cartId →
      ∃ job ∈ db.jobs, job.id = cartId ∧ job.status = after.status) (items : ∀ after ∈ db'.items,
      (∃ row ∈ db.items, row.id = after.id ∧ row.restoreJobId = after.restoreJobId ∧
      (row.restoreJobId = cartId → row.status = after.status)) ∨
      db.supply ≤ after.id ∧ after.restoreJobId ≠ cartId) : RunSafe db' cartId stage := by
  refine ⟨Nat.lt_of_lt_of_le safe.bound supply, ?_, ?_, ?_⟩
  · intro after mem id
    obtain ⟨job, memJob, same, status⟩ := jobs after mem id
    exact status ▸ safe.executing job memJob same
  · intro item pending
    obtain ⟨bound, own⟩ := safe.own item pending
    refine ⟨Nat.lt_of_lt_of_le bound supply, ?_⟩
    intro after mem id
    rcases items after mem with ⟨row, memRow, same, cart, _⟩ | ⟨new, _⟩
    · exact cart ▸ own row memRow (same.trans id)
    · omega
  · intro onTrack after mem own
    rcases items after mem with ⟨row, memRow, same, cart, status⟩ | ⟨_, other⟩
    · rw [← status (cart.trans own), ← same]
      exact safe.tracked onTrack row memRow (cart.trans own)
    · exact absurd own other

theorem frame_items (items : db'.items = db.items) : ∀ after ∈ db'.items,
      (∃ row ∈ db.items, row.id = after.id ∧ row.restoreJobId = after.restoreJobId ∧
        (row.restoreJobId = cartId → row.status = after.status)) ∨
      db.supply ≤ after.id ∧ after.restoreJobId ≠ cartId := by
  intro after mem
  rw [items] at mem
  exact .inl ⟨after, mem, rfl, rfl, fun _ => rfl⟩

theorem safe_after {outcome : Outcome CartTask Reply} (safe : CartSafe w)
    (jobBound : ∀ job ∈ db'.jobs, job.id < db'.supply) (itemBound : ∀ item ∈ db'.items, item.id < db'.supply)
    (others : ∀ q ∈ w.running, q.id ≠ p.id → ∀ cartId stage, q.task = .run cartId stage →
      RunSafe db' cartId stage) (mine : ∀ cartId stage, outcome = .next (.run cartId stage) → RunSafe db' cartId stage ∧
      ∀ q ∈ w.running, q.id ≠ p.id → ∀ cartId' stage', q.task = .run cartId' stage' →
      cartId ≠ cartId' ∧ ∀ item ∈ stage.items, ∀ item' ∈ stage'.items, item.id ≠ item'.id)
    (done : ∀ job ∈ db'.jobs, job.status = .done → ∀ item ∈ db'.items, item.restoreJobId = job.id →
      complete item.status = true) (released : ∀ job ∈ db'.jobs, job.status = .executing →
      (∃ stage, outcome = .next (.run job.id stage)) ∨
      ∃ q ∈ w.running, q.id ≠ p.id ∧ ∃ stage, q.task = .run job.id stage)
    (ran : (advance w.db p.task).1 = db') (changed : KeepsItems w.db db') (mem : p ∈ w.running) :
    CartSafe ⟨db', resume w.running p.id outcome, ⟨w.db, p.task, outcome⟩ :: w.log⟩ := by
  refine ⟨jobBound, itemBound, ?_, ?_, ?_, done, ?_, ?_⟩
  · intro q memq cartId stage task
    rcases mem_resume memq with ⟨old, other⟩ | ⟨_, next, rfl⟩
    · exact others q old other cartId stage task
    · exact (mine cartId stage (next.trans (congrArg Outcome.next task))).1
  · intro q memq q' memq' cartId stage stage' task task'
    rcases mem_resume memq with ⟨old, other⟩ | ⟨_, next, rfl⟩ <;>
      rcases mem_resume memq' with ⟨old', other'⟩ | ⟨_, next', rfl⟩
    · exact safe.apart q old q' old' cartId stage stage' task task'
    · have apart := (mine cartId stage' (next'.trans (congrArg Outcome.next task'))).2
      exact absurd rfl (apart q old other cartId stage task).1
    · have apart := (mine cartId stage (next.trans (congrArg Outcome.next task))).2
      exact absurd rfl (apart q' old' other' cartId stage' task').1
    · exact eq_of_key _ memq memq' rfl
  · intro q memq q' memq' cartId stage cartId' stage' task task' item pending item' pending' same
    rcases mem_resume memq with ⟨old, other⟩ | ⟨_, next, rfl⟩ <;>
      rcases mem_resume memq' with ⟨old', other'⟩ | ⟨_, next', rfl⟩
    · exact safe.agree q old q' old' cartId stage cartId' stage' task task' item pending item' pending' same
    · have apart := (mine cartId' stage' (next'.trans (congrArg Outcome.next task'))).2
      exact absurd same.symm ((apart q old other cartId stage task).2 item' pending' item pending)
    · have apart := (mine cartId stage (next.trans (congrArg Outcome.next task))).2
      exact absurd same ((apart q' old' other' cartId' stage' task').2 item pending item' pending')
    rw [next, Outcome.next.injEq] at next'
    have both : CartTask.run cartId stage = .run cartId' stage' := task.symm.trans (next'.trans task')
    cases both
    rfl
  · intro job memJob executing
    rcases released job memJob executing with ⟨stage, next⟩ | ⟨q, memq, other, stage, task⟩
    · refine ⟨⟨p.id, .run job.id stage⟩, ?_, stage, rfl⟩
      rw [next]
      exact @mem_resume_self _ Reply _ _ _ mem
    · exact ⟨q, mem_resume_other memq other, stage, task⟩
  · intro e meme
    rcases mem_cons.mp meme with rfl | old
    · unfold ItemsChangeInDraft
      rw [ran]
      exact changed
    · exact safe.changes e old

theorem unchanged_items {g : RestoreItem → RestoreItem} (rows : db'.items.rows = db.items.rows.map g)
    (same : ∀ row, (g row).id = row.id ∧ (g row).restoreJobId = row.restoreJobId) (cartId itemId : Nat) :
    HasItem db cartId itemId ↔ HasItem db' cartId itemId := by
  constructor
  · rintro ⟨row, mem, own, id⟩
    refine ⟨g row, ?_, (same row).2.trans own, (same row).1.trans id⟩
    rw [mem_rows, rows]
    exact mem_map_of_mem mem
  · rintro ⟨after, mem, own, id⟩
    rw [mem_rows, rows] at mem
    obtain ⟨row, memRow, rfl⟩ := mem_map.mp mem
    exact ⟨row, memRow, (same row).2.symm.trans own, (same row).1.symm.trans id⟩

theorem same_items (items : db'.items = db.items) (cartId itemId : Nat) :
    HasItem db cartId itemId ↔ HasItem db' cartId itemId := by
  unfold HasItem
  rw [items]

section steps
variable {w : Carts} {p : Process CartTask} {db' : CartDb} {outcome : Outcome CartTask Reply}

variable {cartId : Nat} {stage stage' : Stage} {q : Process CartTask}

theorem other_request (safe : CartSafe w) (mem : p ∈ w.running) (task : p.task = .run cartId stage)
    (memq : q ∈ w.running) (other : q.id ≠ p.id) {cartId' : Nat} (task' : q.task = .run cartId' stage') :
    cartId ≠ cartId' := by
  rintro rfl
  exact other (congrArg Process.id (safe.apart q memq p mem cartId stage' stage task' task))

theorem idle_request (mem : p ∈ w.running) (idle : ∀ cartId stage, p.task ≠ .run cartId stage)
    (memq : q ∈ w.running) (task : q.task = .run cartId stage) : q.id ≠ p.id := by
  intro same
  rw [w.running.eq_of_key memq mem same] at task
  exact idle cartId stage task

section

variable (safe : CartSafe w) (mem : p ∈ w.running)
include safe mem

theorem safe_quiet (ok : Undisturbed w p.task)
    (ran : (advance w.db p.task).1 = db') (jobs : db'.jobs = w.db.jobs) (items : db'.items = w.db.items)
    (supply : w.db.supply ≤ db'.supply) (plain : ∀ cartId stage, outcome ≠ .next (.run cartId stage))
    (left : ∀ cartId stage, p.task = .run cartId stage → ∀ job ∈ w.db.jobs, job.id = cartId →
      stage.bare = true ∧ w.db.failure ≠ none) :
    CartSafe ⟨db', resume w.running p.id outcome, ⟨w.db, p.task, outcome⟩ :: w.log⟩ := by
  refine safe_after safe ?_ ?_ ?_ ?_ ?_ ?_ ran ?_ mem
  · rw [jobs]
    exact fun job there => Nat.lt_of_lt_of_le (safe.jobBound job there) supply
  · rw [items]
    exact fun item there => Nat.lt_of_lt_of_le (safe.itemBound item there) supply
  · intro q memq _ cartId stage task
    refine (safe.runs q memq cartId stage task).frame supply ?_ (frame_items items)
    rw [jobs]
    exact fun job there own => ⟨job, there, own, rfl⟩
  · exact fun cartId stage next => absurd next (plain cartId stage)
  · rw [jobs, items]
    exact safe.doneComplete
  · rw [jobs]
    intro job there executing
    obtain ⟨q, memq, stage, task⟩ := safe.released job there executing
    by_cases same : q.id = p.id
    · rw [w.running.eq_of_key memq mem same] at task
      obtain ⟨bare, failed⟩ := left job.id stage task job there rfl
      rw [task] at ok
      exact absurd (ok bare ⟨job, there, rfl⟩) failed
    · exact .inr ⟨q, memq, same, stage, task⟩
  · exact fun job _ _ _ itemId => same_items items job.id itemId

theorem safe_claimed (task : p.task = .execute cartId)
    (free : ∃ job ∈ w.db.jobs, job.id = cartId ∧ job.status ≠ .executing)
    (ran : (advance w.db p.task).1 = db') (items : db'.items = w.db.items) (supply : db'.supply = w.db.supply)
    (jobs : db'.jobs = w.db.jobs.update (fun j => j.id == cartId && j.status != .executing) Cart.claimed
      (fun _ => rfl)) : CartSafe ⟨db', resume w.running p.id (.next (.run cartId .selectJob) : Outcome CartTask Reply),
      ⟨w.db, p.task, .next (.run cartId .selectJob)⟩ :: w.log⟩ := by
  obtain ⟨job, there, own, notExecuting⟩ := free
  have unclaimed : ∀ q ∈ w.running, ∀ stage, q.task ≠ .run cartId stage := by
    intro q memq stage task'
    exact notExecuting ((safe.runs q memq cartId stage task').executing job there own)
  have rows : ∀ after ∈ db'.jobs, after ∈ w.db.jobs ∧ (after.id = cartId → after.status = .executing) ∨
      after.id = cartId ∧ after.status = .executing := by
    intro after mem'
    rw [jobs] at mem'
    rcases (mem_update _).mp mem' with ⟨old, unselected⟩ | ⟨old, _, selected, rfl⟩
    · refine .inl ⟨old, fun id => ?_⟩
      simpa [id] using unselected
    · simp only [Bool.and_eq_true, beq_iff_eq] at selected
      exact Or.inr ⟨selected.1, rfl⟩
  refine safe_after safe ?_ ?_ ?_ ?_ ?_ ?_ ran ?_ mem
  · intro after mem'
    rw [supply]
    rcases rows after mem' with ⟨old, _⟩ | ⟨id, _⟩
    · exact safe.jobBound after old
    · rw [id, ← own]
      exact safe.jobBound job there
  · rw [items, supply]
    exact safe.itemBound
  · intro q memq _ cartId' stage task'
    refine (safe.runs q memq cartId' stage task').frame (Nat.le_of_eq supply.symm) ?_ (frame_items items)
    intro after mem' id
    rcases rows after mem' with ⟨old, _⟩ | ⟨same, _⟩
    · exact ⟨after, old, id, rfl⟩
    · rw [← id, same] at task'
      exact absurd task' (unclaimed q memq stage)
  · intro cartId' stage next
    cases next
    refine ⟨⟨?_, ?_, ?_, ?_⟩, ?_⟩
    · rw [supply, ← own]
      exact safe.jobBound job there
    · intro after mem' id
      rcases rows after mem' with ⟨_, executing⟩ | ⟨_, executing⟩
      · exact executing id
      · exact executing
    · exact fun item pending => absurd pending not_mem_nil
    · exact fun onTrack => absurd onTrack (by simp [Stage.onTrack])
    intro q memq _ cartId' stage' task'
    refine ⟨?_, fun item pending => absurd pending not_mem_nil⟩
    rintro rfl
    exact unclaimed q memq stage' task'
  · intro after mem' done
    rw [items]
    rcases rows after mem' with ⟨old, _⟩ | ⟨_, executing⟩
    · exact safe.doneComplete after old done
    · rw [executing] at done
      contradiction
  · intro after mem' executing
    rcases rows after mem' with ⟨old, _⟩ | ⟨id, _⟩
    · obtain ⟨q, memq, stage, task'⟩ := safe.released after old executing
      exact .inr ⟨q, memq, idle_request mem (by simp [task]) memq task', stage, task'⟩
    · rw [id]
      exact .inl ⟨.selectJob, rfl⟩
  · exact fun job _ _ _ itemId => same_items items job.id itemId

theorem safe_items (idle : ∀ cartId stage, p.task ≠ .run cartId stage)
    (plain : ∀ cartId stage, outcome ≠ .next (.run cartId stage)) (ran : (advance w.db p.task).1 = db')
    (supply : w.db.supply ≤ db'.supply) (jobs : ∀ after ∈ db'.jobs, after ∈ w.db.jobs)
    (itemBound : ∀ item ∈ db'.items, item.id < db'.supply)
    (items : ∀ after ∈ db'.items, after ∈ w.db.items ∨ w.db.supply ≤ after.id ∧
      ∃ job ∈ w.db.jobs, job.id = after.restoreJobId ∧ job.status = .draft) (changed : KeepsItems w.db db') :
    CartSafe ⟨db', resume w.running p.id outcome, ⟨w.db, p.task, outcome⟩ :: w.log⟩ := by
  refine safe_after safe ?_ itemBound ?_ ?_ ?_ ?_ ran changed mem
  · exact fun job there => Nat.lt_of_lt_of_le (safe.jobBound job (jobs job there)) supply
  · intro q memq _ cartId stage task
    have run := safe.runs q memq cartId stage task
    refine run.frame supply (fun after there own => ⟨after, jobs after there, own, rfl⟩) ?_
    intro after there
    rcases items after there with old | ⟨new, job, memJob, own, draft⟩
    · exact .inl ⟨after, old, rfl, rfl, fun _ => rfl⟩
    refine .inr ⟨new, ?_⟩
    intro same
    rw [run.executing job memJob (own.trans same)] at draft
    contradiction
  · exact fun cartId stage next => absurd next (plain cartId stage)
  · intro job there done item memItem own
    rcases items item memItem with old | ⟨_, job', memJob, same, draft⟩
    · exact safe.doneComplete job (jobs job there) done item old own
    · rw [w.db.jobs.eq_of_key memJob (jobs job there) (same.trans own), done] at draft
      contradiction
  · intro job there executing
    obtain ⟨q, memq, stage, task⟩ := safe.released job (jobs job there) executing
    exact .inr ⟨q, memq, idle_request mem idle memq task, stage, task⟩

theorem safe_inserted {bundleId : Nat} {payload : ItemPayload}
    (task : p.task = .insertItem cartId bundleId payload) (ok : Undisturbed w p.task)
    (works : w.db.failure = none) {items : Table RestoreItem RestoreItem.id}
    (done : insertItem w.db cartId bundleId payload = some items)
    (ran : (advance w.db p.task).1 = { w.db with items, supply := w.db.supply + 1 })
    (plain : ∀ cartId stage, outcome ≠ .next (.run cartId stage)) :
    CartSafe ⟨{ w.db with items, supply := w.db.supply + 1 }, resume w.running p.id outcome,
      ⟨w.db, p.task, outcome⟩ :: w.log⟩ := by
  unfold insertItem at done
  split at done
  · rename_i found
    obtain ⟨job, found⟩ := Option.isSome_iff_exists.mp found
    obtain ⟨memJob, own⟩ := mem_of_select found
    rw [task] at ok
    have draft : job.status = .draft := ok works job memJob (eq_of_beq own)
    refine safe_items safe mem (by simp [task]) plain ran (Nat.le_succ _) (fun _ there => there) ?_ ?_ ?_
    · intro item there
      rcases (mem_insert done).mp there with rfl | old
      · exact Nat.lt_succ_self _
      · exact Nat.lt_succ_of_lt (safe.itemBound item old)
    · intro item there
      rcases (mem_insert done).mp there with rfl | old
      · exact .inr ⟨Nat.le_refl _, job, memJob, eq_of_beq own, draft⟩
      · exact .inl old
    intro other memOther _ notDraft itemId
    constructor
    · rintro ⟨item, there, mine, id⟩
      exact ⟨item, (mem_insert done).mpr (.inr there), mine, id⟩
    rintro ⟨item, there, mine, id⟩
    rcases (mem_insert done).mp there with rfl | old
    · exact absurd (ok works other memOther mine.symm) notDraft
    · exact ⟨item, old, mine, id⟩
  · contradiction

theorem safe_removed {itemId : Nat}
    (task : p.task = .deleteItem cartId itemId) (ok : Undisturbed w p.task) (works : w.db.failure = none)
    (ran : (advance w.db p.task).1 = db') (jobs : db'.jobs = w.db.jobs) (supply : db'.supply = w.db.supply)
    (items : db'.items = w.db.items.delete (fun i => i.restoreJobId == cartId && i.id == itemId))
    (plain : ∀ cartId stage, outcome ≠ .next (.run cartId stage)) :
    CartSafe ⟨db', resume w.running p.id outcome, ⟨w.db, p.task, outcome⟩ :: w.log⟩ := by
  have kept : ∀ item ∈ db'.items, item ∈ w.db.items := by
    intro item there
    rw [items] at there
    exact (mem_delete.mp there).1
  rw [task] at ok
  refine safe_items safe mem (by simp [task]) plain ran (Nat.le_of_eq supply.symm) ?_ ?_ ?_ ?_
  · rw [jobs]
    exact fun _ there => there
  · rw [supply]
    exact fun item there => safe.itemBound item (kept item there)
  · exact fun item there => .inl (kept item there)
  intro job memJob _ notDraft id
  constructor
  · rintro ⟨item, there, mine, same⟩
    refine ⟨item, ?_, mine, same⟩
    rw [items]
    refine mem_delete.mpr ⟨there, ?_⟩
    by_contra selected
    simp only [Bool.not_eq_false, Bool.and_eq_true, beq_iff_eq] at selected
    exact notDraft (ok works ⟨item, there, selected⟩ job memJob (mine.symm.trans selected.1))
  · rintro ⟨item, there, mine, same⟩
    exact ⟨item, kept item there, mine, same⟩

theorem safe_deleted (task : p.task = .deleteJob cartId)
    (ran : (advance w.db p.task).1 = db') (jobs : db'.jobs = w.db.jobs.delete (fun j => j.id == cartId))
    (supply : db'.supply = w.db.supply) (items : db'.items = w.db.items.delete (fun i => i.restoreJobId == cartId))
    (plain : ∀ cartId stage, outcome ≠ .next (.run cartId stage)) :
    CartSafe ⟨db', resume w.running p.id outcome, ⟨w.db, p.task, outcome⟩ :: w.log⟩ := by
  have kept : ∀ item ∈ db'.items, item ∈ w.db.items := by
    intro item there
    rw [items] at there
    exact (mem_delete.mp there).1
  refine safe_items safe mem (by simp [task]) plain ran (Nat.le_of_eq supply.symm) ?_ ?_ ?_ ?_
  · rw [jobs]
    exact fun job there => (mem_delete.mp there).1
  · rw [supply]
    exact fun item there => safe.itemBound item (kept item there)
  · exact fun item there => .inl (kept item there)
  rintro job memJob ⟨after, there, same⟩ _ id
  rw [jobs] at there
  have other : (after.id == cartId) = false := (mem_delete.mp there).2
  constructor
  · rintro ⟨item, memItem, mine, sameId⟩
    refine ⟨item, ?_, mine, sameId⟩
    rw [items]
    refine mem_delete.mpr ⟨memItem, ?_⟩
    rw [mine, ← same]
    exact other
  · rintro ⟨item, memItem, mine, sameId⟩
    exact ⟨item, kept item memItem, mine, sameId⟩

theorem safe_goes_on (task : p.task = .run cartId stage)
    (ran : (advance w.db p.task).1 = db') (goes : GoesOn w.db cartId stage db' stage') :
    CartSafe ⟨db', resume w.running p.id (.next (.run cartId stage') : Outcome CartTask Reply),
      ⟨w.db, p.task, .next (.run cartId stage')⟩ :: w.log⟩ := by
  have mine := safe.runs p mem cartId stage task
  obtain ⟨f, jobRows, sameJob⟩ := goes.jobs
  obtain ⟨g, itemRows, sameItem⟩ := goes.items
  have job_origin : ∀ after ∈ db'.jobs, ∃ job ∈ w.db.jobs, job.id = after.id ∧ job.status = after.status := by
    intro after there
    rw [mem_rows, jobRows] at there
    obtain ⟨job, memJob, rfl⟩ := mem_map.mp there
    exact ⟨job, memJob, (sameJob job).1.symm, (sameJob job).2.symm⟩
  -- a row that is written is one of this cart's
  have item_origin : ∀ after ∈ db'.items, ∃ row ∈ w.db.items, row.id = after.id ∧
      row.restoreJobId = after.restoreJobId ∧ (row.restoreJobId ≠ cartId → row.status = after.status) := by
    intro after there
    rw [mem_rows, itemRows] at there
    obtain ⟨row, memRow, rfl⟩ := mem_map.mp there
    obtain ⟨id, own, status⟩ := sameItem row
    refine ⟨row, memRow, id.symm, own.symm, ?_⟩
    intro other
    rcases status with same | ⟨item, pending, sameId⟩
    · exact same.symm
    · exact absurd ((mine.own item pending).2 row memRow sameId.symm) other
  refine safe_after safe ?_ ?_ ?_ ?_ ?_ ?_ ran ?_ mem
  · intro after there
    obtain ⟨job, memJob, id, _⟩ := job_origin after there
    rw [← id]
    exact Nat.lt_of_lt_of_le (safe.jobBound job memJob) goes.supply
  · intro after there
    obtain ⟨row, memRow, id, _⟩ := item_origin after there
    rw [← id]
    exact Nat.lt_of_lt_of_le (safe.itemBound row memRow) goes.supply
  · intro q memq other cartId' stage'' task'
    have differs := other_request safe mem task memq other task'
    refine (safe.runs q memq cartId' stage'' task').frame goes.supply ?_ ?_
    · intro after there own
      obtain ⟨job, memJob, id, status⟩ := job_origin after there
      exact ⟨job, memJob, id.trans own, status⟩
    · intro after there
      obtain ⟨row, memRow, id, own, status⟩ := item_origin after there
      exact .inl ⟨row, memRow, id, own, fun same => status (fun here => differs (here.symm.trans same))⟩
  · intro cartId' stage'' next
    cases next
    refine ⟨⟨Nat.lt_of_lt_of_le mine.bound goes.supply, ?_, ?_, goes.tracked mine.tracked⟩, ?_⟩
    · intro after there own
      obtain ⟨job, memJob, id, status⟩ := job_origin after there
      exact status ▸ mine.executing job memJob (id.trans own)
    · intro item pending
      have known : item.id < w.db.supply ∧ ∀ row ∈ w.db.items, row.id = item.id → row.restoreJobId = cartId := by
        rcases goes.pending item pending with old | ⟨read, own⟩
        · exact mine.own item old
        refine ⟨safe.itemBound item read, ?_⟩
        intro row memRow same
        rw [w.db.items.eq_of_key memRow read same]
        exact own
      refine ⟨Nat.lt_of_lt_of_le known.1 goes.supply, ?_⟩
      intro after there same
      obtain ⟨row, memRow, id, own, _⟩ := item_origin after there
      exact own ▸ known.2 row memRow (id.trans same)
    · intro q memq other cartId' stage'' task'
      have differs := other_request safe mem task memq other task'
      refine ⟨differs, ?_⟩
      intro item pending item' pending' same
      rcases goes.pending item pending with old | ⟨read, own⟩
      · exact differs (safe.agree p mem q memq cartId stage cartId' stage'' task task' item old item' pending' same)
      · have theirs := (safe.runs q memq cartId' stage'' task').own item' pending'
        exact differs (own.symm.trans (theirs.2 item read same))
  · intro after there done item memItem own
    obtain ⟨job, memJob, id, status⟩ := job_origin after there
    obtain ⟨row, memRow, _, ownRow, sameStatus⟩ := item_origin item memItem
    have notDone : row.restoreJobId ≠ cartId := by
      intro here
      have executing := mine.executing job memJob (id.trans (own.symm.trans (ownRow.symm.trans here)))
      rw [status, done] at executing
      contradiction
    rw [← sameStatus notDone]
    exact safe.doneComplete job memJob (status.trans done) row memRow (ownRow.trans (own.trans id.symm))
  · intro after there executing
    obtain ⟨job, memJob, id, status⟩ := job_origin after there
    obtain ⟨q, memq, stage'', task'⟩ := safe.released job memJob (status.trans executing)
    by_cases same : q.id = p.id
    · rw [w.running.eq_of_key memq mem same, task] at task'
      cases task'
      exact .inl ⟨stage', by rw [id]⟩
    · exact .inr ⟨q, memq, same, stage'', id ▸ task'⟩
  · intro job _ _ _ itemId
    exact unchanged_items itemRows (fun row => ⟨(sameItem row).1, (sameItem row).2.1⟩) job.id itemId

theorem safe_settled (task : p.task = .run cartId stage)
    {status : JobStatus} {lastError : Option String} (ends : status ≠ .executing)
    (done : status = .done → stage = .finish none)
    (plain : ∀ cartId stage, outcome ≠ .next (.run cartId stage)) (ran : (advance w.db p.task).1 = db')
    (items : db'.items = w.db.items) (supply : db'.supply = w.db.supply)
    (jobs : db'.jobs = w.db.jobs.update (fun j => j.id == cartId) (setStatus status lastError) (fun _ => rfl)) :
    CartSafe ⟨db', resume w.running p.id outcome, ⟨w.db, p.task, outcome⟩ :: w.log⟩ := by
  have mine := safe.runs p mem cartId stage task
  have rows : ∀ after ∈ db'.jobs, after ∈ w.db.jobs ∧ after.id ≠ cartId ∨
      after.id = cartId ∧ after.status = status := by
    intro after there
    rw [jobs] at there
    rcases (mem_update _).mp there with ⟨old, other⟩ | ⟨old, _, own, rfl⟩
    · exact .inl ⟨old, by simpa using other⟩
    · exact .inr ⟨eq_of_beq own, rfl⟩
  refine safe_after safe ?_ ?_ ?_ ?_ ?_ ?_ ran ?_ mem
  · intro after there
    rw [supply]
    rcases rows after there with ⟨old, _⟩ | ⟨own, _⟩
    · exact safe.jobBound after old
    · rw [own]
      exact mine.bound
  · rw [items, supply]
    exact safe.itemBound
  · intro q memq other cartId' stage' task'
    refine (safe.runs q memq cartId' stage' task').frame (Nat.le_of_eq supply.symm) ?_ (frame_items items)
    intro after there own
    rcases rows after there with ⟨old, _⟩ | ⟨same, _⟩
    · exact ⟨after, old, own, rfl⟩
    · exact absurd (same.symm.trans own) (other_request safe mem task memq other task')
  · exact fun cartId stage next => absurd next (plain cartId stage)
  · intro after there isDone item memItem own
    rw [items] at memItem
    rcases rows after there with ⟨old, _⟩ | ⟨same, settled⟩
    · exact safe.doneComplete after old isDone item memItem own
    -- no item was left to come to
    have finished := done (settled.symm.trans isDone)
    subst finished
    rcases mine.tracked rfl item memItem (own.trans same) with complete | ⟨_, none, _⟩
    · exact complete
    · exact absurd none not_mem_nil
  · intro after there executing
    rcases rows after there with ⟨old, other⟩ | ⟨_, settled⟩
    · obtain ⟨q, memq, stage', task'⟩ := safe.released after old executing
      refine .inr ⟨q, memq, ?_, stage', task'⟩
      intro same
      rw [w.running.eq_of_key memq mem same, task] at task'
      cases task'
      exact other rfl
    · exact absurd (settled.symm.trans executing) ends
  · exact fun job _ _ _ itemId => same_items items job.id itemId

theorem safe_advance (ok : Undisturbed w p.task) : CartSafe (carts.run w p) := by
  have effect := advance_effect w.db p.task
  show CartSafe ⟨(advance w.db p.task).1, resume w.running p.id (advance w.db p.task).2,
    ⟨w.db, p.task, (advance w.db p.task).2⟩ :: w.log⟩
  generalize (advance w.db p.task).2 = outcome at effect ⊢
  generalize after : (advance w.db p.task).1 = db' at effect ⊢
  generalize task : p.task = t at effect
  cases effect with
  | quiet jobs items supply plain left =>
    exact task ▸ safe_quiet safe mem ok after jobs items supply plain (task ▸ left)
  | claimed free => exact task ▸ safe_claimed safe mem task free after rfl rfl rfl
  | inserted works done => exact task ▸ safe_inserted safe mem task ok works done after (by simp)
  | removed works => exact task ▸ safe_removed safe mem task ok works after rfl rfl rfl (by simp)
  | deleted => exact task ▸ safe_deleted safe mem task after rfl rfl rfl (by simp)
  | goesOn goes => exact task ▸ safe_goes_on safe mem task after goes
  | settled ends done plain => exact task ▸ safe_settled safe mem task ends done plain after rfl rfl rfl

end

end steps

theorem safe_initial : CartSafe (World.initial CartDb.empty) where
  jobBound := fun _ mem => absurd mem (not_mem_empty _)
  itemBound := fun _ mem => absurd mem (not_mem_empty _)
  runs := fun _ mem => absurd mem (not_mem_empty _)
  apart := fun _ mem => absurd mem (not_mem_empty _)
  agree := fun _ mem => absurd mem (not_mem_empty _)
  doneComplete := fun _ mem => absurd mem (not_mem_empty _)
  released := fun _ mem => absurd mem (not_mem_empty _)
  changes := fun _ mem => absurd mem not_mem_nil

theorem safe_arrive {running : Table (Process CartTask) Process.id} (safe : CartSafe w)
    (requested : p.task.isRequest = true) (inserted : w.running.insert p = some running) :
    CartSafe { w with running } := by
  have fresh : ∀ cartId stage, p.task ≠ .run cartId stage := by
    intro cartId stage task
    rw [task] at requested
    contradiction
  have old : ∀ q ∈ running, ∀ cartId stage, q.task = .run cartId stage → q ∈ w.running := by
    intro q mem cartId stage task
    rcases (mem_insert inserted).mp mem with rfl | there
    · exact absurd task (fresh cartId stage)
    · exact there
  refine { safe with runs := ?_, apart := ?_, agree := ?_, released := ?_ }
  · exact fun q mem cartId stage task => safe.runs q (old q mem cartId stage task) cartId stage task
  · intro q mem q' mem' cartId stage stage' task task'
    exact safe.apart q (old q mem cartId stage task) q' (old q' mem' cartId stage' task') cartId stage stage'
      task task'
  · intro q mem q' mem' cartId stage cartId' stage' task task'
    exact safe.agree q (old q mem cartId stage task) q' (old q' mem' cartId' stage' task') cartId stage
      cartId' stage' task task'
  · intro job mem executing
    obtain ⟨q, memq, stage, task⟩ := safe.released job mem executing
    exact ⟨q, (mem_insert inserted).mpr (.inr memq), stage, task⟩

theorem safe_environment (safe : CartSafe w) (change : Change) : CartSafe { w with db := change.apply w.db } := by
  have items : (change.apply w.db).items = w.db.items := by cases change <;> rfl
  have supply : w.db.supply ≤ (change.apply w.db).supply := by
    cases change with
    | createCart => exact Nat.le_succ _
    | _ => exact Nat.le_refl _
  have rows : ∀ job ∈ (change.apply w.db).jobs, job ∈ w.db.jobs ∨
      job.id = w.db.supply ∧ job.status = .draft ∧ w.db.supply < (change.apply w.db).supply := by
    intro job mem
    cases change with
    | createCart tenantId =>
      have there : job ∈ (w.db.jobs.insert ⟨w.db.supply, tenantId, .draft, none, none⟩).getD w.db.jobs := mem
      cases inserted : w.db.jobs.insert ⟨w.db.supply, tenantId, .draft, none, none⟩ with
      | none =>
        rw [inserted] at there
        exact .inl there
      | some jobs =>
        rw [inserted] at there
        rcases (mem_insert inserted).mp there with rfl | old
        · exact .inr ⟨rfl, rfl, Nat.lt_succ_self _⟩
        · exact .inl old
    | _ => exact .inl mem
  refine { safe with jobBound := ?_, itemBound := ?_, runs := ?_, doneComplete := ?_, released := ?_ }
  · intro job mem
    rcases rows job mem with old | ⟨id, _, grown⟩
    · exact Nat.lt_of_lt_of_le (safe.jobBound job old) supply
    · rw [id]
      exact grown
  · intro item mem
    have there : item ∈ w.db.items := items ▸ mem
    exact Nat.lt_of_lt_of_le (safe.itemBound item there) supply
  · intro p mem cartId stage task
    have run := safe.runs p mem cartId stage task
    refine run.frame supply ?_ (frame_items items)
    intro job there own
    rcases rows job there with old | ⟨id, _⟩
    · exact ⟨job, old, own, rfl⟩
    · have bound := run.bound
      omega
  · intro job mem done item memItem
    have there : item ∈ w.db.items := items ▸ memItem
    rcases rows job mem with old | ⟨_, draft, _⟩
    · exact safe.doneComplete job old done item there
    · rw [draft] at done
      contradiction
  · intro job mem executing
    rcases rows job mem with old | ⟨_, draft, _⟩
    · exact safe.released job old executing
    · rw [draft] at executing
      contradiction

theorem findJob_of_mem {job : RestoreJob} (mem : job ∈ db.jobs) : (findJob db job.id).isSome = true := by
  cases found : findJob db job.id with
  | none => simpa using select_none found job mem
  | some _ => rfl

theorem disturbed_breaks (safe : CartSafe w) (mem : p ∈ w.running) (disturbed : ¬ Undisturbed w p.task) :
    ¬ CartHolds (carts.run w p) := by
  intro holds
  have changed : KeepsItems w.db (advance w.db p.task).1 :=
    holds.changesInDraft ⟨w.db, p.task, (advance w.db p.task).2⟩ mem_cons_self
  generalize task : p.task = t at disturbed changed
  cases t with
  | insertItem cartId bundleId payload =>
    simp only [Undisturbed] at disturbed
    push Not at disturbed
    obtain ⟨works, job, memJob, rfl, notDraft⟩ := disturbed
    -- the new item's id is no other's
    have fresh : w.db.supply ∉ w.db.items.rows.map RestoreItem.id := by
      intro known
      obtain ⟨item, there, id⟩ := mem_map.mp known
      have bound := safe.itemBound item there
      omega
    cases inserted : insertItem w.db job.id bundleId payload with
    | none =>
      unfold insertItem at inserted
      rw [if_pos (findJob_of_mem memJob)] at inserted
      simp only [Table.insert] at inserted
      rw [dif_pos fresh] at inserted
      contradiction
    | some items =>
      have ran : (advance w.db (.insertItem job.id bundleId payload)).1 =
          { w.db with items, supply := w.db.supply + 1 } := by
        simp [advance, attempt, works, inserted]
      rw [ran] at changed
      have both := changed job memJob ⟨job, memJob, rfl⟩ notDraft w.db.supply
      unfold insertItem at inserted
      rw [if_pos (findJob_of_mem memJob)] at inserted
      obtain ⟨item, there, _, id⟩ := both.mpr ⟨_, (mem_insert inserted).mpr (.inl rfl), rfl, rfl⟩
      have bound := safe.itemBound item there
      omega
  | deleteItem cartId itemId =>
    simp only [Undisturbed] at disturbed
    push Not at disturbed
    obtain ⟨works, ⟨item, there, rfl, rfl⟩, job, memJob, own, notDraft⟩ := disturbed
    have ran : (advance w.db (.deleteItem item.restoreJobId item.id)).1 =
        { w.db with items := w.db.items.delete (fun i => i.restoreJobId == item.restoreJobId && i.id == item.id) } := by
      simp [advance, attempt, works]
    rw [ran] at changed
    have both := changed job memJob ⟨job, memJob, rfl⟩ notDraft item.id
    obtain ⟨kept, left, mine, same⟩ := both.mp ⟨item, there, own.symm, rfl⟩
    have unselected := (mem_delete.mp left).2
    simp [mine, same, own] at unselected
  | run cartId stage =>
    simp only [Undisturbed] at disturbed
    push Not at disturbed
    obtain ⟨bare, ⟨job, memJob, rfl⟩, failed⟩ := disturbed
    obtain ⟨failure, failed⟩ := Option.ne_none_iff_exists'.mp failed
    have ran : advance w.db p.task = (w.db, .answer (.failed failure)) := by
      rw [task]
      cases stage <;> first | contradiction | simp [advance, advanceRun, attempt, failed]
    have still : job ∈ (carts.run w p).db.jobs := by
      show job ∈ (advance w.db p.task).1.jobs
      rw [ran]
      exact memJob
    obtain ⟨q, memq, stage', task'⟩ :=
      holds.released job still ((safe.runs p mem job.id stage task).executing job memJob rfl)
    have left : q ∈ resume w.running p.id (.answer (.failed failure) : Outcome CartTask Reply) := by
      have memq' : q ∈ resume w.running p.id (advance w.db p.task).2 := memq
      rw [ran] at memq'
      exact memq'
    obtain ⟨old, other⟩ := mem_resume_answer left
    exact other (congrArg Process.id (safe.apart q old p mem job.id stage' stage task' task))
  | _ => exact disturbed trivial

/-- The runs in which no item is executed twice at a time or added or removed outside of a draft,
no cart is done early, and none is left executing, are the runs that nothing disturbs. -/
theorem carts_hold_iff_undisturbed (actions : List (Action CartTask Change)) (w : Carts)
    (run : exec carts.step (World.initial CartDb.empty) actions = some w) :
    Guarded carts.step (onAdvance Undisturbed) (World.initial CartDb.empty) actions ↔
      Always carts.step CartHolds (World.initial CartDb.empty) actions :=
  System.guarded_iff_always (fun _ _ _ safe requested inserted => safe_arrive safe requested inserted)
    (fun _ _ safe mem undisturbed => safe_advance safe mem undisturbed)
    (fun _ change safe => safe_environment safe change) (fun _ safe => safe.holds)
    (fun _ _ safe mem disturbed => disturbed_breaks safe mem disturbed) safe_initial run

/- a cart of tenant 1 with an item -/
def aCart : List (Action CartTask Change) :=
  .environment (.createCart 1) :: .environment (.putBundle ⟨7, 1⟩) ::
    .arrive 1 (.addItem 0 7 (.configTables .all)) :: List.replicate 4 (.advance 1)

/- it is executed, and executed again while it is -/
def executedTwice : List (Action CartTask Change) :=
  List.flatten [aCart, [.arrive 1 (.execute 0), .advance 1, .advance 1, .advance 1, .arrive 2 (.execute 0),
    .advance 2, .advance 2], List.replicate 5 (.advance 1)]

theorem carts_hold_executed_twice : ∃ w, exec carts.step (World.initial CartDb.empty) executedTwice = some w ∧
      Always carts.step CartHolds (World.initial CartDb.empty) executedTwice := by
  refine ⟨_, rfl, (carts_hold_iff_undisturbed executedTwice _ rfl).mp ?_⟩
  decide

/- a second item, which is checked before the cart is executed and added after its items are read -/
def addedLate : List (Action CartTask Change) :=
  List.flatten [aCart, [.arrive 2 (.addItem 0 7 (.configTables .all)), .advance 2, .advance 2,
    .arrive 1 (.execute 0), .advance 1, .advance 1, .advance 1, .advance 2], List.replicate 4 (.advance 1)]

/- the database is away when the item is to be marked as applying -/
def awayAtApply : List (Action CartTask Change) :=
  List.flatten [aCart, [.arrive 1 (.execute 0), .advance 1, .advance 1, .advance 1,
    .environment (.setFailure (some (.error "connection terminated"))), .advance 1,
    .environment (.setFailure none)]]

theorem done_early (early : w.db.jobs.rows.any (fun job => job.status == .done &&
      w.db.items.rows.any (fun item => item.restoreJobId == job.id && item.status == .pending)) = true) :
    ¬ CartHolds w := by
  intro holds
  obtain ⟨job, mem, both⟩ := any_eq_true.mp early
  rw [Bool.and_eq_true] at both
  obtain ⟨item, there, own⟩ := any_eq_true.mp both.2
  rw [Bool.and_eq_true] at own
  have status := eq_of_beq own.2
  rcases holds.doneComplete job mem (eq_of_beq both.1) item there (eq_of_beq own.1) with done | skipped
  · rw [status] at done
    contradiction
  · rw [status] at skipped
    contradiction

theorem left_executing
    (left : (w.running.rows.isEmpty && w.db.jobs.rows.any (fun job => job.status == .executing)) = true) :
    ¬ CartHolds w := by
  intro holds
  rw [Bool.and_eq_true, any_eq_true] at left
  obtain ⟨none, job, mem, executing⟩ := left
  obtain ⟨p, memp, _⟩ := holds.released job mem (eq_of_beq executing)
  rw [mem_rows, isEmpty_iff.mp none] at memp
  contradiction

/-- A cart that is done with an item still pending, and one that is left executing. -/
theorem done_early_and_left_executing :
    (∃ w, exec carts.step (World.initial CartDb.empty) addedLate = some w ∧ ¬ CartHolds w) ∧
    ∃ w, exec carts.step (World.initial CartDb.empty) awayAtApply = some w ∧ ¬ CartHolds w :=
  ⟨⟨_, rfl, done_early (by decide)⟩, _, rfl, left_executing (by decide)⟩

end HostingPlatform.BackupRestore.Cart
