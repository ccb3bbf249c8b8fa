import HostingPlatform.Deployments.StatusReconciler
import HostingPlatform.Deployments.UpgradeVersion

/-! The writes of a row's status: passes of the reconciler beside the operations of users, each between
its statements. -/
namespace HostingPlatform.Deployments.StatusWrites

open Option Table Interleaving Transition Js
open VersionRuns (Result)

/- an operation of a user, or a pass that had read its rows when there were so many writes -/
inductive Cause where
  | delete | restore | update | version
  | pass (readAt : Nat)
  deriving DecidableEq

def Cause.ofUser : Cause → Bool
  | .pass _ => false
  | _ => true

structure Write where
  row : Nat
  (before after : DeploymentStatus)
  cause : Cause
  time : Nat
  deriving DecidableEq

inductive Effect where
  | nothing
  | delete (id : Nat)
  | restore (id : Nat)
  | update (id : Nat) (input : UpdateDeploymentInput)
  | fail (id : Nat)
  | lock (a : VersionAttempt)
  | finish (a : VersionAttempt)
  | revert (a : VersionAttempt)
  | reconcile (id : Nat) (seen : StatusUpdate) (readAt : Nat)

def Effect.matches_ (row : DeploymentRow) : Effect → Bool
  | .nothing => false
  | .delete id | .restore id | .update id _ | .fail id | .reconcile id _ _ => row.id == id
  | .lock a => row.id == a.deployment.id && a.matches_ row
  | .finish a | .revert a => row.id == a.deployment.id

def Effect.assign (now : Int) (row : DeploymentRow) : Effect → DeploymentRow
  | .nothing => row
  | .delete _ =>
    { row with
      status := .deleted
      updatedAt := now }
  | .restore _ =>
    { row with
      status := .running
      updatedAt := now }
  | .update _ input => { input.assign row with updatedAt := now }
  | .fail _ =>
    { row with
      status := .failed
      updatedAt := now }
  | .lock a => a.lock now row
  | .finish a => a.finish now row
  | .revert a => a.revert now row
  | .reconcile _ seen _ => seen.apply now row

/- the status that it sets, if it sets one -/
def Effect.sets : Effect → Option DeploymentStatus
  | .nothing | .finish _ => none
  | .delete _ => some .deleted
  | .restore _ => some .running
  | .update _ input => input.status.map RequestedStatus.written
  | .fail _ | .revert _ => some .failed
  | .lock _ => some .pending
  | .reconcile _ seen _ => some seen.status

def Effect.cause : Effect → Cause
  | .delete _ => .delete
  | .restore _ => .restore
  | .nothing | .update .. | .fail _ => .update
  | .lock _ | .finish _ | .revert _ => .version
  | .reconcile _ _ readAt => .pass readAt

theorem assign_id (now : Int) (row : DeploymentRow) (e : Effect) : (e.assign now row).id = row.id := by
  cases e with
  | lock a =>
    simp only [Effect.assign, VersionAttempt.lock]
    cases a.operation <;> rfl
  | finish a =>
    simp only [Effect.assign, VersionAttempt.finish]
    cases a.operation <;> rfl
  | revert a =>
    simp only [Effect.assign, VersionAttempt.revert]
    cases a.operation <;> rfl
  | _ => rfl

theorem assign_status (now : Int) (row : DeploymentRow) (e : Effect) :
    (e.assign now row).status = e.sets.getD row.status := by
  cases e with
  | lock a =>
    simp only [Effect.assign, VersionAttempt.lock]
    cases a.operation <;> rfl
  | finish a =>
    simp only [Effect.assign, VersionAttempt.finish]
    cases a.operation <;> rfl
  | revert a =>
    simp only [Effect.assign, VersionAttempt.revert]
    cases a.operation <;> rfl
  | _ => rfl

structure Store where
  rows : Table DeploymentRow DeploymentRow.id
  log : List Write

def Effect.run (s : Store) (now : Int) (e : Effect) : Store where
  rows := s.rows.update (e.matches_ ·) (e.assign now ·) (assign_id now · e)
  log :=
    match s.rows.select (e.matches_ ·), e.sets with
    | some row, some after => ⟨row.id, row.status, after, e.cause, s.log.length⟩ :: s.log
    | _, _ => s.log

inductive Call where
  | delete (id : Nat)
  | restore (id : Nat)
  | update (id : Nat) (input : UpdateDeploymentInput)
  | updateApply (id : Nat)
  | updateFail (id : Nat)
  | version (task : VersionRuns.Task)

abbrev After := Outcome Call Unit

def versionEffect (a : VersionAttempt) : VersionRuns.Effect → Effect
  | .nothing | .deploy => .nothing
  | .lock => .lock a
  | .finish => .finish a
  | .revert => .revert a

/-- A call whose UPDATE fails ends. Deployments are scaled before an UPDATE to deleted or running, whatever
comes of it, and after that of an update, which writes a failure. -/
def statement (s : Store) (r : Result) : Call → Effect × After
  | .delete id => (if r = .done then .delete id else .nothing, .answer ())
  | .restore id => (if r = .done then .restore id else .nothing, .answer ())
  | .update id input =>
    if r = .done then
      (if input.isEmpty then .nothing else .update id input,
        if input.status.isSome then .next (.updateApply id) else .answer ())
    else (.nothing, .answer ())
  | .updateApply id => (.nothing, if r = .done then .answer () else .next (.updateFail id))
  | .updateFail id => (if r = .done then .fail id else .nothing, .answer ())
  | .version t =>
    match s.rows.select (fun row => row.id == t.attempt.deployment.id) with
    | none => (.nothing, .answer ())
    | some row =>
      let result := VersionRuns.statement row r t
      (versionEffect t.attempt result.1, result.2.map Call.version (fun _ => ()))

inductive Request where
  | delete
  | restore
  | update (input : UpdateDeploymentInput)
  | upgrade (entries : Nat → Option CatalogEntry) (input : UpgradeVersionInput)
  | rollback (entries : Nat → Option CatalogEntry)

def accepted (checked : Except ApiError (Option VersionAttempt)) : Option Call :=
  match checked with
  | .ok (some a) => some (.version ⟨a, .lock⟩)
  | _ => none

def Request.begin (row : DeploymentRow) : Request → Option Call
  | .delete => some (.delete row.id)
  | .restore => if row.status = .deleted then some (.restore row.id) else none
  | .update input => some (.update row.id input)
  | .upgrade entries input => accepted (upgradeDeploymentVersion entries row input)
  | .rollback entries => accepted (rollbackDeploymentVersion entries row)

/- the rows that it has still to visit, as it has read them -/
structure Pass where
  readAt : Nat
  todo : List DeploymentRow

structure World where
  store : Store
  calls : Table (Process Call) Process.id
  passes : Table (Process Pass) Process.id

def World.start (rows : Table DeploymentRow DeploymentRow.id) : World := ⟨⟨rows, []⟩, Table.empty, Table.empty⟩

inductive Action where
  | beginPass (id : Nat)
  | visit (id : Nat) (s : Surroundings) (written : Bool)
  | request (id tenantId deploymentId : Nat) (r : Request)
  | advance (id : Nat) (r : Result) (now : Int)

def getDeploymentById (s : Store) (tenantId deploymentId : Nat) : Option DeploymentRow :=
  s.rows.select (fun row => row.id == deploymentId && row.tenantId == tenantId)

def visitEffect (p : Pass) (s : Surroundings) (written : Bool) (row : DeploymentRow) : Effect :=
  match reconcileRow s row with
  | some update => if written then .reconcile row.id update p.readAt else .nothing
  | none => .nothing

def World.visit (w : World) (p : Process Pass) (s : Surroundings) (written : Bool) : World :=
  match p.task.todo with
  | [] => { w with passes := resume w.passes p.id (.answer () : Outcome Pass Unit) }
  | row :: rest =>
    { w with
      store := (visitEffect p.task s written row).run w.store s.now
      passes := resume w.passes p.id (.next { p.task with todo := rest } : Outcome Pass Unit) }

def step (w : World) : Action → Option World
  | .beginPass id =>
    (w.passes.insert ⟨id, ⟨w.store.log.length, w.store.rows.selectAll polled⟩⟩).map ({ w with passes := · })
  | .visit id s written => (w.passes.select (fun p => p.id == id)).map (fun p => w.visit p s written)
  | .request id tenantId deploymentId r =>
    ((getDeploymentById w.store tenantId deploymentId).bind (Request.begin · r)).bind (fun call =>
      (w.calls.insert ⟨id, call⟩).map ({ w with calls := · }))
  | .advance id r now => (w.calls.select (fun p => p.id == id)).map (fun p =>
      let result := statement w.store r p.task
      { w with
        store := result.1.run w.store now
        calls := resume w.calls p.id result.2 })

def lastUser (log : List Write) (id : Nat) : Option Write := log.find? (fun x => x.row == id && x.cause.ofUser)

def Write.Owes (x : Write) (earlier : List Write) : Prop :=
  (x.before = .deleted → x.after ≠ .deleted → x.cause = .restore) ∧
    ∀ readAt, x.cause = .pass readAt → ∀ u ∈ lastUser earlier x.row, u.after = .stopped → readAt ≤ u.time →
      x.after ≠ .running ∧ x.after ≠ .pending ∧ x.after ≠ .failed

def Respected : List Write → Prop
  | [] => True
  | x :: earlier => x.Owes earlier ∧ Respected earlier

/-- The rows of which a pass has still to write the status. -/
def World.awaited (w : World) (id : Nat) : Prop := ∃ p ∈ w.passes.rows, ∃ row ∈ p.task.todo, row.id = id

instance (w : World) (id : Nat) : Decidable (w.awaited id) :=
  inferInstanceAs (Decidable (∃ p ∈ w.passes.rows, ∃ row ∈ p.task.todo, row.id = id))

/-- A row is deleted or stopped while no pass has still to visit it, and an update or a change of version
does not write the status of one that is deleted. -/
def Effect.Safe (w : World) : Effect → Prop
  | .delete id => ¬ w.awaited id
  | .update id input => (input.status = some .stopped → ¬ w.awaited id) ∧
    (input.status ≠ none → ∀ row ∈ w.store.rows.rows, row.id = id → row.status ≠ .deleted)
  | .fail id => ∀ row ∈ w.store.rows.rows, row.id = id → row.status ≠ .deleted
  | .lock a | .revert a => ∀ row ∈ w.store.rows.rows, row.id = a.deployment.id → row.status ≠ .deleted
  | _ => True

instance decEffectSafe (w : World) : ∀ e : Effect, Decidable (e.Safe w) := by
  intro _
  unfold Effect.Safe
  split <;> infer_instance

def Safe (w : World) : Action → Prop
  | .advance id r _ => ∀ p ∈ w.calls.rows, p.id = id → (statement w.store r p.task).1.Safe w
  | _ => True

instance decSafe (w : World) : ∀ action, Decidable (Safe w action) := by
  intro _
  unfold Safe
  split <;> infer_instance

structure Inv (w : World) : Prop where
  respected : Respected w.store.log
  times : ∀ x ∈ w.store.log, x.time < w.store.log.length
  read : ∀ p ∈ w.passes, ∀ row ∈ p.task.todo, polled row = true
  there : ∀ p ∈ w.passes, ∀ row ∈ p.task.todo, ∀ row' ∈ w.store.rows, row'.id = row.id → row'.status ≠ .deleted
  unstopped : ∀ p ∈ w.passes, ∀ row ∈ p.task.todo, ∀ u ∈ lastUser w.store.log row.id,
    p.task.readAt ≤ u.time → u.after ≠ .stopped

theorem inv_start (rows : Table DeploymentRow DeploymentRow.id) : Inv (World.start rows) where
  respected := trivial
  times := fun _ mem => absurd mem List.not_mem_nil
  read := fun p mem => absurd mem (not_mem_empty p)
  there := fun p mem => absurd mem (not_mem_empty p)
  unstopped := fun p mem => absurd mem (not_mem_empty p)

/- what an effect may do to the rows that it matches -/
structure Effect.Allowed (w : World) (e : Effect) : Prop where
  owes : ∀ row ∈ w.store.rows, e.matches_ row = true → ∀ after, e.sets = some after →
    Write.Owes ⟨row.id, row.status, after, e.cause, w.store.log.length⟩ w.store.log
  quiet : ∀ row ∈ w.store.rows, e.matches_ row = true →
    e.sets = some .deleted ∨ e.cause.ofUser = true ∧ e.sets = some .stopped → ¬ w.awaited row.id

theorem run_log (s : Store) (now : Int) (e : Effect) : (e.run s now).log = s.log ∨
    ∃ row ∈ s.rows, e.matches_ row = true ∧ ∃ after, e.sets = some after ∧
      (e.run s now).log = ⟨row.id, row.status, after, e.cause, s.log.length⟩ :: s.log := by
  simp only [Effect.run]
  cases selected : s.rows.select (e.matches_ ·) with
  | none => exact .inl rfl
  | some row =>
    obtain ⟨mem, matching⟩ := mem_of_select selected
    cases sets : e.sets with
    | none => exact .inl rfl
    | some after => exact .inr ⟨row, mem, matching, after, rfl, rfl⟩

variable {id : Nat} {w : World} {now : Int} {e : Effect} {passes : Table (Process Pass) Process.id}
  {u : StatusUpdate} {row : DeploymentRow} {s : Surroundings}

theorem lastUser_cons {x u : Write} {log : List Write} (last : u ∈ lastUser (x :: log) id) :
    (u = x ∧ x.row = id ∧ x.cause.ofUser = true) ∨ u ∈ lastUser log id := by
  unfold lastUser at last ⊢
  rw [List.find?_cons] at last
  split at last
  · rename_i own
    cases last
    simp only [Bool.and_eq_true, beq_iff_eq] at own
    exact .inl ⟨rfl, own⟩
  · exact .inr last

theorem Inv.run (inv : Inv w) (allowed : e.Allowed w) : Inv { w with store := e.run w.store now } := by
  have log := run_log w.store now e
  refine ⟨?_, ?_, inv.read, ?_, ?_⟩
  · rcases log with same | ⟨row, mem, matching, after, sets, grown⟩
    · exact same ▸ inv.respected
    · rw [grown]
      exact ⟨allowed.owes row mem matching after sets, inv.respected⟩
  · intro x memX
    rcases log with same | ⟨row, _, _, after, _, grown⟩
    · rw [same] at memX ⊢
      exact inv.times x memX
    rw [grown] at memX ⊢
    rcases List.mem_cons.mp memX with rfl | old
    · exact Nat.lt_succ_self _
    · exact Nat.lt_succ_of_lt (inv.times x old)
  · intro p memP row memRow row' mem' same
    rcases (mem_update (assign_id now · e)).mp mem' with ⟨old, _⟩ | ⟨old, memOld, its, rfl⟩
    · exact inv.there p memP row memRow row' old same
    have own : old.id = row.id := (assign_id now old e).symm.trans same
    rw [assign_status]
    cases sets : e.sets with
    | none => exact inv.there p memP row memRow old memOld own
    | some after =>
      rintro rfl
      exact allowed.quiet old memOld its (.inl sets) ⟨p, memP, row, memRow, own.symm⟩
  · intro p memP row memRow u last since
    rcases log with same | ⟨old, memOld, its, after, sets, grown⟩
    · rw [same] at last
      exact inv.unstopped p memP row memRow u last since
    rw [grown] at last
    rcases lastUser_cons last with ⟨rfl, own, user⟩ | last
    · rintro rfl
      exact allowed.quiet old memOld its (.inr ⟨user, sets⟩) ⟨p, memP, row, memRow, own.symm⟩
    · exact inv.unstopped p memP row memRow u last since

theorem Inv.fewer (inv : Inv w)
    (fewer : ∀ p ∈ passes, ∃ q ∈ w.passes, p.task.readAt = q.task.readAt ∧ ∀ row ∈ p.task.todo, row ∈ q.task.todo) :
    Inv { w with passes } := by
  refine ⟨inv.respected, inv.times, ?_, ?_, ?_⟩
  · intro p memP row memRow
    obtain ⟨q, memQ, _, among⟩ := fewer p memP
    exact inv.read q memQ row (among row memRow)
  · intro p memP row memRow
    obtain ⟨q, memQ, _, among⟩ := fewer p memP
    exact inv.there q memQ row (among row memRow)
  · intro p memP row memRow
    obtain ⟨q, memQ, readAt, among⟩ := fewer p memP
    rw [readAt]
    exact inv.unstopped q memQ row (among row memRow)

theorem Inv.calls {calls : Table (Process Call) Process.id} (inv : Inv w) : Inv { w with calls } :=
  ⟨inv.respected, inv.times, inv.read, inv.there, inv.unstopped⟩

theorem Inv.beginPass (inv : Inv w)
    (inserted : w.passes.insert ⟨id, ⟨w.store.log.length, w.store.rows.selectAll polled⟩⟩ = some passes) :
    Inv { w with passes } := by
  have cases : ∀ p ∈ passes, p = ⟨id, ⟨w.store.log.length, w.store.rows.selectAll polled⟩⟩ ∨ p ∈ w.passes :=
    fun p mem => (mem_insert inserted).mp mem
  refine ⟨inv.respected, inv.times, ?_, ?_, ?_⟩
  · intro p memP row memRow
    rcases cases p memP with rfl | old
    · exact (mem_selectAll.mp memRow).2
    · exact inv.read p old row memRow
  · intro p memP row memRow row' mem' same
    rcases cases p memP with rfl | old
    · obtain ⟨mem, looked⟩ := mem_selectAll.mp memRow
      rw [w.store.rows.eq_of_key mem' mem same]
      intro deleted
      simp [polled, deleted, polledStatuses] at looked
    · exact inv.there p old row memRow row' mem' same
  · intro p memP row memRow u last since
    rcases cases p memP with rfl | old
    · have before := inv.times u (List.mem_of_find?_eq_some last)
      exact absurd since (Nat.not_le.mpr before)
    · exact inv.unstopped p old row memRow u last since

theorem newDbStatus_deleted (row : DeploymentRow) (phase : Phase) (now : Int) :
    newDbStatus row phase now ≠ .deleted := by
  unfold newDbStatus
  split
  · simp
  · cases phase <;> simp [phaseToDbStatus]

theorem catalogUpdate_deleted {seen : AggregateDeploymentStatus}
    (written : catalogUpdate row seen now = some u) : u.status ≠ .deleted := by
  unfold catalogUpdate at written
  dsimp only at written
  generalize (if newDbStatus row seen.phase now = .pending then _ else _ : Option String) = message at written
  split at written
  · cases written
    exact newDbStatus_deleted row seen.phase now
  · contradiction

theorem missingOutcome_deleted {row : CustomDeployments.ReconciledRow} (now : Int) (kept : row.status ≠ .deleted) :
    (CustomDeployments.missingOutcome row now).status ≠ .deleted := by
  unfold CustomDeployments.missingOutcome
  split
  · split
    · simp
    · exact kept
  · simp

theorem reconcileCustomRow_deleted {cluster : CustomDeployments.Cluster}
    {row : CustomDeployments.ReconciledRow} (kept : row.status ≠ .deleted) :
    (CustomDeployments.reconcileCustomRow cluster row now).status ≠ .deleted := by
  unfold CustomDeployments.reconcileCustomRow
  cases cluster.deployments row.name with
  | none => exact missingOutcome_deleted now kept
  | some d =>
    dsimp only
    split
    · simp
    split
    · simp
    split
    · simp
    · unfold CustomDeployments.pendingOutcome
      split <;> simp

theorem reconcileRow_deleted (looked : polled row = true) (written : reconcileRow s row = some u) :
    u.status ≠ .deleted := by
  have kept : row.status ≠ .deleted := by
    intro deleted
    simp [polled, deleted, polledStatuses] at looked
  obtain ⟨namespace_, _, written⟩ := bind_eq_some_iff.mp written
  cases source : row.source with
  | custom =>
    simp only [source, reconcileCustom] at written
    split at written
    · contradiction
    unfold applyReconcileOutcome at written
    split at written
    · cases written
      exact reconcileCustomRow_deleted kept
    · contradiction
  | catalog =>
    simp only [source] at written
    obtain ⟨entry, _, written⟩ := bind_eq_some_iff.mp written
    split at written
    · contradiction
    · exact catalogUpdate_deleted written

theorem Inv.visit {p : Process Pass} {written : Bool} (inv : Inv w) (mem : p ∈ w.passes) :
    Inv (w.visit p s written) := by
  unfold World.visit
  cases todo : p.task.todo with
  | nil => exact inv.fewer (fun q memQ => ⟨q, (mem_resume_answer memQ).1, rfl, fun _ there => there⟩)
  | cons row rest =>
    have first : row ∈ p.task.todo := by simp [todo]
    have allowed : (visitEffect p.task s written row).Allowed w := by
      unfold visitEffect
      cases found : reconcileRow s row with
      | none => exact ⟨fun _ _ matching => (by cases matching), fun _ _ matching => (by cases matching)⟩
      | some u =>
        cases written with
        | false => exact ⟨fun _ _ matching => (by cases matching), fun _ _ matching => (by cases matching)⟩
        | true =>
          refine ⟨?_, ?_⟩
          · intro old memOld its after sets
            have own : old.id = row.id := beq_iff_eq.mp its
            constructor
            · intro deleted
              exact absurd deleted (inv.there p mem row first old memOld own)
            intro readAt cause x last stopped since
            cases cause
            rw [own] at last
            exact absurd stopped (inv.unstopped p mem row first x last since)
          · rintro old _ _ (deleted | ⟨user, _⟩)
            · exact absurd (some.inj deleted) (reconcileRow_deleted (inv.read p mem row first) found)
            · cases user
    refine Inv.fewer (inv.run allowed) ?_
    intro q memQ
    rcases mem_resume_next memQ with ⟨old, _⟩ | rfl
    · exact ⟨q, old, rfl, fun _ there => there⟩
    refine ⟨p, mem, rfl, ?_⟩
    intro other there
    rw [todo]
    exact List.mem_cons_of_mem _ there

theorem versionEffect_user (a : VersionAttempt) (e : VersionRuns.Effect) : (versionEffect a e).cause.ofUser = true := by
  cases e <;> rfl

theorem statement_user (s : Store) (r : Result) (call : Call) : (statement s r call).1.cause.ofUser = true := by
  cases call with
  | version t =>
    simp only [statement]
    split
    · rfl
    · exact versionEffect_user _ _
  | update id input =>
    simp only [statement]
    split
    · split <;> rfl
    · rfl
  | updateApply id => rfl
  | _ =>
    simp only [statement]
    split <;> rfl

theorem Effect.Safe.allowed (safe : e.Safe w) (user : e.cause.ofUser = true) : e.Allowed w := by
  have owes : (∀ row ∈ w.store.rows, e.matches_ row = true → ∀ after, e.sets = some after →
      row.status = .deleted → after ≠ .deleted → e.cause = .restore) →
      ∀ row ∈ w.store.rows, e.matches_ row = true → ∀ after, e.sets = some after →
        Write.Owes ⟨row.id, row.status, after, e.cause, w.store.log.length⟩ w.store.log := by
    intro stays row mem matching after sets
    refine ⟨stays row mem matching after sets, ?_⟩
    intro readAt cause
    have pass : e.cause = .pass readAt := cause
    rw [pass] at user
    cases user
  cases e with
  | nothing => exact ⟨fun _ _ matching => (by cases matching), fun _ _ matching => (by cases matching)⟩
  | finish a => exact ⟨fun _ _ _ _ sets => (by cases sets), fun _ _ _ sets => (by rcases sets with h | ⟨_, h⟩ <;> cases h)⟩
  | reconcile => cases user
  | restore id =>
    exact ⟨owes fun _ _ _ _ _ _ _ => rfl, fun _ _ _ sets => (by rcases sets with h | ⟨_, h⟩ <;> cases h)⟩
  | delete id =>
    refine ⟨owes ?_, ?_⟩
    · intro row _ _ after sets _ differs
      cases sets
      exact absurd rfl differs
    · intro row _ its _
      rw [show row.id = id from beq_iff_eq.mp its]
      exact safe
  | update id input =>
    refine ⟨owes ?_, ?_⟩
    · intro row mem its after sets deleted
      have asked : input.status ≠ none := by
        intro none
        simp [Effect.sets, none] at sets
      exact absurd deleted (safe.2 asked row mem (beq_iff_eq.mp its))
    intro row _ its sets
    rw [show row.id = id from beq_iff_eq.mp its]
    refine safe.1 ?_
    simp only [Effect.sets] at sets
    cases asked : input.status with
    | none => simp [asked] at sets
    | some status => cases status <;> simp [asked, RequestedStatus.written] at sets ⊢
  | fail id | revert a =>
    refine ⟨owes ?_, fun _ _ _ sets => (by rcases sets with h | ⟨_, h⟩ <;> cases h)⟩
    intro row mem its _ _ deleted
    exact absurd deleted (safe row mem (beq_iff_eq.mp its))
  | lock a =>
    refine ⟨owes ?_, fun _ _ _ sets => (by rcases sets with h | ⟨_, h⟩ <;> cases h)⟩
    intro row mem its _ _ deleted
    simp only [Effect.matches_, Bool.and_eq_true, beq_iff_eq] at its
    exact absurd deleted (safe row mem its.1)

theorem Inv.step {w' : World} {action : Action} (inv : Inv w) (safe : Safe w action)
    (taken : StatusWrites.step w action = some w') : Inv w' := by
  cases action with
  | beginPass id =>
    obtain ⟨passes, inserted, rfl⟩ := map_eq_some_iff.mp taken
    exact inv.beginPass inserted
  | visit id s written =>
    obtain ⟨p, selected, rfl⟩ := map_eq_some_iff.mp taken
    exact inv.visit (mem_of_select selected).1
  | request id tenantId deploymentId r =>
    obtain ⟨call, _, taken⟩ := bind_eq_some_iff.mp taken
    obtain ⟨calls, _, rfl⟩ := map_eq_some_iff.mp taken
    exact inv.calls
  | advance id r now =>
    obtain ⟨p, selected, rfl⟩ := map_eq_some_iff.mp taken
    obtain ⟨mem, same⟩ := mem_of_select selected
    have here := safe p mem (eq_of_beq same)
    exact (inv.run (here.allowed (statement_user w.store r p.task))).calls

/-- In a run where a row is deleted or stopped only while no pass has still to visit it, and where updates
and changes of version write no status of a deleted row, a row leaves the status deleted through a
restoration only, and no pass that has read a row before its user stopped it makes anything else of it. -/
theorem respected_throughout {rows : Table DeploymentRow DeploymentRow.id} {w : World} {actions : List Action}
    (guarded : Guarded StatusWrites.step Safe (World.start rows) actions)
    (run : exec StatusWrites.step (World.start rows) actions = some w) : Respected w.store.log :=
  (guarded_invariant (fun _ _ _ inv safe taken => Inv.step inv safe taken) (inv_start rows) guarded run).respected

def blogAlone (status : DeploymentStatus) : World :=
  World.start ⟨[{ blogRow with status }], List.nodup_singleton 1⟩

def stopping : UpdateDeploymentInput := ⟨none, none, none, none, none, some .stopped⟩

/- a pass, and a deletion after it -/
def apart : List Action :=
  [.beginPass 1, .visit 1 (scaled 1) true, .visit 1 (scaled 1) true, .request 1 1 1 .delete,
    .advance 1 .done 2]

/- the row is deleted, or stopped, while the pass is under way -/
def deletedMeanwhile : List Action :=
  [.beginPass 1, .request 1 1 1 .delete, .advance 1 .done 1, .visit 1 (scaled 0) true]

def stoppedMeanwhile : List Action :=
  [.beginPass 1, .request 1 1 1 (.update stopping), .advance 1 .done 1, .visit 1 (scaled 1) true]

theorem apart_respected : ∃ w, exec StatusWrites.step (blogAlone .pending) apart = some w ∧
    w.store.log = [⟨1, .running, .deleted, .delete, 1⟩, ⟨1, .pending, .running, .pass 0, 0⟩] ∧
    Respected w.store.log := by
  have log : (exec StatusWrites.step (blogAlone .pending) apart).map (·.store.log) =
      some [⟨1, .running, .deleted, .delete, 1⟩, ⟨1, .pending, .running, .pass 0, 0⟩] := by decide +kernel
  obtain ⟨w, run, writes⟩ := map_eq_some_iff.mp log
  exact ⟨w, run, writes, respected_throughout (by decide +kernel) run⟩

/-- A pass that had read the row before makes a deleted deployment stopped, and a stopped one running. -/
theorem overwritten : (∃ w, exec StatusWrites.step (blogAlone .running) deletedMeanwhile = some w ∧
      w.store.log = [⟨1, .deleted, .stopped, .pass 0, 1⟩, ⟨1, .running, .deleted, .delete, 0⟩] ∧
      ¬ Respected w.store.log) ∧ ∃ w, exec StatusWrites.step (blogAlone .pending) stoppedMeanwhile = some w ∧
      w.store.log = [⟨1, .stopped, .running, .pass 0, 1⟩, ⟨1, .pending, .stopped, .update, 0⟩] ∧
      ¬ Respected w.store.log := by
  have deleted : (exec StatusWrites.step (blogAlone .running) deletedMeanwhile).map (·.store.log) =
      some [⟨1, .deleted, .stopped, .pass 0, 1⟩, ⟨1, .running, .deleted, .delete, 0⟩] := by decide +kernel
  have stopped : (exec StatusWrites.step (blogAlone .pending) stoppedMeanwhile).map (·.store.log) =
      some [⟨1, .stopped, .running, .pass 0, 1⟩, ⟨1, .pending, .stopped, .update, 0⟩] := by decide +kernel
  constructor
  · obtain ⟨w, run, writes⟩ := map_eq_some_iff.mp deleted
    refine ⟨w, run, writes, ?_⟩
    rw [writes]
    intro respected
    exact absurd (respected.1.1 rfl (by decide)) (by decide)
  obtain ⟨w, run, writes⟩ := map_eq_some_iff.mp stopped
  refine ⟨w, run, writes, ?_⟩
  rw [writes]
  intro respected
  exact (respected.1.2 0 rfl _ rfl rfl (Nat.le_refl 0)).1 rfl

end HostingPlatform.Deployments.StatusWrites
