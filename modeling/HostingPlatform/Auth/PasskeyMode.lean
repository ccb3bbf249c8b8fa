import HostingPlatform.Auth.Passkey

/-! Nobody is left with a required second factor and no credential. Deletion and mode
change both check before they write, in statements of their own; the check of the one
is about the row that the other writes. -/
namespace HostingPlatform.Auth.Passkeys

open Table List Interleaving Transition

abbrev PasskeyWorld := World Db Task Response

def SecondFactorHasPasskey (db : Db) : Prop :=
  ∀ u ∈ db.users, u.passkeyMode = some .secondFactor → ∃ p ∈ db.passkeys, p.userId = u.id

/-- The check that a deletion or a mode change has made still holds when it writes: the
passkey is gone already, or not the last, or the mode does not require one; the user
has a passkey. -/
def CheckStillHolds (w : PasskeyWorld) : Task → Prop
  | .deleteCommit userId passkeyId false =>
    (∀ p ∈ w.db.passkeys.rows, p.id ≠ passkeyId) ∨ 1 < (passkeysOf w.db userId).length ∨
      (findUser w.db userId).bind (·.passkeyMode) ≠ some .secondFactor
  | .updateMode userId (some .secondFactor) => ∃ p ∈ w.db.passkeys.rows, p.userId = userId
  | _ => True

instance decCheckStillHolds (w : PasskeyWorld) (task : Task) :
    Decidable (CheckStillHolds w task) := by
  unfold CheckStillHolds
  split <;> infer_instance

/- the passkey that a deletion is about, and its user -/
def Task.deletes : Task → Option (Nat × Nat)
  | .deleteCount userId passkeyId => some (userId, passkeyId)
  | .deleteUser userId passkeyId => some (userId, passkeyId)
  | .deleteCommit userId passkeyId _ => some (userId, passkeyId)
  | _ => none

variable {lib : WebAuthn} {db : Db}

variable {task : Task} {id : Nat} {w : PasskeyWorld} {running : Table (Process Task) Process.id}

theorem next_deletes {task' : Task} {userId passkeyId : Nat} (next : (advance lib db task).2 = .next task')
    (deletes : task'.deletes = some (userId, passkeyId)) : task.deletes = some (userId, passkeyId) ∨
      ∃ p ∈ db.passkeys, p.id = passkeyId ∧ p.userId = userId := by
  cases task with
  | deletePasskey userId passkeyId =>
    simp only [advance] at next
    split at next
    · cases next
    rename_i p found
    cases next
    cases deletes
    obtain ⟨mem, both⟩ := mem_of_select found
    simp only [Bool.and_eq_true, beq_iff_eq] at both
    exact .inr ⟨p, mem, both.1, both.2⟩
  | deleteCount | deleteUser =>
    simp only [advance] at next
    repeat' split at next
    all_goals cases next
    all_goals exact .inl deletes
  | updateFreshness challengeId passkeyId goal user =>
    cases goal <;> cases next
    contradiction
  | _ =>
    simp only [advance] at next
    repeat' split at next
    all_goals cases next
    all_goals contradiction

theorem request_deletes (requested : task.isRequest = true) : task.deletes = none := by
  cases task <;> simp [Task.isRequest] at requested <;> rfl

variable {u : User}

theorem mode_of_update {f : User → User} {keeps : ∀ u, (f u).id = u.id}
    (mem : u ∈ (updateUser db id f keeps).users) (mode : ∀ u, (f u).passkeyMode = u.passkeyMode) :
    ∃ old ∈ db.users, old.id = u.id ∧ old.passkeyMode = u.passkeyMode := by
  rcases (mem_update keeps).mp mem with ⟨old, _⟩ | ⟨old, memOld, _, rfl⟩
  · exact ⟨u, old, rfl, rfl⟩
  · exact ⟨old, memOld, (keeps old).symm, (mode old).symm⟩

theorem mode_of_setMode {mode : Option PasskeyMode}
    (mem : u ∈ (updateUser db id (setMode mode) (setMode_id mode)).users) :
    u ∈ db.users ∧ u.id ≠ id ∨ u.id = id ∧ u.passkeyMode = mode := by
  rcases (mem_update (setMode_id mode)).mp mem with ⟨old, other⟩ | ⟨old, _, same, rfl⟩
  · exact .inl ⟨old, by simpa using other⟩
  · exact .inr ⟨eq_of_beq same, rfl⟩

theorem second_factor_origin (mem : u ∈ (advance lib db task).1.users) (mode : u.passkeyMode = some .secondFactor) :
    (∃ old ∈ db.users, old.id = u.id ∧ old.passkeyMode = some .secondFactor ∧
      ∀ passkeyId, task ≠ .deleteCommit u.id passkeyId true) ∨
      task = .updateMode u.id (some .secondFactor) := by
  cases task with
  | registrationNewHandle user panel | updateFreshness challengeId passkeyId goal user | updateStepUp user =>
    obtain ⟨old, memOld, id, same⟩ := mode_of_update mem (fun _ => rfl)
    exact .inl ⟨old, memOld, id, same.trans mode, fun _ task => by cases task⟩
  | deleteCommit userId passkeyId dropMode =>
    cases dropMode with
    | false => exact .inl ⟨u, mem, rfl, mode, fun _ task => by cases task⟩
    | true =>
      rcases mode_of_setMode mem with ⟨old, other⟩ | ⟨_, dropped⟩
      · refine .inl ⟨u, old, rfl, mode, ?_⟩
        intro _ task
        cases task
        exact other rfl
      · rw [dropped] at mode
        contradiction
  | updateMode userId newMode =>
    rcases mode_of_setMode mem with ⟨old, _⟩ | ⟨rfl, set⟩
    · exact .inl ⟨u, old, rfl, mode, fun _ task => by cases task⟩
    rw [mode] at set
    rw [← set]
    exact .inr rfl
  | setPasskeyMode userId newMode =>
    simp only [advance] at mem
    repeat' split at mem
    · exact .inl ⟨u, mem, rfl, mode, fun _ task => by cases task⟩
    · exact .inl ⟨u, mem, rfl, mode, fun _ task => by cases task⟩
    rename_i other
    rcases mode_of_setMode mem with ⟨old, _⟩ | ⟨_, set⟩
    · exact .inl ⟨u, old, rfl, mode, fun _ task => by cases task⟩
    · exact absurd (set.symm.trans mode) other
  | registrationChallenge user panel handle existing | authenticationChallenge panel userId allowed =>
    simp only [advance] at mem
    split at mem
    · rename_i done
      rw [(persistChallenge_challenges done).2.2.1] at mem
      exact .inl ⟨u, mem, rfl, mode, fun _ task => by cases task⟩
    · exact .inl ⟨u, mem, rfl, mode, fun _ task => by cases task⟩
  | registrationInsert challengeId userId credential nickname =>
    simp only [advance] at mem
    split at mem
    · rename_i done
      rw [(insertPasskey_passkeys done).2.2.1] at mem
      exact .inl ⟨u, mem, rfl, mode, fun _ task => by cases task⟩
    · exact .inl ⟨u, mem, rfl, mode, fun _ task => by cases task⟩
  | _ =>
    simp only [advance] at mem
    repeat' split at mem
    all_goals exact .inl ⟨u, mem, rfl, mode, fun _ task => by cases task⟩

structure ModeSafe (w : PasskeyWorld) : Prop where
  drawn : Drawn w.db
  owned : ∀ q ∈ w.running, ∀ userId passkeyId, q.task.deletes = some (userId, passkeyId) →
    passkeyId < w.db.supply ∧ ∀ p ∈ w.db.passkeys, p.id = passkeyId → p.userId = userId
  hasPasskey : SecondFactorHasPasskey w.db

theorem passkey_left {userId : Nat} {p : Passkey} (ok : CheckStillHolds w (.deleteCommit userId p.id false))
    (mem : p ∈ w.db.passkeys) (memUser : u ∈ w.db.users) (mode : u.passkeyMode = some .secondFactor)
    (same : u.id = userId) : ∃ p' ∈ (commitDelete w.db userId p.id false).passkeys, p'.userId = u.id := by
  rcases ok with gone | many | notRequired
  · exact absurd rfl (gone p mem)
  · obtain ⟨other, memOther, owner, differs⟩ := exists_other p.id many
    refine ⟨other, mem_delete.mpr ⟨memOther, beq_eq_false_iff_ne.mpr differs⟩, ?_⟩
    rw [eq_of_beq owner, same]
  refine absurd ?_ notRequired
  unfold findUser
  cases found : w.db.users.select (fun row => row.id == userId) with
  | none =>
    have missed := select_none found u memUser
    simp [same] at missed
  | some row =>
    obtain ⟨memRow, id⟩ := mem_of_select found
    have one : row = u := eq_of_key _ memRow memUser ((eq_of_beq id).trans same.symm)
    rw [one]
    exact mode

variable {q : Process Task}

theorem hasPasskey_advance (inv : ModeSafe w) (memq : q ∈ w.running) (ok : CheckStillHolds w q.task) :
    SecondFactorHasPasskey ((passkeys lib).run w q).db := by
  intro u mem mode
  rcases second_factor_origin mem mode with ⟨old, memOld, id, oldMode, notDropped⟩ | turnedOn
  · obtain ⟨p, memp, owner⟩ := inv.hasPasskey old memOld oldMode
    by_cases deleted : ∃ userId dropMode, q.task = .deleteCommit userId p.id dropMode
    · obtain ⟨userId, dropMode, task⟩ := deleted
      have user : p.userId = userId := (inv.owned q memq userId p.id (by rw [task]; rfl)).2 p memp rfl
      cases dropMode with
      | true =>
        refine absurd task ?_
        rw [← user, owner, id]
        exact notDropped p.id
      | false =>
        rw [task] at ok
        have left := passkey_left ok memp memOld oldMode (by rw [← owner, user])
        simp only [System.run, task]
        rw [← id]
        exact left
    · push Not at deleted
      obtain ⟨p', memp', _, user⟩ := passkey_survives lib memp deleted
      exact ⟨p', memp', by rw [user, owner, id]⟩
  · rw [turnedOn] at ok
    obtain ⟨p, memp, owner⟩ := ok
    refine ⟨p, ?_, owner⟩
    simp only [System.run, turnedOn]
    exact memp

theorem mode_advance (inv : ModeSafe w) (mem : q ∈ w.running) (ok : CheckStillHolds w q.task) :
    ModeSafe ((passkeys lib).run w q) := by
  refine ⟨drawn_advance inv.drawn q.task, ?_, hasPasskey_advance inv mem ok⟩
  intro r memr userId passkeyId deletes
  have known : passkeyId < w.db.supply ∧ ∀ p ∈ w.db.passkeys, p.id = passkeyId → p.userId = userId := by
    rcases mem_resume memr with ⟨old, _⟩ | ⟨task, next, rfl⟩
    · exact inv.owned r old userId passkeyId deletes
    rcases next_deletes next deletes with before | ⟨p, memp, rfl, rfl⟩
    · exact inv.owned q mem userId passkeyId before
    refine ⟨inv.drawn.passkey p memp, ?_⟩
    intro p' memp' same
    rw [eq_of_key _ memp' memp same]
  have grows : w.db.supply ≤ ((passkeys lib).run w q).db.supply := advance_supply lib w.db q.task
  refine ⟨by omega, ?_⟩
  intro p memp same
  rcases advance_passkey memp with ⟨old, memOld, id, owner, _⟩ | ⟨fresh, _⟩
  · rw [owner]
    exact known.2 old memOld (id.symm.trans same)
  · omega

theorem mode_arrive (inv : ModeSafe w) (requested : q.task.isRequest = true)
    (inserted : w.running.insert q = some running) : ModeSafe { w with running } := by
  refine ⟨inv.drawn, ?_, inv.hasPasskey⟩
  intro r memr userId passkeyId deletes
  rcases (mem_insert inserted).mp memr with rfl | old
  · rw [request_deletes requested] at deletes
    contradiction
  · exact inv.owned r old userId passkeyId deletes

theorem mode_environment (inv : ModeSafe w) (change : Change) : ModeSafe { w with db := change.apply w.db } := by
  obtain ⟨passkeys, _, supply⟩ := environment_rows w.db change
  refine ⟨drawn_environment inv.drawn change, ?_, ?_⟩
  · simp only [passkeys, supply]
    exact inv.owned
  intro u mem mode
  rw [passkeys]
  cases change with
  | tick ms => exact inv.hasPasskey u mem mode
  | editUser user =>
    obtain ⟨old, memOld, id, same⟩ := mode_of_update mem (fun _ => rfl)
    rw [← id]
    exact inv.hasPasskey old memOld (same.trans mode)
  | createUser user =>
    simp only [Change.apply] at mem
    split at mem
    · rename_i inserted
      rcases (mem_insert inserted).mp mem with rfl | old
      · contradiction
      · exact inv.hasPasskey u old mode
    · exact inv.hasPasskey u mem mode

/-- In every run whose writes meet `CheckStillHolds`, every user with a required
second factor has a passkey, if the run starts that way. -/
theorem second_factor_has_passkey (lib : WebAuthn) (db : Db) (actions : List (Action Task Change))
    (w : PasskeyWorld) (drawn : Drawn db) (initial : SecondFactorHasPasskey db)
    (guarded : Guarded (passkeys lib).step (onAdvance CheckStillHolds) (World.initial db) actions)
    (run : exec (passkeys lib).step (World.initial db) actions = some w) : SecondFactorHasPasskey w.db := by
  have start : ModeSafe (World.initial db) := ⟨drawn, fun q mem => absurd mem not_mem_nil, initial⟩
  have safe : ModeSafe w :=
    System.invariant (fun _ _ _ inv requested inserted => mode_arrive inv requested inserted)
      (fun _ _ inv mem ok => mode_advance inv mem ok)
      (fun _ change inv => mode_environment inv change) start guarded run
  exact safe.hasPasskey

def ownedPasskey (id : Nat) : Passkey where
  id := id
  userId := owner.id
  credentialId := id + 100
  publicKey := id + 200
  signCount := 0
  nickname := "YubiKey 5C"
  createdAt := 0
  lastUsedAt := none

/- the owner requires a second factor and has the passkeys 10 and 11 -/
def twoPasskeys : Db :=
  { Db.empty with
    users := Table.empty.put { owner with passkeyMode := some .secondFactor, passkeyUserHandle := some 12 }
    passkeys := (Table.empty.put (ownedPasskey 10)).put (ownedPasskey 11)
    supply := 20 }

theorem two_passkeys_drawn : Drawn twoPasskeys := by
  have passkeyIds : ∀ p ∈ twoPasskeys.passkeys.rows, p.id < twoPasskeys.supply := by decide
  have challengeIds : ∀ c ∈ twoPasskeys.challenges.rows, c.id < twoPasskeys.supply := by decide
  exact ⟨passkeyIds, challengeIds⟩

theorem two_passkeys_protected : SecondFactorHasPasskey twoPasskeys := by
  have rows : ∀ u ∈ twoPasskeys.users.rows, u.passkeyMode = some .secondFactor →
      ∃ p ∈ twoPasskeys.passkeys.rows, p.userId = u.id := by decide
  exact rows

/- an authenticator whose counter stays at 0, as a synced passkey's does -/
def syncedPasskeys : WebAuthn where
  verifyRegistrationResponse := fun response => some ⟨response.proof, response.proof + 100, 0⟩
  verifyAuthenticationResponse := fun response row =>
    if response.proof = row.publicKey then some 0 else none

/- both passkeys are deleted, one after the other: the second deletion is refused -/
def deleteInTurn : List (Action Task Change) :=
  .arrive 1 (.deletePasskey 1 10) :: List.replicate 3 (.advance 1) ++
    .arrive 2 (.deletePasskey 1 11) :: List.replicate 3 (.advance 2)

theorem second_factor_has_passkey_in_turn :
    ∃ w, exec (passkeys syncedPasskeys).step (World.initial twoPasskeys) deleteInTurn = some w ∧
      SecondFactorHasPasskey w.db := by
  have runs : (exec (passkeys syncedPasskeys).step (World.initial twoPasskeys)
      deleteInTurn).isSome = true := by decide
  obtain ⟨w, run⟩ := Option.isSome_iff_exists.mp runs
  exact ⟨w, run, second_factor_has_passkey syncedPasskeys twoPasskeys deleteInTurn w
    two_passkeys_drawn two_passkeys_protected (by decide) run⟩

/- both deletions count two passkeys before either commits -/
def deleteTogether : List (Action Task Change) :=
  [.arrive 1 (.deletePasskey 1 10), .arrive 2 (.deletePasskey 1 11), .advance 1, .advance 2,
    .advance 1, .advance 2, .advance 1, .advance 2]

/-- The transaction does not keep two deletions apart: at READ COMMITTED both count
two passkeys, and both delete one. -/
theorem two_deletions_lock_out :
    ¬ ∀ (lib : WebAuthn) (db : Db) (actions : List (Action Task Change)) (w : PasskeyWorld),
      Drawn db → SecondFactorHasPasskey db →
      exec (passkeys lib).step (World.initial db) actions = some w →
      SecondFactorHasPasskey w.db := by
  intro holds
  have lockedOut : (exec (passkeys syncedPasskeys).step (World.initial twoPasskeys)
      deleteTogether).any (fun w => w.db.passkeys.rows.isEmpty &&
        w.db.users.rows.any (fun u => u.passkeyMode == some .secondFactor)) = true := by decide
  obtain ⟨w, run, both⟩ := (Option.any_eq_true _ _).mp lockedOut
  rw [Bool.and_eq_true, any_eq_true] at both
  obtain ⟨noPasskey, u, mem, mode⟩ := both
  obtain ⟨p, memp, _⟩ := holds syncedPasskeys twoPasskeys deleteTogether w
    two_passkeys_drawn two_passkeys_protected run u mem (eq_of_beq mode)
  rw [mem_rows, isEmpty_iff.mp noPasskey] at memp
  contradiction

/- the challenge that a request has consumed and not yet answered for -/
def Task.holds : Task → Option Nat
  | .registrationInsert challengeId _ _ _ => some challengeId
  | .credentialRow challengeId _ _ _ => some challengeId
  | .updateCounter challengeId _ _ _ _ => some challengeId
  | .updateFreshness challengeId _ _ _ => some challengeId
  | _ => none

/- the challenge of a verification that has succeeded when the statement is run -/
def Task.verified : Task → Option Nat
  | .registrationInsert challengeId _ _ _ => some challengeId
  | .updateFreshness challengeId _ _ _ => some challengeId
  | _ => none

variable {challengeId : Nat}

theorem holds_of_verified (verified : task.verified = some challengeId) : task.holds = some challengeId := by
  cases task <;> simp only [Task.verified, reduceCtorEq] at verified <;> exact verified

theorem next_holds {task' : Task} (next : (advance lib db task).2 = .next task')
    (holds : task'.holds = some challengeId) : task.holds = some challengeId ∧ task.verified = none ∨
      ∃ consumer, task = .markConsumed consumer challengeId := by
  cases task with
  | markConsumed consumer id =>
    simp only [advance] at next
    repeat' split at next
    all_goals cases next
    all_goals cases holds
    all_goals exact .inr ⟨_, rfl⟩
  | credentialRow | updateCounter =>
    simp only [advance] at next
    repeat' split at next
    all_goals cases next
    all_goals exact .inl ⟨holds, rfl⟩
  | updateFreshness id passkeyId goal user =>
    cases goal <;> cases next
    contradiction
  | _ =>
    simp only [advance] at next
    repeat' split at next
    all_goals cases next
    all_goals contradiction

theorem request_holds (requested : task.isRequest = true) : task.holds = none := by
  cases task <;> simp [Task.isRequest] at requested <;> rfl

/-- The check of `consumeChallenge` still holds at its UPDATE, and so does the rollback
check of `completeAuthentication`. -/
def ReadStillCurrent (w : PasskeyWorld) : Task → Prop
  | .markConsumed _ challengeId =>
    ∃ row ∈ w.db.challenges.rows, row.id = challengeId ∧ row.consumedAt = none
  | .updateCounter _ passkeyId newCounter _ _ =>
    ∀ row ∈ w.db.passkeys.rows, row.id = passkeyId → rolledBack row.signCount newCounter = false
  | _ => True

instance decReadStillCurrent (w : PasskeyWorld) (task : Task) :
    Decidable (ReadStillCurrent w task) := by
  unfold ReadStillCurrent
  split <;> infer_instance

def Spent (db : Db) (challengeId : Nat) : Prop :=
  challengeId < db.supply ∧ ∀ row ∈ db.challenges, row.id = challengeId → row.consumedAt ≠ none

theorem spent_advance (spent : Spent db challengeId) (task : Task) : Spent (advance lib db task).1 challengeId := by
  have grows := advance_supply lib db task
  have bound := spent.1
  refine ⟨by omega, ?_⟩
  intro row mem same live
  rcases advance_challenge mem with ⟨old, memOld, id, keeps⟩ | ⟨fresh, _⟩
  · exact spent.2 old memOld (id.symm.trans same) (keeps live).1
  · omega

structure ChallengeSafe (w : PasskeyWorld) : Prop where
  drawn : Drawn w.db
  held : ∀ q ∈ w.running, ∀ c, q.task.holds = some c → Spent w.db c
  oneHolder : ∀ q ∈ w.running, ∀ q' ∈ w.running, ∀ c, q.task.holds = some c →
    q'.task.holds = some c → q = q'
  spent : ∀ e ∈ w.log, ∀ c, e.task.verified = some c →
    Spent w.db c ∧ ∀ q ∈ w.running, q.task.holds ≠ some c
  once : w.log.Pairwise (fun later earlier => ∀ c, earlier.task.verified = some c →
    later.task.verified ≠ some c)

theorem mark_spends {c : Nat} {consumer : Consumer} (drawn : Drawn w.db) (ok : ReadStillCurrent w q.task)
    (task : q.task = .markConsumed consumer c) : Spent ((passkeys lib).run w q).db c := by
  rw [task] at ok
  obtain ⟨row, memRow, id, _⟩ := ok
  have bound := drawn.challenge row memRow
  have grows : w.db.supply ≤ ((passkeys lib).run w q).db.supply := advance_supply lib w.db q.task
  refine ⟨by omega, ?_⟩
  intro row' mem same live
  rcases advance_challenge mem with ⟨old, memOld, id', keeps⟩ | ⟨fresh, _⟩
  · refine (keeps live).2 consumer ?_
    rw [task, ← id', same]
  · omega

theorem challenge_advance (inv : ChallengeSafe w) (mem : q ∈ w.running) (ok : ReadStillCurrent w q.task) :
    ChallengeSafe ((passkeys lib).run w q) := by
  have unspent : ∀ consumer c, q.task = .markConsumed consumer c → ¬ Spent w.db c := by
    intro consumer c task spent
    rw [task] at ok
    obtain ⟨row, memRow, id, live⟩ := ok
    exact spent.2 row memRow id live
  refine ⟨drawn_advance inv.drawn q.task, ?_, ?_, ?_, ?_⟩
  case refine_1 =>
    intro r memr c holds
    rcases mem_resume memr with ⟨old, _⟩ | ⟨task, next, rfl⟩
    · exact spent_advance (inv.held r old c holds) q.task
    rcases next_holds next holds with ⟨before, _⟩ | ⟨consumer, marks⟩
    · exact spent_advance (inv.held q mem c before) q.task
    · exact mark_spends inv.drawn ok marks
  case refine_2 =>
    intro r memr r' memr' c holds holds'
    rcases mem_resume memr with ⟨old, other⟩ | ⟨task, next, rfl⟩
    · rcases mem_resume memr' with ⟨old', _⟩ | ⟨task', next', rfl⟩
      · exact inv.oneHolder r old r' old' c holds holds'
      rcases next_holds next' holds' with ⟨before, _⟩ | ⟨consumer, marks⟩
      · exact absurd (congrArg Process.id (inv.oneHolder r old q mem c holds before)) other
      · exact absurd (inv.held r old c holds) (unspent consumer c marks)
    rcases mem_resume memr' with ⟨old', other'⟩ | ⟨task', next', rfl⟩
    · rcases next_holds next holds with ⟨before, _⟩ | ⟨consumer, marks⟩
      · exact absurd (congrArg Process.id (inv.oneHolder r' old' q mem c holds' before)) other'
      · exact absurd (inv.held r' old' c holds') (unspent consumer c marks)
    · rw [next] at next'
      cases next'
      rfl
  case refine_3 =>
    intro e meme c verified
    rcases mem_cons.mp meme with rfl | old
    · have holder := holds_of_verified verified
      refine ⟨spent_advance (inv.held q mem c holder) q.task, ?_⟩
      intro r memr holds
      rcases mem_resume memr with ⟨oldr, other⟩ | ⟨task, next, rfl⟩
      · exact other (congrArg Process.id (inv.oneHolder r oldr q mem c holds holder))
      rcases next_holds next holds with ⟨_, unverified⟩ | ⟨consumer, marks⟩
      · rw [unverified] at verified
        contradiction
      · rw [marks] at verified
        contradiction
    · obtain ⟨spent, free⟩ := inv.spent e old c verified
      refine ⟨spent_advance spent q.task, ?_⟩
      intro r memr holds
      rcases mem_resume memr with ⟨oldr, _⟩ | ⟨task, next, rfl⟩
      · exact free r oldr holds
      rcases next_holds next holds with ⟨before, _⟩ | ⟨consumer, marks⟩
      · exact free q mem before
      · exact unspent consumer c marks spent
  case refine_4 =>
    refine pairwise_cons.mpr ⟨?_, inv.once⟩
    intro e meme c verified again
    exact (inv.spent e meme c verified).2 q mem (holds_of_verified again)

theorem challenge_arrive (inv : ChallengeSafe w) (requested : q.task.isRequest = true)
    (inserted : w.running.insert q = some running) : ChallengeSafe { w with running } := by
  have known : ∀ r ∈ running, ∀ c, r.task.holds = some c → r ∈ w.running := by
    intro r memr c holds
    rcases (mem_insert inserted).mp memr with rfl | old
    · rw [request_holds requested] at holds
      contradiction
    · exact old
  refine ⟨inv.drawn, ?_, ?_, ?_, inv.once⟩
  · intro r memr c holds
    exact inv.held r (known r memr c holds) c holds
  · intro r memr r' memr' c holds holds'
    exact inv.oneHolder r (known r memr c holds) r' (known r' memr' c holds') c holds holds'
  intro e meme c verified
  refine ⟨(inv.spent e meme c verified).1, ?_⟩
  intro r memr holds
  exact (inv.spent e meme c verified).2 r (known r memr c holds) holds

theorem challenge_environment (inv : ChallengeSafe w) (change : Change) :
    ChallengeSafe { w with db := change.apply w.db } := by
  obtain ⟨_, challenges, supply⟩ := environment_rows w.db change
  refine ⟨drawn_environment inv.drawn change, ?_, inv.oneHolder, ?_, inv.once⟩
  · simp only [Spent, challenges, supply]
    exact inv.held
  · simp only [Spent, challenges, supply]
    exact inv.spent

/-- In every store a statement has run on, a credential had at most the counter it has
now. -/
structure CounterSafe (w : PasskeyWorld) : Prop where
  drawn : Drawn w.db
  known : ∀ e ∈ w.log, ∀ p ∈ e.before.passkeys, p.id < w.db.supply
  grows : ∀ e ∈ w.log, ∀ p ∈ e.before.passkeys, ∀ p' ∈ w.db.passkeys, p'.id = p.id →
    p.signCount ≤ p'.signCount

theorem counter_step (drawn : Drawn w.db) (ok : ReadStillCurrent w q.task) {old p' : Passkey}
    (memOld : old ∈ w.db.passkeys) (mem : p' ∈ ((passkeys lib).run w q).db.passkeys) (same : p'.id = old.id) :
    old.signCount ≤ p'.signCount := by
  rcases advance_passkey mem with ⟨row, memRow, id, _, counter⟩ | ⟨fresh, _⟩
  · have one : row = old := eq_of_key _ memRow memOld (id.symm.trans same)
    rcases counter with unchanged | ⟨challengeId, goal, user, task⟩
    · exact Nat.le_of_eq (by rw [unchanged, one])
    rw [task] at ok
    have advanced := ok row memRow rfl
    simp only [rolledBack, decide_eq_false_iff_not] at advanced
    rw [← one]
    omega
  · have bound := drawn.passkey old memOld
    omega

theorem counter_advance (inv : CounterSafe w) (ok : ReadStillCurrent w q.task) :
    CounterSafe ((passkeys lib).run w q) := by
  have grows : w.db.supply ≤ ((passkeys lib).run w q).db.supply := advance_supply lib w.db q.task
  refine ⟨drawn_advance inv.drawn q.task, ?_, ?_⟩
  · intro e meme p memp
    rcases mem_cons.mp meme with rfl | old
    · exact Nat.lt_of_lt_of_le (inv.drawn.passkey p memp) grows
    · exact Nat.lt_of_lt_of_le (inv.known e old p memp) grows
  intro e meme p memp p' memp' same
  rcases mem_cons.mp meme with rfl | old
  · exact counter_step inv.drawn ok memp memp' same
  have bound := inv.known e old p memp
  rcases advance_passkey memp' with ⟨row, memRow, id, _⟩ | ⟨fresh, _⟩
  · calc p.signCount ≤ row.signCount := inv.grows e old p memp row memRow (id.symm.trans same)
      _ ≤ p'.signCount := counter_step inv.drawn ok memRow memp' id
  · omega

theorem counter_environment (inv : CounterSafe w) (change : Change) :
    CounterSafe { w with db := change.apply w.db } := by
  obtain ⟨passkeys, _, supply⟩ := environment_rows w.db change
  refine ⟨drawn_environment inv.drawn change, ?_, ?_⟩
  · simp only [supply]
    exact inv.known
  · simp only [passkeys]
    exact inv.grows

structure VerificationsHold (w : PasskeyWorld) : Prop where
  once : ∀ c, (w.log.filter (fun e => e.task.verified == some c)).length ≤ 1
  counters : ∀ e ∈ w.log, ∀ p ∈ e.before.passkeys, ∀ p' ∈ w.db.passkeys, p'.id = p.id →
    p.signCount ≤ p'.signCount

theorem ChallengeSafe.once_each (inv : ChallengeSafe w) (c : Nat) :
    (w.log.filter (fun e => e.task.verified == some c)).length ≤ 1 := by
  refine filter_length_le_one (inv.once.imp ?_)
  intro later earlier apart verified
  exact beq_eq_false_iff_ne.mpr (apart c (eq_of_beq verified))

/-- In every run whose two guarded UPDATEs meet `ReadStillCurrent`, a challenge serves
one successful verification at most, and no signature counter decreases. -/
theorem verifications_hold (lib : WebAuthn) (db : Db) (actions : List (Action Task Change))
    (w : PasskeyWorld) (drawn : Drawn db)
    (guarded : Guarded (passkeys lib).step (onAdvance ReadStillCurrent) (World.initial db) actions)
    (run : exec (passkeys lib).step (World.initial db) actions = some w) : VerificationsHold w := by
  have noProcess : ∀ q, q ∉ (World.initial db : PasskeyWorld).running := not_mem_empty
  have challenges : ChallengeSafe w :=
    System.invariant (fun _ _ _ inv requested inserted => challenge_arrive inv requested inserted)
      (fun _ _ inv mem ok => challenge_advance inv mem ok)
      (fun _ change inv => challenge_environment inv change)
      ⟨drawn, fun q mem => absurd mem (noProcess q), fun q mem => absurd mem (noProcess q),
        fun e mem => absurd mem not_mem_nil, .nil⟩ guarded run
  have counters : CounterSafe w := System.invariant (fun _ _ _ inv _ _ => ⟨inv.drawn, inv.known, inv.grows⟩)
      (fun _ _ inv _ ok => counter_advance inv ok)
      (fun _ change inv => counter_environment inv change)
      ⟨drawn, fun e mem => absurd mem not_mem_nil, fun e mem => absurd mem not_mem_nil⟩
      guarded run
  exact ⟨challenges.once_each, counters.grows⟩

/- the assertion that the passkey 10 makes for a challenge -/
def assertionFor (challenge : Nat) : Assertion := ⟨challenge, some 12, 110, 210⟩

/- the owner, logged in, asks for a step-up challenge (20) and answers it -/
def stepUp : List (Action Task Change) :=
  .arrive 1 (.beginAuthentication .admin (some 1)) :: List.replicate 2 (.advance 1) ++
    .arrive 2 (.completeAuthentication .admin (assertionFor 20) (some 1) .stepUp) ::
    List.replicate 8 (.advance 2)

theorem verifications_hold_step_up :
    ∃ w, exec (passkeys syncedPasskeys).step (World.initial twoPasskeys) stepUp = some w ∧
      VerificationsHold w := by
  have runs : (exec (passkeys syncedPasskeys).step (World.initial twoPasskeys) stepUp).isSome = true := by decide
  obtain ⟨w, run⟩ := Option.isSome_iff_exists.mp runs
  exact ⟨w, run, verifications_hold syncedPasskeys twoPasskeys stepUp w two_passkeys_drawn (by decide) run⟩

/- one assertion is sent twice, and the statements of both requests run in turns -/
def replayedAssertion : List (Action Task Change) :=
  .arrive 1 (.beginAuthentication .admin (some 1)) :: List.replicate 2 (.advance 1) ++
    .arrive 2 (.completeAuthentication .admin (assertionFor 20) (some 1) .login) ::
    .arrive 3 (.completeAuthentication .admin (assertionFor 20) (some 1) .login) ::
    (List.replicate 6 [.advance 2, .advance 3]).flatten

/-- One challenge serves two logins: both requests read it unconsumed. -/
theorem challenge_serves_two_logins :
    ¬ ∀ (lib : WebAuthn) (db : Db) (actions : List (Action Task Change)) (w : PasskeyWorld),
      Drawn db → exec (passkeys lib).step (World.initial db) actions = some w →
      VerificationsHold w := by
  intro holds
  have twice : (exec (passkeys syncedPasskeys).step (World.initial twoPasskeys) replayedAssertion).any (fun w =>
        (w.log.filter (fun e => e.task.verified == some 21)).length == 2) = true := by decide
  obtain ⟨w, run, two⟩ := (Option.any_eq_true _ _).mp twice
  have once := (holds syncedPasskeys twoPasskeys replayedAssertion w two_passkeys_drawn run).once 21
  rw [eq_of_beq two] at once
  omega

end HostingPlatform.Auth.Passkeys
