import HostingPlatform.Tenants.SubUsers

/-! Whether a tenant keeps an active administrator, and stays within its number of users. Every
request counts before it writes, in a statement of its own; what it has counted need not be so any
more when it writes. A deletion counts administrators who cannot log in. -/
namespace HostingPlatform.Tenants.SubUsers

open Table Interleaving Transition
open Auth (User)

abbrev SubUserWorld := World Users Task Response

structure Kept (tenantId : Nat) (max : Option Int) (users : Users) : Prop where
  admin : ∃ u ∈ users, isActiveAdmin tenantId u = true
  limit : ∀ m ∈ max, (countByTenantId users tenantId : Int) ≤ m

instance (tenantId : Nat) (max : Option Int) (users : Users) : Decidable (Kept tenantId max users) :=
  decidable_of_iff ((∃ u ∈ users.rows, isActiveAdmin tenantId u = true) ∧
      ∀ m ∈ max, (countByTenantId users tenantId : Int) ≤ m)
    ⟨fun both => ⟨both.1, both.2⟩, fun kept => ⟨kept.admin, kept.limit⟩⟩

/- an active admin of the tenant is among the rows a write is about, and is none after it -/
def removesAdmin (tenantId : Nat) (users : Users) : Task → Bool
  | .deleteById tenantId' userId =>
    users.rows.any (fun u => byIdAndTenantId userId tenantId' u && isActiveAdmin tenantId u)
  | .updateRow tenantId' userId input =>
    users.rows.any (fun u => byIdAndTenantId userId tenantId' u && isActiveAdmin tenantId u &&
      !isActiveAdmin tenantId (input.assign u))
  | _ => false

def addsUser (tenantId : Nat) (users : Users) : Task → Bool
  | .insertSubUser payload => payload.tenantId == tenantId && (insertSubUser users payload).isSome
  | _ => false

/-- What the guards count is still so when the write runs: there is a second active admin where
one is deleted, demoted or disabled, and room where a user is added. -/
def CheckStillHolds (tenantId : Nat) (max : Option Int) (w : SubUserWorld) (task : Task) : Prop :=
  (removesAdmin tenantId w.db task = true → 1 < countActiveAdminsByTenantId w.db tenantId) ∧
    (addsUser tenantId w.db task = true → ∀ m ∈ max, (countByTenantId w.db tenantId : Int) < m)

instance (tenantId : Nat) (max : Option Int) (w : SubUserWorld) (task : Task) :
    Decidable (CheckStillHolds tenantId max w task) :=
  inferInstanceAs (Decidable (_ ∧ _))

variable {userId tenantId tenantId' : Nat} {u : User} {users : Users} {input : UpdateSubUserPayload}

theorem byIdAndTenantId_iff :
    byIdAndTenantId userId tenantId u = true ↔ u.id = userId ∧ tenantUserScope tenantId u = true := by
  simp [byIdAndTenantId]

theorem insertSubUser_done {users' : Users} {payload : InsertSubUserPayload}
    (done : insertSubUser users payload = some users') : users.insert payload.row = some users' := by
  unfold insertSubUser at done
  split at done
  · contradiction
  · exact done

theorem scope_row (payload : InsertSubUserPayload) (tenantId : Nat) :
    tenantUserScope tenantId payload.row = (payload.tenantId == tenantId) := by
  simp [tenantUserScope, InsertSubUserPayload.row]

theorem admin_deleted_iff (tenantId' userId : Nat) (some : ∃ u ∈ users, isActiveAdmin tenantId u = true) :
    (∃ u ∈ deleteById users userId tenantId', isActiveAdmin tenantId u = true) ↔
      (removesAdmin tenantId users (.deleteById tenantId' userId) = true →
        1 < countActiveAdminsByTenantId users tenantId) := by
  have keyed : ∀ u, byIdAndTenantId userId tenantId' u = true → u.id = userId :=
    fun u found => (byIdAndTenantId_iff.mp found).1
  rw [removesAdmin, countActiveAdminsByTenantId, ← left_iff userId keyed some]
  simp only [deleteById, mem_delete]
  constructor
  · rintro ⟨u, ⟨mem, stays⟩, active⟩
    exact ⟨u, mem, active, stays⟩
  · rintro ⟨u, mem, active, stays⟩
    exact ⟨u, ⟨mem, stays⟩, active⟩

theorem admin_updated_iff (tenantId' userId : Nat) (input : UpdateSubUserPayload)
    (some : ∃ u ∈ users, isActiveAdmin tenantId u = true) :
    (∃ u ∈ updateRow users userId tenantId' input, isActiveAdmin tenantId u = true) ↔
      (removesAdmin tenantId users (.updateRow tenantId' userId input) = true →
        1 < countActiveAdminsByTenantId users tenantId) := by
  let gone := fun u => byIdAndTenantId userId tenantId' u && !isActiveAdmin tenantId (input.assign u)
  have keyed : ∀ u, gone u = true → u.id = userId :=
    fun u found => (byIdAndTenantId_iff.mp (Bool.and_eq_true_iff.mp found).1).1
  have removes : removesAdmin tenantId users (.updateRow tenantId' userId input) =
      users.rows.any (fun u => gone u && isActiveAdmin tenantId u) := by
    simp [removesAdmin, gone, Bool.and_right_comm]
  rw [removes, countActiveAdminsByTenantId, ← left_iff userId keyed some]
  constructor
  · rintro ⟨u, mem, active⟩
    rcases (mem_update (assign_id input)).mp mem with ⟨old, unselected⟩ | ⟨old, there, selected, rfl⟩
    · exact ⟨u, old, active, by simp [gone, unselected]⟩
    -- the row that is set stays active: no row is given up
    obtain ⟨v, memv, activev⟩ := some
    refine ⟨v, memv, activev, Bool.eq_false_iff.mpr ?_⟩
    intro goes
    have same : v = old :=
      users.eq_of_key memv there ((keyed v goes).trans (byIdAndTenantId_iff.mp selected).1.symm)
    simp [gone, same, active] at goes
  · rintro ⟨u, mem, active, stays⟩
    refine ⟨_, apply_mem_update (assign_id input) mem, ?_⟩
    by_cases selected : byIdAndTenantId userId tenantId' u = true
    · rw [apply]
      simpa [gone, selected] using stays
    · rw [apply, if_neg selected]
      exact active

theorem count_updateRow (users : Users) (userId tenantId tenantId' : Nat) (input : UpdateSubUserPayload) :
    countByTenantId (updateRow users userId tenantId' input) tenantId = countByTenantId users tenantId :=
  length_selectAll_update (assign_id input) (fun _ => rfl)

theorem assign_empty (empty : input.isEmpty = true) (u : User) : input.assign u = u := by
  simp only [UpdateSubUserPayload.isEmpty, Bool.and_eq_true, Option.isNone_iff_eq_none] at empty
  obtain ⟨⟨fullName, roleName⟩, status⟩ := empty
  simp [UpdateSubUserPayload.assign, fullName, roleName, status]

theorem removes_nothing (empty : input.isEmpty = true) (tenantId' userId : Nat) :
    removesAdmin tenantId users (.updateRow tenantId' userId input) = false := by
  simp [removesAdmin, assign_empty empty]

section writes

variable {tenantId : Nat} {max : Option Int} {w : SubUserWorld} (kept : Kept tenantId max w.db)
include kept

theorem kept_insert_iff (payload : InsertSubUserPayload) {users : Users}
    (done : insertSubUser w.db payload = some users) :
    Kept tenantId max users ↔ CheckStillHolds tenantId max w (.insertSubUser payload) := by
  have inserted := insertSubUser_done done
  have counted : countByTenantId users tenantId =
      countByTenantId w.db tenantId + (payload.tenantId == tenantId).toNat := by
    rw [← scope_row payload tenantId]
    exact length_selectAll_insert inserted
  obtain ⟨u, mem, active⟩ := kept.admin
  have admin : ∃ u ∈ users, isActiveAdmin tenantId u = true :=
    ⟨u, (mem_insert inserted).mpr (.inr mem), active⟩
  simp only [CheckStillHolds, addsUser, done, Option.isSome_some, Bool.and_true]
  constructor
  · intro after
    refine ⟨fun never => absurd never Bool.false_ne_true, ?_⟩
    intro own m its
    have within := after.limit m its
    rw [counted, own, Bool.toNat_true] at within
    omega
  · rintro ⟨_, room⟩
    refine ⟨admin, ?_⟩
    intro m its
    rw [counted]
    cases own : payload.tenantId == tenantId with
    | false => simpa using kept.limit m its
    | true =>
      have here := room own m its
      rw [Bool.toNat_true]
      omega

theorem kept_delete_iff (tenantId' userId : Nat) : Kept tenantId max (deleteById w.db userId tenantId') ↔
      CheckStillHolds tenantId max w (.deleteById tenantId' userId) := by
  simp only [CheckStillHolds]
  rw [← admin_deleted_iff tenantId' userId kept.admin]
  constructor
  · intro after
    exact ⟨after.admin, fun never => absurd never Bool.false_ne_true⟩
  rintro ⟨admin, _⟩
  refine ⟨admin, ?_⟩
  intro m its
  have fewer : countByTenantId (deleteById w.db userId tenantId') tenantId ≤
      countByTenantId w.db tenantId := length_selectAll_delete
  have before := kept.limit m its
  omega

theorem kept_update_iff (tenantId' userId : Nat) (input : UpdateSubUserPayload) :
    Kept tenantId max (updateRow w.db userId tenantId' input) ↔
      CheckStillHolds tenantId max w (.updateRow tenantId' userId input) := by
  simp only [CheckStillHolds]
  rw [← admin_updated_iff tenantId' userId input kept.admin]
  constructor
  · intro after
    exact ⟨after.admin, fun never => absurd never Bool.false_ne_true⟩
  rintro ⟨admin, _⟩
  refine ⟨admin, ?_⟩
  intro m its
  rw [count_updateRow]
  exact kept.limit m its

theorem kept_advance_iff (bcryptHash : Nat → String → String) (task : Task) :
    Kept tenantId max (advance bcryptHash w.db task).1 ↔ CheckStillHolds tenantId max w task := by
  cases task with
  | insertSubUser payload =>
    simp only [advance]
    cases done : insertSubUser w.db payload with
    | none => simpa [CheckStillHolds, addsUser, removesAdmin, done] using kept
    | some users => exact kept_insert_iff kept payload done
  | deleteById tenantId' userId => exact kept_delete_iff kept tenantId' userId
  | updateRow tenantId' userId input =>
    simp only [advance]
    by_cases empty : input.isEmpty = true
    · rw [if_pos empty]
      simpa [CheckStillHolds, addsUser, removes_nothing empty] using kept
    · rw [if_neg empty]
      exact kept_update_iff kept tenantId' userId input
  | _ =>
    simpa [advance, CheckStillHolds, addsUser, removesAdmin] using kept

end writes

/-- The tenant keeps an active administrator and its limit throughout a run if and only if every
write of the run finds what its guard is to make sure of. -/
theorem kept_iff_checks_hold (bcryptHash : Nat → String → String) (tenantId : Nat) (max : Option Int)
    (users : Users) (actions : List (Action Task Empty)) (w : SubUserWorld) (initial : Kept tenantId max users)
    (run : exec (subUsers bcryptHash tenantId max).step (World.initial users) actions = some w) :
    Guarded (subUsers bcryptHash tenantId max).step (onAdvance (CheckStillHolds tenantId max))
        (World.initial users) actions ↔
      Always (subUsers bcryptHash tenantId max).step (fun v => Kept tenantId max v.db)
        (World.initial users) actions := by
  refine System.guarded_iff_always (fun _ _ _ kept _ _ => kept) ?_ (fun _ never => nomatch never)
    (fun _ kept => kept) ?_ initial run
  · intro v p kept _ holds
    exact (kept_advance_iff kept bcryptHash p.task).mpr holds
  · intro v p kept _ against after
    exact against ((kept_advance_iff kept bcryptHash p.task).mp after)

def tenantUser (id : Nat) (roleName : String) (status : Auth.UserStatus) : User where
  id := id
  email := s!"user{id}@example.test"
  passwordHash := none
  fullName := "Tenant User"
  roleName := roleName
  panel := .tenant
  tenantId := some 1
  status := status
  timezone := none
  lastLoginAt := none
  lastCredentialCheckAt := none
  lastStepUpAt := none
  passkeyMode := none
  passkeyUserHandle := none

/- two administrators, and a third who is disabled -/
def threeAdmins : Users :=
  ((Table.empty.put (tenantUser 1 "tenant_admin" .active)).put
    (tenantUser 2 "tenant_admin" .active)).put (tenantUser 3 "tenant_admin" .disabled)

def newUser (email : String) : CreateSubUserInput := ⟨email, "New User", "password", none⟩

def disable : UpdateSubUserPayload := ⟨none, none, some .disabled⟩

def demote : UpdateSubUserPayload := ⟨none, some "tenant_user", none⟩

def noHash : Nat → String → String := fun _ _ => "$2b$12$"

/- one request after the other: a user is added, one administrator is disabled, the other cannot be -/
def guardsHold : List (Action Task Empty) :=
  List.flatten [[.arrive 1 (.createSubUser 1 (newUser "a@example.test") ⟨some 4⟩ ⟨4, 0⟩), .advance 1,
      .advance 1],
    .arrive 2 (.updateSubUser 1 2 disable) :: List.replicate 3 (.advance 2),
    [.arrive 3 (.updateSubUser 1 1 disable), .advance 3, .advance 3]]

theorem kept_guards_hold : ∃ w, exec (subUsers noHash 1 (some 4)).step (World.initial threeAdmins) guardsHold = some w ∧
      Always (subUsers noHash 1 (some 4)).step (fun v => Kept 1 (some 4) v.db) (World.initial threeAdmins)
        guardsHold := by
  refine ⟨_, rfl, (kept_iff_checks_hold noHash 1 (some 4) threeAdmins guardsHold _ (by decide) rfl).mp ?_⟩
  decide

/- one administrator is disabled, then the other deleted: there are three, though none can log in -/
def disabledCount : List (Action Task Empty) :=
  List.flatten [.arrive 1 (.updateSubUser 1 2 disable) :: List.replicate 3 (.advance 1),
    .arrive 2 (.deleteSubUser 1 1) :: List.replicate 3 (.advance 2)]

/- two administrators are demoted, and both requests count two -/
def demotedTogether : List (Action Task Empty) :=
  [.arrive 1 (.updateSubUser 1 1 demote), .arrive 2 (.updateSubUser 1 2 demote), .advance 1, .advance 2,
    .advance 1, .advance 2, .advance 1, .advance 2]

/- two users are added, and both requests count three -/
def createdTogether : List (Action Task Empty) :=
  [.arrive 1 (.createSubUser 1 (newUser "a@example.test") ⟨some 4⟩ ⟨4, 0⟩),
    .arrive 2 (.createSubUser 1 (newUser "b@example.test") ⟨some 4⟩ ⟨5, 0⟩), .advance 1, .advance 2,
    .advance 1, .advance 2]

/-- The deletion of the last administrator who can log in, two demotions at once, two users
created at once. -/
theorem guards_fail : Kept 1 (some 4) threeAdmins ∧
      ∀ actions ∈ [disabledCount, demotedTogether, createdTogether],
        ∃ w, exec (subUsers noHash 1 (some 4)).step (World.initial threeAdmins) actions = some w ∧
          ¬ Kept 1 (some 4) w.db := by
  refine ⟨by decide, ?_⟩
  simp only [List.forall_mem_cons, List.not_mem_nil, false_implies, implies_true, and_true]
  exact ⟨⟨_, rfl, by decide⟩, ⟨_, rfl, by decide⟩, ⟨_, rfl, by decide⟩⟩

end HostingPlatform.Tenants.SubUsers
