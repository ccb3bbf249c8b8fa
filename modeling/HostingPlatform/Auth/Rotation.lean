import HostingPlatform.Auth.Session

/-! Refresh-token families under interleaved refreshes, logouts, logins, password
changes and bulk revocations. A rotation is an UPDATE of the old token followed by an
INSERT of its successor, and the route does not look at how many rows the UPDATE
matched. -/
namespace HostingPlatform.Auth

open Table List Interleaving Transition

abbrev Sessions := World Db Task Response

/-- Every id in sight was drawn from the supply, and a validated token is still the
row it was read from. -/
structure Bounded (w : Sessions) : Prop where
  row : ∀ r ∈ w.db.refreshTokens, r.id < w.db.supply ∧ r.familyId < w.db.supply
  validated : ∀ p ∈ w.running, ∀ v, p.task.validation = some v →
    v.id < w.db.supply ∧ v.familyId < w.db.supply ∧
      ∀ r ∈ w.db.refreshTokens, r.id = v.id → r.familyId = v.familyId
  reusing : ∀ p ∈ w.running, ∀ familyId, p.task.reused = some familyId → familyId < w.db.supply
  reused : ∀ e ∈ w.log, ∀ familyId, e.task.reused = some familyId → familyId < w.db.supply
  before : ∀ e ∈ w.log, e.before.supply ≤ w.db.supply

theorem bounded_initial : Bounded (World.initial Db.empty) := by
  constructor <;> intro x mem <;> exact absurd mem not_mem_nil

variable {w : Sessions} {running : Table (Process Task) Process.id} {p : Process Task} {ext : External}
  {r : RefreshToken} {after : Nat} {authorization : Option Jwt} {v : Validation} {user : User} {db : Db}
  {task : Task}

theorem bounded_arrive (inv : Bounded w) (requested : p.task.isRequest = true)
    (inserted : w.running.insert p = some running) : Bounded { w with running } := by
  obtain ⟨noValidation, _, noReuse⟩ := request_carries_nothing requested
  refine ⟨inv.row, ?_, ?_, inv.reused, inv.before⟩
  · intro q mem v carried
    rcases (mem_insert inserted).mp mem with rfl | old
    · rw [noValidation] at carried
      contradiction
    · exact inv.validated q old v carried
  intro q mem familyId reused
  rcases (mem_insert inserted).mp mem with rfl | old
  · rw [noReuse] at reused
    contradiction
  · exact inv.reusing q old familyId reused

theorem bounded_environment (inv : Bounded w) (change : Change) : Bounded { w with db := change.apply w.db } := by
  have grows := environment_supply w.db change
  have same := environment_tokens w.db change
  refine ⟨?_, ?_, ?_, ?_, ?_⟩
  · intro r mem
    rw [same] at mem
    have bound := inv.row r mem
    simp only
    omega
  · intro p mem v carried
    obtain ⟨id, family, row⟩ := inv.validated p mem v carried
    simp only [same]
    exact ⟨by omega, by omega, row⟩
  · intro p mem familyId reused
    exact Nat.lt_of_lt_of_le (inv.reusing p mem familyId reused) grows
  · intro e mem familyId reused
    exact Nat.lt_of_lt_of_le (inv.reused e mem familyId reused) grows
  · intro e mem
    exact Nat.le_trans (inv.before e mem) grows

theorem bounded_row (inv : Bounded w) (mem : p ∈ w.running) (memRow : r ∈ ((sessions ext).run w p).db.refreshTokens) :
    r.id < ((sessions ext).run w p).db.supply ∧ r.familyId < ((sessions ext).run w p).db.supply := by
  have grows := advance_supply ext w.db p.task
  rcases advance_row memRow with ⟨old, memOld, survives⟩ | ⟨inserts, drawn⟩
  · have bound := inv.row old memOld
    rw [survives.same.id, survives.same.familyId]
    exact ⟨by simp only [System.run, sessions]; omega, by simp only [System.run, sessions]; omega⟩
  have id : r.id + 2 = ((sessions ext).run w p).db.supply := drawn.2
  refine ⟨by omega, ?_⟩
  cases task : p.task with
  | refreshIssue authorization v user =>
    rw [task] at inserts
    have bound := (inv.validated p mem v (by rw [task]; rfl)).2.1
    rw [inserts.1]
    exact Nat.lt_of_lt_of_le bound grows
  | loginIssue user | passwordIssue user =>
    simp only [task] at inserts
    simp only [System.run, task]
    exact inserts.1.lt
  | _ =>
    rw [task] at inserts
    exact inserts.elim

theorem bounded_advance (inv : Bounded w) (mem : p ∈ w.running) : Bounded ((sessions ext).run w p) := by
  have grows : w.db.supply ≤ ((sessions ext).run w p).db.supply := advance_supply ext w.db p.task
  refine ⟨fun r memRow => bounded_row inv mem memRow, ?_, ?_, ?_, ?_⟩
  · intro q memq v carried
    have known : v.id < w.db.supply ∧ v.familyId < w.db.supply ∧
        ∀ r ∈ w.db.refreshTokens, r.id = v.id → r.familyId = v.familyId := by
      rcases mem_resume memq with ⟨old, _⟩ | ⟨task, next, rfl⟩
      · exact inv.validated q old v carried
      rcases next_validation next carried with before | ⟨_, _, _, found⟩
      · exact inv.validated p mem v before
      obtain ⟨row, memRow, _, _, id, _, family⟩ := lookup_valid found
      have bound := inv.row row memRow
      refine ⟨by omega, by omega, ?_⟩
      intro r memr same
      rw [eq_of_key _ memr memRow (same.trans id.symm)]
      exact family
    refine ⟨by omega, by omega, ?_⟩
    intro r memr same
    rcases advance_row memr with ⟨old, memOld, survives⟩ | ⟨_, drawn⟩
    · rw [survives.same.familyId]
      exact known.2.2 old memOld (by rw [← survives.same.id]; exact same)
    · omega
  · intro q memq familyId reused
    rcases mem_resume memq with ⟨old, _⟩ | ⟨task, next, rfl⟩
    · exact Nat.lt_of_lt_of_le (inv.reusing q old familyId reused) grows
    · obtain ⟨row, memRow, rfl⟩ := next_reused next reused
      exact Nat.lt_of_lt_of_le (inv.row row memRow).2 grows
  · intro e meme familyId reused
    rcases mem_cons.mp meme with rfl | old
    · exact Nat.lt_of_lt_of_le (inv.reusing p mem familyId reused) grows
    · exact Nat.lt_of_lt_of_le (inv.reused e old familyId reused) grows
  · intro e meme
    rcases mem_cons.mp meme with rfl | old
    · exact grows
    · exact Nat.le_trans (inv.before e old) grows

/-- An UPDATE that rotates finds its token still live, and a family is revoked for
reuse only while none of its refreshes is between UPDATE and INSERT. -/
def Uncontended (w : Sessions) : Task → Prop
  | .refreshRotate _ v _ => ∃ r ∈ w.db.refreshTokens.rows, r.id = v.id ∧ r.revoked = none
  | .revokeFamily _ familyId =>
    ∀ p ∈ w.running.rows, p.task.rotating.map (·.1.familyId) ≠ some familyId
  | _ => True

instance decUncontended (w : Sessions) (task : Task) : Decidable (Uncontended w task) := by
  unfold Uncontended
  split <;> infer_instance

structure FamilySafe (w : Sessions) : Prop where
  bounded : Bounded w
  oneLive : ∀ r ∈ w.db.refreshTokens, ∀ r' ∈ w.db.refreshTokens, r.revoked = none →
    r'.revoked = none → r.familyId = r'.familyId → r = r'
  noneLive : ∀ p ∈ w.running, ∀ v user, p.task.rotating = some (v, user) →
    ∀ r ∈ w.db.refreshTokens, r.familyId = v.familyId → r.revoked ≠ none
  oneRotating : ∀ p ∈ w.running, ∀ p' ∈ w.running, ∀ v user v' user',
    p.task.rotating = some (v, user) → p'.task.rotating = some (v', user') →
    v.familyId = v'.familyId → p = p'
  deadAfterReuse : ∀ e ∈ w.log, ∀ familyId, e.task.reused = some familyId →
    ∀ r ∈ w.db.refreshTokens, r.familyId = familyId → r.revoked ≠ none
  idleAfterReuse : ∀ e ∈ w.log, ∀ familyId, e.task.reused = some familyId →
    ∀ p ∈ w.running, ∀ v user, p.task.rotating = some (v, user) → v.familyId ≠ familyId
  reuseFinal : w.log.Pairwise (fun later earlier => ∀ familyId,
    earlier.task.reused = some familyId → ∀ v user, later.task.rotating = some (v, user) →
    v.familyId ≠ familyId)

theorem safe_initial : FamilySafe (World.initial Db.empty) := by
  constructor
  case bounded => exact bounded_initial
  case reuseFinal => exact .nil
  all_goals intro x mem; exact absurd mem not_mem_nil

theorem safe_arrive (inv : FamilySafe w) (requested : p.task.isRequest = true)
    (inserted : w.running.insert p = some running) : FamilySafe { w with running } := by
  have noRotation := (request_carries_nothing requested).2.1
  have known : ∀ q ∈ running, ∀ v user, q.task.rotating = some (v, user) → q ∈ w.running := by
    intro q mem v user rotating
    rcases (mem_insert inserted).mp mem with rfl | old
    · rw [noRotation] at rotating
      contradiction
    · exact old
  refine ⟨bounded_arrive inv.bounded requested inserted, inv.oneLive, ?_, ?_,
    inv.deadAfterReuse, ?_, inv.reuseFinal⟩
  · intro q mem v user rotating
    exact inv.noneLive q (known q mem v user rotating) v user rotating
  · intro q mem q' mem' v user v' user' rotating rotating'
    exact inv.oneRotating q (known q mem v user rotating) q' (known q' mem' v' user' rotating')
      v user v' user' rotating rotating'
  · intro e meme familyId reused q mem v user rotating
    exact inv.idleAfterReuse e meme familyId reused q (known q mem v user rotating) v user rotating

theorem safe_environment (inv : FamilySafe w) (change : Change) : FamilySafe { w with db := change.apply w.db } := by
  have same := environment_tokens w.db change
  refine ⟨bounded_environment inv.bounded change, ?_, ?_, inv.oneRotating, ?_, inv.idleAfterReuse, inv.reuseFinal⟩
  · simp only [same]
    exact inv.oneLive
  · simp only [same]
    exact inv.noneLive
  · simp only [same]
    exact inv.deadAfterReuse

section

variable (inv : FamilySafe w) (mem : p ∈ w.running)
include inv mem

theorem inserted_alone {old : RefreshToken}
    (inserts : p.task.Inserts r w.db.supply after) (memOld : old ∈ w.db.refreshTokens)
    (same : old.familyId = r.familyId) : old.revoked ≠ none := by
  have bound := (inv.bounded.row old memOld).2
  cases task : p.task with
  | refreshIssue authorization v user =>
    rw [task] at inserts
    exact inv.noneLive p mem v user (by rw [task]; rfl) old memOld (same.trans inserts.1)
  | loginIssue user | passwordIssue user =>
    rw [task] at inserts
    have fresh := inserts.1.ge
    omega
  | _ =>
    rw [task] at inserts
    exact inserts.elim

theorem one_live_advance {r' : RefreshToken} (memr : r ∈ ((sessions ext).run w p).db.refreshTokens)
    (memr' : r' ∈ ((sessions ext).run w p).db.refreshTokens) (live : r.revoked = none)
    (live' : r'.revoked = none) (same : r.familyId = r'.familyId) : r = r' := by
  rcases advance_row memr with ⟨old, memOld, survives⟩ | ⟨inserts, drawn⟩
  · rcases advance_row memr' with ⟨old', memOld', survives'⟩ | ⟨inserts', drawn'⟩
    · have family : old.familyId = old'.familyId := by
        rw [← survives.same.familyId, ← survives'.same.familyId]
        exact same
      have one : old = old' :=
        inv.oneLive old memOld old' memOld' (survives.live live).1 (survives'.live live').1 family
      refine eq_of_key _ memr memr' ?_
      rw [survives.same.id, survives'.same.id, one]
    · have family : old.familyId = r'.familyId := by rw [← survives.same.familyId]; exact same
      exact absurd (survives.live live).1 (inserted_alone inv mem inserts' memOld family)
  · rcases advance_row memr' with ⟨old', memOld', survives'⟩ | ⟨inserts', drawn'⟩
    · have family : old'.familyId = r.familyId := by rw [← survives'.same.familyId]; exact same.symm
      exact absurd (survives'.live live').1 (inserted_alone inv mem inserts memOld' family)
    · refine eq_of_key _ memr memr' ?_
      omega

theorem none_live_rotate (ok : Uncontended w p.task) (task : p.task = .refreshRotate authorization v user)
    (memr : r ∈ ((sessions ext).run w p).db.refreshTokens) (family : r.familyId = v.familyId) : r.revoked ≠ none := by
  intro live
  rw [task] at ok
  obtain ⟨row, memRow, id, rowLive⟩ := ok
  have rowFamily := (inv.bounded.validated p mem v (by rw [task]; rfl)).2.2 row memRow id
  rcases advance_row memr with ⟨old, memOld, survives⟩ | ⟨inserts, _⟩
  · obtain ⟨oldLive, spared⟩ := survives.live live
    have one : old = row := inv.oneLive old memOld row memRow oldLive rowLive
        (by rw [← survives.same.familyId, family, rowFamily])
    rw [task, one] at spared
    simp [Task.revokes, id] at spared
  · rw [task] at inserts
    exact inserts

theorem rotate_live (ok : Uncontended w p.task) (task : p.task = .refreshRotate authorization v user) :
    ∃ row ∈ w.db.refreshTokens, row.familyId = v.familyId ∧ row.revoked = none := by
  rw [task] at ok
  obtain ⟨row, memRow, id, live⟩ := ok
  exact ⟨row, memRow, (inv.bounded.validated p mem v (by rw [task]; rfl)).2.2 row memRow id, live⟩

end

theorem none_live_advance {familyId : Nat} (dead : ∀ r ∈ w.db.refreshTokens, r.familyId = familyId → r.revoked ≠ none)
    (bound : familyId < w.db.supply) (idle : ∀ v user, p.task.rotating = some (v, user) → v.familyId ≠ familyId)
    (memr : r ∈ ((sessions ext).run w p).db.refreshTokens) (family : r.familyId = familyId) : r.revoked ≠ none := by
  intro live
  rcases advance_row memr with ⟨old, memOld, survives⟩ | ⟨inserts, _⟩
  · exact dead old memOld (survives.same.familyId ▸ family) (survives.live live).1
  cases task : p.task with
  | refreshIssue authorization v user =>
    rw [task] at inserts
    exact idle v user (by rw [task]; rfl) (inserts.1 ▸ family)
  | loginIssue user | passwordIssue user =>
    rw [task] at inserts
    have fresh := inserts.1.ge
    omega
  | _ =>
    rw [task] at inserts
    exact inserts

theorem safe_advance (inv : FamilySafe w) (mem : p ∈ w.running) (ok : Uncontended w p.task) :
    FamilySafe ((sessions ext).run w p) := by
  refine ⟨bounded_advance inv.bounded mem, ?_, ?_, ?_, ?_, ?_, ?_⟩
  case refine_1 =>
    intro r memr r' memr' live live' same
    exact one_live_advance inv mem memr memr' live live' same
  case refine_2 =>
    intro q memq v user rotating r memr family
    rcases mem_resume memq with ⟨old, other⟩ | ⟨task, next, rfl⟩
    · have bound := (inv.bounded.validated q old v (rotating_validation rotating)).2.1
      refine none_live_advance (inv.noneLive q old v user rotating) bound ?_ memr family
      intro v' user' rotating' same
      have one := inv.oneRotating q old p mem v user v' user' rotating rotating' same.symm
      exact other (by rw [one])
    · obtain ⟨authorization, rotate⟩ := next_rotating next rotating
      exact none_live_rotate inv mem ok rotate memr family
  case refine_3 =>
    intro q memq q' memq' v user v' user' rotating rotating' same
    rcases mem_resume memq with ⟨old, _⟩ | ⟨task, next, rfl⟩
    · rcases mem_resume memq' with ⟨old', _⟩ | ⟨task', next', rfl⟩
      · exact inv.oneRotating q old q' old' v user v' user' rotating rotating' same
      obtain ⟨authorization, rotate⟩ := next_rotating next' rotating'
      obtain ⟨row, memRow, family, live⟩ := rotate_live inv mem ok rotate
      exact absurd live (inv.noneLive q old v user rotating row memRow (family.trans same.symm))
    rcases mem_resume memq' with ⟨old', _⟩ | ⟨task', next', rfl⟩
    · obtain ⟨authorization, rotate⟩ := next_rotating next rotating
      obtain ⟨row, memRow, family, live⟩ := rotate_live inv mem ok rotate
      exact absurd live (inv.noneLive q' old' v' user' rotating' row memRow (family.trans same))
    · rw [next] at next'
      cases next'
      rfl
  case refine_4 =>
    intro e meme familyId reused r memr family
    rcases mem_cons.mp meme with rfl | old
    · intro live
      rcases advance_row memr with ⟨before, memBefore, survives⟩ | ⟨inserts, _⟩
      · have spared := (survives.live live).2
        cases task : p.task <;> simp only [task] at reused <;> cases reused
        simp only [task, Task.revokes, ← survives.same.familyId, family] at spared
        simp at spared
      · cases task : p.task <;> simp only [task] at reused <;> cases reused
        rw [task] at inserts
        exact inserts
    · exact none_live_advance (inv.deadAfterReuse e old familyId reused) (inv.bounded.reused e old familyId reused)
        (fun v user rotating => inv.idleAfterReuse e old familyId reused p mem v user rotating)
        memr family
  case refine_5 =>
    intro e meme familyId reused q memq v user rotating
    rcases mem_cons.mp meme with rfl | old
    · rcases mem_resume memq with ⟨oldq, _⟩ | ⟨task, next, rfl⟩
      · cases task : p.task <;> simp only [task] at reused <;> cases reused
        rw [task] at ok
        have idle := ok q oldq
        rw [rotating] at idle
        simpa using idle
      · obtain ⟨authorization, rotate⟩ := next_rotating next rotating
        rw [rotate] at reused
        contradiction
    · rcases mem_resume memq with ⟨oldq, _⟩ | ⟨task, next, rfl⟩
      · exact inv.idleAfterReuse e old familyId reused q oldq v user rotating
      obtain ⟨authorization, rotate⟩ := next_rotating next rotating
      obtain ⟨row, memRow, family, live⟩ := rotate_live inv mem ok rotate
      intro same
      exact inv.deadAfterReuse e old familyId reused row memRow (family.trans same) live
  case refine_6 =>
    refine pairwise_cons.mpr ⟨?_, inv.reuseFinal⟩
    intro e meme familyId reused v user rotating
    exact inv.idleAfterReuse e meme familyId reused p mem v user rotating

/- the check of `validateRefreshToken` -/
def isUsable (db : Db) (r : RefreshToken) : Bool :=
  r.revoked.isNone && decide (db.now ≤ r.expiresAt)

/-- What the families have to keep in every state: at most one usable token, and after
a token is presented again no token of its family validates and no successor of one is
inserted. -/
structure FamiliesHold (w : Sessions) : Prop where
  oneUsable : ∀ familyId, (w.db.refreshTokens.selectAll
    (fun r => r.familyId == familyId && isUsable w.db r)).length ≤ 1
  reusedInvalid : ∀ e ∈ w.log, ∀ familyId, e.task.reused = some familyId →
    ∀ presented v, lookupRefreshToken w.db presented = .valid v → v.familyId ≠ familyId
  noSuccessor : w.log.Pairwise (fun later earlier => ∀ familyId,
    earlier.task.reused = some familyId → ∀ v user, later.task.rotating = some (v, user) →
    v.familyId ≠ familyId)

theorem FamilySafe.holds (inv : FamilySafe w) : FamiliesHold w := by
  refine ⟨?_, ?_, inv.reuseFinal⟩
  · intro familyId
    refine selectAll_length_le_one ?_
    intro r mem r' mem' usable usable'
    simp only [isUsable, Bool.and_eq_true, beq_iff_eq, Option.isNone_iff_eq_none] at usable usable'
    exact inv.oneLive r mem r' mem' usable.2.1 usable'.2.1 (usable.1.trans usable'.1.symm)
  · intro e meme familyId reused presented v valid same
    obtain ⟨row, mem, _, live, _, _, family⟩ := lookup_valid valid
    exact inv.deadAfterReuse e meme familyId reused row mem (family.trans same) live

/- token 1 is rotated, and then presented again -/
def reuse : List (Action Task Change) :=
  ownerLogin ++ .arrive 1 (.refresh (some 1) none) :: List.replicate 6 (.advance 1) ++
    .arrive 2 (.refresh (some 1) none) :: List.replicate 3 (.advance 2)

/- two refreshes of token 1, their statements in turns -/
def doubleRotation : List (Action Task Change) :=
  ownerLogin ++ .arrive 1 (.refresh (some 1) none) :: .arrive 2 (.refresh (some 1) none) ::
    (List.replicate 5 [.advance 1, .advance 2]).flatten

/-- A bulk revocation: families begun at `cutoff` or later come after it, and the
family of the session it excepts is spared. -/
structure Revocation where
  (userId cutoff : Nat)
  spared : Option Nat
  deriving DecidableEq

def Revocation.Covers (revocation : Revocation) (userId familyId : Nat) : Prop :=
  revocation.userId = userId ∧ familyId < revocation.cutoff ∧
    revocation.spared ≠ some familyId

instance (revocation : Revocation) (userId familyId : Nat) :
    Decidable (revocation.Covers userId familyId) :=
  inferInstanceAs (Decidable (_ ∧ _ ∧ _))

def familyOf (db : Db) (id : Nat) : Option Nat :=
  (db.refreshTokens.select (fun r => r.id == id)).map (·.familyId)

def Task.revocation (db : Db) : Task → Option Revocation
  | .passwordRevoke user => some ⟨user.id, db.supply, none⟩
  | .revokeAll userId _ exceptSessionId =>
    some ⟨userId, db.supply, exceptSessionId.bind (familyOf db)⟩
  | _ => none

def Task.rotates : Task → Option (Validation × User)
  | .refreshRotate _ v user => some (v, user)
  | _ => none

/-- No bulk revocation of a user falls between the SELECT and the INSERT of one of
the user's rotations: none has come before its UPDATE, and none comes between its
UPDATE and its INSERT. -/
def Undisturbed (w : Sessions) (task : Task) : Prop :=
  (∀ x ∈ task.rotates, ∀ e ∈ w.log, ∀ revocation ∈ e.task.revocation e.before,
    ¬ revocation.Covers x.2.id x.1.familyId) ∧
  (∀ revocation ∈ task.revocation w.db, ∀ p ∈ w.running.rows, ∀ x ∈ p.task.rotating,
    ¬ revocation.Covers x.2.id x.1.familyId)

instance (w : Sessions) (task : Task) : Decidable (Undisturbed w task) :=
  inferInstanceAs (Decidable (_ ∧ _))

theorem revocation_cutoff {revocation : Revocation} (bulk : revocation ∈ task.revocation db) :
    revocation.cutoff = db.supply := by
  cases task with
  | passwordRevoke user | revokeAll userId reason exceptSessionId =>
    cases bulk
    rfl
  | _ => contradiction

theorem familyOf_row (mem : r ∈ db.refreshTokens) : familyOf db r.id = some r.familyId := by
  unfold familyOf
  cases found : db.refreshTokens.select (fun row => row.id == r.id) with
  | none =>
    have missed := select_none found r mem
    simp at missed
  | some row =>
    obtain ⟨memRow, same⟩ := mem_of_select found
    rw [eq_of_key _ memRow mem (eq_of_beq same)]
    rfl

theorem revocation_revokes {revocation : Revocation} (bulk : revocation ∈ task.revocation db)
    (mem : r ∈ db.refreshTokens) (covers : revocation.Covers r.userId r.familyId) : task.revokes r = true := by
  obtain ⟨owner, _, spared⟩ := covers
  cases task with
  | passwordRevoke user =>
    cases bulk
    simp only at owner
    simp [Task.revokes, owner]
  | revokeAll userId reason exceptSessionId =>
    cases bulk
    simp only at owner spared
    simp only [Task.revokes, owner, beq_self_eq_true, Bool.true_and, bne_iff_ne]
    intro excepted
    rw [excepted] at spared
    exact spared (familyOf_row mem)
  | _ => contradiction

structure RevocationSafe (w : Sessions) : Prop where
  bounded : Bounded w
  dead : ∀ e ∈ w.log, ∀ revocation ∈ e.task.revocation e.before, ∀ r ∈ w.db.refreshTokens,
    revocation.Covers r.userId r.familyId → r.revoked ≠ none
  idle : ∀ e ∈ w.log, ∀ revocation ∈ e.task.revocation e.before, ∀ p ∈ w.running,
    ∀ x ∈ p.task.rotating, ¬ revocation.Covers x.2.id x.1.familyId

theorem revocation_initial : RevocationSafe (World.initial Db.empty) := by
  refine ⟨bounded_initial, ?_, ?_⟩ <;> intro e mem <;> exact absurd mem not_mem_nil

theorem revocation_arrive (inv : RevocationSafe w) (requested : p.task.isRequest = true)
    (inserted : w.running.insert p = some running) : RevocationSafe { w with running } := by
  refine ⟨bounded_arrive inv.bounded requested inserted, inv.dead, ?_⟩
  intro e meme revocation bulk q mem x rotating
  rcases (mem_insert inserted).mp mem with rfl | old
  · rw [(request_carries_nothing requested).2.1] at rotating
    contradiction
  · exact inv.idle e meme revocation bulk q old x rotating

theorem revocation_environment (inv : RevocationSafe w) (change : Change) :
    RevocationSafe { w with db := change.apply w.db } := by
  refine ⟨bounded_environment inv.bounded change, ?_, inv.idle⟩
  simp only [environment_tokens w.db change]
  exact inv.dead

theorem inserted_uncovered {revocation : Revocation} (cutoff : revocation.cutoff ≤ w.db.supply)
    (idle : ∀ x ∈ p.task.rotating, ¬ revocation.Covers x.2.id x.1.familyId)
    (inserts : p.task.Inserts r w.db.supply after) : ¬ revocation.Covers r.userId r.familyId := by
  intro covers
  have before := covers.2.1
  cases task : p.task with
  | refreshIssue authorization v user =>
    rw [task] at inserts
    rw [inserts.1, inserts.2] at covers
    exact idle (v, user) (by rw [task]; rfl) covers
  | loginIssue user | passwordIssue user =>
    rw [task] at inserts
    have fresh := inserts.1.ge
    omega
  | _ =>
    rw [task] at inserts
    exact inserts

theorem rotates_of_next {task' : Task} {x : Validation × User}
    (next : (advance ext db task).2 = .next task') (rotating : x ∈ task'.rotating) : x ∈ task.rotates := by
  obtain ⟨authorization, rfl⟩ := next_rotating next rotating
  rfl

theorem revocation_advance (inv : RevocationSafe w) (mem : p ∈ w.running) (ok : Undisturbed w p.task) :
    RevocationSafe ((sessions ext).run w p) := by
  refine ⟨bounded_advance inv.bounded mem, ?_, ?_⟩
  · intro e meme revocation bulk r memr covers live
    rcases mem_cons.mp meme with rfl | old
    · rcases advance_row memr with ⟨before, memBefore, survives⟩ | ⟨inserts, _⟩
      · rw [survives.same.userId, survives.same.familyId] at covers
        have revoked := revocation_revokes bulk memBefore covers
        rw [(survives.live live).2] at revoked
        contradiction
      · have cutoff := revocation_cutoff bulk
        refine inserted_uncovered (Nat.le_of_eq cutoff) ?_ inserts covers
        intro x rotating
        exact ok.2 revocation bulk p mem x rotating
    · rcases advance_row memr with ⟨before, memBefore, survives⟩ | ⟨inserts, _⟩
      · rw [survives.same.userId, survives.same.familyId] at covers
        exact inv.dead e old revocation bulk before memBefore covers (survives.live live).1
      have cutoff := revocation_cutoff bulk
      have bound := inv.bounded.before e old
      exact inserted_uncovered (by omega) (inv.idle e old revocation bulk p mem) inserts covers
  · intro e meme revocation bulk q memq x rotating
    rcases mem_cons.mp meme with rfl | old
    · rcases mem_resume memq with ⟨oldq, _⟩ | ⟨task, next, rfl⟩
      · exact ok.2 revocation bulk q oldq x rotating
      obtain ⟨authorization, rotate⟩ := next_rotating next rotating
      rw [rotate] at bulk
      contradiction
    · rcases mem_resume memq with ⟨oldq, _⟩ | ⟨task, next, rfl⟩
      · exact inv.idle e old revocation bulk q oldq x rotating
      · exact ok.1 x (rotates_of_next next rotating) e old revocation bulk

/-- What every bulk revocation has to leave behind, from its UPDATE on: the only tokens
of the user that validate belong to families begun after it. -/
def RevocationsHold (w : Sessions) : Prop :=
  ∀ e ∈ w.log, ∀ revocation ∈ e.task.revocation e.before,
    ∀ presented v, lookupRefreshToken w.db presented = .valid v →
      v.userId = revocation.userId → revocation.spared ≠ some v.familyId →
      revocation.cutoff ≤ v.familyId

theorem RevocationSafe.holds (inv : RevocationSafe w) : RevocationsHold w := by
  intro e meme revocation bulk presented v valid owner spared
  obtain ⟨row, mem, _, live, _, user, family⟩ := lookup_valid valid
  by_contra early
  have covers : revocation.Covers row.userId row.familyId := by
    rw [user, family]
    exact ⟨owner.symm, by omega, spared⟩
  exact inv.dead e meme revocation bulk row mem covers live

/- token 1 is rotated, and then the owner changes the password -/
def changeAfterRotation : List (Action Task Change) :=
  ownerLogin ++ .arrive 1 (.refresh (some 1) none) :: List.replicate 6 (.advance 1) ++
    .arrive 2 (.changePassword (some ownerToken) "hunter22" "correct horse") ::
    List.replicate 5 (.advance 2)

/- the password changes while a rotation of token 1 is between UPDATE and INSERT -/
def changeDuringRotation : List (Action Task Change) :=
  ownerLogin ++ .arrive 1 (.refresh (some 1) none) :: List.replicate 4 (.advance 1) ++
    .arrive 2 (.changePassword (some ownerToken) "hunter22" "correct horse") ::
    List.replicate 5 (.advance 2) ++ [.advance 1]

end HostingPlatform.Auth
