import HostingPlatform.Auth.Rotation

/-! What every run of the session routes keeps, whatever requests are under way: a stored token that is refused
once is refused for good, and a session acts for the user who logged in. -/
namespace HostingPlatform.Auth

open Table List Interleaving Transition

variable {ext : External} {w w' : Sessions} {p : Process Task} {r : RefreshToken} {db : Db} {task task' : Task}
  {actions before after : List (Action Task Change)} {v : Validation} {id presented familyId : Nat}

theorem bounded_throughout (run : exec (sessions ext).step (World.initial Db.empty) actions = some w) : Bounded w :=
  System.invariant_always (fun _ _ _ inv requested inserted => bounded_arrive inv requested inserted)
    (fun _ _ inv mem => bounded_advance inv mem) (fun _ change inv => bounded_environment inv change) bounded_initial run

theorem advance_now (ext : External) (db : Db) (task : Task) : (advance ext db task).1.now = db.now := by
  cases task with
  | loginIssue | refreshIssue | passwordIssue =>
    simp only [advance]
    split
    · rename_i issued
      simp only [issueRefreshToken, Option.map_eq_some_iff] at issued
      obtain ⟨table, _, rfl, rfl⟩ := issued
      rfl
    · rfl
  | _ =>
    simp only [advance]
    repeat' split
    all_goals rfl

theorem lookupRow_valid (found : lookupRow db r = .valid v) : r.revoked = none ∧ db.now ≤ r.expiresAt ∧ v.id = r.id := by
  unfold lookupRow at found
  split at found
  · contradiction
  · contradiction
  rename_i live
  split at found
  · contradiction
  · rename_i unexpired
    cases found
    exact ⟨live, Nat.le_of_not_lt unexpired, rfl⟩

/- the row of the token is revoked or has expired -/
def Refused (db : Db) (id : Nat) : Prop :=
  id < db.supply ∧ ∀ r ∈ db.refreshTokens, r.id = id → r.revoked ≠ none ∨ r.expiresAt < db.now

theorem refused_advance (refused : Refused w.db id) : Refused ((sessions ext).run w p).db id := by
  refine ⟨Nat.lt_of_lt_of_le refused.1 (advance_supply ext w.db p.task), ?_⟩
  intro r mem same
  rcases advance_row mem with ⟨old, there, survives⟩ | ⟨_, drawn, _⟩
  · rcases refused.2 old there (survives.same.id ▸ same) with revoked | expired
    · exact .inl (fun live => revoked (survives.live live).1)
    · rw [← survives.same.expiresAt, ← advance_now ext w.db p.task] at expired
      exact .inr expired
  · have known := refused.1
    omega

theorem refused_environment (refused : Refused db id) (change : Change) : Refused (change.apply db) id := by
  have later : db.now ≤ (change.apply db).now := by
    cases change with
    | tick ms => exact Nat.le_add_right _ _
    | _ => exact Nat.le_refl _
  refine ⟨Nat.lt_of_lt_of_le refused.1 (environment_supply db change), ?_⟩
  rw [environment_tokens]
  intro r mem same
  exact (refused.2 r mem same).imp_right (fun expired => Nat.lt_of_lt_of_le expired later)

/-- A stored token that is not accepted in one state of a run is not accepted in any later one. -/
theorem refused_for_good (ext : External) (before after : List (Action Task Change)) (w w' : Sessions)
    (reached : exec (sessions ext).step (World.initial Db.empty) before = some w)
    (run : exec (sessions ext).step w after = some w') (r : RefreshToken) (mem : r ∈ w.db.refreshTokens)
    (refused : ∀ v, lookupRow w.db r ≠ .valid v) (presented : Nat) (v : Validation)
    (valid : lookupRefreshToken w'.db presented = .valid v) : v.id ≠ r.id := by
  intro same
  have dead : Refused w.db r.id := by
    refine ⟨((bounded_throughout reached).row r mem).1, ?_⟩
    intro r' mem' own
    obtain rfl := w.db.refreshTokens.eq_of_key mem' mem own
    by_contra accepted
    push Not at accepted
    refine refused ⟨r'.id, r'.userId, r'.familyId, r'.panel, r'.tenantId⟩ ?_
    simp only [lookupRow, accepted.1, if_neg (Nat.not_lt.mpr accepted.2)]
  have kept : Refused w'.db r.id :=
    @System.invariant_always _ _ _ _ (sessions ext) _ (fun v => Refused v.db r.id) (fun _ _ _ inv _ _ => inv)
      (fun _ _ inv _ => refused_advance inv) (fun _ change inv => refused_environment inv change) w w' dead run
  unfold lookupRefreshToken at valid
  split at valid
  · contradiction
  rename_i row selected
  obtain ⟨live, unexpired, own⟩ := lookupRow_valid valid
  rcases kept.2 row (mem_of_select selected).1 (own.symm.trans same) with revoked | expired
  · exact revoked live
  · exact Nat.not_lt.mpr unexpired expired

/-- Token 2 has been rotated by the refresh; the token that came of it is another one. -/
theorem refused_for_good_plain :
    ∃ w, ∃ r ∈ w.db.refreshTokens, ∃ v, exec (sessions plainExternal).step (World.initial Db.empty) plainRefresh =
      some w ∧ lookupRefreshToken w.db 4 = .valid v ∧ v.id ≠ r.id := by
  have runs : (exec (sessions plainExternal).step (World.initial Db.empty) plainRefresh).any (fun w =>
      w.db.refreshTokens.rows.any (fun r => r.id == 2 && lookupRow w.db r == .reuse 3) &&
      lookupRefreshToken w.db 4 == .valid ⟨5, 1, 3, .admin, none⟩) = true := by decide
  obtain ⟨w, run, both⟩ := (Option.any_eq_true _ _).mp runs
  rw [Bool.and_eq_true, any_eq_true] at both
  obtain ⟨⟨r, mem, rotated⟩, valid⟩ := both
  rw [Bool.and_eq_true] at rotated
  refine ⟨w, r, mem, _, run, eq_of_beq valid, ?_⟩
  refine refused_for_good plainExternal plainRefresh [] w w run rfl r mem ?_ 4 _ (eq_of_beq valid)
  intro v accepted
  rw [eq_of_beq rotated.2] at accepted
  contradiction

/- the token that a refresh has validated, the user it was read for, and the family it goes on in -/
def Task.refreshes : Task → Option (Validation × User × Nat)
  | .refreshTenant _ v user _ | .refreshRotate _ v user | .refreshIssue _ v user => some (v, user, v.familyId)
  | .refreshTouch _ v user issued => some (v, user, issued.familyId)
  | _ => none

def Task.Faithful (task : Task) : Prop :=
  ∀ v user familyId, task.refreshes = some (v, user, familyId) → user.id = v.userId ∧ familyId = v.familyId

/- the family of the refresh token and the subject of the access JWT that an answer gives out -/
def Response.session : Response → Option (Nat × Nat)
  | .loggedIn token issued _ | .refreshed token issued _ => some (issued.familyId, token.sub)
  | _ => none

/-- The stored tokens and the answers of a family are all for its owner. -/
structure OwnedBy (owner : Nat → Nat) (w : Sessions) : Prop where
  rows : ∀ r ∈ w.db.refreshTokens, r.userId = owner r.familyId
  answers : ∀ response ∈ w.answers, ∀ familyId userId, response.session = some (familyId, userId) →
    userId = owner familyId

structure Descends (owner : Nat → Nat) (w : Sessions) : Prop extends OwnedBy owner w where
  bounded : Bounded w
  validated : ∀ p ∈ w.running, ∀ v, p.task.validation = some v → v.userId = owner v.familyId
  faithful : ∀ p ∈ w.running, p.task.Faithful
  drawn : ∀ response ∈ w.answers, ∀ familyId userId, response.session = some (familyId, userId) →
    familyId < w.db.supply

/- for whom a statement begins a family -/
def Task.issuer : Task → Nat
  | .loginIssue user | .passwordIssue user => user.id
  | _ => 0

theorem next_faithful (faithful : task.Faithful) (next : (advance ext db task).2 = .next task') : task'.Faithful := by
  intro v user familyId refreshes
  cases task with
  | refreshUser authorization v =>
    simp only [advance] at next
    split at next
    · cases next
      cases refreshes
    rename_i user found
    have same := findUser_id found
    repeat' split at next
    all_goals cases next
    all_goals cases refreshes
    all_goals exact ⟨same, rfl⟩
  | refreshIssue authorization v user =>
    simp only [advance] at next
    split at next
    · rename_i done
      simp only [issueRefreshToken, Option.map_eq_some_iff] at done
      obtain ⟨table, _, issued⟩ := done
      cases issued
      cases next
      cases refreshes
      exact ⟨(faithful _ _ _ rfl).1, rfl⟩
    · cases next
  | validate caller presented =>
    simp only [advance] at next
    split at next <;> cases next
    · cases caller <;> cases refreshes
    · cases refreshes
  | _ =>
    simp only [advance] at next
    repeat' split at next
    all_goals cases next
    all_goals first | exact faithful v user familyId refreshes | cases refreshes

/-- An answer gives out a session of the family that the request goes on in, or of one that a login begins. -/
theorem session_answer {response : Response} {userId : Nat} (answered : (advance ext db task).2 = .answer response)
    (session : response.session = some (familyId, userId)) :
    (∃ v user, task.refreshes = some (v, user, familyId) ∧ task.validation = some v ∧ userId = user.id) ∨
      userId = task.issuer ∧ Drawn db.supply (advance ext db task).1.supply familyId := by
  cases task with
  | refreshTouch authorization v user issued =>
    cases answered
    cases session
    exact .inl ⟨v, user, rfl, rfl, rfl⟩
  | loginIssue user =>
    simp only [advance] at answered ⊢
    split at answered
    · rename_i done
      have supply := issue_supply done
      simp only [issueRefreshToken, Option.map_eq_some_iff] at done
      obtain ⟨table, _, same⟩ := done
      cases same
      cases answered
      cases session
      refine .inr ⟨rfl, ?_⟩
      simp only [issueFor, Option.getD_none, signAccessToken, sign] at supply ⊢
      constructor <;> omega
    · cases answered
      cases session
  | validate caller presented =>
    simp only [advance] at answered
    split at answered
    · contradiction
    · contradiction
    · cases caller <;> cases answered <;> cases session
  | revokeFamily caller familyId => cases caller <;> cases answered <;> cases session
  | _ =>
    simp only [advance] at answered
    repeat' split at answered
    all_goals cases answered
    all_goals cases session

/-- A family that a statement begins gets the user of the login as its owner. -/
theorem descends_advance {owner : Nat → Nat} (inv : Descends owner w) (mem : p ∈ w.running) :
    Descends (fun familyId => if familyId < w.db.supply then owner familyId else p.task.issuer)
      ((sessions ext).run w p) := by
  have grows : w.db.supply ≤ ((sessions ext).run w p).db.supply := advance_supply ext w.db p.task
  have fresh : ∀ {familyId}, Drawn w.db.supply ((sessions ext).run w p).db.supply familyId → ¬ familyId < w.db.supply :=
    fun drawn => Nat.not_lt.mpr drawn.ge
  have carried : ∀ {v}, p.task.validation = some v → v.familyId < w.db.supply ∧ v.userId = owner v.familyId :=
    fun validation => ⟨(inv.bounded.validated p mem _ validation).2.1, inv.validated p mem _ validation⟩
  refine ⟨⟨?_, ?_⟩, bounded_advance inv.bounded mem, ?_, ?_, ?_⟩
  · intro r memr
    rcases advance_row memr with ⟨old, there, survives⟩ | ⟨inserts, _⟩
    · rw [survives.same.userId, survives.same.familyId, if_pos (inv.bounded.row old there).2]
      exact inv.rows old there
    cases task : p.task with
    | refreshIssue authorization v user =>
      rw [task] at inserts
      obtain ⟨known, owned⟩ := @carried v (by rw [task]; rfl)
      rw [inserts.1, inserts.2, if_pos known, ← owned]
      exact (inv.faithful p mem v user v.familyId (by rw [task]; rfl)).1
    | loginIssue user | passwordIssue user =>
      rw [task] at inserts
      rw [inserts.2, if_neg (Nat.not_lt.mpr inserts.1.ge)]
      rfl
    | _ =>
      rw [task] at inserts
      exact inserts.elim
  · intro response answered familyId userId session
    rcases answers_run answered with old | new
    · rw [if_pos (inv.drawn response old familyId userId session)]
      exact inv.answers response old familyId userId session
    rcases session_answer new session with ⟨v, user, refreshes, validation, rfl⟩ | ⟨rfl, drawn⟩
    · obtain ⟨same, rfl⟩ := inv.faithful p mem v user familyId refreshes
      obtain ⟨known, owned⟩ := carried validation
      rw [if_pos known, same, owned]
    · rw [if_neg (fresh drawn)]
  · intro q memq v validation
    rcases mem_resume memq with ⟨old, _⟩ | ⟨task, next, rfl⟩
    · rw [if_pos (inv.bounded.validated q old v validation).2.1]
      exact inv.validated q old v validation
    rcases next_validation next validation with before | ⟨_, _, _, found⟩
    · rw [if_pos (carried before).1]
      exact (carried before).2
    · obtain ⟨row, there, _, _, _, user, family⟩ := lookup_valid found
      rw [← family, ← user, if_pos (inv.bounded.row row there).2]
      exact inv.rows row there
  · intro q memq
    rcases mem_resume memq with ⟨old, _⟩ | ⟨task, next, rfl⟩
    · exact inv.faithful q old
    · exact next_faithful (inv.faithful p mem) next
  · intro response answered familyId userId session
    rcases answers_run answered with old | new
    · exact Nat.lt_of_lt_of_le (inv.drawn response old familyId userId session) grows
    rcases session_answer new session with ⟨v, user, refreshes, validation, _⟩ | ⟨_, drawn⟩
    · obtain ⟨_, rfl⟩ := inv.faithful p mem v user familyId refreshes
      exact Nat.lt_of_lt_of_le (carried validation).1 grows
    · exact drawn.lt

/-- In every run each family of refresh tokens has one owner: the tokens that are stored in it, and the access
JWTs that its login and its refreshes hand out, are all for that user, whatever interleaves with them. -/
theorem families_owned (ext : External) (actions : List (Action Task Change)) (w : Sessions)
    (run : exec (sessions ext).step (World.initial Db.empty) actions = some w) : ∃ owner, OwnedBy owner w := by
  have descends : ∃ owner, Descends owner w := by
    refine @System.invariant_always _ _ _ _ (sessions ext) _ (fun w => ∃ owner, Descends owner w) ?_ ?_ ?_ _ w ?_ run
    · rintro v running p ⟨owner, inv⟩ requested inserted
      refine ⟨owner, ⟨inv.rows, inv.answers⟩, bounded_arrive inv.bounded requested inserted, ?_, ?_, inv.drawn⟩
      · intro q memq v carried
        rcases (mem_insert inserted).mp memq with rfl | old
        · rw [(request_carries_nothing requested).1] at carried
          contradiction
        · exact inv.validated q old v carried
      · intro q memq
        rcases (mem_insert inserted).mp memq with rfl | old
        · obtain ⟨id, task⟩ := q
          intro v user familyId refreshes
          cases task <;> cases requested <;> cases refreshes
        · exact inv.faithful q old
    · rintro v p ⟨owner, inv⟩ mem
      exact ⟨_, descends_advance inv mem⟩
    · rintro v change ⟨owner, inv⟩
      refine ⟨owner, ⟨?_, inv.answers⟩, bounded_environment inv.bounded change, inv.validated, inv.faithful, ?_⟩
      · simp only [sessions, environment_tokens v.db change]
        exact inv.rows
      · intro response answered familyId userId session
        exact Nat.lt_of_lt_of_le (inv.drawn response answered familyId userId session)
          (environment_supply v.db change)
    · refine ⟨fun _ => 0, ⟨?_, ?_⟩, bounded_initial, ?_, ?_, ?_⟩ <;> intro x mem <;> exact absurd mem not_mem_nil
  obtain ⟨owner, inv⟩ := descends
  exact ⟨owner, inv.toOwnedBy⟩

theorem families_owned_plain :
    ∃ w owner, exec (sessions plainExternal).step (World.initial Db.empty) plainRefresh = some w ∧
      OwnedBy owner w := by
  have runs : (exec (sessions plainExternal).step (World.initial Db.empty) plainRefresh).isSome = true := by decide
  obtain ⟨w, run⟩ := Option.isSome_iff_exists.mp runs
  obtain ⟨owner, owned⟩ := families_owned plainExternal plainRefresh w run
  exact ⟨w, owner, run, owned⟩

end HostingPlatform.Auth
