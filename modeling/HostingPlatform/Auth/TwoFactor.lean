import HostingPlatform.Auth.Routes

/-! A user whose passkey is a required second factor, and a client that cannot make an
assertion with it. Everything the client is given about the user is a pre-auth token,
as long as the password route is not run with one. -/
namespace HostingPlatform.Auth.Routes

open Option Table List Interleaving Transition

def TokenOutside (uid : Nat) (db : Db) (token : Nat) : Prop :=
  ∀ r ∈ db.refreshTokens, r.tokenHash = token → r.userId ≠ uid

/-- The JWT, if the platform has signed it, is not an access token of the user. -/
def JwtOutside (uid : Nat) (db : Db) (token : Jwt) : Prop :=
  token ∈ db.signed → token.sub = uid → token.step ≠ none

/-- What a request may carry while its client is outside the user's account. -/
def SessionOutside (uid : Nat) (db : Db) : Auth.Task → Prop
  | .loginTenant user _ _ => user.id = uid → user.passkeyMode = some .secondFactor
  | .loginUpdate user _ => user.id = uid → user.passkeyMode = some .secondFactor
  | .loginIssue user => user.id ≠ uid
  | .refresh presented _ => ∀ token ∈ presented, TokenOutside uid db token
  | .logout _ => True
  | .validate (.refresh _) presented => TokenOutside uid db presented
  | .refreshUser _ v => v.userId ≠ uid
  | .refreshTenant _ _ user _ => user.id ≠ uid
  | .refreshRotate _ _ user => user.id ≠ uid
  | .refreshIssue _ _ user => user.id ≠ uid
  | .refreshTouch _ _ user issued => user.id ≠ uid ∧ TokenOutside uid db issued.token
  | .passwordUpdate user _ => user.id ≠ uid
  | .passwordRevoke user => user.id ≠ uid
  | .passwordIssue user => user.id ≠ uid
  | _ => True

def PasskeyOutside (uid : Nat) : Passkeys.Task → Prop
  | .updateCounter _ _ _ _ user => user.id ≠ uid
  | .updateFreshness _ _ _ user => user.id ≠ uid
  | .deletePasskey userId _ => userId ≠ uid
  | .deleteCount userId _ => userId ≠ uid
  | .deleteUser userId _ => userId ≠ uid
  | .deleteCommit userId _ _ => userId ≠ uid
  | .setPasskeyMode userId _ => userId ≠ uid
  | .updateMode userId _ => userId ≠ uid
  | _ => True

def Outside (uid : Nat) (db : Db) : Task → Prop
  | .session task => SessionOutside uid db task
  | .passkey task => PasskeyOutside uid task
  | .deletePasskey authorization _ => ∀ token ∈ authorization, JwtOutside uid db token
  | .setPasskeyMode authorization _ => ∀ token ∈ authorization, JwtOutside uid db token
  | _ => True

/-- The client learns nothing that opens the account. -/
def Harmless (uid : Nat) (db : Db) (reply : Reply) : Prop :=
  (∀ token ∈ reply.jwt, token.sub = uid → token.step ≠ none) ∧
    ∀ token ∈ reply.refreshToken, TokenOutside uid db token

def SafeOutcome (uid : Nat) (db : Db) : Outcome Task Reply → Prop
  | .next task => Outside uid db task
  | .answer reply => Harmless uid db reply

structure Closed (uid : Nat) (db : Db) : Prop where
  mode : ∀ u ∈ db.users, u.id = uid → u.passkeyMode = some .secondFactor
  hashes : ∀ r ∈ db.refreshTokens, r.tokenHash < db.supply

/-- A statement that opens nothing: what was outside the account stays outside. -/
structure Keeps (uid : Nat) (db db' : Db) : Prop where
  closed : Closed uid db'
  token : ∀ token, TokenOutside uid db token → TokenOutside uid db' token
  jwt : ∀ token, JwtOutside uid db token → JwtOutside uid db' token

variable {uid : Nat} {db : Db}

theorem Keeps.refl (closed : Closed uid db) : Keeps uid db db :=
  ⟨closed, fun _ outside => outside, fun _ outside => outside⟩

variable {db' : Db}

theorem SessionOutside.mono (keeps : Keeps uid db db') {task : Auth.Task}
    (outside : SessionOutside uid db task) : SessionOutside uid db' task := by
  cases task with
  | refresh presented authorization =>
    exact fun token mem => keeps.token token (outside token mem)
  | validate caller presented =>
    cases caller with
    | refresh authorization => exact keeps.token presented outside
    | logout => trivial
  | refreshTouch authorization v user issued =>
    exact ⟨outside.1, keeps.token issued.token outside.2⟩
  | _ => exact outside

theorem Outside.mono (keeps : Keeps uid db db') {task : Task}
    (outside : Outside uid db task) : Outside uid db' task := by
  cases task with
  | session task => exact SessionOutside.mono keeps outside
  | deletePasskey authorization passkeyId | setPasskeyMode authorization mode =>
    exact fun token mem => keeps.jwt token (outside token mem)
  | _ => exact outside

theorem closed_updateUser {id : Nat} {f : User → User} {keeps : ∀ u, (f u).id = u.id} (closed : Closed uid db)
    (mode : ∀ u, (f u).passkeyMode = u.passkeyMode) : Closed uid (updateUser db id f keeps) := by
  refine ⟨?_, closed.hashes⟩
  intro u mem same
  rcases (mem_update keeps).mp mem with ⟨old, _⟩ | ⟨old, memOld, _, rfl⟩
  · exact closed.mode u old same
  · rw [mode old]
    exact closed.mode old memOld ((keeps old).symm.trans same)

theorem keeps_rows (closed : Closed uid db)
    (users : db'.users = db.users) (signed : db'.signed = db.signed) (supply : db'.supply = db.supply)
    (rows : ∀ r ∈ db'.refreshTokens, ∃ old ∈ db.refreshTokens, SameToken old r) : Keeps uid db db' := by
  refine ⟨⟨?_, ?_⟩, ?_, ?_⟩
  · rw [users]
    exact closed.mode
  · intro r mem
    obtain ⟨old, memOld, same⟩ := rows r mem
    rw [supply, same.tokenHash]
    exact closed.hashes old memOld
  · intro token outside r mem hash
    obtain ⟨old, memOld, same⟩ := rows r mem
    rw [same.userId]
    exact outside old memOld (same.tokenHash.symm.trans hash)
  · intro token outside
    rw [JwtOutside, signed]
    exact outside

theorem keeps_revokeWhere (closed : Closed uid db)
    (p : RefreshToken → Bool) (reason : RevokedReason) : Keeps uid db (revokeWhere db p reason) := by
  refine keeps_rows closed rfl rfl rfl ?_
  intro r mem
  rcases mem_revokeWhere mem with ⟨old, _⟩ | ⟨old, memOld, same, _⟩
  · exact ⟨r, old, SameToken.refl r⟩
  · exact ⟨old, memOld, same⟩

theorem keeps_touchLastUsed (closed : Closed uid db) (id : Nat) : Keeps uid db (touchLastUsed db id) := by
  refine keeps_rows closed rfl rfl rfl ?_
  intro r mem
  obtain ⟨old, memOld, same, _⟩ := mem_touchLastUsed mem
  exact ⟨old, memOld, same⟩

theorem keeps_sign {payload : Jwt} (closed : Closed uid db)
    (harmless : payload.sub = uid → payload.step ≠ none) : Keeps uid db (sign db payload).2 := by
  refine ⟨⟨closed.mode, ?_⟩, fun _ outside => outside, ?_⟩
  · intro r mem
    exact Nat.lt_succ_of_lt (closed.hashes r mem)
  intro token outside signed sub
  rcases mem_cons.mp signed with rfl | old
  · exact harmless sub
  · exact outside old sub

theorem Keeps.trans {db'' : Db} (first : Keeps uid db db') (second : Keeps uid db' db'') : Keeps uid db db'' :=
  ⟨second.closed, fun token outside => second.token token (first.token token outside),
    fun token outside => second.jwt token (first.jwt token outside)⟩

theorem keeps_issue {input : IssueRefreshTokenInput} {issued : IssuedRefreshToken}
    (closed : Closed uid db) (other : input.userId ≠ uid) (done : issueRefreshToken db input = some (issued, db')) :
    Keeps uid db db' ∧ TokenOutside uid db' issued.token := by
  simp only [issueRefreshToken, map_eq_some_iff] at done
  obtain ⟨table, inserted, rfl, rfl⟩ := done
  refine ⟨⟨⟨closed.mode, ?_⟩, ?_, fun _ outside => outside⟩, ?_⟩
  · intro r mem
    rcases (mem_insert inserted).mp mem with rfl | old
    · simp only [hashRefreshToken]
      omega
    have bound := closed.hashes r old
    simp only
    omega
  · intro token outside r mem hash
    rcases (mem_insert inserted).mp mem with rfl | old
    · exact other
    · exact outside r old hash
  intro r mem hash
  rcases (mem_insert inserted).mp mem with rfl | old
  · exact other
  have bound := closed.hashes r old
  simp only at hash
  omega

def Task.passwordCheck : Task → Option (Nat × String)
  | .session (.passwordUser sub currentPassword _) => some (sub, currentPassword)
  | _ => none

/-- The one statement that opens the account: the password route checks the current
password of the user its JWT names, and the only JWTs of the user that the client has are
pre-auth tokens. -/
def NoPasswordChange (ext : External) (uid : Nat) (w : ClientWorld) (task : Task) : Prop :=
  ∀ check ∈ task.passwordCheck, check.1 = uid →
    ∀ user ∈ findUser w.db check.1, passwordMatches ext user check.2 = false

instance decNoPasswordChange (ext : External) (uid : Nat) (w : ClientWorld) (task : Task) :
    Decidable (NoPasswordChange ext uid w task) :=
  inferInstanceAs (Decidable (∀ check ∈ task.passwordCheck, _))

theorem harmless_quiet {reply : Reply} (noJwt : reply.jwt = none)
    (noRefreshToken : reply.refreshToken = none) : Harmless uid db reply := by
  constructor
  · intro token mem
    rw [noJwt] at mem
    contradiction
  · intro token mem
    rw [noRefreshToken] at mem
    contradiction

theorem keeps_access {user : User} (closed : Closed uid db) (other : user.id ≠ uid) (impersonatedBy : Option Nat) :
    Keeps uid db (signAccessToken db user impersonatedBy).2 :=
  keeps_sign closed (fun same => absurd same other)

variable {ext : External}

theorem session_safe {task : Auth.Task} (closed : Closed uid db) (outside : SessionOutside uid db task)
    (ok : ∀ sub currentPassword newPassword, task = .passwordUser sub currentPassword newPassword →
      sub = uid → ∀ user ∈ findUser db sub, passwordMatches ext user currentPassword = false) :
    Keeps uid db (Auth.advance ext db task).1 ∧ SafeOutcome uid (Auth.advance ext db task).1
        ((Auth.advance ext db task).2.map .session .session) := by
  have stays := Keeps.refl closed
  cases task with
  | login panel email password | changePassword authorization currentPassword newPassword =>
    simp only [Auth.advance]
    repeat' split
    · exact ⟨stays, harmless_quiet rfl rfl⟩
    · exact ⟨stays, trivial⟩
    · exact ⟨stays, harmless_quiet rfl rfl⟩
  | loginUser email password =>
    simp only [Auth.advance]
    split
    · exact ⟨stays, harmless_quiet rfl rfl⟩
    rename_i user found
    have mode := closed.mode user (mem_of_select found).1
    repeat' split
    · exact ⟨stays, mode⟩
    · exact ⟨stays, mode⟩
    · exact ⟨stays, harmless_quiet rfl rfl⟩
  | loginTenant user tenantId password =>
    simp only [Auth.advance]
    split
    · exact ⟨stays, harmless_quiet rfl rfl⟩
    · exact ⟨stays, outside⟩
  | loginUpdate user password =>
    simp only [Auth.advance]
    have updated : Keeps uid db (updateUser { db with supply := db.supply + 1 } user.id
        (recordLogin db.now (if user.passwordHash.any isLegacyHash then
          some (hashNewPassword ext db password) else none))
        (recordLogin_id db.now _)) :=
      ⟨closed_updateUser ⟨closed.mode, fun r mem => Nat.lt_succ_of_lt (closed.hashes r mem)⟩
        (fun _ => rfl), fun _ outside => outside, fun _ outside => outside⟩
    split
    · refine ⟨updated.trans (keeps_sign updated.closed (fun _ => by simp)), ?_, ?_⟩
      · intro token mem _
        cases mem
        simp [signPreAuthToken, sign]
      · exact fun _ mem => absurd mem (not_mem_none _)
    · rename_i mode
      refine ⟨updated, ?_⟩
      intro same
      exact mode (by rw [outside same]; rfl)
  | loginIssue user =>
    simp only [Auth.advance]
    have other : user.id ≠ uid := outside
    have signed := keeps_access closed other none
    split
    · rename_i issued db' done
      obtain ⟨kept, tokenOutside⟩ := keeps_issue signed.closed other done
      refine ⟨signed.trans kept, ?_, ?_⟩
      · intro token mem same
        cases mem
        exact absurd same other
      · intro token mem
        cases mem
        exact tokenOutside
    · exact ⟨signed, harmless_quiet rfl rfl⟩
  | refresh presented authorization =>
    cases presented with
    | none => exact ⟨stays, harmless_quiet rfl rfl⟩
    | some token => exact ⟨stays, outside token rfl⟩
  | logout presented =>
    cases presented with
    | none => exact ⟨stays, harmless_quiet rfl rfl⟩
    | some token => exact ⟨stays, trivial⟩
  | validate caller presented =>
    simp only [Auth.advance]
    split
    · rename_i v found
      refine ⟨stays, ?_⟩
      cases caller with
      | refresh authorization =>
        obtain ⟨row, mem, hash, _, _, user, _⟩ := lookup_valid found
        have other := outside row mem hash
        rw [user] at other
        exact other
      | logout => trivial
    · exact ⟨stays, trivial⟩
    · cases caller <;> exact ⟨stays, harmless_quiet rfl rfl⟩
  | revokeFamily caller familyId =>
    have revoked := keeps_revokeWhere closed (fun r => r.familyId == familyId) .reuseDetected
    cases caller <;> exact ⟨revoked, harmless_quiet rfl rfl⟩
  | refreshUser authorization v =>
    simp only [Auth.advance]
    split
    · exact ⟨stays, trivial⟩
    rename_i user found
    have other : user.id ≠ uid := by
      rw [findUser_id found]
      exact outside
    repeat' split
    · exact ⟨stays, other⟩
    · exact ⟨stays, other⟩
    · exact ⟨stays, trivial⟩
  | refreshTenant authorization v user tenantId =>
    simp only [Auth.advance]
    split
    · exact ⟨stays, trivial⟩
    · exact ⟨stays, outside⟩
  | refreshDeny v | logoutRevoke v | revokeAll userId reason exceptSessionId =>
    exact ⟨keeps_revokeWhere closed _ _, harmless_quiet rfl rfl⟩
  | refreshRotate authorization v user | passwordRevoke user => exact ⟨keeps_revokeWhere closed _ _, outside⟩
  | refreshIssue authorization v user =>
    simp only [Auth.advance]
    split
    · rename_i issued db' done
      have other : user.id ≠ uid := outside
      obtain ⟨kept, tokenOutside⟩ := keeps_issue closed other done
      exact ⟨kept, outside, tokenOutside⟩
    · exact ⟨stays, harmless_quiet rfl rfl⟩
  | refreshTouch authorization v user issued =>
    have touched := keeps_touchLastUsed closed v.id
    have signed := touched.trans (keeps_access touched.closed outside.1 (impersonationMarker db authorization))
    refine ⟨signed, ?_, ?_⟩
    · intro token mem same
      cases mem
      exact absurd same outside.1
    · intro token mem
      cases mem
      exact signed.token issued.token outside.2
  | passwordUser sub currentPassword newPassword =>
    simp only [Auth.advance]
    split
    · exact ⟨stays, harmless_quiet rfl rfl⟩
    rename_i user found
    split
    · rename_i matched
      refine ⟨stays, ?_⟩
      intro same
      have sub := (findUser_id found).symm.trans same
      rw [ok _ _ _ rfl sub user found] at matched
      contradiction
    · exact ⟨stays, harmless_quiet rfl rfl⟩
  | passwordUpdate user newPassword =>
    refine ⟨⟨closed_updateUser ⟨closed.mode, fun r mem => Nat.lt_succ_of_lt (closed.hashes r mem)⟩
      (fun _ => rfl), fun _ outside => outside, fun _ outside => outside⟩, outside⟩
  | passwordIssue user =>
    simp only [Auth.advance]
    split
    · rename_i issued db' done
      have other : user.id ≠ uid := outside
      obtain ⟨kept, tokenOutside⟩ := keeps_issue closed other done
      refine ⟨kept, fun _ mem => absurd mem (not_mem_none _), ?_⟩
      intro token mem
      cases mem
      exact tokenOutside
    · exact ⟨stays, harmless_quiet rfl rfl⟩
  | revokeSessions userId reason presented => exact ⟨stays, trivial⟩

theorem keeps_apart (closed : Closed uid db) (mode : ∀ u ∈ db'.users, u.id = uid → u.passkeyMode = some .secondFactor)
    (tokens : db'.refreshTokens = db.refreshTokens) (signed : db'.signed = db.signed)
    (supply : db.supply ≤ db'.supply) : Keeps uid db db' := by
  refine ⟨⟨mode, ?_⟩, ?_, ?_⟩
  · rw [tokens]
    exact fun r mem => Nat.lt_of_lt_of_le (closed.hashes r mem) supply
  · intro token
    rw [TokenOutside, TokenOutside, tokens]
    exact id
  · intro token
    rw [JwtOutside, JwtOutside, signed]
    exact id

theorem keeps_setMode {userId : Nat} (closed : Closed uid db) (other : userId ≠ uid) (mode : Option PasskeyMode) :
    Keeps uid db (updateUser db userId (Passkeys.setMode mode) (Passkeys.setMode_id mode)) := by
  refine keeps_apart closed ?_ rfl rfl (Nat.le_refl _)
  intro u mem same
  rcases (mem_update (Passkeys.setMode_id mode)).mp mem with ⟨old, _⟩ | ⟨old, _, id, rfl⟩
  · exact closed.mode u old same
  · exact absurd ((eq_of_beq id).symm.trans same) other

theorem keeps_updateUser {id : Nat} {f : User → User} (closed : Closed uid db)
    (keeps : ∀ u, (f u).id = u.id) (mode : ∀ u, (f u).passkeyMode = u.passkeyMode) :
    Keeps uid db (updateUser db id f keeps) :=
  ⟨closed_updateUser closed mode, fun _ outside => outside, fun _ outside => outside⟩

theorem keeps_persistChallenge {challenge : Nat} {purpose : Purpose} {panel : Panel}
    {userId : Option Nat} (closed : Closed uid db)
    (done : Passkeys.persistChallenge db purpose panel userId = some (challenge, db')) : Keeps uid db db' := by
  simp only [Passkeys.persistChallenge, map_eq_some_iff] at done
  obtain ⟨table, _, rfl, rfl⟩ := done
  exact keeps_apart closed closed.mode rfl rfl (Nat.le_add_right _ _)

theorem keeps_insertPasskey {userId id : Nat} {credential : Passkeys.Credential} {nickname : String}
    (closed : Closed uid db) (done : Passkeys.insertPasskey db userId credential nickname = some (id, db')) :
    Keeps uid db db' := by
  unfold Passkeys.insertPasskey at done
  split at done
  · contradiction
  simp only [map_eq_some_iff] at done
  obtain ⟨table, _, rfl, rfl⟩ := done
  exact keeps_apart closed closed.mode rfl rfl (Nat.le_succ _)

variable {lib : Passkeys.WebAuthn}

theorem passkey_safe {task : Passkeys.Task} (noAssertion : ∀ response row, row.userId = uid →
      lib.verifyAuthenticationResponse response row = none)
    (closed : Closed uid db) (outside : PasskeyOutside uid task) : Keeps uid db (Passkeys.advance lib db task).1 ∧
      SafeOutcome uid (Passkeys.advance lib db task).1 (afterPasskey (Passkeys.advance lib db task).2) := by
  have stays := Keeps.refl closed
  cases task with
  | registrationNewHandle user panel =>
    refine ⟨⟨closed_updateUser ⟨closed.mode, fun r mem => Nat.lt_succ_of_lt (closed.hashes r mem)⟩
      (fun _ => rfl), fun _ outside => outside, fun _ outside => outside⟩, trivial⟩
  | registrationChallenge user panel handle existing | authenticationChallenge panel userId allowed =>
    simp only [Passkeys.advance]
    split
    · rename_i done
      exact ⟨keeps_persistChallenge closed done, harmless_quiet rfl rfl⟩
    · exact ⟨stays, harmless_quiet rfl rfl⟩
  | markConsumed consumer challengeId =>
    have marked : ∀ challenges, Keeps uid db { db with challenges } :=
      fun _ => keeps_apart closed closed.mode rfl rfl (Nat.le_refl _)
    simp only [Passkeys.advance]
    repeat' split
    · exact ⟨marked _, harmless_quiet rfl rfl⟩
    · exact ⟨marked _, trivial⟩
    · exact ⟨marked _, trivial⟩
  | registrationInsert challengeId userId credential nickname =>
    simp only [Passkeys.advance]
    split
    · rename_i done
      exact ⟨keeps_insertPasskey closed done, harmless_quiet rfl rfl⟩
    · exact ⟨stays, harmless_quiet rfl rfl⟩
  | credentialRow challengeId response goal user =>
    simp only [Passkeys.advance]
    split
    · exact ⟨stays, harmless_quiet rfl rfl⟩
    rename_i row found
    split
    · exact ⟨stays, harmless_quiet rfl rfl⟩
    rename_i owner
    split
    · exact ⟨stays, harmless_quiet rfl rfl⟩
    rename_i newCounter verified
    split
    · exact ⟨stays, harmless_quiet rfl rfl⟩
    refine ⟨stays, ?_⟩
    intro same
    rw [noAssertion response row ((not_not.mp owner).trans same)] at verified
    contradiction
  | updateCounter challengeId passkeyId newCounter goal user =>
    simp only [Passkeys.advance]
    split
    · exact ⟨keeps_apart closed closed.mode rfl rfl (Nat.le_refl _), outside⟩
    · exact ⟨stays, harmless_quiet rfl rfl⟩
  | updateFreshness challengeId passkeyId goal user =>
    have updated : Keeps uid db (updateUser db user.id (Passkeys.setFreshness db.now)
        (Passkeys.setFreshness_id db.now)) := keeps_updateUser closed _ (fun _ => rfl)
    cases goal with
    | login => exact ⟨updated, outside⟩
    | stepUp => exact ⟨updated, trivial⟩
  | updateStepUp user =>
    exact ⟨keeps_updateUser closed (Passkeys.setStepUp_id db.now) (fun _ => rfl), trivial⟩
  | readStepUp user => exact ⟨stays, harmless_quiet rfl rfl⟩
  | deletePasskey userId passkeyId =>
    simp only [Passkeys.advance]
    split
    · exact ⟨stays, harmless_quiet rfl rfl⟩
    · exact ⟨stays, outside⟩
  | deleteCount userId passkeyId =>
    simp only [Passkeys.advance]
    split <;> exact ⟨stays, outside⟩
  | deleteUser userId passkeyId =>
    simp only [Passkeys.advance]
    split
    · exact ⟨stays, harmless_quiet rfl rfl⟩
    · exact ⟨stays, outside⟩
    · exact ⟨stays, outside⟩
  | deleteCommit userId passkeyId dropMode =>
    have other : userId ≠ uid := outside
    refine ⟨?_, harmless_quiet rfl rfl⟩
    cases dropMode with
    | false => exact keeps_apart closed closed.mode rfl rfl (Nat.le_refl _)
    | true =>
      have dropped := keeps_setMode closed other none
      exact dropped.trans (keeps_apart dropped.closed dropped.closed.mode rfl rfl (Nat.le_refl _))
  | setPasskeyMode userId mode =>
    have other : userId ≠ uid := outside
    simp only [Passkeys.advance]
    repeat' split
    · exact ⟨stays, harmless_quiet rfl rfl⟩
    · exact ⟨stays, outside⟩
    · exact ⟨keeps_setMode closed other mode, harmless_quiet rfl rfl⟩
  | updateMode userId mode =>
    have other : userId ≠ uid := outside
    exact ⟨keeps_setMode closed other mode, harmless_quiet rfl rfl⟩
  | _ =>
    simp only [Passkeys.advance]
    repeat' split
    all_goals first | exact ⟨stays, harmless_quiet rfl rfl⟩ | exact ⟨stays, trivial⟩

section

variable {authorization : Option Jwt} {route : Jwt → Db × Outcome Task Reply} (closed : Closed uid db)
include closed

theorem jwt_safe (safe : ∀ payload, authorization = some payload → payload ∈ db.signed →
      Keeps uid db (route payload).1 ∧ SafeOutcome uid (route payload).1 (route payload).2) :
    Keeps uid db (jwtVerify db authorization route).1 ∧ SafeOutcome uid (jwtVerify db authorization route).1
        (jwtVerify db authorization route).2 := by
  unfold jwtVerify
  split
  · rename_i payload verified
    obtain ⟨token, carried, ok⟩ := bind_eq_some_iff.mp verified
    obtain ⟨rfl, signed⟩ := verify_eq ok
    exact safe payload carried signed
  · exact ⟨Keeps.refl closed, harmless_quiet rfl rfl⟩

theorem bearer_safe (safe : ∀ payload, authorization = some payload → payload ∈ db.signed → payload.step = none →
      Keeps uid db (route payload).1 ∧ SafeOutcome uid (route payload).1 (route payload).2) :
    Keeps uid db (assertBearerAuth db authorization route).1 ∧
      SafeOutcome uid (assertBearerAuth db authorization route).1 (assertBearerAuth db authorization route).2 := by
  unfold assertBearerAuth
  split
  · exact ⟨Keeps.refl closed, harmless_quiet rfl rfl⟩
  refine jwt_safe closed ?_
  intro payload carried signed
  split
  · exact ⟨Keeps.refl closed, harmless_quiet rfl rfl⟩
  · rename_i noStep
    exact safe payload carried signed (by simpa using noStep)

end

theorem route_safe {w : ClientWorld} {task : Task} (noAssertion : ∀ response row, row.userId = uid →
      lib.verifyAuthenticationResponse response row = none) (closed : Closed uid w.db) (outside : Outside uid w.db task)
    (ok : NoPasswordChange ext uid w task) : Keeps uid w.db (advance ext lib w.db task).1 ∧
      SafeOutcome uid (advance ext lib w.db task).1 (advance ext lib w.db task).2 := by
  have stays := Keeps.refl closed
  cases task with
  | session task =>
    refine session_safe closed outside ?_
    rintro sub currentPassword newPassword rfl
    exact ok _ rfl
  | passkey task => exact passkey_safe noAssertion closed outside
  | runtimeInfo authorization =>
    exact jwt_safe closed (fun _ _ _ => ⟨stays, harmless_quiet rfl rfl⟩)
  | me authorization | profile authorization body =>
    refine jwt_safe closed ?_
    intro payload _ _
    repeat' split
    all_goals first | exact ⟨stays, trivial⟩ | exact ⟨stays, harmless_quiet rfl rfl⟩
  | meTenant user tenantId | currentSession rows presented | passkeyMode sub list =>
    exact ⟨stays, harmless_quiet rfl rfl⟩
  | profileUpdate sub body =>
    simp only [advance]
    split
    · exact ⟨stays, harmless_quiet rfl rfl⟩
    · exact ⟨keeps_updateUser closed (updateProfile_id body) (fun _ => rfl), trivial⟩
  | profileRead sub =>
    simp only [advance]
    split <;> exact ⟨stays, harmless_quiet rfl rfl⟩
  | mySessions authorization presented =>
    exact jwt_safe closed (fun _ _ _ => ⟨stays, trivial⟩)
  | registrationOptions authorization | listPasskeys authorization | stepUpOptions authorization
  | stepUpVerify authorization response =>
    exact bearer_safe closed (fun _ _ _ _ => ⟨stays, trivial⟩)
  | registrationVerify authorization response nickname | stepUpPassword authorization password =>
    refine bearer_safe closed ?_
    intro payload _ _ _
    split
    · exact ⟨stays, harmless_quiet rfl rfl⟩
    · exact ⟨stays, trivial⟩
  | loginOptions panel preAuthToken | loginVerify panel response preAuthToken | preAuthUser claims panel response
  | stepUpPasswordUser sub password =>
    simp only [advance]
    repeat' split
    all_goals first | exact ⟨stays, trivial⟩ | exact ⟨stays, harmless_quiet rfl rfl⟩
  | consumePreAuth claims panel response =>
    simp only [advance]
    split
    · exact ⟨keeps_apart closed closed.mode rfl rfl (Nat.le_refl _), trivial⟩
    · exact ⟨stays, harmless_quiet rfl rfl⟩
  | deletePasskey authorization passkeyId | setPasskeyMode authorization mode =>
    refine bearer_safe closed ?_
    intro payload carried signed noStep
    exact ⟨stays, fun same => outside payload carried signed same noStep⟩
  | stepUpStatus authorization =>
    exact bearer_safe closed (fun _ _ _ _ => ⟨stays, harmless_quiet rfl rfl⟩)
  | stepUpPasswordUpdate sub =>
    exact ⟨keeps_updateUser closed (recordStepUp_id w.db.now) (fun _ => rfl), harmless_quiet rfl rfl⟩

structure ClientOutside (uid : Nat) (w : ClientWorld) : Prop where
  closed : Closed uid w.db
  answers : ∀ reply ∈ w.answers, Harmless uid w.db reply
  tasks : ∀ p ∈ w.running, Outside uid w.db p.task

theorem Harmless.mono (keeps : Keeps uid db db') {reply : Reply}
    (harmless : Harmless uid db reply) : Harmless uid db' reply :=
  ⟨harmless.1, fun token mem => keeps.token token (harmless.2 token mem)⟩

theorem request_outside {w : ClientWorld} (inv : ClientOutside uid w) {task : Task}
    (requested : (task.isRequest && canPresent w task) = true) : Outside uid w.db task := by
  rw [Bool.and_eq_true, canPresent, Bool.and_eq_true, Option.all_eq_true, Option.all_eq_true] at requested
  obtain ⟨isRequest, jwts, tokens⟩ := requested
  have jwtOutside : ∀ token ∈ task.jwt, JwtOutside uid w.db token := by
    intro token mem signed same
    rcases of_decide_eq_true (jwts token mem) with known | unsigned
    · obtain ⟨reply, memReply, given⟩ := mem_filterMap.mp known
      exact (inv.answers reply memReply).1 token given same
    · exact absurd signed unsigned
  have tokenOutside : ∀ token ∈ task.refreshToken, TokenOutside uid w.db token := by
    intro token mem r memRow hash
    rcases (Bool.or_eq_true _ _).mp (tokens token mem) with known | unmatched
    · obtain ⟨reply, memReply, given⟩ := mem_filterMap.mp (of_decide_eq_true known)
      exact (inv.answers reply memReply).2 token given r memRow hash
    · have differs := all_eq_true.mp unmatched r memRow
      simp [hash, hashRefreshToken] at differs
  cases task with
  | session task =>
    cases task with
    | refresh presented authorization => exact tokenOutside
    | login | logout | changePassword => trivial
    | _ => contradiction
  | passkey task => contradiction
  | deletePasskey authorization passkeyId | setPasskeyMode authorization mode => exact jwtOutside
  | _ => trivial

theorem outside_arrive {w : ClientWorld} {running : Table (Process Task) Process.id}
    {p : Process Task} (inv : ClientOutside uid w) (requested : (p.task.isRequest && canPresent w p.task) = true)
    (inserted : w.running.insert p = some running) : ClientOutside uid { w with running } := by
  refine ⟨inv.closed, inv.answers, ?_⟩
  intro q mem
  rcases (mem_insert inserted).mp mem with rfl | old
  · exact request_outside inv requested
  · exact inv.tasks q old

theorem outside_advance {w : ClientWorld} {p : Process Task} (noAssertion : ∀ response row, row.userId = uid →
      lib.verifyAuthenticationResponse response row = none)
    (inv : ClientOutside uid w) (mem : p ∈ w.running) (ok : NoPasswordChange ext uid w p.task) :
    ClientOutside uid ((client ext lib).run w p) := by
  obtain ⟨keeps, outcome⟩ := route_safe noAssertion inv.closed (inv.tasks p mem) ok
  refine ⟨keeps.closed, ?_, ?_⟩
  · intro reply memReply
    rcases answers_run memReply with old | answered
    · exact (inv.answers reply old).mono keeps
    have safe : SafeOutcome uid _ ((client ext lib).advance w.db p.task).2 := outcome
    rw [answered] at safe
    exact safe
  · intro q memq
    rcases mem_resume memq with ⟨old, _⟩ | ⟨task, next, rfl⟩
    · exact (inv.tasks q old).mono keeps
    have safe : SafeOutcome uid _ ((client ext lib).advance w.db p.task).2 := outcome
    rw [next] at safe
    exact safe

theorem outside_environment {w : ClientWorld} (inv : ClientOutside uid w)
    (change : Change) : ClientOutside uid { w with db := change.apply w.db } := by
  have keeps : Keeps uid w.db (change.apply w.db) := by
    cases change with
    | editUser user =>
      refine ⟨⟨?_, inv.closed.hashes⟩, fun _ outside => outside, fun _ outside => outside⟩
      intro u mem same
      rcases (mem_update (Passkeys.edited_id user)).mp mem with
        ⟨old, _⟩ | ⟨old, memOld, _, rfl⟩
      · exact inv.closed.mode u old same
      · exact inv.closed.mode old memOld same
    | tick | putTenant | setLocalAuth =>
      exact keeps_apart inv.closed inv.closed.mode rfl rfl (Nat.le_refl _)
  refine ⟨keeps.closed, ?_, ?_⟩
  · exact fun reply mem => (inv.answers reply mem).mono keeps
  · exact fun p mem => (inv.tasks p mem).mono keeps

/-- The client has no access JWT of the user, and no refresh token of the user. -/
def NoSession (uid : Nat) (w : ClientWorld) : Prop :=
  (∀ token ∈ knownJwts w, token.sub = uid → token.step ≠ none) ∧
    ∀ token ∈ knownRefreshTokens w, TokenOutside uid w.db token

def protectedOwner : Db :=
  { Db.empty with users := Table.empty.put { owner with passkeyMode := some .secondFactor } }

theorem protected_owner_closed : Closed 1 protectedOwner := by
  have mode : ∀ u ∈ protectedOwner.users.rows, u.id = 1 → u.passkeyMode = some .secondFactor := by
    decide
  exact ⟨mode, fun r mem => absurd mem (not_mem_empty r)⟩

def noAuthenticator : Passkeys.WebAuthn where
  verifyRegistrationResponse := fun _ => none
  verifyAuthenticationResponse := fun _ _ => none

def preAuthToken : Jwt := (signPreAuthToken { protectedOwner with supply := 1 } owner).1

def passwordLogin : List (Action Task Change) :=
  .arrive 1 (.session (.login .admin "owner@example.test" "hunter22")) ::
    List.replicate 3 (.advance 1)

/- with the pre-auth token the client reads the profile and tries to drop the mode -/
def probes : List (Action Task Change) :=
  passwordLogin ++ [.arrive 2 (.me (some preAuthToken)), .advance 2,
    .arrive 3 (.setPasskeyMode (some preAuthToken) none), .advance 3]

/- the client changes the password with the pre-auth token, and refreshes the session it
gets for that -/
def tradePreAuthToken : List (Action Task Change) :=
  passwordLogin ++
    .arrive 2 (.session (.changePassword (some preAuthToken) "hunter22" "correct horse")) ::
    List.replicate 5 (.advance 2) ++
    .arrive 3 (.session (.refresh (some 3) none)) :: List.replicate 6 (.advance 3)

end HostingPlatform.Auth.Routes
