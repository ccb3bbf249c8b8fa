import HostingPlatform.Auth.Schema
import HostingPlatform.Interleaving
import HostingPlatform.Js.Text

/-! The routes that start, rotate and end sessions: login, refresh, logout, the
password change, and the bulk revocation that the user administration routes end
with. A task is a request just before one of its database statements; `advance`
runs that statement and the code up to the next one. -/
namespace HostingPlatform.Auth

open Option Interleaving

/- what the routes take from libraries: zod's e-mail check, node:crypto, bcrypt -/
structure External where
  isEmail : String → Bool
  sha256 : String → String
  bcryptCompare : String → String → Bool
  bcryptHash : Nat → String → String

def isLegacyHash (hash : String) : Bool :=
  hash.length == 64 && hash.all (fun c => c.isDigit || ('a' ≤ c && c ≤ 'f'))

def verifyPassword (ext : External) (password hash : String) : Bool :=
  if isLegacyHash hash then ext.sha256 password == hash else ext.bcryptCompare password hash

def hashNewPassword (ext : External) (db : Db) (password : String) : String :=
  ext.bcryptHash db.supply password

structure UserView where
  id : Nat
  (email fullName role : String)
  panel : Panel
  tenantId : Option Nat
  deriving DecidableEq

def User.view (user : User) : UserView :=
  ⟨user.id, user.email, user.fullName, user.roleName, user.panel, user.tenantId⟩

inductive Response where
  | loggedIn (token : Jwt) (refreshToken : IssuedRefreshToken) (user : UserView)
  | passkeyRequired (preAuthToken : Jwt) (user : UserView)
  | refreshed (token : Jwt) (refreshToken : IssuedRefreshToken) (user : UserView)
  | passwordChanged (refreshToken : IssuedRefreshToken)
  | loggedOut
  | sessionsRevoked
  | failed (error : ApiError)
  | unauthorized
  | databaseError
  deriving DecidableEq

def signAccessToken (db : Db) (user : User) (impersonatedBy : Option Nat := none) : Jwt × Db :=
  let now := db.now / 1000
  sign db
    { sub := user.id, role := some user.roleName, panel := user.panel, tenantId := user.tenantId,
      impersonatedBy, step := none, exp := now + accessTokenTtlSeconds, iat := now,
      jti := db.supply }

def preAuthTokenTtlSeconds : Nat := 5 * 60

def signPreAuthToken (db : Db) (user : User) : Jwt × Db :=
  let now := db.now / 1000
  sign db
    { sub := user.id, role := none, panel := user.panel, tenantId := none, impersonatedBy := none,
      step := some .passkey2fa, exp := now + preAuthTokenTtlSeconds, iat := now, jti := db.supply }

/- `validateRefreshToken` serves the refresh and the logout route -/
inductive Caller where
  | refresh (authorization : Option Jwt)
  | logout

inductive Task where
  | login (panel : Panel) (email password : String)
  | refresh (presented : Option Nat) (authorization : Option Jwt)
  | logout (presented : Option Nat)
  | changePassword (authorization : Option Jwt) (currentPassword newPassword : String)
  | revokeSessions (userId : Nat) (reason : RevokedReason) (presented : Option Nat)
  | loginUser (email password : String)
  | loginTenant (user : User) (tenantId : Nat) (password : String)
  | loginUpdate (user : User) (password : String)
  | loginIssue (user : User)
  | validate (caller : Caller) (presented : Nat)
  | revokeFamily (caller : Caller) (familyId : Nat)
  | refreshUser (authorization : Option Jwt) (v : Validation)
  | refreshTenant (authorization : Option Jwt) (v : Validation) (user : User) (tenantId : Nat)
  | refreshDeny (v : Validation)
  | refreshRotate (authorization : Option Jwt) (v : Validation) (user : User)
  | refreshIssue (authorization : Option Jwt) (v : Validation) (user : User)
  | refreshTouch (authorization : Option Jwt) (v : Validation) (user : User)
      (issued : IssuedRefreshToken)
  | logoutRevoke (v : Validation)
  | passwordUser (sub : Nat) (currentPassword newPassword : String)
  | passwordUpdate (user : User) (newPassword : String)
  | passwordRevoke (user : User)
  | passwordIssue (user : User)
  | revokeAll (userId : Nat) (reason : RevokedReason) (exceptSessionId : Option Nat)

/- `loginIssue` is also where a login by passkey or single sign-on arrives, once
its own route has authenticated the user -/
def Task.isRequest : Task → Bool
  | .login .. | .refresh .. | .logout .. | .changePassword .. | .revokeSessions ..
  | .loginIssue .. => true
  | _ => false

def validationError (issues : List String) : ApiError :=
  ⟨"VALIDATION_ERROR", ", ".intercalate issues, 400⟩

def loginIssues (ext : External) (email password : String) : List String :=
  (if ext.isEmail email then [] else ["email: Invalid email address"]) ++
  (if 1 ≤ Js.length password then [] else ["password: Password is required"])

def changePasswordIssues (currentPassword newPassword : String) : List String :=
  (if 1 ≤ Js.length currentPassword then []
    else ["current_password: Too small: expected string to have >=1 characters"]) ++
  (if 6 ≤ Js.length newPassword then []
    else ["new_password: New password must be at least 6 characters"])

def ValidationFailure.text : ValidationFailure → String
  | .notFound => "not_found"
  | .expired => "expired"
  | .revoked => "revoked"
  | .reuseDetected => "reuse_detected"

def Caller.refuse (reason : ValidationFailure) : Caller → Response
  | .refresh _ => .failed ⟨"REFRESH_TOKEN_INVALID", "Refresh token " ++ reason.text, 401⟩
  | .logout => .loggedOut

def Caller.accept (v : Validation) : Caller → Task
  | .refresh authorization => .refreshUser authorization v
  | .logout => .logoutRevoke v

def setPassword (hash : String) (u : User) : User := { u with passwordHash := some hash }

def recordLogin (now : Nat) (rehashed : Option String) (u : User) : User :=
  { u with
    lastLoginAt := some now, lastCredentialCheckAt := some now,
    passwordHash := rehashed.or u.passwordHash }

theorem setPassword_id (hash : String) (u : User) : (setPassword hash u).id = u.id := rfl

theorem recordLogin_id (now : Nat) (rehashed : Option String) (u : User) : (recordLogin now rehashed u).id = u.id := rfl

def passwordMatches (ext : External) (user : User) (password : String) : Bool :=
  user.passwordHash.any (verifyPassword ext password)

/- the marker a refresh takes over from the access JWT in its header -/
def impersonationMarker (db : Db) (authorization : Option Jwt) : Option Nat :=
  (authorization.bind (verify db)).bind (·.impersonatedBy)

def issueFor (user : User) : IssueRefreshTokenInput := ⟨user.id, user.panel, user.tenantId, none⟩

def advance (ext : External) (db : Db) : Task → Db × Outcome Task Response
  | .login panel email password =>
    if db.disableLocalAuth panel then
      (db, .answer (.failed ⟨"LOCAL_AUTH_DISABLED",
        "Local authentication is disabled. Please use SSO to sign in.", 403⟩))
    else
      match loginIssues ext email password with
      | [] => (db, .next (.loginUser email password))
      | issues => (db, .answer (.failed (validationError issues)))
  | .loginUser email password =>
    match db.users.select (fun u => u.email == email) with
    | none => (db, .answer (.failed invalidToken))
    | some user =>
      if passwordMatches ext user password && user.status == .active then
        match user.tenantId with
        | some tenantId => (db, .next (.loginTenant user tenantId password))
        | none => (db, .next (.loginUpdate user password))
      else (db, .answer (.failed invalidToken))
  | .loginTenant user tenantId password =>
    if tenantArchived db tenantId then (db, .answer (.failed invalidToken))
    else (db, .next (.loginUpdate user password))
  | .loginUpdate user password =>
    let rehashed :=
      if user.passwordHash.any isLegacyHash then some (hashNewPassword ext db password) else none
    let updated := updateUser { db with supply := db.supply + 1 } user.id
      (recordLogin db.now rehashed) (recordLogin_id db.now rehashed)
    if user.passkeyMode == some .secondFactor then
      let (token, signed) := signPreAuthToken updated user
      (signed, .answer (.passkeyRequired token user.view))
    else (updated, .next (.loginIssue user))
  | .loginIssue user =>
    let (token, signed) := signAccessToken db user
    match issueRefreshToken signed (issueFor user) with
    | some (issued, db') => (db', .answer (.loggedIn token issued user.view))
    | none => (signed, .answer .databaseError)
  | .refresh presented authorization =>
    match presented with
    | some token => (db, .next (.validate (.refresh authorization) token))
    | none =>
      (db, .answer (.failed ⟨"REFRESH_TOKEN_MISSING", "Refresh token required", 401⟩))
  | .validate caller presented =>
    match lookupRefreshToken db presented with
    | .valid v => (db, .next (caller.accept v))
    | .reuse familyId => (db, .next (.revokeFamily caller familyId))
    | .invalid reason => (db, .answer (caller.refuse reason))
  | .revokeFamily caller familyId =>
    (revokeReusedFamily db familyId, .answer (caller.refuse .reuseDetected))
  | .refreshUser authorization v =>
    match findUser db v.userId with
    | none => (db, .next (.refreshDeny v))
    | some user =>
      if user.status == .active then
        match user.tenantId with
        | some tenantId => (db, .next (.refreshTenant authorization v user tenantId))
        | none => (db, .next (.refreshRotate authorization v user))
      else (db, .next (.refreshDeny v))
  | .refreshTenant authorization v user tenantId =>
    if tenantArchived db tenantId then (db, .next (.refreshDeny v))
    else (db, .next (.refreshRotate authorization v user))
  | .refreshDeny v => (revokeRefreshTokenById db v.id .adminRevoke, .answer (.failed invalidToken))
  | .refreshRotate authorization v user =>
    (revokeRefreshTokenById db v.id .rotated, .next (.refreshIssue authorization v user))
  | .refreshIssue authorization v user =>
    match issueRefreshToken db ⟨user.id, v.panel, v.tenantId, some v.familyId⟩ with
    | some (issued, db') => (db', .next (.refreshTouch authorization v user issued))
    | none => (db, .answer .databaseError)
  | .refreshTouch authorization v user issued =>
    let (token, signed) :=
      signAccessToken (touchLastUsed db v.id) user (impersonationMarker db authorization)
    (signed, .answer (.refreshed token issued user.view))
  | .logout presented =>
    match presented with
    | some token => (db, .next (.validate .logout token))
    | none => (db, .answer .loggedOut)
  | .logoutRevoke v => (revokeRefreshTokenById db v.id .logout, .answer .loggedOut)
  | .changePassword authorization currentPassword newPassword =>
    match authorization.bind (verify db) with
    | none => (db, .answer .unauthorized)
    | some payload =>
      match changePasswordIssues currentPassword newPassword with
      | [] => (db, .next (.passwordUser payload.sub currentPassword newPassword))
      | issues => (db, .answer (.failed (validationError issues)))
  | .passwordUser sub currentPassword newPassword =>
    match findUser db sub with
    | none => (db, .answer (.failed invalidToken))
    | some user =>
      if passwordMatches ext user currentPassword then
        (db, .next (.passwordUpdate user newPassword))
      else (db, .answer (.failed invalidToken))
  | .passwordUpdate user newPassword =>
    let hash := hashNewPassword ext db newPassword
    (updateUser { db with supply := db.supply + 1 } user.id (setPassword hash)
      (setPassword_id hash), .next (.passwordRevoke user))
  | .passwordRevoke user =>
    (revokeAllUserRefreshTokens db user.id .passwordChange, .next (.passwordIssue user))
  | .passwordIssue user =>
    match issueRefreshToken db (issueFor user) with
    | some (issued, db') => (db', .answer (.passwordChanged issued))
    | none => (db, .answer .databaseError)
  | .revokeSessions userId reason presented =>
    (db, .next (.revokeAll userId reason
      (presented.bind (fun token => findSessionIdByHash db (hashRefreshToken token)))))
  | .revokeAll userId reason exceptSessionId =>
    (revokeAllUserRefreshTokens db userId reason exceptSessionId, .answer .sessionsRevoked)

/-- What the rest of the platform does to these tables while requests run. -/
inductive Change where
  | tick (ms : Nat)
  | putUser (user : User)
  | putTenant (tenant : Tenant)
  | setLocalAuth (panel : Panel) (disabled : Bool)
  | impersonate (user : User) (tenantId impersonatedBy : Nat)

def Change.apply (db : Db) : Change → Db
  | .tick ms => { db with now := db.now + ms }
  | .putUser user => { db with users := db.users.put user }
  | .putTenant tenant => { db with tenants := db.tenants.put tenant }
  | .setLocalAuth panel disabled =>
    { db with
      disableLocalAuth := fun p => if p = panel then disabled else db.disableLocalAuth p }
  | .impersonate user tenantId impersonatedBy =>
    (sign db
      { sub := user.id, role := some "tenant_admin", panel := .tenant, tenantId := some tenantId,
        impersonatedBy := some impersonatedBy, step := none, exp := db.now / 1000 + 3600,
        iat := db.now / 1000, jti := db.supply }).2

def sessions (ext : External) : System Db Task Response Change where
  request := fun _ => Task.isRequest
  advance := advance ext
  environment := Change.apply

/-- A platform small enough to run: passwords are their own hashes. -/
def plainExternal : External where
  isEmail := fun email => email.toList.contains '@'
  sha256 := id
  bcryptCompare := fun password hash => password == hash
  bcryptHash := fun _ password => password

/- the access JWT and the refresh token of the owner's first login -/
def ownerToken : Jwt := (signAccessToken Db.empty owner).1

def ownerRefreshToken : IssuedRefreshToken := ⟨1, 3, 2, refreshTokenTtlSeconds * 1000⟩

/- the owner logs in and gets token 1 of family 3 -/
def ownerLogin : List (Action Task Change) :=
  [.environment (.putUser owner), .arrive 0 (.loginIssue owner), .advance 0]

open Transition

variable {ext : External} {db : Db} {task task' : Task} {token : Jwt} {issued : IssuedRefreshToken}
  {user : UserView} {r : RefreshToken} {input : IssueRefreshTokenInput} {v : Validation}

theorem login_unmarked (answered : (advance ext db task).2 = .answer (.loggedIn token issued user)) :
    token.impersonatedBy = none := by
  cases task with
  | loginIssue user =>
    simp only [advance] at answered
    split at answered
    · cases answered
      rfl
    · cases answered
  | validate caller presented =>
    simp only [advance] at answered
    split at answered
    · contradiction
    · contradiction
    · cases caller <;> cases answered
  | revokeFamily caller familyId => cases caller <;> cases answered
  | _ =>
    simp only [advance] at answered
    repeat' split at answered
    all_goals cases answered

theorem refresh_marker (answered : (advance ext db task).2 = .answer (.refreshed token issued user)) :
    ∃ authorization v u, task = .refreshTouch authorization v u issued ∧
      token.impersonatedBy = impersonationMarker db authorization := by
  cases task with
  | refreshTouch authorization v u issued =>
    cases answered
    exact ⟨authorization, v, u, rfl, rfl⟩
  | validate caller presented =>
    simp only [advance] at answered
    split at answered
    · contradiction
    · contradiction
    · cases caller <;> cases answered
  | revokeFamily caller familyId => cases caller <;> cases answered
  | _ =>
    simp only [advance] at answered
    repeat' split at answered
    all_goals cases answered

theorem touch_answers (ext : External) (db : Db) (authorization : Option Jwt) (v : Validation)
    (user : User) (issued : IssuedRefreshToken) :
    ∃ token, (advance ext db (.refreshTouch authorization v user issued)).2 =
        .answer (.refreshed token issued user.view) ∧
      token.impersonatedBy = impersonationMarker db authorization := ⟨_, rfl, rfl⟩

/-- The family was started by a login that answered with this access JWT. -/
def StartedWith (w : World Db Task Response) (familyId : Nat) (start : Jwt) : Prop :=
  ∃ issued user, .loggedIn start issued user ∈ w.answers ∧ issued.familyId = familyId

def MarkersPreserved (w : World Db Task Response) : Prop :=
  ∀ token issued user, .refreshed token issued user ∈ w.answers →
    ∀ start, StartedWith w issued.familyId start → token.impersonatedBy = start.impersonatedBy

/-- No refresh of a login's session came with a JWT that verifies and is marked. -/
def HeadersUnmarked (w : World Db Task Response) : Prop :=
  ∀ e ∈ w.log, ∀ authorization v user issued,
    e.task = .refreshTouch authorization v user issued →
    (∃ start, StartedWith w issued.familyId start) →
    ∀ token, authorization = some token → verify e.before token = some token →
      token.impersonatedBy = none

theorem marker_none_iff (db : Db) (authorization : Option Jwt) : impersonationMarker db authorization = none ↔
      ∀ token, authorization = some token → verify db token = some token → token.impersonatedBy = none := by
  unfold impersonationMarker
  constructor
  · rintro unmarked token rfl verified
    simpa [verified] using unmarked
  intro unmarked
  cases authorization with
  | none => rfl
  | some token =>
    cases verified : verify db token with
    | none => simp [verified]
    | some decoded =>
      have same := (verify_eq verified).1
      rw [same] at verified
      simpa [verified] using unmarked token rfl verified

/-- In any run, the access JWTs of the refreshes carry the marker their session
started with if and only if no refresh came with a valid, marked JWT. -/
theorem markers_preserved_iff (ext : External) (actions : List (Action Task Change)) (w : World Db Task Response)
    (run : exec (sessions ext).step (World.initial Db.empty) actions = some w) :
    MarkersPreserved w ↔ HeadersUnmarked w := by
  have faithful : ∀ e ∈ w.log, (advance ext e.before e.task).2 = e.outcome := System.log_faithful run
  have unmarkedStart : ∀ familyId start, StartedWith w familyId start → start.impersonatedBy = none := by
    rintro familyId start ⟨issued, user, answered, _⟩
    obtain ⟨e, mem, outcome⟩ := mem_answers.mp answered
    exact login_unmarked ((faithful e mem).trans outcome)
  constructor
  · intro preserved e mem authorization v user issued task started
    obtain ⟨start, started⟩ := started
    obtain ⟨token, answered, marker⟩ := touch_answers ext e.before authorization v user issued
    have outcome := faithful e mem
    rw [task, answered] at outcome
    have same := preserved token issued user.view (mem_answers.mpr ⟨e, mem, outcome.symm⟩) start started
    rw [marker, unmarkedStart issued.familyId start started] at same
    exact (marker_none_iff e.before authorization).mp same
  · intro unmarked token issued user answered start started
    obtain ⟨e, mem, outcome⟩ := mem_answers.mp answered
    obtain ⟨authorization, v, u, task, marker⟩ := refresh_marker ((faithful e mem).trans outcome)
    rw [marker, unmarkedStart issued.familyId start started]
    exact (marker_none_iff e.before authorization).mpr
      (unmarked e mem authorization v u issued task ⟨start, started⟩)

def plainRefresh : List (Action Task Change) :=
  ownerLogin ++ .arrive 1 (.refresh (some 1) none) :: List.replicate 6 (.advance 1)

theorem markers_preserved_plain :
    ∃ w, exec (sessions plainExternal).step (World.initial Db.empty) plainRefresh = some w ∧
      (MarkersPreserved w ↔ HeadersUnmarked w) := by
  have runs : (exec (sessions plainExternal).step (World.initial Db.empty) plainRefresh).isSome = true := by decide
  obtain ⟨w, run⟩ := isSome_iff_exists.mp runs
  exact ⟨w, run, markers_preserved_iff plainExternal plainRefresh w run⟩

def tenantAdmin : User :=
  { owner with id := 2, email := "tenant@example.test", panel := .tenant, tenantId := some 7 }

/- the JWT that POST /admin/impersonate gives the owner for the tenant's administrator -/
def impersonationToken : Jwt where
  sub := 2
  role := some "tenant_admin"
  panel := .tenant
  tenantId := some 7
  impersonatedBy := some 1
  step := none
  exp := 3600
  iat := 0
  jti := 4

/- the owner impersonates, and refreshes the own session with the impersonation JWT -/
def markedRefresh : List (Action Task Change) :=
  ownerLogin ++ .environment (.impersonate tenantAdmin 7 1) ::
    .arrive 1 (.refresh (some 1) (some impersonationToken)) :: List.replicate 6 (.advance 1)

/-- An ordinary session acquires the marker of another user's access JWT. -/
theorem ordinary_session_acquires_marker :
    ¬ ∀ (ext : External) (actions : List (Action Task Change)) (w : World Db Task Response),
      exec (sessions ext).step (World.initial Db.empty) actions = some w → MarkersPreserved w := by
  intro holds
  have marked : (exec (sessions plainExternal).step (World.initial Db.empty) markedRefresh).any
      (fun w => w.answers == [.refreshed { ownerToken with impersonatedBy := some 1, jti := 8 }
          { ownerRefreshToken with token := 5, id := 6 } owner.view,
         .loggedIn ownerToken ownerRefreshToken owner.view]) = true := by decide
  obtain ⟨w, run, answers⟩ := (any_eq_true _ _).mp marked
  have preserved := holds plainExternal markedRefresh w run
  have answered := eq_of_beq answers
  have started : StartedWith w 3 ownerToken := ⟨ownerRefreshToken, owner.view, by rw [answered]; simp, rfl⟩
  have same := preserved _ _ _ (by rw [answered]; exact List.mem_cons_self ..) ownerToken started
  contradiction

/- the rows that the statement's UPDATE revokes, if they are not revoked already -/
def Task.revokes : Task → RefreshToken → Bool
  | .revokeFamily _ familyId, r => r.familyId == familyId
  | .refreshDeny v, r => r.id == v.id
  | .refreshRotate _ v _, r => r.id == v.id
  | .logoutRevoke v, r => r.id == v.id
  | .passwordRevoke user, r => r.userId == user.id && none != some r.id
  | .revokeAll userId _ exceptSessionId, r => r.userId == userId && exceptSessionId != some r.id
  | _, _ => false

/- the value is drawn while the statement takes the supply from `before` to `after` -/
structure Drawn (before after value : Nat) : Prop where
  ge : before ≤ value
  lt : value < after

def Task.Inserts (r : RefreshToken) (before after : Nat) : Task → Prop
  | .refreshIssue _ v user => r.familyId = v.familyId ∧ r.userId = user.id
  | .loginIssue user => Drawn before after r.familyId ∧ r.userId = user.id
  | .passwordIssue user => Drawn before after r.familyId ∧ r.userId = user.id
  | _ => False

def Task.validation : Task → Option Validation
  | .refreshUser _ v => some v
  | .refreshTenant _ v _ _ => some v
  | .refreshDeny v => some v
  | .refreshRotate _ v _ => some v
  | .refreshIssue _ v _ => some v
  | .refreshTouch _ v _ _ => some v
  | .logoutRevoke v => some v
  | _ => none

/- a refresh between the UPDATE of the old token and the INSERT of its successor -/
def Task.rotating : Task → Option (Validation × User)
  | .refreshIssue _ v user => some (v, user)
  | _ => none

/- the family whose token was presented a second time -/
def Task.reused : Task → Option Nat
  | .revokeFamily _ familyId => some familyId
  | _ => none

structure Survives (task : Task) (old r : RefreshToken) : Prop where
  same : SameToken old r
  live : r.revoked = none → old.revoked = none ∧ task.revokes old = false

theorem revokeWhere_row {p : RefreshToken → Bool} {reason : RevokedReason}
    (selects : ∀ r, task.revokes r = p r) (mem : r ∈ (revokeWhere db p reason).refreshTokens) :
    ∃ old ∈ db.refreshTokens, Survives task old r := by
  rcases mem_revokeWhere mem with ⟨memOld, unselected⟩ | ⟨old, memOld, same, _, _, revoked⟩
  · refine ⟨r, memOld, SameToken.refl r, ?_⟩
    intro live
    refine ⟨live, ?_⟩
    rw [selects]
    exact Bool.eq_false_iff.mpr (fun matched => unselected matched live)
  · refine ⟨old, memOld, same, ?_⟩
    intro live
    rw [live] at revoked
    contradiction

theorem unchanged_row (selects : task.revokes r = false) :
    Survives task r r := ⟨SameToken.refl r, fun live => ⟨live, selects⟩⟩

theorem issue_row {db' : Db} (done : issueRefreshToken db input = some (issued, db')) (mem : r ∈ db'.refreshTokens) :
    r ∈ db.refreshTokens ∨ r.id = db.supply + 1 ∧ r.userId = input.userId ∧
      r.familyId = input.familyId.getD (db.supply + 2) := by
  simp only [issueRefreshToken, map_eq_some_iff] at done
  obtain ⟨table, inserted, rfl, rfl⟩ := done
  rcases (Table.mem_insert inserted).mp mem with rfl | old
  · exact .inr ⟨rfl, rfl, rfl⟩
  · exact .inl old

theorem issue_supply {db' : Db} (done : issueRefreshToken db input = some (issued, db')) :
    db'.supply = db.supply + 3 := by
  simp only [issueRefreshToken, map_eq_some_iff] at done
  obtain ⟨table, inserted, rfl, rfl⟩ := done
  rfl

theorem advance_supply (ext : External) (db : Db) (task : Task) : db.supply ≤ (advance ext db task).1.supply := by
  cases task with
  | loginIssue user =>
    simp only [advance]
    split
    · rename_i issued
      rw [issue_supply issued]
      simp only [signAccessToken, sign]
      omega
    · exact Nat.le_succ _
  | refreshIssue authorization v user | passwordIssue user =>
    simp only [advance]
    split
    · rename_i issued
      rw [issue_supply issued]
      omega
    · exact Nat.le_refl _
  | loginUpdate user password =>
    simp only [advance]
    split
    · exact Nat.le_add_right db.supply 2
    · exact Nat.le_succ _
  | passwordUpdate user newPassword | refreshTouch authorization v user issued => exact Nat.le_succ _
  | _ =>
    simp only [advance]
    repeat' split
    all_goals exact Nat.le_refl _

theorem advance_row (mem : r ∈ (advance ext db task).1.refreshTokens) :
    (∃ old ∈ db.refreshTokens, Survives task old r) ∨ task.Inserts r db.supply (advance ext db task).1.supply ∧
        db.supply ≤ r.id ∧ r.id + 2 = (advance ext db task).1.supply := by
  cases task with
  | revokeFamily caller familyId | refreshDeny v | refreshRotate authorization v user | logoutRevoke v
  | passwordRevoke user => exact .inl (revokeWhere_row (fun _ => rfl) mem)
  | revokeAll userId reason exceptSessionId =>
    exact .inl (revokeWhere_row (fun _ => rfl) mem)
  | refreshTouch authorization v user issued =>
    obtain ⟨old, memOld, same, revoked⟩ := mem_touchLastUsed mem
    exact .inl ⟨old, memOld, same, fun live => ⟨revoked ▸ live, rfl⟩⟩
  | refreshIssue authorization v user =>
    simp only [advance] at mem ⊢
    split at mem
    · rename_i db' issued
      rcases issue_row issued mem with old | ⟨id, owner, family⟩
      · exact .inl ⟨r, old, unchanged_row rfl⟩
      have supply := issue_supply issued
      have drawn : db.supply ≤ r.id ∧ r.id + 2 = db'.supply := by omega
      exact .inr ⟨⟨family, owner⟩, drawn⟩
    · exact .inl ⟨r, mem, unchanged_row rfl⟩
  | passwordIssue user =>
    simp only [advance] at mem ⊢
    split at mem
    · rename_i db' issued
      rcases issue_row issued mem with old | ⟨id, owner, family⟩
      · exact .inl ⟨r, old, unchanged_row rfl⟩
      have supply := issue_supply issued
      simp only [issueFor, getD_none] at family
      have drawn : db.supply ≤ r.id ∧ r.id + 2 = db'.supply := by omega
      have drawnFamily : Drawn db.supply db'.supply r.familyId := by constructor <;> omega
      exact .inr ⟨⟨drawnFamily, owner⟩, drawn⟩
    · exact .inl ⟨r, mem, unchanged_row rfl⟩
  | loginIssue user =>
    simp only [advance] at mem ⊢
    split at mem
    · rename_i db' issued
      rcases issue_row issued mem with old | ⟨id, owner, family⟩
      · exact .inl ⟨r, old, unchanged_row rfl⟩
      have supply := issue_supply issued
      simp only [signAccessToken, sign, issueFor, getD_none] at id family supply
      have drawn : db.supply ≤ r.id ∧ r.id + 2 = db'.supply := by omega
      have drawnFamily : Drawn db.supply db'.supply r.familyId := by constructor <;> omega
      exact .inr ⟨⟨drawnFamily, owner⟩, drawn⟩
    · exact .inl ⟨r, mem, unchanged_row rfl⟩
  | loginUpdate user password =>
    simp only [advance] at mem
    split at mem <;> exact .inl ⟨r, mem, unchanged_row rfl⟩
  | _ =>
    refine .inl ⟨r, ?_, unchanged_row rfl⟩
    simp only [advance] at mem
    repeat' split at mem
    all_goals exact mem

theorem next_validation (next : (advance ext db task).2 = .next task') (carried : task'.validation = some v) :
    task.validation = some v ∨ ∃ caller presented, task = .validate caller presented ∧
        lookupRefreshToken db presented = .valid v := by
  cases task with
  | validate caller presented =>
    simp only [advance] at next
    split at next
    · rename_i found
      cases next
      refine .inr ⟨caller, presented, rfl, ?_⟩
      cases caller <;> cases carried <;> exact found
    · cases next
      contradiction
    · contradiction
  | refreshUser | refreshTenant | refreshRotate | refreshIssue =>
    simp only [advance] at next
    repeat' split at next
    all_goals cases next
    all_goals exact .inl carried
  | _ =>
    simp only [advance] at next
    repeat' split at next
    all_goals cases next
    all_goals contradiction

theorem next_rotating {user : User} (next : (advance ext db task).2 = .next task')
    (rotating : task'.rotating = some (v, user)) : ∃ authorization, task = .refreshRotate authorization v user := by
  cases task with
  | refreshRotate authorization v user =>
    cases next
    cases rotating
    exact ⟨authorization, rfl⟩
  | validate caller presented =>
    simp only [advance] at next
    split at next <;> cases next
    · cases caller <;> contradiction
    · contradiction
  | _ =>
    simp only [advance] at next
    repeat' split at next
    all_goals cases next
    all_goals contradiction

theorem next_reused {familyId : Nat} (next : (advance ext db task).2 = .next task')
    (reused : task'.reused = some familyId) : ∃ r ∈ db.refreshTokens, r.familyId = familyId := by
  cases task with
  | validate caller presented =>
    simp only [advance] at next
    split at next <;> cases next
    · cases caller <;> contradiction
    rename_i found
    cases reused
    obtain ⟨r, mem, _, family, _⟩ := lookup_reuse found
    exact ⟨r, mem, family⟩
  | _ =>
    simp only [advance] at next
    repeat' split at next
    all_goals cases next
    all_goals contradiction

theorem request_carries_nothing (requested : task.isRequest = true) :
    task.validation = none ∧ task.rotating = none ∧ task.reused = none := by
  cases task <;> simp [Task.isRequest] at requested <;> exact ⟨rfl, rfl, rfl⟩

theorem rotating_validation {user : User} (rotating : task.rotating = some (v, user)) : task.validation = some v := by
  cases task <;> simp [Task.rotating] at rotating
  rw [← rotating.1]
  rfl

theorem environment_tokens (db : Db) (change : Change) : (change.apply db).refreshTokens = db.refreshTokens := by
  cases change <;> rfl

theorem environment_supply (db : Db) (change : Change) : db.supply ≤ (change.apply db).supply := by
  cases change with
  | impersonate => exact Nat.le_succ _
  | tick | putUser | putTenant | setLocalAuth => exact Nat.le_refl _

end HostingPlatform.Auth
