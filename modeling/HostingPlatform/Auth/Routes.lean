import HostingPlatform.Auth.Session
import HostingPlatform.Auth.Passkey

/-! The authentication routes together, as one client sees them: the session and the
passkey routes, the profile, and the step-up routes. A request carries tokens the client
has been given, or strings that no table and no signature matches. -/
namespace HostingPlatform.Auth.Routes

open Interleaving

structure Profile where
  (fullName email : Option String)
  timezone : Option (Option String)
  deriving DecidableEq

/- a request just before one of its statements, or at the start of its route -/
inductive Task where
  | session (task : Auth.Task)
  | passkey (task : Passkeys.Task)
  | runtimeInfo (authorization : Option Jwt)
  | me (authorization : Option Jwt)
  | meTenant (user : User) (tenantId : Nat)
  | profile (authorization : Option Jwt) (body : Profile)
  | profileUpdate (sub : Nat) (body : Profile)
  | profileRead (sub : Nat)
  | mySessions (authorization : Option Jwt) (presented : Option Nat)
  | currentSession (sessions : List RefreshToken) (presented : Option Nat)
  | registrationOptions (authorization : Option Jwt)
  | registrationVerify (authorization : Option Jwt) (response : Passkeys.Attestation)
      (nickname : String)
  | loginOptions (panel : Panel) (preAuthToken : Option Jwt)
  | loginVerify (panel : Panel) (response : Passkeys.Assertion) (preAuthToken : Option Jwt)
  | consumePreAuth (claims : Jwt) (panel : Panel) (response : Passkeys.Assertion)
  | preAuthUser (claims : Jwt) (panel : Panel) (response : Passkeys.Assertion)
  | listPasskeys (authorization : Option Jwt)
  | passkeyMode (sub : Nat) (list : List Passkey)
  | deletePasskey (authorization : Option Jwt) (passkeyId : Nat)
  | setPasskeyMode (authorization : Option Jwt) (mode : Option PasskeyMode)
  | stepUpStatus (authorization : Option Jwt)
  | stepUpPassword (authorization : Option Jwt) (password : String)
  | stepUpPasswordUser (sub : Nat) (password : String)
  | stepUpPasswordUpdate (sub : Nat)
  | stepUpOptions (authorization : Option Jwt)
  | stepUpVerify (authorization : Option Jwt) (response : Passkeys.Assertion)

structure ActiveSession where
  (id userId : Nat)
  panel : Panel
  tenantId : Option Nat
  (issuedAt expiresAt : Nat)
  lastUsedAt : Option Nat

def activeSession (row : RefreshToken) : ActiveSession :=
  ⟨row.id, row.userId, row.panel, row.tenantId, row.issuedAt, row.expiresAt, row.lastUsedAt⟩

inductive StepUpMethod where
  | password | passkey

structure StepUpStatus where
  required : Bool
  methods : List StepUpMethod
  lastCredentialCheckAt : Option Nat

inductive Reply where
  | session (response : Auth.Response)
  | passkey (response : Passkeys.Response)
  | runtimeInfo
  | me (user : UserView) (timezone : Option String) (tenant : Option Tenant)
  | profile (user : UserView) (timezone : Option String)
  | sessions (sessions : List ActiveSession) (currentSessionId : Option Nat)
  | passkeys (ids : List Nat) (mode : Option PasskeyMode)
  | stepUpStatus (status : StepUpStatus)
  | steppedUp (lastCredentialCheckAt : Nat)
  | failed (error : ApiError)
  | unauthorized
  | databaseError

/- `request.jwtVerify()`: any JWT of the platform that has not expired -/
def jwtVerify (db : Db) (authorization : Option Jwt) (route : Jwt → Db × Outcome Task Reply) :
    Db × Outcome Task Reply :=
  match authorization.bind (verify db) with
  | some payload => route payload
  | none => (db, .answer .unauthorized)

/- `assertBearerAuth`: it refuses a JWT with a `step` claim as well -/
def assertBearerAuth (db : Db) (authorization : Option Jwt)
    (route : Jwt → Db × Outcome Task Reply) : Db × Outcome Task Reply :=
  match authorization with
  | none => (db, .answer (.failed invalidToken))
  | some _ =>
    jwtVerify db authorization (fun payload =>
      if payload.step.isSome then (db, .answer (.failed invalidToken)) else route payload)

/- `verifyPreAuthClaims`; a token that is absent is not checked -/
def preAuthError (db : Db) (token : Jwt) (panel : Panel) : Option ApiError :=
  match verify db token with
  | none => some ⟨"PRE_AUTH_TOKEN_INVALID", "Pre-auth token invalid or expired", 401⟩
  | some decoded =>
    if decoded.step ≠ some .passkey2fa then
      some ⟨"PRE_AUTH_TOKEN_INVALID", "Pre-auth token has wrong shape", 401⟩
    else if decoded.panel ≠ panel then
      some ⟨"PRE_AUTH_TOKEN_PANEL_MISMATCH",
        s!"Pre-auth token panel {Passkeys.Panel.text decoded.panel} does not match request panel {Passkeys.Panel.text panel}",
        401⟩
    else none

def localAuthDisabled : ApiError :=
  ⟨"LOCAL_AUTH_DISABLED", "Local authentication is disabled for this panel", 403⟩

def lengthIssues (field value : String) (max : Nat) : List String :=
  (if 1 ≤ Js.length value then []
    else [field ++ ": Too small: expected string to have >=1 characters"]) ++
  (if Js.length value ≤ max then []
    else [field ++ s!": Too big: expected string to have <={max} characters"])

def profileIssues (ext : External) (body : Profile) : List String :=
  (body.fullName.map (fun name => lengthIssues "full_name" name 255)).getD [] ++
  (body.email.map (fun email =>
    if ext.isEmail email then [] else ["email: Invalid email address"])).getD [] ++
  ((body.timezone.bind id).map (fun zone => lengthIssues "timezone" zone 50)).getD []

def updateProfile (body : Profile) (user : User) : User :=
  { user with
    fullName := body.fullName.getD user.fullName
    email := body.email.getD user.email
    timezone := body.timezone.getD user.timezone }

theorem updateProfile_id (body : Profile) (user : User) : (updateProfile body user).id = user.id :=
  rfl

/- the unique index on users.email -/
def emailTaken (db : Db) (sub : Nat) (body : Profile) : Bool :=
  body.email.any (fun email => db.users.rows.any (fun u => u.email == email && u.id != sub))

def recordStepUp (now : Nat) (user : User) : User :=
  { user with lastCredentialCheckAt := some now, lastStepUpAt := some now }

theorem recordStepUp_id (now : Nat) (user : User) : (recordStepUp now user).id = user.id := rfl

def stepUpMaxAgeMs : Nat := 30 * 60 * 1000

def getStepUpStatus (db : Db) (userId : Nat) : StepUpStatus :=
  match findUser db userId with
  | none => ⟨true, [], none⟩
  | some user =>
    if user.status ≠ .active then ⟨true, [], none⟩
    else
      let methods :=
        (if user.passwordHash.isSome then [.password] else []) ++
        (if user.passkeyMode.isSome then [.passkey] else [])
      match user.lastStepUpAt with
      | none => ⟨true, methods, none⟩
      | some last => ⟨decide (stepUpMaxAgeMs < db.now - last), methods, some last⟩

/- a passkey login, once verified, issues its session as the password login does -/
def afterPasskey : Outcome Passkeys.Task Passkeys.Response → Outcome Task Reply
  | .next task => .next (.passkey task)
  | .answer (.authenticated user _) => .next (.session (.loginIssue user))
  | .answer response => .answer (.passkey response)

def advance (ext : External) (lib : Passkeys.WebAuthn) (db : Db) : Task → Db × Outcome Task Reply
  | .session task =>
    let result := Auth.advance ext db task
    (result.1, result.2.map .session .session)
  | .passkey task =>
    let result := Passkeys.advance lib db task
    (result.1, afterPasskey result.2)
  | .runtimeInfo authorization => jwtVerify db authorization (fun _ => (db, .answer .runtimeInfo))
  | .me authorization =>
    jwtVerify db authorization (fun payload =>
      match findUser db payload.sub with
      | none => (db, .answer (.failed invalidToken))
      | some user =>
        match user.tenantId with
        | some tenantId => (db, .next (.meTenant user tenantId))
        | none => (db, .answer (.me user.view user.timezone none)))
  | .meTenant user tenantId =>
    (db, .answer (.me user.view user.timezone (findTenant db tenantId)))
  | .profile authorization body =>
    jwtVerify db authorization (fun payload =>
      match profileIssues ext body with
      | [] =>
        if body = ⟨none, none, none⟩ then
          (db, .answer (.failed ⟨"VALIDATION_ERROR", "No fields provided to update", 400⟩))
        else (db, .next (.profileUpdate payload.sub body))
      | issues => (db, .answer (.failed (validationError issues))))
  | .profileUpdate sub body =>
    if emailTaken db sub body then (db, .answer .databaseError)
    else (updateUser db sub (updateProfile body) (updateProfile_id body), .next (.profileRead sub))
  | .profileRead sub =>
    match findUser db sub with
    | some user => (db, .answer (.profile user.view user.timezone))
    | none => (db, .answer .databaseError)
  | .mySessions authorization presented =>
    jwtVerify db authorization (fun payload =>
      (db, .next (.currentSession (listActiveSessionsForUser db payload.sub) presented)))
  | .currentSession rows presented =>
    (db, .answer (.sessions (rows.map activeSession)
      (presented.bind (fun token => findSessionIdByHash db (hashRefreshToken token)))))
  | .registrationOptions authorization =>
    assertBearerAuth db authorization (fun payload =>
      (db, .next (.passkey (.beginRegistration payload.sub payload.panel))))
  | .registrationVerify authorization response nickname =>
    assertBearerAuth db authorization (fun payload =>
      if nickname = "" then
        (db, .answer (.failed ⟨"VALIDATION_ERROR", "response and nickname are required", 400⟩))
      else
        (db, .next (.passkey
          (.consumeChallenge (.registration payload.sub payload.panel response nickname)))))
  | .loginOptions panel preAuthToken =>
    if db.disableLocalAuth panel then (db, .answer (.failed localAuthDisabled))
    else
      match preAuthToken with
      | none => (db, .next (.passkey (.beginAuthentication panel none)))
      | some token =>
        match preAuthError db token panel with
        | some error => (db, .answer (.failed error))
        | none => (db, .next (.passkey (.beginAuthentication panel (some token.sub))))
  | .loginVerify panel response preAuthToken =>
    if db.disableLocalAuth panel then (db, .answer (.failed localAuthDisabled))
    else
      match preAuthToken with
      | none => (db, .next (.passkey (.completeAuthentication panel response none .login)))
      | some token =>
        match preAuthError db token panel with
        | some error => (db, .answer (.failed error))
        | none => (db, .next (.consumePreAuth token panel response))
  | .consumePreAuth claims panel response =>
    match db.consumedTokens.insert
        ⟨claims.jti, claims.sub, db.now + preAuthTokenTtlSeconds * 1000⟩ with
    | some consumedTokens =>
      ({ db with consumedTokens }, .next (.preAuthUser claims panel response))
    | none =>
      (db, .answer (.failed ⟨"PRE_AUTH_TOKEN_REPLAY", "Pre-auth token already used", 401⟩))
  | .preAuthUser claims panel response =>
    match findUser db claims.sub with
    | none => (db, .answer (.failed Passkeys.userNotFound))
    | some user =>
      if user.panel ≠ panel then
        (db, .answer (.failed ⟨"PRE_AUTH_TOKEN_PANEL_MISMATCH",
          s!"Pre-auth token issued for {Passkeys.Panel.text user.panel} but consumed on {Passkeys.Panel.text panel}",
          401⟩))
      else
        (db, .next (.passkey (.completeAuthentication panel response (some claims.sub) .login)))
  | .listPasskeys authorization =>
    assertBearerAuth db authorization (fun payload =>
      (db, .next (.passkeyMode payload.sub (Passkeys.passkeysOf db payload.sub))))
  | .passkeyMode sub list =>
    (db, .answer (.passkeys (list.map (·.id)) ((findUser db sub).bind (·.passkeyMode))))
  | .deletePasskey authorization passkeyId =>
    assertBearerAuth db authorization (fun payload =>
      (db, .next (.passkey (.deletePasskey payload.sub passkeyId))))
  | .setPasskeyMode authorization mode =>
    assertBearerAuth db authorization (fun payload =>
      (db, .next (.passkey (.setPasskeyMode payload.sub mode))))
  | .stepUpStatus authorization =>
    assertBearerAuth db authorization (fun payload =>
      (db, .answer (.stepUpStatus (getStepUpStatus db payload.sub))))
  | .stepUpPassword authorization password =>
    assertBearerAuth db authorization (fun payload =>
      if Js.length password < 1 then
        (db, .answer (.failed (validationError ["password: Password is required"])))
      else (db, .next (.stepUpPasswordUser payload.sub password)))
  | .stepUpPasswordUser sub password =>
    match findUser db sub with
    | none =>
      (db, .answer (.failed ⟨"STEP_UP_FAILED", "Step-up authentication failed", 401⟩))
    | some user =>
      if user.status ≠ .active then
        (db, .answer (.failed ⟨"STEP_UP_FAILED", "Step-up authentication failed", 401⟩))
      else if user.passwordHash = none then
        (db, .answer (.failed ⟨"STEP_UP_METHOD_UNAVAILABLE",
          "Password step-up is not configured for this account", 409⟩))
      else if passwordMatches ext user password then (db, .next (.stepUpPasswordUpdate sub))
      else (db, .answer (.failed ⟨"STEP_UP_FAILED", "Step-up authentication failed", 401⟩))
  | .stepUpPasswordUpdate sub =>
    (updateUser db sub (recordStepUp db.now) (recordStepUp_id db.now), .answer (.steppedUp db.now))
  | .stepUpOptions authorization =>
    assertBearerAuth db authorization (fun payload =>
      (db, .next (.passkey (.beginAuthentication payload.panel (some payload.sub)))))
  | .stepUpVerify authorization response =>
    assertBearerAuth db authorization (fun payload =>
      (db, .next (.passkey
        (.completeAuthentication payload.panel response (some payload.sub) .stepUp))))

/- the requests that a client can make -/
def Task.isRequest : Task → Bool
  | .session (.login ..) | .session (.refresh ..) | .session (.logout ..)
  | .session (.changePassword ..) => true
  | .runtimeInfo .. | .me .. | .profile .. | .mySessions .. | .registrationOptions ..
  | .registrationVerify .. | .loginOptions .. | .loginVerify .. | .listPasskeys ..
  | .deletePasskey .. | .setPasskeyMode .. | .stepUpStatus .. | .stepUpPassword ..
  | .stepUpOptions .. | .stepUpVerify .. => true
  | _ => false

/- the JWTs and refresh tokens that a request carries -/
def Task.jwt : Task → Option Jwt
  | .session (.refresh _ authorization) => authorization
  | .session (.changePassword authorization _ _) => authorization
  | .runtimeInfo authorization => authorization
  | .me authorization => authorization
  | .profile authorization _ => authorization
  | .mySessions authorization _ => authorization
  | .registrationOptions authorization => authorization
  | .registrationVerify authorization _ _ => authorization
  | .loginOptions _ preAuthToken => preAuthToken
  | .loginVerify _ _ preAuthToken => preAuthToken
  | .listPasskeys authorization => authorization
  | .deletePasskey authorization _ => authorization
  | .setPasskeyMode authorization _ => authorization
  | .stepUpStatus authorization => authorization
  | .stepUpPassword authorization _ => authorization
  | .stepUpOptions authorization => authorization
  | .stepUpVerify authorization _ => authorization
  | _ => none

def Task.refreshToken : Task → Option Nat
  | .session (.refresh presented _) => presented
  | .session (.logout presented) => presented
  | .mySessions _ presented => presented
  | _ => none

def Reply.jwt : Reply → Option Jwt
  | .session (.loggedIn token _ _) => some token
  | .session (.refreshed token _ _) => some token
  | .session (.passkeyRequired preAuthToken _) => some preAuthToken
  | _ => none

def Reply.refreshToken : Reply → Option Nat
  | .session (.loggedIn _ issued _) => some issued.token
  | .session (.refreshed _ issued _) => some issued.token
  | .session (.passwordChanged issued) => some issued.token
  | _ => none

abbrev ClientWorld := World Db Task Reply

def knownJwts (w : ClientWorld) : List Jwt := w.answers.filterMap Reply.jwt

def knownRefreshTokens (w : ClientWorld) : List Nat := w.answers.filterMap Reply.refreshToken

/- signatures are ideal and refresh tokens are not guessed: a client presents what it
was given, or what nothing matches -/
def canPresent (w : ClientWorld) (task : Task) : Bool :=
  task.jwt.all (fun token => decide (token ∈ knownJwts w ∨ token ∉ w.db.signed)) &&
  task.refreshToken.all (fun token => decide (token ∈ knownRefreshTokens w) ||
    w.db.refreshTokens.rows.all (fun r => r.tokenHash != hashRefreshToken token))

/-- What others do meanwhile: time passes, and users, tenants and settings are edited,
without a change of anybody's passkey mode. -/
inductive Change where
  | tick (ms : Nat)
  | editUser (user : User)
  | putTenant (tenant : Tenant)
  | setLocalAuth (panel : Panel) (disabled : Bool)

def Change.apply (db : Db) : Change → Db
  | .tick ms => { db with now := db.now + ms }
  | .editUser user => updateUser db user.id (Passkeys.edited user) (Passkeys.edited_id user)
  | .putTenant tenant => { db with tenants := db.tenants.put tenant }
  | .setLocalAuth panel disabled =>
    { db with
      disableLocalAuth := fun p => if p = panel then disabled else db.disableLocalAuth p }

def client (ext : External) (lib : Passkeys.WebAuthn) : System Db Task Reply Change where
  request := fun w task => task.isRequest && canPresent w task
  advance := advance ext lib
  environment := Change.apply

end HostingPlatform.Auth.Routes
