import HostingPlatform.Shared
import HostingPlatform.Table

/-! The tables behind the authentication routes and the platform's JWTs. Row ids,
secrets and challenges are drawn from one supply that never repeats a value, and
a JWT verifies only if the platform has signed it. Times are in milliseconds,
the claims of a JWT in seconds. -/
namespace HostingPlatform.Auth

open Table

inductive Panel where
  | admin | tenant
  deriving DecidableEq

inductive UserStatus where
  | active | disabled | pending
  deriving DecidableEq

/- `users.passkey_mode`; NULL is `none` -/
inductive PasskeyMode where
  | alternative | secondFactor
  deriving DecidableEq

structure User where
  id : Nat
  email : String
  passwordHash : Option String
  (fullName roleName : String)
  panel : Panel
  tenantId : Option Nat
  status : UserStatus
  timezone : Option String
  (lastLoginAt lastCredentialCheckAt lastStepUpAt : Option Nat)
  passkeyMode : Option PasskeyMode
  passkeyUserHandle : Option Nat

structure Tenant where
  id : Nat
  status : TenantStatus
  storageLifecycleState : String

inductive RevokedReason where
  | logout | rotated | reuseDetected | passwordChange | adminRevoke

/- `revoked_at` and `revoked_reason` are written together -/
structure RefreshToken where
  (id userId familyId tokenHash : Nat)
  panel : Panel
  tenantId : Option Nat
  (issuedAt expiresAt : Nat)
  lastUsedAt : Option Nat
  revoked : Option (Nat × RevokedReason)

structure Passkey where
  (id userId credentialId publicKey signCount : Nat)
  nickname : String
  createdAt : Nat
  lastUsedAt : Option Nat

inductive Purpose where
  | register | loginUserless | login2fa
  deriving DecidableEq

structure Challenge where
  (id challenge : Nat)
  purpose : Purpose
  panel : Panel
  userId : Option Nat
  expiresAt : Nat
  consumedAt : Option Nat

structure ConsumedToken where
  (jti userId expiresAt : Nat)

/- the one value the `step` claim takes: 'passkey_2fa' -/
inductive Step where
  | passkey2fa
  deriving DecidableEq

structure Jwt where
  sub : Nat
  role : Option String
  panel : Panel
  (tenantId impersonatedBy : Option Nat)
  step : Option Step
  (exp iat jti : Nat)
  deriving DecidableEq

structure Db where
  users : Table User User.id
  tenants : Table Tenant Tenant.id
  refreshTokens : Table RefreshToken RefreshToken.id
  passkeys : Table Passkey Passkey.id
  challenges : Table Challenge Challenge.id
  consumedTokens : Table ConsumedToken ConsumedToken.jti
  disableLocalAuth : Panel → Bool
  signed : List Jwt
  (supply now : Nat)

def Db.empty : Db where
  users := Table.empty
  tenants := Table.empty
  refreshTokens := Table.empty
  passkeys := Table.empty
  challenges := Table.empty
  consumedTokens := Table.empty
  disableLocalAuth := fun _ => false
  signed := []
  supply := 0
  now := 0

def invalidToken : ApiError := ⟨"INVALID_TOKEN", "Token is invalid or expired", 401⟩

def verify (db : Db) (token : Jwt) : Option Jwt :=
  if token ∈ db.signed ∧ db.now < token.exp * 1000 then some token else none

def sign (db : Db) (payload : Jwt) : Jwt × Db :=
  (payload, { db with signed := payload :: db.signed, supply := db.supply + 1 })

def findUser (db : Db) (id : Nat) : Option User := db.users.select (fun u => u.id == id)

def findTenant (db : Db) (id : Nat) : Option Tenant := db.tenants.select (fun t => t.id == id)

def tenantArchived (db : Db) (id : Nat) : Bool :=
  (findTenant db id).any (fun t => t.status == .archived)

/- UPDATE users SET f WHERE id -/
def updateUser (db : Db) (id : Nat) (f : User → User) (keeps : ∀ u, (f u).id = u.id) : Db :=
  { db with users := db.users.update (fun u => u.id == id) f keeps }

variable {db : Db} {id presented : Nat} {r : RefreshToken}

theorem findUser_id {user : User} (found : findUser db id = some user) : user.id = id := by
  have matched := (mem_of_select found).2
  exact eq_of_beq matched

theorem verify_eq {token decoded : Jwt} (ok : verify db token = some decoded) :
    decoded = token ∧ token ∈ db.signed := by
  unfold verify at ok
  split at ok
  · rename_i checks
    cases ok
    exact ⟨rfl, checks.1⟩
  · contradiction

def owner : User where
  id := 1
  email := "owner@example.test"
  passwordHash := some "hunter22"
  fullName := "Owner"
  roleName := "admin"
  panel := .admin
  tenantId := none
  status := .active
  timezone := none
  lastLoginAt := none
  lastCredentialCheckAt := none
  lastStepUpAt := none
  passkeyMode := none
  passkeyUserHandle := none

/-! The refresh token service: every function is one statement on
`refresh_tokens`, except `validateRefreshToken`, which is a SELECT
(`lookupRefreshToken`) and, on reuse, an UPDATE (`revokeReusedFamily`). A token is
identified with its hash. -/

def refreshTokenTtlSeconds : Nat := 24 * 60 * 60
def accessTokenTtlSeconds : Nat := 30 * 60

structure IssueRefreshTokenInput where
  userId : Nat
  panel : Panel
  tenantId : Option Nat
  familyId : Option Nat := none

structure IssuedRefreshToken where
  (token familyId id expiresAt : Nat)
  deriving DecidableEq

def hashRefreshToken (token : Nat) : Nat := token

def issueRefreshToken (db : Db) (input : IssueRefreshTokenInput) :
    Option (IssuedRefreshToken × Db) :=
  let token := db.supply
  let id := db.supply + 1
  let familyId := input.familyId.getD (db.supply + 2)
  let expiresAt := db.now + refreshTokenTtlSeconds * 1000
  (db.refreshTokens.insert
    { id, userId := input.userId, familyId, tokenHash := hashRefreshToken token,
      panel := input.panel, tenantId := input.tenantId, issuedAt := db.now, expiresAt,
      lastUsedAt := none, revoked := none }).map
    (fun refreshTokens =>
      (⟨token, familyId, id, expiresAt⟩, { db with refreshTokens, supply := db.supply + 3 }))

inductive ValidationFailure where
  | notFound | expired | revoked | reuseDetected
  deriving DecidableEq

structure Validation where
  (id userId familyId : Nat)
  panel : Panel
  tenantId : Option Nat
  deriving DecidableEq

/- what `validateRefreshToken` knows after its SELECT -/
inductive Lookup where
  | valid (validation : Validation)
  | reuse (familyId : Nat)
  | invalid (reason : ValidationFailure)
  deriving DecidableEq

def lookupRow (db : Db) (row : RefreshToken) : Lookup :=
  match row.revoked with
  | some (_, .rotated) => .reuse row.familyId
  | some _ => .invalid .revoked
  | none =>
    if row.expiresAt < db.now then .invalid .expired
    else .valid ⟨row.id, row.userId, row.familyId, row.panel, row.tenantId⟩

def lookupRefreshToken (db : Db) (presentedToken : Nat) : Lookup :=
  match db.refreshTokens.select (fun r => r.tokenHash == hashRefreshToken presentedToken) with
  | none => .invalid .notFound
  | some row => lookupRow db row

def revoke (db : Db) (reason : RevokedReason) (r : RefreshToken) : RefreshToken :=
  { r with revoked := some (db.now, reason) }

theorem revoke_id (db : Db) (reason : RevokedReason) (r : RefreshToken) : (revoke db reason r).id = r.id := rfl

/- UPDATE … SET revoked_at, revoked_reason WHERE p AND revoked_at IS NULL -/
def revokeWhere (db : Db) (p : RefreshToken → Bool) (reason : RevokedReason) : Db :=
  { db with
    refreshTokens := db.refreshTokens.update (fun r => p r && r.revoked.isNone)
      (revoke db reason) (revoke_id db reason) }

def revokeReusedFamily (db : Db) (familyId : Nat) : Db :=
  revokeWhere db (fun r => r.familyId == familyId) .reuseDetected

def revokeRefreshTokenById (db : Db) (id : Nat) (reason : RevokedReason) : Db :=
  revokeWhere db (fun r => r.id == id) reason

def revokeAllUserRefreshTokens (db : Db) (userId : Nat) (reason : RevokedReason)
    (exceptSessionId : Option Nat := none) : Db :=
  revokeWhere db (fun r => r.userId == userId && exceptSessionId != some r.id) reason

def isActive (db : Db) (r : RefreshToken) : Bool :=
  r.revoked.isNone && decide (db.now < r.expiresAt)

def listActiveSessionsForUser (db : Db) (userId : Nat) : List RefreshToken :=
  db.refreshTokens.selectAll (fun r => r.userId == userId && isActive db r)

def findSessionIdByHash (db : Db) (tokenHash : Nat) : Option Nat :=
  (db.refreshTokens.select (fun r => r.tokenHash == tokenHash && isActive db r)).map (·.id)

def touchLastUsed (db : Db) (id : Nat) : Db :=
  { db with
    refreshTokens := db.refreshTokens.update (fun r => r.id == id && r.revoked.isNone)
      (fun r => { r with lastUsedAt := some db.now }) (fun _ => rfl) }

/-- What an UPDATE of the table leaves alone in a row. -/
structure SameToken (old new : RefreshToken) : Prop where
  id : new.id = old.id
  userId : new.userId = old.userId
  familyId : new.familyId = old.familyId
  tokenHash : new.tokenHash = old.tokenHash
  expiresAt : new.expiresAt = old.expiresAt

theorem SameToken.refl (r : RefreshToken) : SameToken r r := ⟨rfl, rfl, rfl, rfl, rfl⟩

theorem mem_revokeWhere {p : RefreshToken → Bool} {reason : RevokedReason}
    (mem : r ∈ (revokeWhere db p reason).refreshTokens) : r ∈ db.refreshTokens ∧ (p r = true → r.revoked ≠ none) ∨
      ∃ old ∈ db.refreshTokens, SameToken old r ∧ p old = true ∧ old.revoked = none ∧
        r.revoked = some (db.now, reason) := by
  simp only [revokeWhere, mem_update] at mem
  rcases mem with ⟨memOld, unselected⟩ | ⟨old, memOld, selected, rfl⟩
  · refine .inl ⟨memOld, ?_⟩
    intro matched live
    simp [matched, live] at unselected
  · simp only [Bool.and_eq_true, Option.isNone_iff_eq_none] at selected
    exact .inr ⟨old, memOld, ⟨rfl, rfl, rfl, rfl, rfl⟩, selected.1, selected.2, rfl⟩

theorem mem_touchLastUsed (mem : r ∈ (touchLastUsed db id).refreshTokens) :
    ∃ old ∈ db.refreshTokens, SameToken old r ∧ r.revoked = old.revoked := by
  simp only [touchLastUsed, mem_update] at mem
  rcases mem with ⟨memOld, _⟩ | ⟨old, memOld, _, rfl⟩
  · exact ⟨r, memOld, SameToken.refl r, rfl⟩
  · exact ⟨old, memOld, ⟨rfl, rfl, rfl, rfl, rfl⟩, rfl⟩

theorem lookup_valid {v : Validation} (found : lookupRefreshToken db presented = .valid v) :
    ∃ row ∈ db.refreshTokens, row.tokenHash = presented ∧ row.revoked = none ∧
      row.id = v.id ∧ row.userId = v.userId ∧ row.familyId = v.familyId := by
  unfold lookupRefreshToken at found
  split at found
  · contradiction
  rename_i row selected
  obtain ⟨mem, hash⟩ := mem_of_select selected
  unfold lookupRow at found
  split at found
  · contradiction
  · contradiction
  rename_i live
  split at found
  · contradiction
  · cases found
    exact ⟨row, mem, eq_of_beq hash, live, rfl, rfl, rfl⟩

theorem lookup_reuse {familyId : Nat} (found : lookupRefreshToken db presented = .reuse familyId) :
    ∃ row ∈ db.refreshTokens, row.tokenHash = presented ∧ row.familyId = familyId ∧
      ∃ at_, row.revoked = some (at_, .rotated) := by
  unfold lookupRefreshToken at found
  split at found
  · contradiction
  rename_i row selected
  obtain ⟨mem, hash⟩ := mem_of_select selected
  unfold lookupRow at found
  split at found
  · rename_i at_ rotated
    cases found
    exact ⟨row, mem, eq_of_beq hash, rfl, at_, rotated⟩
  · contradiction
  · split at found <;> contradiction

end HostingPlatform.Auth
