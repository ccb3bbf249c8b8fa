import HostingPlatform.Auth.Schema
import HostingPlatform.Interleaving

/-! The users of a tenant, as their service creates, updates and deletes them. A transaction ends
with its only write, so that the write and the COMMIT are one step; at READ COMMITTED
each statement before it sees what others have committed. A request that is not advanced any more
has lost its connection, and its transaction is rolled back. -/
namespace HostingPlatform.Tenants.SubUsers

open Interleaving Transition
open Auth (User UserStatus)

abbrev Users := Table User User.id

structure CreateSubUserInput where
  (email fullName password : String)
  roleName : Option String

/- without `maxSubUsers` there is no limit -/
structure CreateSubUserOptions where
  maxSubUsers : Option Int

/- the two values of `status` that an update may set -/
inductive SubUserStatus where
  | active | disabled
  deriving DecidableEq

def SubUserStatus.toUserStatus : SubUserStatus → UserStatus
  | .active => .active
  | .disabled => .disabled

structure UpdateSubUserPayload where
  (fullName roleName : Option String)
  status : Option SubUserStatus

structure InsertSubUserPayload where
  id : Nat
  (email passwordHash fullName roleName : String)
  tenantId : Nat

structure CreatedSubUserDto where
  id : Nat
  (email fullName roleName : String)
  status : UserStatus

structure SubUserDto extends CreatedSubUserDto where
  lastLoginAt : Option Nat

def User.toCreated (u : User) : CreatedSubUserDto := ⟨u.id, u.email, u.fullName, u.roleName, u.status⟩

def User.toDto (u : User) : SubUserDto := ⟨User.toCreated u, u.lastLoginAt⟩

/- what `crypto` draws for a request -/
structure Drawn where
  (id salt : Nat)

inductive Task where
  | createSubUser (tenantId : Nat) (input : CreateSubUserInput) (options : CreateSubUserOptions)
      (drawn : Drawn)
  | insertSubUser (payload : InsertSubUserPayload)
  | deleteSubUser (tenantId userId : Nat)
  | deleteCount (tenantId userId : Nat)
  | deleteById (tenantId userId : Nat)
  | updateSubUser (tenantId userId : Nat) (input : UpdateSubUserPayload)
  | updateCount (tenantId userId : Nat) (input : UpdateSubUserPayload) (wouldDemoteFromAdmin : Bool)
  | updateRow (tenantId userId : Nat) (input : UpdateSubUserPayload)

def Task.isRequest : Task → Bool
  | .createSubUser .. | .deleteSubUser .. | .updateSubUser .. => true
  | _ => false

inductive Details where
  | field (name : String)
  | limit (limit : Int) (current : Nat)

inductive Response where
  | failed (error : ApiError) (details : Option Details)
  | threw (message : String)
  | created (user : CreatedSubUserDto)
  | deleted
  | updated (user : Option SubUserDto)

def missingRequiredField : ApiError :=
  ⟨"MISSING_REQUIRED_FIELD", "email, full_name, and password are required", 400⟩

def invalidRole : ApiError :=
  ⟨"INVALID_FIELD_VALUE", "role_name must be one of: tenant_admin, tenant_user", 400⟩

def subUserLimit (max : Int) : ApiError :=
  ⟨"SUB_USER_LIMIT", s!"Maximum {max} users allowed for this plan", 403⟩

def userNotFound : ApiError := ⟨"USER_NOT_FOUND", "User not found", 404⟩

def lastAdmin (message : String) : ApiError := ⟨"LAST_ADMIN", message, 403⟩

def isAllowedRole (role : String) : Bool := ["tenant_admin", "tenant_user"].contains role

def tenantUserScope (tenantId : Nat) (u : User) : Bool :=
  u.tenantId == some tenantId && u.panel == .tenant

def isAdmin (tenantId : Nat) (u : User) : Bool :=
  tenantUserScope tenantId u && u.roleName == "tenant_admin"

def isActiveAdmin (tenantId : Nat) (u : User) : Bool := isAdmin tenantId u && u.status == .active

def byIdAndTenantId (userId tenantId : Nat) (u : User) : Bool :=
  u.id == userId && tenantUserScope tenantId u

def countByTenantId (users : Users) (tenantId : Nat) : Nat :=
  (users.selectAll (tenantUserScope tenantId)).length

def countAdminsByTenantId (users : Users) (tenantId : Nat) : Nat :=
  (users.selectAll (isAdmin tenantId)).length

def countActiveAdminsByTenantId (users : Users) (tenantId : Nat) : Nat :=
  (users.selectAll (isActiveAdmin tenantId)).length

def findByIdAndTenantId (users : Users) (userId tenantId : Nat) : Option User :=
  users.select (byIdAndTenantId userId tenantId)

def InsertSubUserPayload.row (payload : InsertSubUserPayload) : User where
  id := payload.id
  email := payload.email
  passwordHash := some payload.passwordHash
  fullName := payload.fullName
  roleName := payload.roleName
  panel := .tenant
  tenantId := some payload.tenantId
  status := .active
  timezone := none
  lastLoginAt := none
  lastCredentialCheckAt := none
  lastStepUpAt := none
  passkeyMode := none
  passkeyUserHandle := none

/- the index `users_email_unique` -/
def insertSubUser (users : Users) (payload : InsertSubUserPayload) : Option Users :=
  if users.rows.any (fun u => u.email == payload.email) then none else users.insert payload.row

def UpdateSubUserPayload.isEmpty (payload : UpdateSubUserPayload) : Bool :=
  payload.fullName.isNone && payload.roleName.isNone && payload.status.isNone

def UpdateSubUserPayload.assign (payload : UpdateSubUserPayload) (u : User) : User :=
  { u with
    fullName := payload.fullName.getD u.fullName
    roleName := payload.roleName.getD u.roleName
    status := (payload.status.map SubUserStatus.toUserStatus).getD u.status }

theorem assign_id (payload : UpdateSubUserPayload) (u : User) : (payload.assign u).id = u.id := rfl

def updateRow (users : Users) (userId tenantId : Nat) (payload : UpdateSubUserPayload) : Users :=
  users.update (byIdAndTenantId userId tenantId) payload.assign (assign_id payload)

def deleteById (users : Users) (userId tenantId : Nat) : Users :=
  users.delete (byIdAndTenantId userId tenantId)

def wouldDemoteFromAdmin (existing : User) (input : UpdateSubUserPayload) : Bool :=
  existing.roleName == "tenant_admin" && input.roleName.any (fun role => role != "tenant_admin")

def wouldDisableAdmin (existing : User) (input : UpdateSubUserPayload) : Bool :=
  existing.roleName == "tenant_admin" && existing.status == .active && input.status == some .disabled

def advance (bcryptHash : Nat → String → String) (users : Users) :
    Task → Users × Outcome Task Response
  | .createSubUser tenantId input options drawn =>
    (users,
      if input.email = "" ∨ input.fullName = "" ∨ input.password = "" then
        .answer (.failed missingRequiredField none)
      else if !isAllowedRole (input.roleName.getD "tenant_user") then
        .answer (.failed invalidRole (some (.field "role_name")))
      else
        match options.maxSubUsers.filter (fun max => max ≤ (countByTenantId users tenantId : Int)) with
        | some max =>
          .answer (.failed (subUserLimit max) (some (.limit max (countByTenantId users tenantId))))
        | none =>
          .next (.insertSubUser ⟨drawn.id, input.email, bcryptHash drawn.salt input.password,
            input.fullName, input.roleName.getD "tenant_user", tenantId⟩))
  | .insertSubUser payload =>
    match insertSubUser users payload with
    | some users => (users, .answer (.created (User.toCreated payload.row)))
    | none => (users, .answer (.threw "duplicate key value violates unique constraint"))
  | .deleteSubUser tenantId userId =>
    (users,
      match findByIdAndTenantId users userId tenantId with
      | none => .answer (.failed userNotFound none)
      | some user =>
        if user.roleName = "tenant_admin" then .next (.deleteCount tenantId userId)
        else .next (.deleteById tenantId userId))
  -- all the admins, also those who are disabled
  | .deleteCount tenantId userId =>
    (users,
      if countAdminsByTenantId users tenantId ≤ 1 then
        .answer (.failed (lastAdmin "Cannot delete the last tenant admin") none)
      else .next (.deleteById tenantId userId))
  | .deleteById tenantId userId => (deleteById users userId tenantId, .answer .deleted)
  | .updateSubUser tenantId userId input =>
    (users,
      if input.roleName.any (fun role => !isAllowedRole role) then
        .answer (.failed invalidRole (some (.field "role_name")))
      else
        match findByIdAndTenantId users userId tenantId with
        | none => .answer (.failed userNotFound none)
        | some existing =>
          if wouldDemoteFromAdmin existing input || wouldDisableAdmin existing input then
            .next (.updateCount tenantId userId input (wouldDemoteFromAdmin existing input))
          else .next (.updateRow tenantId userId input))
  | .updateCount tenantId userId input wouldDemoteFromAdmin =>
    (users,
      if countActiveAdminsByTenantId users tenantId ≤ 1 then
        .answer (.failed (lastAdmin
          (if wouldDemoteFromAdmin then "Cannot demote the last active tenant admin"
            else "Cannot disable the last active tenant admin")) none)
      else .next (.updateRow tenantId userId input))
  -- the query builder refuses an UPDATE that sets nothing
  | .updateRow tenantId userId input =>
    if input.isEmpty then (users, .answer (.threw "No values to set"))
    else
      (updateRow users userId tenantId input,
        .answer (.updated ((findByIdAndTenantId (updateRow users userId tenantId input) userId
          tenantId).map User.toDto)))

/- every createSubUser of the tenant is given the same limit -/
def Task.given (tenantId : Nat) (max : Option Int) : Task → Bool
  | .createSubUser tenantId' _ options _ => tenantId' != tenantId || options.maxSubUsers == max
  | _ => true

def subUsers (bcryptHash : Nat → String → String) (tenantId : Nat) (max : Option Int) :
    System Users Task Response Empty where
  request := fun _ task => task.isRequest && task.given tenantId max
  advance := advance bcryptHash
  environment := fun _ never => nomatch never

end HostingPlatform.Tenants.SubUsers
