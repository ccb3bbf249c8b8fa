import HostingPlatform.Auth.Schema
import HostingPlatform.Interleaving
import HostingPlatform.Js.Text

/-! The passkey service, statement by statement: registration, authentication as a
login and as a step-up, deletion, and the passkey mode. `consumeChallenge` serves both
kinds of verification. The two writes of the deletion become visible together at its
COMMIT and hold their row locks until then, so they are one statement here. -/
namespace HostingPlatform.Auth.Passkeys

open Table Interleaving

def challengeTtlMs : Nat := 5 * 60 * 1000

/- what the authenticator signed; `proof` stands for the rest of the response -/
structure Attestation where
  (challenge proof : Nat)

structure Assertion where
  challenge : Nat
  userHandle : Option Nat
  (credentialId proof : Nat)

structure Credential where
  (id publicKey counter : Nat)

/- the WebAuthn library: `none` when it throws or does not verify the response -/
structure WebAuthn where
  verifyRegistrationResponse : Attestation → Option Credential
  verifyAuthenticationResponse : Assertion → Passkey → Option Nat

/- the login route and the step-up route share `completeAuthentication` -/
inductive Goal where
  | login | stepUp

inductive Consumer where
  | registration (userId : Nat) (panel : Panel) (response : Attestation) (nickname : String)
  | authentication (panel : Panel) (response : Assertion) (expectedUserId : Option Nat)
      (goal : Goal) (user : User)

/- `challengeId` names the challenge that the request has consumed -/
inductive Task where
  | beginRegistration (userId : Nat) (panel : Panel)
  | registrationHandle (user : User) (panel : Panel)
  | registrationNewHandle (user : User) (panel : Panel)
  | registrationExisting (user : User) (panel : Panel) (handle : Nat)
  | registrationChallenge (user : User) (panel : Panel) (handle : Nat) (existing : List Nat)
  | beginAuthentication (panel : Panel) (userId : Option Nat)
  | authenticationChallenge (panel : Panel) (userId : Option Nat) (allowed : Option (List Nat))
  | completeAuthentication (panel : Panel) (response : Assertion) (expectedUserId : Option Nat)
      (goal : Goal)
  | consumeChallenge (consumer : Consumer)
  | markConsumed (consumer : Consumer) (challengeId : Nat)
  | registrationInsert (challengeId userId : Nat) (credential : Credential) (nickname : String)
  | credentialRow (challengeId : Nat) (response : Assertion) (goal : Goal) (user : User)
  | updateCounter (challengeId passkeyId newCounter : Nat) (goal : Goal) (user : User)
  | updateFreshness (challengeId passkeyId : Nat) (goal : Goal) (user : User)
  | updateStepUp (user : User)
  | readStepUp (user : User)
  | deletePasskey (userId passkeyId : Nat)
  | deleteCount (userId passkeyId : Nat)
  | deleteUser (userId passkeyId : Nat)
  | deleteCommit (userId passkeyId : Nat) (dropMode : Bool)
  | setPasskeyMode (userId : Nat) (mode : Option PasskeyMode)
  | updateMode (userId : Nat) (mode : Option PasskeyMode)

def Task.isRequest : Task → Bool
  | .beginRegistration .. | .beginAuthentication .. | .completeAuthentication ..
  | .deletePasskey .. | .setPasskeyMode .. => true
  | .consumeChallenge (.registration ..) => true
  | _ => false

inductive Response where
  | registrationOptions (challenge userHandle : Nat) (exclude : List Nat)
  | registered (id : Nat) (nickname : String)
  | authenticationOptions (challenge : Nat) (allowed : Option (List Nat))
  | authenticated (user : User) (passkeyId : Nat)
  | steppedUp (lastCredentialCheckAt : Nat)
  | deleted
  | modeSet (mode : Option PasskeyMode)
  | failed (error : ApiError)
  | verificationError
  | databaseError

def Purpose.text : Purpose → String
  | .register => "register"
  | .loginUserless => "login_userless"
  | .login2fa => "login_2fa"

def Panel.text : Panel → String
  | .admin => "admin"
  | .tenant => "tenant"

def userNotFound : ApiError := ⟨"USER_NOT_FOUND", "User not found", 404⟩

def Consumer.challenge : Consumer → Nat
  | .registration _ _ response _ => response.challenge
  | .authentication _ response _ _ _ => response.challenge

def Consumer.purpose : Consumer → Purpose
  | .registration .. => .register
  | .authentication _ _ none _ _ => .loginUserless
  | .authentication _ _ (some _) _ _ => .login2fa

def Consumer.panel : Consumer → Panel
  | .registration _ panel _ _ => panel
  | .authentication panel _ _ _ _ => panel

def Consumer.userId : Consumer → Option Nat
  | .registration userId _ _ _ => some userId
  | .authentication _ _ expectedUserId _ _ => expectedUserId

/- the checks between the SELECT and the UPDATE of `consumeChallenge` -/
def challengeError (db : Db) (consumer : Consumer) (row : Challenge) : Option ApiError :=
  if row.consumedAt.isSome then
    some ⟨"PASSKEY_CHALLENGE_REPLAY", "Challenge already consumed", 400⟩
  else if row.expiresAt < db.now then
    some ⟨"PASSKEY_CHALLENGE_EXPIRED", "Challenge expired (5 min TTL)", 400⟩
  else if row.purpose ≠ consumer.purpose then
    some ⟨"PASSKEY_CHALLENGE_PURPOSE_MISMATCH",
      s!"Challenge purpose {Purpose.text row.purpose} does not match {Purpose.text consumer.purpose}",
      400⟩
  else if row.panel ≠ consumer.panel then
    some ⟨"PASSKEY_CHALLENGE_PANEL_MISMATCH",
      s!"Challenge issued for panel {Panel.text row.panel} but verify called from {Panel.text consumer.panel}",
      400⟩
  else if consumer.userId ≠ none ∧ row.userId ≠ consumer.userId then
    some ⟨"PASSKEY_CHALLENGE_USER_MISMATCH",
      "Challenge user does not match the authenticated user", 400⟩
  else none

/- the checks of `completeAuthentication` on the user its handle resolves to -/
def userError (panel : Panel) (expectedUserId : Option Nat) (user : User) : Option ApiError :=
  if user.status ≠ .active then
    some ⟨"USER_INACTIVE", "User account is not active", 401⟩
  else if user.panel ≠ panel then
    some ⟨"PASSKEY_PANEL_MISMATCH",
      s!"Passkey belongs to a {Panel.text user.panel} user; cannot log into {Panel.text panel} panel",
      403⟩
  else
    match expectedUserId with
    | some userId =>
      if user.id ≠ userId then
        some ⟨"PASSKEY_USER_MISMATCH", "Passkey identity does not match step-1 password identity",
          401⟩
      else none
    | none =>
      match user.passkeyMode with
      | some .alternative => none
      | some .secondFactor =>
        some ⟨"PASSKEY_REQUIRES_PASSWORD_FIRST",
          "This account has 2FA enabled. Sign in with email + password first.", 401⟩
      | none =>
        some ⟨"PASSKEY_LOGIN_NOT_ENABLED",
          "Passkey login is not enabled for this account. Sign in with email + password.", 401⟩

/- `sign_count` is a 32-bit column; a larger value makes the statement fail -/
def fitsColumn (counter : Nat) : Bool := decide (counter < 2147483648)

/- a stored counter of 0 is a synced passkey, which reports 0 every time -/
def rolledBack (stored newCounter : Nat) : Bool := decide (0 < stored ∧ newCounter ≤ stored)

def rollbackError (stored newCounter : Nat) : ApiError :=
  ⟨"PASSKEY_SIGN_COUNT_ROLLBACK",
    s!"Sign count rolled back (stored={stored}, presented={newCounter}). Possible cloned authenticator.",
    401⟩

def passkeysOf (db : Db) (userId : Nat) : List Passkey :=
  db.passkeys.selectAll (fun p => p.userId == userId)

def persistChallenge (db : Db) (purpose : Purpose) (panel : Panel) (userId : Option Nat) :
    Option (Nat × Db) :=
  let challenge := db.supply
  (db.challenges.insert
    { id := db.supply + 1, challenge, purpose, panel, userId,
      expiresAt := db.now + challengeTtlMs, consumedAt := none }).map
    (fun challenges => (challenge, { db with challenges, supply := db.supply + 2 }))

def consume (now : Nat) (row : Challenge) : Challenge := { row with consumedAt := some now }

def setCounter (newCounter now : Nat) (row : Passkey) : Passkey :=
  { row with signCount := newCounter, lastUsedAt := some now }

def setMode (mode : Option PasskeyMode) (user : User) : User := { user with passkeyMode := mode }

def setHandle (handle : Nat) (user : User) : User := { user with passkeyUserHandle := some handle }

def setFreshness (now : Nat) (user : User) : User := { user with lastCredentialCheckAt := some now }

def setStepUp (now : Nat) (user : User) : User := { user with lastStepUpAt := some now }

theorem consume_id (now : Nat) (row : Challenge) : (consume now row).id = row.id := rfl
theorem setCounter_id (newCounter now : Nat) (row : Passkey) : (setCounter newCounter now row).id = row.id := rfl
theorem setMode_id (mode : Option PasskeyMode) (user : User) : (setMode mode user).id = user.id := rfl
theorem setHandle_id (handle : Nat) (user : User) : (setHandle handle user).id = user.id := rfl
theorem setFreshness_id (now : Nat) (user : User) : (setFreshness now user).id = user.id := rfl
theorem setStepUp_id (now : Nat) (user : User) : (setStepUp now user).id = user.id := rfl

def insertPasskey (db : Db) (userId : Nat) (credential : Credential) (nickname : String) :
    Option (Nat × Db) :=
  if db.passkeys.rows.any (fun p => p.credentialId == credential.id) ||
      !fitsColumn credential.counter then none
  else
    let id := db.supply
    (db.passkeys.insert
      { id, userId, credentialId := credential.id, publicKey := credential.publicKey,
        signCount := credential.counter, nickname := Js.slice nickname 100, createdAt := db.now,
        lastUsedAt := none }).map
      (fun passkeys => (id, { db with passkeys, supply := db.supply + 1 }))

/- what `deletePasskey` does at its COMMIT -/
def commitDelete (db : Db) (userId passkeyId : Nat) (dropMode : Bool) : Db :=
  let db := if dropMode then updateUser db userId (setMode none) (setMode_id none) else db
  { db with passkeys := db.passkeys.delete (fun p => p.id == passkeyId) }

def advance (lib : WebAuthn) (db : Db) : Task → Db × Outcome Task Response
  | .beginRegistration userId panel =>
    match findUser db userId with
    | none => (db, .answer (.failed userNotFound))
    | some user => (db, .next (.registrationHandle user panel))
  | .registrationHandle user panel =>
    match findUser db user.id with
    | none => (db, .answer (.failed userNotFound))
    | some row =>
      match row.passkeyUserHandle with
      | some handle => (db, .next (.registrationExisting user panel handle))
      | none => (db, .next (.registrationNewHandle user panel))
  | .registrationNewHandle user panel =>
    let handle := db.supply
    (updateUser { db with supply := db.supply + 1 } user.id (setHandle handle)
      (setHandle_id handle), .next (.registrationExisting user panel handle))
  | .registrationExisting user panel handle =>
    (db, .next (.registrationChallenge user panel handle
      ((passkeysOf db user.id).map (·.credentialId))))
  | .registrationChallenge user panel handle existing =>
    match persistChallenge db .register panel (some user.id) with
    | some (challenge, db') => (db', .answer (.registrationOptions challenge handle existing))
    | none => (db, .answer .databaseError)
  | .beginAuthentication panel userId =>
    match userId with
    | none => (db, .next (.authenticationChallenge panel none none))
    | some id =>
      match passkeysOf db id with
      | [] =>
        (db, .answer (.failed ⟨"PASSKEY_NOT_REGISTERED",
          "User has no registered passkeys; cannot complete 2FA", 409⟩))
      | creds =>
        (db, .next (.authenticationChallenge panel (some id) (some (creds.map (·.credentialId)))))
  | .authenticationChallenge panel userId allowed =>
    let purpose := if userId.isNone then .loginUserless else .login2fa
    match persistChallenge db purpose panel userId with
    | some (challenge, db') => (db', .answer (.authenticationOptions challenge allowed))
    | none => (db, .answer .databaseError)
  | .completeAuthentication panel response expectedUserId goal =>
    match response.userHandle with
    | none =>
      (db, .answer (.failed ⟨"PASSKEY_USER_HANDLE_MISSING",
        "Authenticator did not return a userHandle. Re-register the passkey as a discoverable credential.",
        400⟩))
    | some handle =>
      match db.users.select (fun u => u.passkeyUserHandle == some handle) with
      | none =>
        (db, .answer (.failed ⟨"USER_NOT_FOUND", "No user matches the provided userHandle", 401⟩))
      | some user =>
        match userError panel expectedUserId user with
        | some error => (db, .answer (.failed error))
        | none =>
          (db, .next (.consumeChallenge (.authentication panel response expectedUserId goal user)))
  | .consumeChallenge consumer =>
    match db.challenges.select (fun c => c.challenge == consumer.challenge) with
    | none =>
      (db, .answer (.failed ⟨"PASSKEY_CHALLENGE_INVALID",
        "Challenge not found or already consumed", 400⟩))
    | some row =>
      match challengeError db consumer row with
      | some error => (db, .answer (.failed error))
      | none => (db, .next (.markConsumed consumer row.id))
  | .markConsumed consumer challengeId =>
    let db' :=
      { db with
        challenges := db.challenges.update (fun c => c.id == challengeId) (consume db.now)
          (consume_id db.now) }
    match consumer with
    | .registration userId _ response nickname =>
      match lib.verifyRegistrationResponse response with
      | none =>
        (db', .answer (.failed ⟨"PASSKEY_REGISTRATION_FAILED",
          "Authenticator response failed verification", 400⟩))
      | some credential =>
        (db', .next (.registrationInsert challengeId userId credential nickname))
    | .authentication _ response _ goal user =>
      (db', .next (.credentialRow challengeId response goal user))
  | .registrationInsert _ userId credential nickname =>
    match insertPasskey db userId credential nickname with
    | some (id, db') => (db', .answer (.registered id nickname))
    | none => (db, .answer .databaseError)
  | .credentialRow challengeId response goal user =>
    match db.passkeys.select (fun p => p.credentialId == response.credentialId) with
    | none => (db, .answer (.failed ⟨"PASSKEY_NOT_FOUND", "Credential not registered", 401⟩))
    | some row =>
      if row.userId ≠ user.id then
        (db, .answer (.failed ⟨"PASSKEY_OWNERSHIP_MISMATCH",
          "Credential does not belong to the resolved user", 401⟩))
      else
        match lib.verifyAuthenticationResponse response row with
        | none =>
          (db, .answer (.failed ⟨"PASSKEY_AUTHENTICATION_FAILED",
            "Authenticator response failed verification", 401⟩))
        | some newCounter =>
          if rolledBack row.signCount newCounter then
            (db, .answer (.failed (rollbackError row.signCount newCounter)))
          else (db, .next (.updateCounter challengeId row.id newCounter goal user))
  | .updateCounter challengeId passkeyId newCounter goal user =>
    if fitsColumn newCounter then
      ({ db with
        passkeys := db.passkeys.update (fun p => p.id == passkeyId) (setCounter newCounter db.now)
          (setCounter_id newCounter db.now) },
        .next (.updateFreshness challengeId passkeyId goal user))
    else (db, .answer .databaseError)
  | .updateFreshness _ passkeyId goal user =>
    (updateUser db user.id (setFreshness db.now) (setFreshness_id db.now),
      match goal with
      | .login => .answer (.authenticated user passkeyId)
      | .stepUp => .next (.updateStepUp user))
  | .updateStepUp user =>
    (updateUser db user.id (setStepUp db.now) (setStepUp_id db.now), .next (.readStepUp user))
  | .readStepUp user =>
    (db, .answer (.steppedUp (((findUser db user.id).bind (·.lastStepUpAt)).getD db.now)))
  | .deletePasskey userId passkeyId =>
    match db.passkeys.select (fun p => p.id == passkeyId && p.userId == userId) with
    | none => (db, .answer (.failed ⟨"PASSKEY_NOT_FOUND", "Passkey not found", 404⟩))
    | some _ => (db, .next (.deleteCount userId passkeyId))
  | .deleteCount userId passkeyId =>
    if (passkeysOf db userId).length ≤ 1 then (db, .next (.deleteUser userId passkeyId))
    else (db, .next (.deleteCommit userId passkeyId false))
  | .deleteUser userId passkeyId =>
    match (findUser db userId).bind (·.passkeyMode) with
    | some .secondFactor =>
      (db, .answer (.failed ⟨"LAST_PASSKEY_IN_2FA_MODE",
        "Cannot delete the last passkey while 2FA is enabled. Switch to \"alternative\" or disable 2FA first.",
        409⟩))
    | some .alternative => (db, .next (.deleteCommit userId passkeyId true))
    | none => (db, .next (.deleteCommit userId passkeyId false))
  | .deleteCommit userId passkeyId dropMode =>
    (commitDelete db userId passkeyId dropMode, .answer .deleted)
  | .setPasskeyMode userId mode =>
    if mode = some .secondFactor then
      match db.passkeys.select (fun p => p.userId == userId) with
      | none =>
        (db, .answer (.failed ⟨"PASSKEY_REQUIRED_FIRST",
          "Register a passkey before enabling 2FA mode", 409⟩))
      | some _ => (db, .next (.updateMode userId mode))
    else (updateUser db userId (setMode mode) (setMode_id mode), .answer (.modeSet mode))
  | .updateMode userId mode =>
    (updateUser db userId (setMode mode) (setMode_id mode), .answer (.modeSet mode))

/-- What the rest of the platform does to these tables while requests run: it leaves
the passkey mode, the passkeys and the challenges alone. -/
inductive Change where
  | tick (ms : Nat)
  | editUser (user : User)
  | createUser (user : User)

def edited (user row : User) : User :=
  { user with id := row.id, passkeyMode := row.passkeyMode }

theorem edited_id (user row : User) : (edited user row).id = row.id := rfl

def Change.apply (db : Db) : Change → Db
  | .tick ms => { db with now := db.now + ms }
  | .editUser user => updateUser db user.id (edited user) (edited_id user)
  | .createUser user =>
    match db.users.insert { user with passkeyMode := none } with
    | some users => { db with users }
    | none => db

def passkeys (lib : WebAuthn) : System Db Task Response Change where
  request := fun _ => Task.isRequest
  advance := advance lib
  environment := Change.apply

/- every row id was drawn from the supply of fresh values -/
structure Drawn (db : Db) : Prop where
  passkey : ∀ p ∈ db.passkeys, p.id < db.supply
  challenge : ∀ c ∈ db.challenges, c.id < db.supply

variable {db : Db} {lib : WebAuthn} {task : Task} {p : Passkey}

theorem persistChallenge_challenges {db' : Db} {purpose : Purpose} {panel : Panel} {userId : Option Nat}
    {challenge : Nat} (done : persistChallenge db purpose panel userId = some (challenge, db')) :
    db'.supply = db.supply + 2 ∧ db'.passkeys = db.passkeys ∧ db'.users = db.users ∧
      ∀ c ∈ db'.challenges, c ∈ db.challenges ∨ c.id = db.supply + 1 := by
  simp only [persistChallenge, Option.map_eq_some_iff] at done
  obtain ⟨table, inserted, rfl, rfl⟩ := done
  refine ⟨rfl, rfl, rfl, ?_⟩
  intro c mem
  rcases (mem_insert inserted).mp mem with rfl | old
  · exact .inr rfl
  · exact .inl old

theorem insertPasskey_passkeys {db' : Db} {userId id : Nat} {credential : Credential} {nickname : String}
    (done : insertPasskey db userId credential nickname = some (id, db')) :
    db'.supply = db.supply + 1 ∧ db'.challenges = db.challenges ∧ db'.users = db.users ∧
      ∀ p, p ∈ db'.passkeys ↔ p ∈ db.passkeys ∨
        p = ⟨db.supply, userId, credential.id, credential.publicKey, credential.counter,
          Js.slice nickname 100, db.now, none⟩ := by
  unfold insertPasskey at done
  split at done
  · contradiction
  simp only [Option.map_eq_some_iff] at done
  obtain ⟨table, inserted, rfl, rfl⟩ := done
  refine ⟨rfl, rfl, rfl, ?_⟩
  intro p
  rw [mem_insert inserted]
  exact or_comm

theorem advance_supply (lib : WebAuthn) (db : Db) (task : Task) : db.supply ≤ (advance lib db task).1.supply := by
  cases task with
  | registrationChallenge user panel handle existing | authenticationChallenge panel userId allowed =>
    simp only [advance]
    split
    · rename_i done
      rw [(persistChallenge_challenges done).1]
      omega
    · exact Nat.le_refl _
  | registrationInsert challengeId userId credential nickname =>
    simp only [advance]
    split
    · rename_i done
      rw [(insertPasskey_passkeys done).1]
      omega
    · exact Nat.le_refl _
  | registrationNewHandle user panel => exact Nat.le_succ _
  | deleteCommit userId passkeyId dropMode =>
    cases dropMode <;> exact Nat.le_refl _
  | _ =>
    simp only [advance]
    repeat' split
    all_goals exact Nat.le_refl _

theorem advance_passkey (mem : p ∈ (advance lib db task).1.passkeys) :
    (∃ old ∈ db.passkeys, p.id = old.id ∧ p.userId = old.userId ∧ (p.signCount = old.signCount ∨
        ∃ challengeId goal user, task = .updateCounter challengeId old.id p.signCount goal user)) ∨
      p.id = db.supply ∧ p.id < (advance lib db task).1.supply := by
  cases task with
  | registrationInsert challengeId userId credential nickname =>
    simp only [advance] at mem ⊢
    split at mem
    · rename_i id db' done
      obtain ⟨supply, _, _, rows⟩ := insertPasskey_passkeys done
      rcases (rows p).mp mem with old | rfl
      · exact .inl ⟨p, old, rfl, rfl, .inl rfl⟩
      · have fresh : db.supply < db'.supply := by omega
        exact .inr ⟨rfl, fresh⟩
    · exact .inl ⟨p, mem, rfl, rfl, .inl rfl⟩
  | updateCounter challengeId passkeyId newCounter goal user =>
    simp only [advance] at mem
    split at mem
    · rw [mem_update] at mem
      rcases mem with ⟨old, _⟩ | ⟨old, memOld, same, rfl⟩
      · exact .inl ⟨p, old, rfl, rfl, .inl rfl⟩
      refine .inl ⟨old, memOld, rfl, rfl, .inr ⟨challengeId, goal, user, ?_⟩⟩
      rw [eq_of_beq same]
      rfl
    · exact .inl ⟨p, mem, rfl, rfl, .inl rfl⟩
  | deleteCommit userId passkeyId dropMode =>
    have old : p ∈ db.passkeys := by
      cases dropMode <;> exact (mem_delete.mp mem).1
    exact .inl ⟨p, old, rfl, rfl, .inl rfl⟩
  | registrationChallenge user panel handle existing | authenticationChallenge panel userId allowed =>
    simp only [advance] at mem
    split at mem
    · rename_i done
      rw [(persistChallenge_challenges done).2.1] at mem
      exact .inl ⟨p, mem, rfl, rfl, .inl rfl⟩
    · exact .inl ⟨p, mem, rfl, rfl, .inl rfl⟩
  | _ =>
    simp only [advance] at mem
    repeat' split at mem
    all_goals exact .inl ⟨p, mem, rfl, rfl, .inl rfl⟩

theorem passkey_survives (lib : WebAuthn) (mem : p ∈ db.passkeys)
    (kept : ∀ userId dropMode, task ≠ .deleteCommit userId p.id dropMode) :
    ∃ p' ∈ (advance lib db task).1.passkeys, p'.id = p.id ∧ p'.userId = p.userId := by
  cases task with
  | registrationInsert challengeId userId credential nickname =>
    simp only [advance]
    split
    · rename_i done
      obtain ⟨_, _, _, rows⟩ := insertPasskey_passkeys done
      exact ⟨p, (rows p).mpr (.inl mem), rfl, rfl⟩
    · exact ⟨p, mem, rfl, rfl⟩
  | updateCounter challengeId passkeyId newCounter goal user =>
    simp only [advance]
    split
    · exact ⟨_, apply_mem_update (setCounter_id newCounter db.now) mem,
        apply_column Passkey.id _ _ (setCounter_id newCounter db.now) p,
        apply_column Passkey.userId _ (setCounter newCounter db.now) (fun _ => rfl) p⟩
    · exact ⟨p, mem, rfl, rfl⟩
  | deleteCommit userId passkeyId dropMode =>
    have other : (p.id == passkeyId) = false := by
      refine beq_eq_false_iff_ne.mpr ?_
      rintro rfl
      exact kept userId dropMode rfl
    refine ⟨p, ?_, rfl, rfl⟩
    cases dropMode <;> exact mem_delete.mpr ⟨mem, other⟩
  | registrationChallenge user panel handle existing | authenticationChallenge panel userId allowed =>
    simp only [advance]
    split
    · rename_i done
      rw [(persistChallenge_challenges done).2.1]
      exact ⟨p, mem, rfl, rfl⟩
    · exact ⟨p, mem, rfl, rfl⟩
  | _ =>
    simp only [advance]
    repeat' split
    all_goals exact ⟨p, mem, rfl, rfl⟩

theorem advance_challenge {c : Challenge} (mem : c ∈ (advance lib db task).1.challenges) :
    (∃ old ∈ db.challenges, c.id = old.id ∧ (c.consumedAt = none → old.consumedAt = none ∧
      ∀ consumer, task ≠ .markConsumed consumer old.id)) ∨
      db.supply ≤ c.id ∧ c.id < (advance lib db task).1.supply := by
  cases task with
  | markConsumed consumer challengeId =>
    refine .inl ?_
    have rows : c ∈ db.challenges.update (fun c => c.id == challengeId) (consume db.now) (consume_id db.now) := by
      simp only [advance] at mem
      repeat' split at mem
      all_goals exact mem
    rcases (mem_update (consume_id db.now)).mp rows with ⟨old, other⟩ | ⟨old, memOld, same, rfl⟩
    · refine ⟨c, old, rfl, fun live => ⟨live, ?_⟩⟩
      intro consumer' task
      cases task
      simp at other
    · exact ⟨old, memOld, rfl, fun live => by simp [consume] at live⟩
  | registrationChallenge user panel handle existing | authenticationChallenge panel userId allowed =>
    simp only [advance] at mem ⊢
    split at mem
    · rename_i challenge db' done
      obtain ⟨supply, _, _, rows⟩ := persistChallenge_challenges done
      rcases rows c mem with old | id
      · exact .inl ⟨c, old, rfl, fun live => ⟨live, fun _ task => by cases task⟩⟩
      · have fresh : db.supply ≤ c.id ∧ c.id < db'.supply := by omega
        exact .inr fresh
    · exact .inl ⟨c, mem, rfl, fun live => ⟨live, fun _ task => by cases task⟩⟩
  | registrationInsert challengeId userId credential nickname =>
    simp only [advance] at mem
    split at mem
    · rename_i done
      rw [(insertPasskey_passkeys done).2.1] at mem
      exact .inl ⟨c, mem, rfl, fun live => ⟨live, fun _ task => by cases task⟩⟩
    · exact .inl ⟨c, mem, rfl, fun live => ⟨live, fun _ task => by cases task⟩⟩
  | deleteCommit userId passkeyId dropMode =>
    have old : c ∈ db.challenges := by cases dropMode <;> exact mem
    exact .inl ⟨c, old, rfl, fun live => ⟨live, fun _ task => by cases task⟩⟩
  | _ =>
    simp only [advance] at mem
    repeat' split at mem
    all_goals exact .inl ⟨c, mem, rfl, fun live => ⟨live, fun _ task => by cases task⟩⟩

theorem drawn_advance (drawn : Drawn db) (task : Task) : Drawn (advance lib db task).1 := by
  have grows := advance_supply lib db task
  constructor
  · intro p mem
    rcases advance_passkey mem with ⟨old, memOld, id, _⟩ | ⟨_, fresh⟩
    · have bound := drawn.passkey old memOld
      omega
    · exact fresh
  intro c mem
  rcases advance_challenge mem with ⟨old, memOld, id, _⟩ | ⟨_, fresh⟩
  · have bound := drawn.challenge old memOld
    omega
  · exact fresh

theorem environment_rows (db : Db) (change : Change) :
    (change.apply db).passkeys = db.passkeys ∧ (change.apply db).challenges = db.challenges ∧
      (change.apply db).supply = db.supply := by
  cases change with
  | createUser user =>
    simp only [Change.apply]
    split <;> exact ⟨rfl, rfl, rfl⟩
  | tick | editUser => exact ⟨rfl, rfl, rfl⟩

theorem drawn_environment (drawn : Drawn db) (change : Change) : Drawn (change.apply db) := by
  obtain ⟨passkeys, challenges, supply⟩ := environment_rows db change
  constructor
  · rw [passkeys, supply]
    exact drawn.passkey
  · rw [challenges, supply]
    exact drawn.challenge

end HostingPlatform.Auth.Passkeys
