import HostingPlatform.Interleaving

/-! Node terminals: the rows of node_terminal_sessions with the statements on them, and what the replicas
of the platform have in memory besides. Times are milliseconds of one clock. -/
namespace HostingPlatform.NodeTerminal

def idleMs : Nat := 15 * 60 * 1000

def sessionTtlMs : Nat := 60 * 60 * 1000

def graceMs : Nat := 60000

def wsTokenTtlMs : Nat := 60000

def staleSafetyMs : Nat := 5 * 60 * 1000

/- a token is its own hash -/
structure SessionRow where
  id : Nat
  nodeName : String
  userId : Nat
  (wsTokenHash wsTokenIssuedAt : Option Nat)
  (ownerReplica createdAt expiresAt lastActivityAt : Nat)
  terminateAfter : Option Nat

/- the privileged Pod, which is named after its session -/
structure Pod where
  (sessionId createdAt : Nat)

/-- A socket that attachExec has attached. `isOpen`: its connection is there; `wired`: its messages and
its close are listened to; `closed`: finalize has run. -/
structure Socket where
  (id sessionId replica : Nat)
  (isOpen wired closed explicitTerminate : Bool)

/- an entry of session-registry.ts -/
structure TerminalSession where
  ws : Option Nat
  (expiresAt lastActivityAt : Nat)

inductive TerminateReason where
  | clientClose | idle | deadline | serverClose | shellExited | error
  deriving DecidableEq

structure GraceTimer where
  fireAt : Nat
  reason : TerminateReason

/-- For the record: `granted` has each session with its expires_at, `frames` each user frame with its
session and time, `ended` the sessions whose row a deliberate termination has deleted. -/
structure Store where
  now : Nat
  rows : Table SessionRow SessionRow.id
  pods : Table Pod Pod.sessionId
  sockets : Table Socket Socket.id
  registry : Nat → Nat → Option TerminalSession
  graceTimers : Nat → Nat → Option GraceTimer
  (dbDown apiDown : Bool)
  (drawn opened : Nat)
  (granted frames : List (Nat × Nat))
  ended : List Nat

def Store.start (now : Nat) : Store where
  now := now
  rows := Table.empty
  pods := Table.empty
  sockets := Table.empty
  registry := fun _ _ => none
  graceTimers := fun _ _ => none
  dbDown := false
  apiDown := false
  drawn := 0
  opened := 0
  granted := []
  frames := []
  ended := []

/- a map by replica and session -/
def assign {V : Type} (map : Nat → Nat → Option V) (replica sessionId : Nat) (value : Option V) :
    Nat → Nat → Option V :=
  fun r s => if r = replica ∧ s = sessionId then value else map r s

/- an assignment of an UPDATE -/
structure Change where
  set : SessionRow → SessionRow
  keepsId : ∀ r, (set r).id = r.id
  keepsExpiry : ∀ r, (set r).expiresAt = r.expiresAt

def Store.update (d : Store) (sessionId : Nat) (change : Change) : Store :=
  { d with rows := d.rows.update (fun r => r.id == sessionId) change.set change.keepsId }

/- an expired row counts as none -/
def findById (d : Store) (sessionId : Nat) : Option SessionRow :=
  (d.rows.select (fun r => r.id == sessionId)).bind
    (fun r => if r.expiresAt < d.now then none else some r)

def tokenMatches (d : Store) (sessionId token : Nat) (r : SessionRow) : Bool :=
  r.id == sessionId && r.wsTokenHash == some token &&
    r.wsTokenIssuedAt.any (fun issuedAt => d.now < issuedAt + wsTokenTtlMs)

def consumeWsToken (now : Nat) : Change where
  set r := { r with
    wsTokenHash := none, wsTokenIssuedAt := none, lastActivityAt := now, terminateAfter := none }
  keepsId _ := rfl
  keepsExpiry _ := rfl

def refreshWsToken (now newToken : Nat) : Change where
  set r := { r with wsTokenHash := some newToken, wsTokenIssuedAt := some now, terminateAfter := none }
  keepsId _ := rfl
  keepsExpiry _ := rfl

def setTerminateAfter (terminateAfter : Option Nat) : Change where
  set r := { r with terminateAfter }
  keepsId _ := rfl
  keepsExpiry _ := rfl

def updateOwnerReplica (now ownerReplica : Nat) : Change where
  set r := { r with ownerReplica, lastActivityAt := now }
  keepsId _ := rfl
  keepsExpiry _ := rfl

def deleteSession (d : Store) (sessionId : Nat) : Store :=
  { d with rows := d.rows.delete (fun r => r.id == sessionId) }

def isIdle (d : Store) (r : SessionRow) : Bool := r.lastActivityAt + idleMs < d.now

def isExpired (d : Store) (r : SessionRow) : Bool := r.expiresAt < d.now

def isReadyForTermination (d : Store) (r : SessionRow) : Bool := r.terminateAfter.any (fun t => t < d.now)

def deletePod (d : Store) (sessionId : Nat) : Store :=
  if d.apiDown then d else { d with pods := d.pods.delete (fun p => p.sessionId == sessionId) }

structure SocketChange where
  set : Socket → Socket
  keepsId : ∀ k, (set k).id = k.id
  keepsSession : ∀ k, (set k).sessionId = k.sessionId
  closes : ∀ k, (set k).isOpen = true → k.isOpen = true
  finalizes : ∀ k, k.closed = true → (set k).closed = true

def Store.change (d : Store) (socket : Nat) (change : SocketChange) : Store :=
  { d with sockets := d.sockets.update (fun k => k.id == socket) change.set change.keepsId }

def wire : SocketChange where
  set k := { k with wired := true }
  keepsId _ := rfl
  keepsSession _ := rfl
  closes _ := id
  finalizes _ := id

def lose : SocketChange where
  set k := { k with isOpen := false }
  keepsId _ := rfl
  keepsSession _ := rfl
  closes _ := nofun
  finalizes _ := id

def requestTermination : SocketChange where
  set k := { k with isOpen := false, explicitTerminate := true }
  keepsId _ := rfl
  keepsSession _ := rfl
  closes _ := nofun
  finalizes _ := id

def markClosed : SocketChange where
  set k := { k with closed := true }
  keepsId _ := rfl
  keepsSession _ := rfl
  closes _ := id
  finalizes _ _ := rfl

/-! Node terminals: createSession, attachExec, the close of a socket with its grace period, the reconnect,
terminateSession and the scheduler, each cut where it waits for the database, the Kubernetes API or a
timer. Writes of the audit log never fail and are left out, as is what the shell puts out. -/

open Interleaving

/-- Where terminateSession is called from. The first three are deliberate. -/
inductive Origin where
  | terminateFrame | shellExited | deleteCall | graceTimer | idle | expired | readyForTermination
  deriving DecidableEq

def Origin.deliberate : Origin → Bool
  | .terminateFrame | .shellExited | .deleteCall => true
  | _ => false

/- the first three sweeps of a tick -/
inductive Sweep where
  | idle | expired | readyForTermination
  deriving DecidableEq

def Sweep.origin : Sweep → Origin
  | .idle => .idle
  | .expired => .expired
  | .readyForTermination => .readyForTermination

def Sweep.selects (d : Store) : Sweep → SessionRow → Bool
  | .idle => isIdle d
  | .expired => isExpired d
  | .readyForTermination => isReadyForTermination d

/- what goes on after a termination: the sessions that a sweep has listed and not reached -/
inductive After where
  | stop
  | sweep (replica : Nat) (sweep : Sweep) (rest : List Nat)
  deriving DecidableEq

def After.rest : After → List Nat
  | .stop => []
  | .sweep _ _ rest => rest

structure Creation where
  (replica userId : Nat)
  nodeName : String
  wsToken : Nat
  /- whether the Pod is Running in time -/
  running : Bool

/- the WebSocket of an upgrade, and what comes with it -/
structure Attach where
  (replica sessionId userId presentedToken : Nat)

structure Termination where
  (replica sessionId : Nat)
  origin : Origin

inductive Frame where
  | stdin | resize | terminate | other
  deriving DecidableEq

def Frame.isActivity : Frame → Bool
  | .stdin | .resize => true
  | _ => false

inductive Task where
  | createSession (c : Creation)
  | waitForPodRunning (sessionId : Nat) (c : Creation)
  | insertSession (sessionId : Nat) (c : Creation) (expiresAt : Nat)
  | cleanUp (sessionId : Nat) (code : String)
  | attachExec (a : Attach)
  | consumeToken (socket : Nat) (a : Attach)
  | claimOwnership (socket : Nat) (a : Attach) (row : SessionRow)
  | attachWs (socket : Nat) (a : Attach) (row : SessionRow)
  | cancelDelayedTermination (socket : Nat) (a : Attach)
  | listen (socket : Nat)
  | openExec (socket : Nat)
  | message (socket : Nat) (frame : Frame)
  | finalize (socket : Nat) (reason : TerminateReason)
  | scheduleDelayedTermination (k : Socket) (fireAt : Nat) (reason : TerminateReason)
  | startGraceTimer (k : Socket) (reason : TerminateReason)
  | graceTimer (replica sessionId : Nat)
  | graceCheck (replica sessionId : Nat)
  | terminateSession (t : Termination) (after : After)
  | terminateFind (t : Termination) (after : After)
  | terminatePod (t : Termination) (after : After)
  | terminateRow (t : Termination) (after : After)
  | wsToken (sessionId userId newToken : Nat)
  | refreshToken (sessionId newToken : Nat)
  | sweep (replica : Nat) (sweep : Sweep)
  | sweepOrphanPods
  | orphanFind (sessionId : Nat) (rest : List Nat)
  | orphanDelete (sessionId : Nat) (rest : List Nat)

inductive Response where
  | created (sessionId : Nat)
  | failed (code : String)
  | finished

abbrev Result := Store × Outcome Task Response

def finish (d : Store) : Result := (d, .answer .finished)

def fail (d : Store) (code : String) : Result := (d, .answer (.failed code))

def beginTermination (d : Store) (t : Termination) (after : After) : Result :=
  ({ d with graceTimers := assign d.graceTimers t.replica t.sessionId none }, .next (.terminateFind t after))

/- the next session of a sweep, or the next sweep of the tick -/
def continueAfter (d : Store) : After → Result
  | .stop => finish d
  | .sweep replica sweep (sessionId :: rest) =>
    beginTermination d ⟨replica, sessionId, sweep.origin⟩ (.sweep replica sweep rest)
  | .sweep replica .idle [] => (d, .next (.sweep replica .expired))
  | .sweep replica .expired [] => (d, .next (.sweep replica .readyForTermination))
  | .sweep _ .readyForTermination [] => (d, .next .sweepOrphanPods)

def nextOrphan (d : Store) : List Nat → Result
  | [] => finish d
  | sessionId :: rest => (d, .next (.orphanFind sessionId rest))

def expiredAt (d : Store) : Nat := d.now + sessionTtlMs

def sessionRow (d : Store) (sessionId : Nat) (c : Creation) (expiresAt : Nat) : SessionRow where
  id := sessionId
  nodeName := c.nodeName
  userId := c.userId
  wsTokenHash := some c.wsToken
  wsTokenIssuedAt := some d.now
  ownerReplica := c.replica
  createdAt := d.now
  expiresAt := expiresAt
  lastActivityAt := d.now
  terminateAfter := none

def createSession (d : Store) (c : Creation) : Result :=
  let drawn := { d with drawn := d.drawn + 1 }
  if d.apiDown then fail drawn "NODE_TERMINAL_POD_CREATE_FAILED"
  else
    match d.pods.insert ⟨d.drawn, d.now⟩ with
    | none => fail drawn "NODE_TERMINAL_POD_CREATE_FAILED"
    | some pods => ({ drawn with pods }, .next (.waitForPodRunning d.drawn c))

def waitForPodRunning (d : Store) (sessionId : Nat) (c : Creation) : Result :=
  if c.running then
    ({ d with registry := assign d.registry c.replica sessionId (some ⟨none, expiredAt d, d.now⟩) },
      .next (.insertSession sessionId c (expiredAt d)))
  else (d, .next (.cleanUp sessionId "NODE_TERMINAL_POD_TIMEOUT"))

def insertSession (d : Store) (sessionId : Nat) (c : Creation) (expiresAt : Nat) : Result :=
  match if d.dbDown then none else d.rows.insert (sessionRow d sessionId c expiresAt) with
  | some rows =>
    ({ d with rows, granted := (sessionId, expiresAt) :: d.granted }, .answer (.created sessionId))
  | none =>
    ({ d with registry := assign d.registry c.replica sessionId none },
      .next (.cleanUp sessionId "NODE_TERMINAL_DB_FAILED"))

def attachExec (d : Store) (a : Attach) : Result :=
  let opened := { d with opened := d.opened + 1 }
  if d.dbDown then fail opened "4500"
  else
    match findById d a.sessionId with
    | none => fail opened "SESSION_NOT_FOUND"
    | some row =>
      if row.userId ≠ a.userId then fail opened "OWNER_MISMATCH"
      else (opened, .next (.consumeToken d.opened a))

def consumeToken (d : Store) (socket : Nat) (a : Attach) : Result :=
  if d.dbDown then fail d "4500"
  else
    match d.rows.select (tokenMatches d a.sessionId a.presentedToken) with
    | none => fail d "TOKEN_INVALID"
    | some row =>
      (d.update a.sessionId (consumeWsToken d.now),
        .next (.claimOwnership socket a ((consumeWsToken d.now).set row)))

def claimOwnership (d : Store) (socket : Nat) (a : Attach) (row : SessionRow) : Result :=
  if d.dbDown then fail d "4500"
  else (d.update a.sessionId (updateOwnerReplica d.now a.replica), .next (.attachWs socket a row))

/- a session of another replica gets an entry of its own -/
def attachWs (d : Store) (socket : Nat) (a : Attach) (row : SessionRow) : Result :=
  let session := (d.registry a.replica a.sessionId).getD ⟨none, row.expiresAt, row.lastActivityAt⟩
  ({ d with
    registry := assign d.registry a.replica a.sessionId
      (some { session with ws := some socket, lastActivityAt := d.now })
    graceTimers := assign d.graceTimers a.replica a.sessionId none
    sockets := d.sockets.put ⟨socket, a.sessionId, a.replica, true, false, false, false⟩ },
    .next (.cancelDelayedTermination socket a))

def cancelDelayedTermination (d : Store) (socket : Nat) (a : Attach) : Result :=
  (if d.dbDown then d else d.update a.sessionId (setTerminateAfter none), .next (.listen socket))

def scheduling (d : Store) (k : Socket) (reason : TerminateReason) : Result :=
  ({ d with graceTimers := assign d.graceTimers k.replica k.sessionId none },
    .next (.scheduleDelayedTermination k (d.now + graceMs) reason))

/- the kill is immediate where the client asked for it or the shell has exited -/
def finalize (d : Store) (socket : Nat) (reason : TerminateReason) : Result :=
  match d.sockets.select (fun k => k.id == socket) with
  | none => finish d
  | some k =>
    if k.closed then finish d
    else if k.explicitTerminate then
      beginTermination (d.change socket markClosed) ⟨k.replica, k.sessionId, .terminateFrame⟩ .stop
    else if reason = .shellExited then
      beginTermination (d.change socket markClosed) ⟨k.replica, k.sessionId, .shellExited⟩ .stop
    else scheduling (d.change socket markClosed) k reason

def markActivity (d : Store) (replica sessionId : Nat) : Store :=
  { d with
    registry := assign d.registry replica sessionId
      ((d.registry replica sessionId).map (fun s => { s with lastActivityAt := d.now })) }

def message (d : Store) (socket : Nat) (frame : Frame) : Result :=
  match d.sockets.select (fun k => k.id == socket) with
  | none => finish d
  | some k =>
    if k.closed then finish d
    else if frame.isActivity then
      finish { markActivity d k.replica k.sessionId with frames := (k.sessionId, d.now) :: d.frames }
    else if frame = .terminate then finish (d.change socket requestTermination)
    else finish d

/- the UPDATE of a grace period; when it fails there is only the timer -/
def scheduleDelayedTermination (d : Store) (k : Socket) (fireAt : Nat) (reason : TerminateReason) : Result :=
  (if d.dbDown then d else d.update k.sessionId (setTerminateAfter (some fireAt)),
    .next (.startGraceTimer k reason))

def startGraceTimer (d : Store) (k : Socket) (reason : TerminateReason) : Result :=
  finish { d with
    graceTimers := assign d.graceTimers k.replica k.sessionId (some ⟨d.now + graceMs, reason⟩) }

def graceTimer (d : Store) (replica sessionId : Nat) : Result :=
  match d.graceTimers replica sessionId with
  | none => finish d
  | some t =>
    if d.now < t.fireAt then finish d
    else
      ({ d with graceTimers := assign d.graceTimers replica sessionId none },
        .next (.graceCheck replica sessionId))

def graceCheck (d : Store) (replica sessionId : Nat) : Result :=
  match if d.dbDown then none else (findById d sessionId).bind SessionRow.terminateAfter with
  | none => finish d
  | some terminateAfter =>
    if d.now < terminateAfter then finish d
    else beginTermination d ⟨replica, sessionId, .graceTimer⟩ .stop

/- a session of which neither the row nor an entry is left needs nothing more -/
def terminateFind (d : Store) (t : Termination) (after : After) : Result :=
  if d.dbDown then continueAfter d after
  else
    let removed := { d with registry := assign d.registry t.replica t.sessionId none }
    match findById d t.sessionId, d.registry t.replica t.sessionId with
    | none, none => continueAfter removed after
    | _, session =>
      let closed := ((session.bind TerminalSession.ws).map (fun socket => removed.change socket lose)).getD removed
      (closed, .next (.terminatePod t after))

def terminatePod (d : Store) (t : Termination) (after : After) : Result :=
  (deletePod d t.sessionId, .next (.terminateRow t after))

def terminateRow (d : Store) (t : Termination) (after : After) : Result :=
  if d.dbDown then continueAfter d after
  else
    let deleted := deleteSession d t.sessionId
    continueAfter
      { deleted with ended := if t.origin.deliberate then t.sessionId :: d.ended else d.ended } after

def wsToken (d : Store) (sessionId userId newToken : Nat) : Result :=
  match if d.dbDown then none else findById d sessionId with
  | none => fail d "SESSION_NOT_FOUND"
  | some row =>
    if row.userId ≠ userId then fail d "OWNER_MISMATCH"
    else (d, .next (.refreshToken sessionId newToken))

def refreshToken (d : Store) (sessionId newToken : Nat) : Result :=
  if d.dbDown then fail d "500"
  else finish (d.update sessionId (refreshWsToken d.now newToken))

def sweep (d : Store) (replica : Nat) (sweep : Sweep) : Result :=
  let found := if d.dbDown then [] else (d.rows.selectAll (sweep.selects d)).map SessionRow.id
  continueAfter d (.sweep replica sweep found)

def sweepOrphanPods (d : Store) : Result :=
  if d.apiDown then finish d
  else
    nextOrphan d
      ((d.pods.selectAll (fun p => p.createdAt + staleSafetyMs ≤ d.now)).map Pod.sessionId)

/- a query that fails counts as no row -/
def orphanFind (d : Store) (sessionId : Nat) (rest : List Nat) : Result :=
  match if d.dbDown then none else findById d sessionId with
  | some _ => nextOrphan d rest
  | none => (d, .next (.orphanDelete sessionId rest))

def advance (d : Store) : Task → Result
  | .createSession c => createSession d c
  | .waitForPodRunning sessionId c => waitForPodRunning d sessionId c
  | .insertSession sessionId c expiresAt => insertSession d sessionId c expiresAt
  | .cleanUp sessionId code => fail (deletePod d sessionId) code
  | .attachExec a => attachExec d a
  | .consumeToken socket a => consumeToken d socket a
  | .claimOwnership socket a row => claimOwnership d socket a row
  | .attachWs socket a row => attachWs d socket a row
  | .cancelDelayedTermination socket a => cancelDelayedTermination d socket a
  | .listen socket => (d.change socket wire, .next (.openExec socket))
  | .openExec socket => if d.apiDown then finalize d socket .error else finish d
  | .message socket frame => message d socket frame
  | .finalize socket reason => finalize d socket reason
  | .scheduleDelayedTermination k fireAt reason => scheduleDelayedTermination d k fireAt reason
  | .startGraceTimer k reason => startGraceTimer d k reason
  | .graceTimer replica sessionId => graceTimer d replica sessionId
  | .graceCheck replica sessionId => graceCheck d replica sessionId
  | .terminateSession t after => beginTermination d t after
  | .terminateFind t after => terminateFind d t after
  | .terminatePod t after => terminatePod d t after
  | .terminateRow t after => terminateRow d t after
  | .wsToken sessionId userId newToken => wsToken d sessionId userId newToken
  | .refreshToken sessionId newToken => refreshToken d sessionId newToken
  | .sweep replica s => sweep d replica s
  | .sweepOrphanPods => sweepOrphanPods d
  | .orphanFind sessionId rest => orphanFind d sessionId rest
  | .orphanDelete sessionId rest => nextOrphan (deletePod d sessionId) rest

/-- What can begin: a request, a message or the end of a socket that is listened to, a timer, a tick. A
socket is reported closed when its connection is gone. -/
def request (w : World Store Task Response) : Task → Bool
  | .createSession _ | .attachExec _ | .wsToken .. | .graceTimer .. => true
  | .message socket _ => w.db.sockets.rows.any (fun k => k.id == socket && k.wired)
  | .finalize socket reason =>
    w.db.sockets.rows.any (fun k => k.id == socket && k.wired && (reason != .clientClose || !k.isOpen))
  | .terminateSession t after => t.origin == .deleteCall && after == .stop
  | .sweep _ sweep => sweep == .idle
  | _ => false

/- time passes, a connection is lost, the database or the Kubernetes API fails or is there again -/
inductive Environment where
  | pass (ms : Nat)
  | lost (socket : Nat)
  | database (down : Bool)
  | kubernetes (down : Bool)

def environment (d : Store) : Environment → Store
  | .pass ms => { d with now := d.now + ms }
  | .lost socket => d.change socket lose
  | .database down => { d with dbDown := down }
  | .kubernetes down => { d with apiDown := down }

def system : System Store Task Response Environment := ⟨request, advance, environment⟩

end HostingPlatform.NodeTerminal
