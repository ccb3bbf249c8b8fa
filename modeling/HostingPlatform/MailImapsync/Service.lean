import HostingPlatform.Interleaving

/-! The IMAPSync jobs: their rows, their Kubernetes Jobs and Secrets, and the routes that change them,
statement by statement. Jobs and Secrets are in one namespace. -/
namespace HostingPlatform.MailImapsync

open Interleaving

inductive Status where
  | pending
  | running
  | succeeded
  | failed
  | cancelled
  deriving DecidableEq

def Status.active : Status → Bool
  | .pending | .running => true
  | _ => false

/- `imapsync-<id>`, and with the time of a resync `imapsync-<id>-<ms>` -/
structure JobName where
  jobId : Nat
  resyncedAt : Option Nat
  deriving DecidableEq

/- the name that a row has while the Job is being started: a resync announces it, a creation does not -/
def JobName.announced (name : JobName) : Option JobName := if name.resyncedAt.isSome then some name else none

structure ImapSyncJob where
  (id tenantId mailboxId : Nat)
  status : Status
  k8sJobName : Option JobName

inductive JobState where
  | active
  | succeeded
  | failed
  deriving DecidableEq

structure K8sJob where
  name : JobName
  state : JobState

/- whether its ownerReference is the Job of its name -/
structure K8sSecret where
  name : JobName
  owned : Bool

/- how the status of a row has been written, and whether by the reset of a resync -/
structure Change where
  id : Nat
  (before after : Status)
  resync : Bool

structure Store where
  rows : Table ImapSyncJob ImapSyncJob.id
  ids : List Nat
  changes : List Change
  jobs : List K8sJob
  secrets : List K8sSecret

def maxActiveImapsyncJobs : Nat := 3
def maxTotalImapsyncJobs : Nat := 10

def activeOf (tenantId : Nat) (row : ImapSyncJob) : Bool := row.tenantId == tenantId && row.status.active

def activeCount (s : Store) (tenantId : Nat) : Nat := (s.rows.selectAll (activeOf tenantId)).length

def totalCount (s : Store) (tenantId : Nat) : Nat := (s.rows.selectAll (fun row => row.tenantId == tenantId)).length

def setStatus (status : Status) (row : ImapSyncJob) : ImapSyncJob := { row with status }

def setStarted (status : Status) (k8sJobName : JobName) (row : ImapSyncJob) : ImapSyncJob :=
  { row with
    status
    k8sJobName := some k8sJobName }

theorem setStatus_id (status : Status) (row : ImapSyncJob) : (setStatus status row).id = row.id := rfl

theorem setStarted_id (status : Status) (k8sJobName : JobName) (row : ImapSyncJob) :
    (setStarted status k8sJobName row).id = row.id := rfl

def setOwned (name : JobName) (secret : K8sSecret) : K8sSecret :=
  if secret.name = name then { secret with owned := true } else secret

inductive Effect where
  | nothing
  | insert (row : ImapSyncJob)
  | finish (id : Nat) (status : Status)
  | markRunning (id : Nat) (name : JobName)
  | reset (id : Nat) (name : JobName)
  | deleteRow (id : Nat)
  | createSecret (name : JobName)
  | createJob (name : JobName)
  | own (name : JobName)
  | deleteJob (name : JobName)
  | deleteSecret (name : JobName)

/- the status that an effect writes into a row, and whether it is the reset of a resync -/
def Effect.writes : Effect → Option (Nat × Status × Bool)
  | .finish id status => some (id, status, false)
  | .markRunning id _ => some (id, .running, false)
  | .reset id _ => some (id, .pending, true)
  | _ => none

def Effect.changes (s : Store) (e : Effect) : List Change :=
  match e.writes with
  | none => []
  | some (id, after, resync) =>
    (s.rows.selectAll (fun row => row.id == id)).map (fun row => ⟨id, row.status, after, resync⟩)

def Effect.run (s : Store) (e : Effect) : Store :=
  match e with
  | .nothing => s
  | .insert row =>
    { s with
      rows := (s.rows.insert row).getD s.rows
      ids := row.id :: s.ids }
  | .finish id status =>
    { s with
      rows := s.rows.update (fun row => row.id == id) (setStatus status) (setStatus_id status)
      changes := e.changes s ++ s.changes }
  | .markRunning id name =>
    { s with
      rows := s.rows.update (fun row => row.id == id) (setStarted .running name) (setStarted_id .running name)
      changes := e.changes s ++ s.changes }
  | .reset id name =>
    { s with
      rows := s.rows.update (fun row => row.id == id) (setStarted .pending name) (setStarted_id .pending name)
      changes := e.changes s ++ s.changes }
  | .deleteRow id => { s with rows := s.rows.delete (fun row => row.id == id) }
  | .createSecret name => { s with secrets := ⟨name, false⟩ :: s.secrets }
  | .createJob name => { s with jobs := ⟨name, .active⟩ :: s.jobs }
  | .own name => { s with secrets := s.secrets.map (setOwned name) }
  | .deleteJob name => { s with jobs := s.jobs.filter (fun job => job.name != name) }
  | .deleteSecret name => { s with secrets := s.secrets.filter (fun secret => secret.name != name) }

structure Setup where
  /- the mailboxes with their tenants -/
  tenantOf : Nat → Option Nat

structure Start where
  (id mailboxId : Nat)
  name : JobName

/- a resync, not a creation -/
def Start.resync (t : Start) : Bool := t.name.resyncedAt.isSome

inductive StartAt where
  | mailbox
  | decrypt
  | secret
  | job
  | patch
  | mark
  | reread
  | failSelect (cleanup : Bool)
  | failUpdate (cleanup : Bool)
  | cleanJob
  | cleanSecret

inductive Request where
  | createTotal (tenantId mailboxId : Nat)
  | createActive (tenantId mailboxId : Nat)
  | createOwner (tenantId mailboxId : Nat)
  | createInsert (tenantId mailboxId : Nat)
  | start (t : Start) (next : StartAt)
  | cancelFetch (tenantId id : Nat)
  | cancelJob (id : Nat) (name : JobName)
  | cancelSecret (id : Nat) (name : JobName)
  | cancelSelect (id : Nat)
  | cancelUpdate (id : Nat)
  | purgeFetch (tenantId id : Nat)
  | purgeRow (id : Nat) (name : Option JobName)
  | purgeJob (name : JobName)
  | purgeSecret (name : JobName)
  | resyncFetch (tenantId id : Nat)
  | resyncActive (tenantId id : Nat)
  | resyncReset (id : Nat)

abbrev After := Outcome Request Unit

def hasJob (s : Store) (name : JobName) : Bool := s.jobs.any (fun job => job.name == name)

def hasSecret (s : Store) (name : JobName) : Bool := s.secrets.any (fun secret => secret.name == name)

def fetchJob (s : Store) (tenantId id : Nat) : Option ImapSyncJob :=
  s.rows.select (fun row => row.id == id && row.tenantId == tenantId)

/-- What creation and resync do alike. A call to Kubernetes, or a decryption, may fail. -/
def startStatement (c : Setup) (s : Store) (ok : Bool) (t : Start) : StartAt → Effect × After
  | .mailbox =>
    (.nothing, .next (.start t (if (c.tenantOf t.mailboxId).isNone then .failSelect false
      else if t.resync then .decrypt else .secret)))
  | .decrypt => (.nothing, .next (.start t (if ok then .secret else .failSelect false)))
  | .secret =>
    if ok ∧ hasSecret s t.name = false then (.createSecret t.name, .next (.start t .job))
    else (.nothing, .next (.start t (.failSelect true)))
  | .job =>
    if ok ∧ hasJob s t.name = false then (.createJob t.name, .next (.start t .patch))
    else (.nothing, .next (.start t (.failSelect true)))
  | .patch => (if ok then .own t.name else .nothing, .next (.start t .mark))
  | .mark => (.markRunning t.id t.name, .next (.start t .reread))
  | .reread => (.nothing, .answer ())
  | .failSelect cleanup => (.nothing, .next (.start t (.failUpdate cleanup)))
  | .failUpdate cleanup => (.finish t.id .failed, if cleanup then .next (.start t .cleanJob) else .answer ())
  | .cleanJob => (if ok then .deleteJob t.name else .nothing, .next (.start t .cleanSecret))
  | .cleanSecret => (if ok then .deleteSecret t.name else .nothing, .answer ())

/- what a statement may draw: an id, and the time -/
structure Draw where
  (id now : Nat)
  ok : Bool

def statement (c : Setup) (s : Store) (d : Draw) : Request → Option (Effect × After)
  | .createTotal tenantId mailboxId =>
    some (.nothing, if maxTotalImapsyncJobs ≤ totalCount s tenantId then .answer ()
      else .next (.createActive tenantId mailboxId))
  | .createActive tenantId mailboxId =>
    some (.nothing, if maxActiveImapsyncJobs ≤ activeCount s tenantId then .answer ()
      else .next (.createOwner tenantId mailboxId))
  | .createOwner tenantId mailboxId =>
    some (.nothing, if c.tenantOf mailboxId = some tenantId then .next (.createInsert tenantId mailboxId)
      else .answer ())
  | .createInsert tenantId mailboxId =>
    if d.id ∈ s.ids then none
    else some (.insert ⟨d.id, tenantId, mailboxId, .pending, none⟩,
      .next (.start ⟨d.id, mailboxId, ⟨d.id, none⟩⟩ .mailbox))
  | .start t next => some (startStatement c s d.ok t next)
  | .cancelFetch tenantId id =>
    some (.nothing, match fetchJob s tenantId id with
      | none => .answer ()
      | some row =>
        if row.status.active then
          .next (match row.k8sJobName with
            | some name => .cancelJob id name
            | none => .cancelSelect id)
        else .answer ())
  | .cancelJob id name => some (if d.ok then .deleteJob name else .nothing, .next (.cancelSecret id name))
  | .cancelSecret id name => some (if d.ok then .deleteSecret name else .nothing, .next (.cancelSelect id))
  | .cancelSelect id => some (.nothing, .next (.cancelUpdate id))
  | .cancelUpdate id => some (.finish id .cancelled, .answer ())
  | .purgeFetch tenantId id =>
    some (.nothing, match fetchJob s tenantId id with
      | none => .answer ()
      | some row => if row.status.active then .answer () else .next (.purgeRow id row.k8sJobName))
  | .purgeRow id name =>
    some (.deleteRow id, match name with
      | some name => .next (.purgeJob name)
      | none => .answer ())
  | .purgeJob name => some (if d.ok then .deleteJob name else .nothing, .next (.purgeSecret name))
  | .purgeSecret name => some (if d.ok then .deleteSecret name else .nothing, .answer ())
  | .resyncFetch tenantId id =>
    some (.nothing, match fetchJob s tenantId id with
      | none => .answer ()
      | some row => if row.status.active then .answer () else .next (.resyncActive tenantId id))
  | .resyncActive tenantId id =>
    some (.nothing, if maxActiveImapsyncJobs ≤ activeCount s tenantId then .answer () else .next (.resyncReset id))
  | .resyncReset id =>
    some (.reset id ⟨id, some d.now⟩, match s.rows.select (fun row => row.id == id) with
      | some row => .next (.start ⟨id, row.mailboxId, ⟨id, some d.now⟩⟩ .mailbox)
      | none => .answer ())

inductive Route where
  | create (tenantId mailboxId : Nat)
  | cancel (tenantId id : Nat)
  | purge (tenantId id : Nat)
  | resync (tenantId id : Nat)

def Route.first : Route → Request
  | .create tenantId mailboxId => .createTotal tenantId mailboxId
  | .cancel tenantId id => .cancelFetch tenantId id
  | .purge tenantId id => .purgeFetch tenantId id
  | .resync tenantId id => .resyncFetch tenantId id

/-! The cycles of the reconciler, and everything at once. Progress and logs of a Job are left out, and
what they are written into. -/

/- the next statement of a cycle; what it does about a row, the row as it has been read -/
inductive CycleAt where
  | select
  | look
  | finish (row : ImapSyncJob) (name : JobName) (succeeded : Bool)
  | deleteJob (name : JobName)
  | deleteSecret (name : JobName)
  | missing (row : ImapSyncJob) (name : JobName)

structure Cycle where
  remaining : List ImapSyncJob
  next : CycleAt

def Cycle.begin : Cycle := ⟨[], .select⟩

def Cycle.at (c : Cycle) (next : CycleAt) : Outcome Cycle Unit := .next { c with next }

/-- A row without a Job is left alone. A step that fails leaves its row; a write that fails where the Job
is missing ends the cycle. -/
def cycleStatement (s : Store) (ok : Bool) (c : Cycle) : Effect × Outcome Cycle Unit :=
  match c.next with
  | .select =>
    (.nothing, if ok then .next ⟨s.rows.selectAll (fun row => row.status.active), .look⟩ else .answer ())
  | .look =>
    (.nothing, match c.remaining with
      | [] => .answer ()
      | row :: rest =>
        let c : Cycle := { c with remaining := rest }
        match row.k8sJobName with
        | none => c.at .look
        | some name =>
          if ok = false then c.at .look
          else match s.jobs.find? (fun job => job.name == name) with
            | none => c.at (.missing row name)
            | some job =>
              match job.state with
              | .succeeded => c.at (.finish row name true)
              | .failed => c.at (.finish row name false)
              | .active => c.at .look)
  | .finish row name succeeded =>
    if ok then (.finish row.id (if succeeded then .succeeded else .failed), c.at (.deleteJob name)) else (.nothing, c.at .look)
  | .deleteJob name => if ok then (.deleteJob name, c.at (.deleteSecret name)) else (.nothing, c.at .look)
  | .deleteSecret name => (if ok then .deleteSecret name else .nothing, c.at .look)
  | .missing row name =>
    if ok then (.finish row.id .failed, c.at (.deleteSecret name)) else (.nothing, .answer ())

structure World where
  store : Store
  requests : Table (Process Request) Process.id
  cycles : Table (Process Cycle) Process.id

inductive Action where
  | route (id : Nat) (route : Route)
  | request (id : Nat) (d : Draw)
  | die (id : Nat)
  | cycle (id : Nat)
  | reconcile (id : Nat) (ok : Bool)
  | cycleDies (id : Nat)
  | finishJob (name : JobName) (succeeds : Bool)
  | expireJob (name : JobName)
  | collect (name : JobName)

def endJob (name : JobName) (state : JobState) (job : K8sJob) : K8sJob :=
  if job.name = name ∧ job.state = .active then { job with state } else job

/-- A Job that has finished is deleted after a while, and a Secret whose owner is gone. -/
def step (c : Setup) (w : World) : Action → Option World
  | .route id route => (w.requests.insert ⟨id, route.first⟩).map (fun requests => { w with requests })
  | .request id d =>
    (w.requests.select (fun r => r.id == id)).bind (fun r =>
      (statement c w.store d r.task).map (fun (e, after) =>
        { w with
          store := e.run w.store
          requests := resume w.requests id after }))
  | .die id => some { w with requests := w.requests.delete (fun r => r.id == id) }
  | .cycle id => (w.cycles.insert ⟨id, Cycle.begin⟩).map (fun cycles => { w with cycles })
  | .reconcile id ok =>
    (w.cycles.select (fun r => r.id == id)).map (fun r =>
      let (e, after) := cycleStatement w.store ok r.task
      { w with
        store := e.run w.store
        cycles := resume w.cycles id after })
  | .cycleDies id => some { w with cycles := w.cycles.delete (fun r => r.id == id) }
  | .finishJob name succeeds =>
    some { w with store :=
      { w.store with jobs := w.store.jobs.map (endJob name (if succeeds then .succeeded else .failed)) } }
  | .expireJob name =>
    if w.store.jobs.any (fun job => job.name == name && job.state == .active) then none
    else some { w with store := (Effect.deleteJob name).run w.store }
  | .collect name =>
    if hasJob w.store name then none
    else some { w with store :=
      { w.store with secrets := w.store.secrets.filter (fun secret => secret.name != name || !secret.owned) } }

def noJobs : World := ⟨⟨.empty, [], [], [], []⟩, .empty, .empty⟩

end HostingPlatform.MailImapsync
