import HostingPlatform.Interleaving

/-! The private workers of a tenant: their rows, the secret that they share, and the calls that change
them, statement by statement. A worker's audit row is only written where its own row is there still. -/
namespace HostingPlatform.PrivateWorkers

open Interleaving

inductive PrivateWorkerStatus where
  | pending
  | active
  | revoked
  | suspended
  deriving DecidableEq

structure PrivateWorker where
  id : Nat
  (name slug workerTokenHash : String)
  status : PrivateWorkerStatus
  exposedPort : Nat

/- the server's address is made of the slug -/
structure TokenBlob where
  (slug secret : String)
  remotePort : Nat

def buildTokenBlob (slug secret : String) (exposedPort : Nat) : TokenBlob := ⟨slug, secret, exposedPort⟩

/- a token that has been returned, by a rotation the secret of that too -/
structure Issued where
  worker : Nat
  rotation : Option String
  token : TokenBlob

structure Setup where
  (hashSecret slugify : String → String)
  /- the slugs of the other tenants -/
  slugsElsewhere : List String

/-- Beside the tables: every secret and every worker that there has been, the tokens that have been
returned, and the workers of which a revocation has returned. -/
structure Db where
  sharedSecret : Option String
  workers : Table PrivateWorker PrivateWorker.id
  minted : List String
  ids : List Nat
  issued : List Issued
  revoked : List Nat

def setWorker (workerTokenHash : String) (status : PrivateWorkerStatus) (x : PrivateWorker) : PrivateWorker :=
  { x with
    workerTokenHash
    status }

def setHash (workerTokenHash : String) (x : PrivateWorker) : PrivateWorker := { x with workerTokenHash }

def setStatus (status : PrivateWorkerStatus) (x : PrivateWorker) : PrivateWorker := { x with status }

theorem setWorker_id (hash : String) (status : PrivateWorkerStatus) (x : PrivateWorker) :
    (setWorker hash status x).id = x.id := rfl

theorem setHash_id (hash : String) (x : PrivateWorker) : (setHash hash x).id = x.id := rfl

theorem setStatus_id (status : PrivateWorkerStatus) (x : PrivateWorker) : (setStatus status x).id = x.id := rfl

/- of a tenant's lifecycle, with the statuses that it changes and what it changes them into -/
inductive Lifecycle where
  | suspended
  | restored
  | archived

def Lifecycle.changed : Lifecycle → List PrivateWorkerStatus
  | .suspended => [.active, .pending]
  | .restored => [.suspended]
  | .archived => [.active, .pending, .suspended]

def Lifecycle.becomes : Lifecycle → PrivateWorkerStatus
  | .suspended => .suspended
  | .restored => .active
  | .archived => .revoked

def live (x : PrivateWorker) : Bool := [PrivateWorkerStatus.pending, .active, .suspended].contains x.status

theorem live_iff {x : PrivateWorker} : live x = true ↔ x.status ≠ .revoked := by
  unfold live
  cases x.status <;> simp

inductive Effect where
  | nothing
  | mint (secret : String)
  | insert (x : PrivateWorker)
  | setWorker (id : Nat) (hash : String) (status : PrivateWorkerStatus)
  | setSiblings (hash : String)
  | revoke (id : Nat)
  | delete (id : Nat)
  | issue (i : Issued)
  | acknowledge (id : Nat)
  | transition (t : Lifecycle)

def Effect.run (d : Db) : Effect → Db
  | .nothing => d
  | .mint secret =>
    { d with
      sharedSecret := some secret
      minted := secret :: d.minted }
  | .insert x =>
    { d with
      workers := (d.workers.insert x).getD d.workers
      ids := x.id :: d.ids }
  | .setWorker id hash status =>
    { d with
      workers := d.workers.update (fun x => x.id == id) (PrivateWorkers.setWorker hash status)
        (setWorker_id hash status) }
  | .setSiblings hash =>
    { d with workers := d.workers.update live (setHash hash) (setHash_id hash) }
  | .revoke id =>
    { d with workers := d.workers.update (fun x => x.id == id) (setStatus .revoked) (setStatus_id .revoked) }
  | .delete id => { d with workers := d.workers.delete (fun x => x.id == id) }
  | .issue i => { d with issued := i :: d.issued }
  | .acknowledge id => { d with revoked := id :: d.revoked }
  | .transition t =>
    { d with
      workers := d.workers.update (fun x => t.changed.contains x.status) (setStatus t.becomes)
        (setStatus_id t.becomes) }

inductive Call where
  | createByName (name : String) (slug : Option String)
  | createBySlug (name : String) (slug : Option String) (attempt : Nat)
  | createSecret (name slug : String)
  | createMint (name slug : String)
  | createReread (name slug : String)
  | createPort (name slug secret : String) (attempt : Nat)
  | createInsert (name slug secret : String) (attempt port : Nat)
  | createAudit (id : Nat) (secret : String)
  | createFetch (id : Nat) (secret : String)
  | rotateFetch (id : Nat)
  | rotateSecret (id : Nat) (status : PrivateWorkerStatus)
  | rotateWorker (id : Nat) (status : PrivateWorkerStatus) (secret : String)
  | rotateSiblings (id : Nat) (secret : String)
  | rotateAudit (id : Nat) (secret : String)
  | rotateReturn (id : Nat) (secret : String)
  | revokeFetch (id : Nat)
  | revokeSet (id : Nat)
  | revokeAudit (id : Nat)
  | revokeReturn (id : Nat)
  | deleteFetch (id : Nat)
  | deleteSet (id : Nat)
  | deleteAudit (id : Nat)
  | deleteRow (id : Nat)

/- what a statement may draw: a secret or the end of a slug, and an id -/
structure Random where
  text : String
  worker : Nat

def portPoolLow : Nat := 10000
def portPoolHigh : Nat := 19999

def firstFree (used : List Nat) (p : Nat) : Nat → Option Nat
  | 0 => none
  | n + 1 => if used.contains p then firstFree used (p + 1) n else some p

def pickExposedPortCandidate (d : Db) : Option Nat :=
  firstFree (d.workers.rows.map PrivateWorker.exposedPort) portPoolLow (portPoolHigh - portPoolLow + 1)

def fetchById (d : Db) (id : Nat) : Option PrivateWorker := d.workers.select (fun x => x.id == id)

def slugTaken (s : Setup) (d : Db) (slug : String) : Bool :=
  s.slugsElsewhere.contains slug || d.workers.rows.any (fun x => x.slug == slug)

def slugCandidate (s : Setup) (name suffix : String) : String :=
  (if s.slugify name = "" then "worker" else s.slugify name) ++ "-" ++ suffix

def admits (s : Setup) (d : Db) (name slug : String) (port : Nat) : Bool :=
  !slugTaken s d slug && d.workers.rows.all (fun x => x.name != name && x.exposedPort != port)

abbrev After := Outcome Call Unit

/-- A call that throws ends. Secrets and ids that are drawn are new. -/
def statement (s : Setup) (d : Db) (r : Random) : Call → Option (Effect × After)
  | .createByName name slug =>
    some (.nothing,
      if d.workers.rows.any (fun x => x.name == name) then .answer () else .next (.createBySlug name slug 0))
  | .createBySlug name (some slug) _ =>
    some (.nothing, if slugTaken s d slug then .answer () else .next (.createSecret name slug))
  | .createBySlug name none attempt =>
    let candidate := slugCandidate s name r.text
    some (.nothing,
      if slugTaken s d candidate then
        if attempt + 1 < 6 then .next (.createBySlug name none (attempt + 1)) else .answer ()
      else .next (.createSecret name candidate))
  | .createSecret name slug =>
    some (.nothing, match d.sharedSecret with
      | some secret => .next (.createPort name slug secret 0)
      | none => .next (.createMint name slug))
  | .createMint name slug =>
    if r.text ∈ d.minted then none
    else some (if d.sharedSecret = none then .mint r.text else .nothing, .next (.createReread name slug))
  | .createReread name slug =>
    some (.nothing, match d.sharedSecret with
      | some secret => .next (.createPort name slug secret 0)
      | none => .answer ())
  | .createPort name slug secret attempt =>
    some (.nothing, match pickExposedPortCandidate d with
      | some port => .next (.createInsert name slug secret attempt port)
      | none => .answer ())
  | .createInsert name slug secret attempt port =>
    if r.worker ∈ d.ids then none
    else if admits s d name slug port then
      some (.insert ⟨r.worker, name, slug, s.hashSecret secret, .pending, port⟩,
        .next (.createAudit r.worker secret))
    else
      some (.nothing,
        if attempt + 1 < 8 then .next (.createPort name slug secret (attempt + 1)) else .answer ())
  | .createAudit id secret =>
    some (.nothing, if (fetchById d id).isSome then .next (.createFetch id secret) else .answer ())
  | .createFetch id secret =>
    some (match fetchById d id with
      | some x => .issue ⟨id, none, buildTokenBlob x.slug secret x.exposedPort⟩
      | none => .nothing, .answer ())
  | .rotateFetch id =>
    some (.nothing, match fetchById d id with
      | some x =>
        if x.status = .revoked then .answer ()
        else .next (.rotateSecret id (if x.status = .suspended then .suspended else .active))
      | none => .answer ())
  | .rotateSecret id status =>
    if r.text ∈ d.minted then none else some (.mint r.text, .next (.rotateWorker id status r.text))
  | .rotateWorker id status secret =>
    some (.setWorker id (s.hashSecret secret) status, .next (.rotateSiblings id secret))
  | .rotateSiblings id secret => some (.setSiblings (s.hashSecret secret), .next (.rotateAudit id secret))
  | .rotateAudit id secret =>
    some (.nothing, if (fetchById d id).isSome then .next (.rotateReturn id secret) else .answer ())
  | .rotateReturn id secret =>
    some (match fetchById d id with
      | some x => .issue ⟨id, some secret, buildTokenBlob x.slug secret x.exposedPort⟩
      | none => .nothing, .answer ())
  | .revokeFetch id =>
    some (match fetchById d id with
      | some x => if x.status = .revoked then (.acknowledge id, .answer ()) else (.nothing, .next (.revokeSet id))
      | none => (.nothing, .answer ()))
  | .revokeSet id => some (.revoke id, .next (.revokeAudit id))
  | .revokeAudit id =>
    some (.nothing, if (fetchById d id).isSome then .next (.revokeReturn id) else .answer ())
  | .revokeReturn id => some (if (fetchById d id).isSome then .acknowledge id else .nothing, .answer ())
  | .deleteFetch id =>
    some (.nothing, match fetchById d id with
      | some x => .next (if x.status = .revoked then .deleteRow id else .deleteSet id)
      | none => .answer ())
  | .deleteSet id => some (.revoke id, .next (.deleteAudit id))
  | .deleteAudit id => some (.nothing, if (fetchById d id).isSome then .next (.deleteRow id) else .answer ())
  | .deleteRow id => some (.delete id, .answer ())

/- how a call begins -/
inductive Request where
  | create (name : String) (slug : Option String)
  | rotate (id : Nat)
  | revoke (id : Nat)
  | delete (id : Nat)

def Request.first : Request → Call
  | .create name slug => .createByName name slug
  | .rotate id => .rotateFetch id
  | .revoke id => .revokeFetch id
  | .delete id => .deleteFetch id

/-! The passes of the reconciler over one tenant, and its frps. What a pass writes beside the ConfigMap
and the Deployment only counts with whether it succeeds. -/

/- frps.toml: `auth.token` and `[[allowPorts]]` -/
structure FrpsConfig where
  token : String
  allowPorts : List Nat
  deriving DecidableEq

def FrpsConfig.accepts (config : FrpsConfig) (token : TokenBlob) : Bool :=
  token.secret == config.token && config.allowPorts.contains token.remotePort

/- the pod with the config that it has read when it started -/
structure Cluster where
  configMap : Option FrpsConfig
  deployment : Bool
  pod : Option FrpsConfig

/- the next statement of a pass -/
inductive PassAt where
  | workers
  | secret
  | replaceConfigMap
  | createConfigMap
  | readDeployment
  | replaceDeployment
  | createDeployment
  | deleteDeployment
  | deleteConfigMap
  | others
  | returning
  deriving DecidableEq

/-- With the workers it has read, those that had been revoked or deleted by then, the secret it has
read, and whether a step has failed. -/
structure Pass where
  next : PassAt
  gone : List Nat
  workers : List PrivateWorker
  secret : Option String
  failed : Bool

def Pass.begin : Pass := ⟨.workers, [], [], none, false⟩

def Pass.ports (p : Pass) : List Nat := p.workers.map PrivateWorker.exposedPort

def Pass.config (p : Pass) (secret : String) : FrpsConfig := ⟨secret, p.ports⟩

def activeWorkers (d : Db) : List PrivateWorker :=
  d.workers.selectAll (fun x => [PrivateWorkerStatus.active, .pending].contains x.status)

/- workers that have been revoked or deleted -/
def goneWorkers (d : Db) : List Nat := d.ids.filter (fun id => !d.workers.rows.any (fun x => x.id == id && live x))

def Pass.onward (p : Pass) (next : PassAt) (ok : Bool) : Pass :=
  { p with
    next
    failed := p.failed || !ok }

def Cluster.write (k : Cluster) (p : Pass) : Cluster := { k with configMap := p.secret.map p.config }

/-- A read of the database that fails ends the pass; every other step that fails is noted. -/
def passStatement (d : Db) (k : Cluster) (p : Pass) (ok : Bool) : Cluster × Outcome Pass Unit :=
  match p.next with
  | .workers =>
    let workers := activeWorkers d
    (k, if ok then .next
        { p with
          next := if workers = [] then .deleteDeployment else .secret
          gone := goneWorkers d
          workers }
      else .answer ())
  | .secret =>
    (k, if ok then .next (match d.sharedSecret with
        | some secret =>
          { p with
            next := .replaceConfigMap
            secret := some secret }
        | none => p.onward .returning false)
      else .answer ())
  | .replaceConfigMap =>
    if ok = false then (k, .next (p.onward .readDeployment false))
    else if k.configMap = none then (k, .next (p.onward .createConfigMap true))
    else (k.write p, .next (p.onward .readDeployment true))
  | .createConfigMap =>
    if ok = false ∨ k.configMap ≠ none then (k, .next (p.onward .readDeployment false))
    else (k.write p, .next (p.onward .readDeployment true))
  | .readDeployment =>
    (k, .next (if ok then p.onward (if k.deployment then .replaceDeployment else .createDeployment) true
      else p.onward .others false))
  | .replaceDeployment =>
    (k, .next (if ok ∧ k.deployment = false then p.onward .createDeployment true else p.onward .others ok))
  | .createDeployment =>
    if ok = false ∨ k.deployment then (k, .next (p.onward .others false))
    else ({ k with deployment := true }, .next (p.onward .others true))
  | .deleteDeployment =>
    (if ok then
      { k with
        deployment := false
        pod := none }
    else k, .next (p.onward .deleteConfigMap ok))
  | .deleteConfigMap => (if ok then { k with configMap := none } else k, .next (p.onward .others ok))
  | .others => (k, .next (p.onward .returning ok))
  | .returning => (k, .answer ())

/- a pod starts once the ConfigMap that it mounts is there -/
def startPod (k : Cluster) : Option Cluster :=
  if k.deployment && k.pod == none then
    k.configMap.map (fun config => { k with pod := some config })
  else none

structure World where
  db : Db
  calls : Table (Process Call) Process.id
  cluster : Cluster
  passes : Table (Process Pass) Process.id

inductive Action where
  | request (id : Nat) (request : Request)
  | call (id : Nat) (r : Random)
  | transition (t : Lifecycle)
  | reconcile (id : Nat)
  | pass (id : Nat) (ok : Bool)
  | startPod

def step (s : Setup) (w : World) : Action → Option World
  | .request id request => (w.calls.insert ⟨id, request.first⟩).map (fun calls => { w with calls })
  | .call id r =>
    (w.calls.select (fun c => c.id == id)).bind (fun c =>
      (statement s w.db r c.task).map (fun (effect, after) =>
        { w with
          db := effect.run w.db
          calls := resume w.calls id after }))
  | .transition t => some { w with db := (Effect.transition t).run w.db }
  | .reconcile id => (w.passes.insert ⟨id, Pass.begin⟩).map (fun passes => { w with passes })
  | .pass id ok =>
    (w.passes.select (fun p => p.id == id)).map (fun p =>
      let (cluster, after) := passStatement w.db w.cluster p.task ok
      { w with
        cluster
        passes := resume w.passes id after })
  | .startPod => (PrivateWorkers.startPod w.cluster).map (fun cluster => { w with cluster })

/- a tenant that has never had a worker -/
def noWorkers : World := ⟨⟨none, .empty, [], [], [], []⟩, .empty, ⟨none, false, none⟩, .empty⟩

end HostingPlatform.PrivateWorkers
