import HostingPlatform.IngressRoutes.Service
import HostingPlatform.Transition

/-! What the routes of a domain let the users of one tenant do to the others. The reconciler that a
request sets off is a step of its own. -/
namespace HostingPlatform.IngressRoutes

open Table List Transition

structure CreateInput where
  hostname : String
  path : Option String
  (deploymentId privateWorkerId servicePort : Option Nat)

/- the requests of a tenant's users with what the schema makes of their bodies, and the reconciler -/
inductive Event where
  | list (domainId : Nat)
  | create (domainId : Nat) (body : Except String CreateInput) (id : Nat) (p : Providers)
  | update (domainId routeId : Nat) (body : Except String UpdateInput)
  | delete (domainId routeId : Nat) (p : Providers)
  | reconcile (ids : Nat → Nat) (p : Providers)

inductive Reply where
  | routes (routes : List Route)
  | route (route : Option Route)
  | noContent
  | failed (failure : Failure)

def Reply.shown : Reply → List Route
  | .routes shown => shown
  | .route shown => shown.toList
  | .noContent => []
  | .failed _ => []

def validationError (message : String) : Failure := .api ⟨"VALIDATION_ERROR", message, 400⟩

def createHandler (env : Env) (tenantId : Nat) (db : Db) (domainId : Nat)
    (body : Except String CreateInput) (id : Nat) (p : Providers) : Db × Reply :=
  match body with
  | .error message => (db, .failed (validationError message))
  | .ok body =>
    match createRoute env p id db domainId tenantId body.hostname body.deploymentId
        (some (body.path.getD "/")) body.privateWorkerId body.servicePort with
    | .error failure => (db, .failed failure)
    | .ok (route, db) => (db, .route (some route))

def updateHandler (tenantId : Nat) (db : Db) (routeId : Nat) (body : Except String UpdateInput) :
    Db × Reply :=
  match body with
  | .error message => (db, .failed (validationError message))
  | .ok body =>
    match updateRoute db routeId body tenantId with
    | .error failure => (db, .failed failure)
    | .ok (route, db) => (db, .route route)

def deleteHandler (env : Env) (db : Db) (routeId : Nat) (p : Providers) : Db × Reply :=
  match deleteRoute env p db routeId with
  | .error failure => (db, .failed failure)
  | .ok db => (db, .noContent)

def handle (env : Env) (tenantId : Nat) (db : Db) : Event → Db × Reply
  | .list domainId => (db, .routes (listRoutesForDomain db domainId))
  | .create domainId body id p => createHandler env tenantId db domainId body id p
  | .update _ routeId body => updateHandler tenantId db routeId body
  | .delete _ routeId p => deleteHandler env db routeId p
  | .reconcile ids p => (reconcileIngress env p ids db tenantId, .noContent)

structure World where
  db : Db
  replies : List Reply

def step (env : Env) (tenantId : Nat) (w : World) (e : Event) : Option World :=
  let (db, reply) := handle env tenantId w.db e
  some ⟨db, reply :: w.replies⟩

def Db.owns (db : Db) (tenantId domainId : Nat) : Bool :=
  db.domains.rows.any (fun d => d.id == domainId && d.tenantId == tenantId)

def Db.foreign (db : Db) (tenantId domainId : Nat) : Bool :=
  db.domains.rows.any (fun d => d.id == domainId && d.tenantId != tenantId)

def Db.ownsDeployment (db : Db) (tenantId deploymentId : Nat) : Bool :=
  db.deployments.rows.any (fun d => d.id == deploymentId && d.tenantId == tenantId)

def Db.ownsWorker (db : Db) (tenantId privateWorkerId : Nat) : Bool :=
  db.privateWorkers.rows.any (fun w => w.id == privateWorkerId && w.tenantId == tenantId)

def Db.apart (db : Db) (tenantId : Nat) (domainName : String) : Bool :=
  db.domains.rows.all (fun d => d.tenantId == tenantId || absoluteName d.domainName != absoluteName domainName)

/-- The targets of a tenant's routes are its own. -/
def OwnTargets (tenantId : Nat) (db : Db) : Prop :=
  ∀ r ∈ db.ingressRoutes, db.owns tenantId r.domainId = true →
    (∀ d ∈ r.deploymentId, db.ownsDeployment tenantId d = true) ∧
      ∀ w ∈ r.privateWorkerId, db.ownsWorker tenantId w = true

structure Isolated (tenantId : Nat) (start : Db) (w : World) : Prop where
  routes : ∀ r : Route, start.foreign tenantId r.domainId = true →
    (r ∈ w.db.ingressRoutes ↔ r ∈ start.ingressRoutes)
  records : ∀ r : DnsRecord, start.foreign tenantId r.domainId = true →
    (r ∈ w.db.dnsRecords ↔ r ∈ start.dnsRecords)
  zones : ∀ d ∈ start.domains, d.tenantId ≠ tenantId →
    ∀ server, w.db.zones server (absoluteName d.domainName) = start.zones server (absoluteName d.domainName)
  shown : ∀ reply ∈ w.replies, ∀ r ∈ reply.shown, start.foreign tenantId r.domainId = false
  targets : OwnTargets tenantId w.db

def publishes (domain : Domain) (hostname : String) : Bool :=
  domain.dnsMode == .primary || Js.endsWith hostname ".local"

/- the request is refused, or what it publishes is not in another tenant's zone -/
def createApart (tenantId : Nat) (db : Db) (domainId : Nat) (hostname : String)
    (deploymentId : Option Nat) (path : Option String) (privateWorkerId : Option Nat) : Bool :=
  match routeDomain db domainId tenantId hostname deploymentId path privateWorkerId with
  | .ok domain => !publishes domain hostname || db.apart tenantId domain.domainName
  | .error _ => true

def migrates (tenantId : Nat) (db : Db) (domain : Domain) : Bool :=
  domain.deploymentId.isSome &&
    !(tenantRoutes db tenantId).any (fun r => r.hostname == domain.domainName)

def deleteApart (tenantId : Nat) (db : Db) (domainId : Nat) : Bool :=
  match db.domains.select (fun d => d.id == domainId) with
  | some domain => domain.dnsMode != .primary || db.apart tenantId domain.domainName
  | none => true

def harmless (tenantId : Nat) (db : Db) : Event → Bool
  | .list domainId => !db.foreign tenantId domainId || (listRoutesForDomain db domainId).isEmpty
  | .create domainId body _ _ =>
    match body with
    | .error _ => true
    | .ok body =>
      createApart tenantId db domainId body.hostname body.deploymentId (some (body.path.getD "/"))
        body.privateWorkerId
  | .update _ routeId body =>
    match body, routeById db routeId with
    | .ok body, some route =>
      (updateError db body tenantId).isSome ||
        !db.foreign tenantId route.domainId &&
          (!db.owns tenantId route.domainId ||
            body.deploymentId.join.all (db.ownsDeployment tenantId))
    | _, _ => true
  | .delete _ routeId _ =>
    match routeById db routeId with
    | some route => !db.foreign tenantId route.domainId && deleteApart tenantId db route.domainId
    | none => true
  | .reconcile _ _ =>
    (db.domains.selectAll (fun d => d.tenantId == tenantId)).all (fun domain =>
      !migrates tenantId db domain ||
        createApart tenantId db domain.id domain.domainName domain.deploymentId none none)

/- what a tenant's users may do to the database -/
structure Within (tenantId : Nat) (db after : Db) : Prop where
  domains : after.domains = db.domains
  deployments : after.deployments = db.deployments
  privateWorkers : after.privateWorkers = db.privateWorkers
  routes : ∀ r : Route, db.foreign tenantId r.domainId = true →
    (r ∈ after.ingressRoutes ↔ r ∈ db.ingressRoutes)
  records : ∀ r : DnsRecord, db.foreign tenantId r.domainId = true →
    (r ∈ after.dnsRecords ↔ r ∈ db.dnsRecords)
  zones : ∀ d ∈ db.domains, d.tenantId ≠ tenantId →
    ∀ server, after.zones server (absoluteName d.domainName) = db.zones server (absoluteName d.domainName)
  targets : OwnTargets tenantId db → OwnTargets tenantId after

namespace Within
open Table

open List

theorem refl (tenantId : Nat) (db : Db) : Within tenantId db db :=
  ⟨rfl, rfl, rfl, fun _ _ => Iff.rfl, fun _ _ => Iff.rfl, fun _ _ _ _ => rfl, id⟩

variable {tenantId : Nat}

theorem foreign {db after : Db} (within : Within tenantId db after) (domainId : Nat) :
    after.foreign tenantId domainId = db.foreign tenantId domainId := by
  simp [Db.foreign, within.domains]

theorem apart {db after : Db} (within : Within tenantId db after) (domainName : String) :
    after.apart tenantId domainName = db.apart tenantId domainName := by
  simp [Db.apart, within.domains]

theorem trans {db mid after : Db} (first : Within tenantId db mid) (second : Within tenantId mid after) :
    Within tenantId db after where
  domains := second.domains.trans first.domains
  deployments := second.deployments.trans first.deployments
  privateWorkers := second.privateWorkers.trans first.privateWorkers
  routes r other := (second.routes r ((first.foreign _).trans other)).trans (first.routes r other)
  records r other := (second.records r ((first.foreign _).trans other)).trans (first.records r other)
  zones d there other server := by
    have still : d ∈ mid.domains := by simpa [first.domains] using there
    exact (second.zones d still other server).trans (first.zones d there other server)
  targets own := second.targets (first.targets own)

end Within

variable {tenantId domainId w routeId : Nat} {db after : Db} {domain : Domain}
  {deploymentId privateWorkerId servicePort : Option Nat} {hostname routePath domainName : String}
  {route r : Route} {p : Providers} {path : Option String} {input : UpdateInput}

theorem not_foreign (own : db.owns tenantId domainId = true) : db.foreign tenantId domainId = false := by
  simp only [Db.owns, any_eq_true, Bool.and_eq_true, beq_iff_eq] at own
  obtain ⟨d, there, same, its⟩ := own
  simp only [Db.foreign, any_eq_false, Bool.and_eq_true, beq_iff_eq, not_and]
  intro d' there' same'
  have one : d' = d := db.domains.eq_of_key there' there (same'.trans same.symm)
  simp [one, its]

theorem ownDomain_some (found : ownDomain db domainId tenantId = some domain) :
    domain.id = domainId ∧ db.owns tenantId domainId = true := by
  obtain ⟨there, its⟩ := mem_of_select found
  simp only [Bool.and_eq_true, beq_iff_eq] at its
  refine ⟨its.1, ?_⟩
  simp only [Db.owns, any_eq_true, Bool.and_eq_true, beq_iff_eq]
  exact ⟨domain, there, its⟩

theorem ownsDeployment_of_allowed {deploymentId : Nat} (allowed : deploymentError db tenantId deploymentId = none) :
    db.ownsDeployment tenantId deploymentId = true := by
  unfold deploymentError at allowed
  split at allowed
  · contradiction
  rename_i dep found
  obtain ⟨there, its⟩ := mem_of_select found
  simp only [Db.ownsDeployment, any_eq_true]
  exact ⟨dep, there, its⟩

theorem ownsWorker_of_allowed {privateWorkerId : Nat} {revoked : PrivateWorker → String}
    (allowed : workerError db tenantId privateWorkerId revoked = none) :
    db.ownsWorker tenantId privateWorkerId = true := by
  unfold workerError at allowed
  split at allowed
  · contradiction
  rename_i worker found
  obtain ⟨there, its⟩ := mem_of_select found
  simp only [Db.ownsWorker, any_eq_true]
  exact ⟨worker, there, its⟩

theorem createError_none
    (passed : createError db tenantId domain hostname routePath deploymentId privateWorkerId = none) :
    (∀ d ∈ deploymentId, db.ownsDeployment tenantId d = true) ∧
      ∀ w ∈ privateWorkerId, db.ownsWorker tenantId w = true := by
  simp only [createError, Option.or_eq_none_iff] at passed
  obtain ⟨_, deployment, worker, _⟩ := passed
  constructor
  · intro d given
    rw [given] at deployment
    exact ownsDeployment_of_allowed deployment
  · intro w given
    rw [given] at worker
    exact ownsWorker_of_allowed worker

theorem sync_within (apart : db.apart tenantId domainName = true) (p : Providers) (action : SyncAction)
    (record : DnsRecordInput) (domain : Option Domain) :
    Within tenantId db (sync p db domainName action record domain) where
  domains := rfl
  deployments := rfl
  privateWorkers := rfl
  routes _ _ := Iff.rfl
  records _ _ := Iff.rfl
  zones d there other server := by
    simp only [Db.apart, all_eq_true, Bool.or_eq_true, beq_iff_eq, bne_iff_ne] at apart
    have differs := (apart d there).resolve_left other
    exact sync_other p db.dns action record domain db.zones server differs
  targets own := own

theorem syncAddresses_within (apart : db.apart tenantId domainName = true) (env : Env) (p : Providers)
    (action : SyncAction) (name : String) (domain : Option Domain) :
    Within tenantId db (syncAddresses env p db domainName action name domain) := by
  unfold syncAddresses
  have first := sync_within apart p action ⟨"A", name, (getIngressSettings env db).ingressDefaultIpv4⟩ domain
  dsimp only
  split
  · rename_i ipv6 _
    exact first.trans (sync_within ((first.apart _).trans apart) p action ⟨"AAAA", name, ipv6⟩ domain)
  · exact first

theorem publish_within
    (apart : publishes domain hostname = true → db.apart tenantId domain.domainName = true) (env : Env)
    (p : Providers) : Within tenantId db (publish env p db domain hostname) := by
  unfold publish
  by_cases primary : domain.dnsMode = .primary
  · simp only [primary, bne_self_eq_false, Bool.and_false, Bool.false_eq_true]
    exact syncAddresses_within (apart (by simp [publishes, primary])) env p _ _ _
  simp only [primary]
  split
  · rename_i its
    simp only [Bool.and_eq_true] at its
    exact sync_within (apart (by simp [publishes, its.1])) p _ _ _
  · exact Within.refl tenantId db

theorem routes_within (table : Table Route Route.id)
    (others : ∀ r : Route, db.foreign tenantId r.domainId = true → (r ∈ table ↔ r ∈ db.ingressRoutes))
    (targets : OwnTargets tenantId db → OwnTargets tenantId { db with ingressRoutes := table }) :
    Within tenantId db { db with ingressRoutes := table } where
  domains := rfl
  deployments := rfl
  privateWorkers := rfl
  routes := others
  records _ _ := Iff.rfl
  zones _ _ _ _ := rfl
  targets := targets

theorem insert_within {table : Table Route Route.id} (done : db.ingressRoutes.insert route = some table)
    (own : db.owns tenantId route.domainId = true)
    (deployment : ∀ d ∈ route.deploymentId, db.ownsDeployment tenantId d = true)
    (worker : ∀ w ∈ route.privateWorkerId, db.ownsWorker tenantId w = true) :
    Within tenantId db { db with ingressRoutes := table } := by
  apply routes_within
  · intro r other
    constructor
    · intro there
      rcases (mem_insert done).mp there with rfl | old
      · rw [not_foreign own] at other
        contradiction
      · exact old
    · intro old
      exact (mem_insert done).mpr (.inr old)
  · intro before r there its
    rcases (mem_insert done).mp there with rfl | old
    · exact ⟨deployment, worker⟩
    · exact before r old its

theorem createRoute_within {id : Nat} {env : Env}
    (apart : createApart tenantId db domainId hostname deploymentId path privateWorkerId = true)
    (done : createRoute env p id db domainId tenantId hostname deploymentId path privateWorkerId
      servicePort = .ok (route, after)) : db.owns tenantId route.domainId = true ∧ Within tenantId db after := by
  unfold createRoute at done
  unfold createApart at apart
  split at done
  · cases done
  rename_i domain allowed
  rw [allowed] at apart
  obtain ⟨found, passed⟩ := routeDomain_ok allowed
  obtain ⟨same, own⟩ := ownDomain_some found
  obtain ⟨deployment, worker⟩ := createError_none passed
  rw [← same] at own
  dsimp only at done
  split at done
  · cases done
  rename_i table inserted
  cases done
  refine ⟨own, ?_⟩
  have written : Within tenantId db { db with ingressRoutes := table } := by
    apply insert_within inserted own
    · intro d given
      simp only [newRoute] at given
      split at given
      · cases given
      · exact deployment d given
    · exact worker
  have still : publishes domain hostname = true →
      Db.apart { db with ingressRoutes := table } tenantId domain.domainName = true := by
    intro publishes
    rw [written.apart]
    simpa [publishes] using apart
  exact written.trans (publish_within still env p)

theorem targetDeployment_domain (deploymentId : Option (Option Nat)) (r : Route) :
    (targetDeployment deploymentId r).domainId = r.domainId := by
  unfold targetDeployment
  split <;> rfl

theorem targetWorker_domain (privateWorkerId : Option (Option Nat)) (r : Route) :
    (targetWorker privateWorkerId r).domainId = r.domainId := by
  unfold targetWorker
  split <;> rfl

theorem assign_domain (input : UpdateInput) (r : Route) : (input.assign r).domainId = r.domainId :=
  (targetWorker_domain _ _).trans (targetDeployment_domain _ _)

theorem assign_deployment {d : Nat} (target : d ∈ (input.assign r).deploymentId) :
    input.deploymentId.join = some d ∨ d ∈ r.deploymentId := by
  simp only [UpdateInput.assign, targetWorker, targetDeployment] at target
  split at target <;> split at target <;> simp_all

theorem assign_worker (target : w ∈ (input.assign r).privateWorkerId) :
    input.privateWorkerId.join = some w ∨ w ∈ r.privateWorkerId := by
  simp only [UpdateInput.assign, targetWorker, targetDeployment] at target
  split at target <;> split at target <;> simp_all

theorem updateError_none (allowed : updateError db input tenantId = none)
    (given : input.privateWorkerId.join = some w) : db.ownsWorker tenantId w = true := by
  unfold updateError at allowed
  rw [given] at allowed
  split at allowed
  · cases allowed
  · rename_i same _
    cases same
    exact ownsWorker_of_allowed allowed
  · rename_i same
    cases same

theorem update_within (found : routeById db routeId = some route)
    (allowed : updateError db input tenantId = none) (private' : db.foreign tenantId route.domainId = false)
    (deployment : db.owns tenantId route.domainId = true →
      ∀ d, input.deploymentId.join = some d → db.ownsDeployment tenantId d = true) : Within tenantId db
      { db with
        ingressRoutes := db.ingressRoutes.update (fun r => r.id == routeId) input.assign input.assign_id } := by
  obtain ⟨there, same⟩ := mem_of_select found
  have one : ∀ r ∈ db.ingressRoutes, (r.id == routeId) = true → r = route := by
    intro r mem its
    exact db.ingressRoutes.eq_of_key mem there ((beq_iff_eq.mp its).trans (beq_iff_eq.mp same).symm)
  apply routes_within
  · intro r other
    rw [mem_update]
    constructor
    · rintro (⟨mem, _⟩ | ⟨old, mem, its, rfl⟩)
      · exact mem
      · rw [assign_domain, one old mem its, private'] at other
        contradiction
    intro mem
    refine .inl ⟨mem, ?_⟩
    by_contra its
    rw [one r mem (by simpa using its), private'] at other
    contradiction
  · intro before r updated own
    rcases (mem_update input.assign_id).mp updated with ⟨kept, _⟩ | ⟨old, mem, its, rfl⟩
    · exact before r kept own
    cases one old mem its
    rw [assign_domain] at own
    obtain ⟨oldDeployment, oldWorker⟩ := before route mem own
    constructor
    · intro d target
      rcases assign_deployment target with given | kept
      · exact deployment own d given
      · exact oldDeployment d kept
    · intro w target
      rcases assign_worker target with given | kept
      · exact updateError_none allowed given
      · exact oldWorker w kept

theorem updateRoute_within {shown : Option Route}
    (harmless : harmless tenantId db (.update domainId routeId (.ok input)) = true)
    (done : updateRoute db routeId input tenantId = .ok (shown, after)) :
    Within tenantId db after ∧ ∀ r ∈ shown.toList, db.foreign tenantId r.domainId = false := by
  unfold updateRoute at done
  unfold IngressRoutes.harmless at harmless
  split at done
  · cases done
  rename_i route found
  split at done
  · cases done
  rename_i allowed
  simp only [found, allowed, Option.isSome_none, Bool.false_or, Bool.and_eq_true, Bool.not_eq_true'] at harmless
  obtain ⟨private', targets⟩ := harmless
  cases done
  refine ⟨update_within found allowed private' ?_, ?_⟩
  · intro own d given
    rw [own, given] at targets
    simpa using targets
  intro r mem
  obtain ⟨updated, _⟩ := mem_of_select (Option.mem_toList.mp mem)
  rcases (mem_update input.assign_id).mp updated with ⟨kept, unselected⟩ | ⟨old, was, its, rfl⟩
  · have selected := (mem_of_select (Option.mem_toList.mp mem)).2
    rw [unselected] at selected
    contradiction
  obtain ⟨there, same⟩ := mem_of_select found
  have one : old = route :=
    db.ingressRoutes.eq_of_key was there ((beq_iff_eq.mp its).trans (beq_iff_eq.mp same).symm)
  rw [assign_domain, one]
  exact private'

theorem autoDeleteRouteDns_within (private' : db.foreign tenantId domainId = false)
    (apart : deleteApart tenantId db domainId = true) (env : Env) (p : Providers) (hostname : String) :
    Within tenantId db (autoDeleteRouteDns env p db domainId hostname) := by
  unfold autoDeleteRouteDns
  unfold deleteApart at apart
  split
  · exact Within.refl tenantId db
  rename_i domain found
  rw [found] at apart
  split
  · exact Within.refl tenantId db
  rename_i primary
  simp only [not_not] at primary
  simp only [primary, bne_self_eq_false] at apart
  have synced := syncAddresses_within apart env p .delete (recordName hostname domain.domainName) (some domain)
  refine { synced with records := ?_ }
  intro r other
  rw [mem_delete, synced.records r other]
  refine ⟨And.left, fun there => ⟨there, ?_⟩⟩
  have differs : r.domainId ≠ domainId := by
    rintro rfl
    rw [private'] at other
    contradiction
  simp [differs]

theorem deleteApart_within (within : Within tenantId db after) (domainId : Nat) :
    deleteApart tenantId after domainId = deleteApart tenantId db domainId := by
  unfold deleteApart
  rw [within.domains]
  split
  · rw [within.apart]
  · rfl

theorem delete_within (found : routeById db routeId = some route)
    (private' : db.foreign tenantId route.domainId = false) : Within tenantId db
      { db with ingressRoutes := db.ingressRoutes.delete (fun r => r.id == routeId) } := by
  obtain ⟨there, same⟩ := mem_of_select found
  apply routes_within
  · intro r other
    rw [mem_delete]
    refine ⟨And.left, fun mem => ⟨mem, ?_⟩⟩
    by_contra its
    simp only [beq_iff_eq, Bool.not_eq_false] at its same
    rw [db.ingressRoutes.eq_of_key mem there (its.trans same.symm), private'] at other
    contradiction
  · intro before r left own
    exact before r (mem_delete.mp left).1 own

theorem deleteRoute_within {env : Env} (harmless : harmless tenantId db (.delete domainId routeId p) = true)
    (done : deleteRoute env p db routeId = .ok after) : Within tenantId db after := by
  unfold deleteRoute at done
  unfold IngressRoutes.harmless at harmless
  dsimp only at harmless
  split at done
  · cases done
  rename_i route found
  rw [found] at harmless
  simp only [Bool.and_eq_true, Bool.not_eq_true'] at harmless
  obtain ⟨private', apart⟩ := harmless
  have deleted := delete_within found private'
  have cleaned := deleted.trans (autoDeleteRouteDns_within ((deleted.foreign _).trans private')
    ((deleteApart_within deleted _).trans apart) env p route.hostname)
  split at done
  · rename_i companionHostname _
    cases done
    exact cleaned.trans (autoDeleteRouteDns_within ((cleaned.foreign _).trans private')
      ((deleteApart_within cleaned _).trans apart) env p companionHostname)
  · cases done
    exact cleaned

/- the checks of a new route read these tables; one that is refused stays refused as routes are added -/
structure Grows (db after : Db) : Prop where
  domains : after.domains = db.domains
  deployments : after.deployments = db.deployments
  catalogEntries : after.catalogEntries = db.catalogEntries
  privateWorkers : after.privateWorkers = db.privateWorkers
  routes : ∀ r ∈ db.ingressRoutes, r ∈ after.ingressRoutes

theorem Grows.refl (db : Db) : Grows db db := ⟨rfl, rfl, rfl, rfl, fun _ there => there⟩

theorem publish_eq (env : Env) (p : Providers) (db : Db) (domain : Domain) (hostname : String) :
    ∃ zones, publish env p db domain hostname = { db with zones } := by
  unfold publish syncAddresses sync
  dsimp only
  split <;> split <;> (try split) <;> exact ⟨_, rfl⟩

theorem createRoute_grows {id : Nat} {env : Env}
    (done : createRoute env p id db domainId tenantId hostname deploymentId path privateWorkerId
      servicePort = .ok (route, after)) : Grows db after := by
  unfold createRoute at done
  split at done
  · cases done
  rename_i domain _
  dsimp only at done
  split at done
  · cases done
  rename_i table inserted
  obtain ⟨zones, same⟩ := publish_eq env p { db with ingressRoutes := table } domain hostname
  rw [same] at done
  cases done
  refine ⟨rfl, rfl, rfl, rfl, ?_⟩
  intro r there
  exact (mem_insert inserted).mpr (.inr there)

theorem duplicateError_earlier (grows : Grows db after)
    (single : duplicateError after hostname routePath domainId = none) :
    duplicateError db hostname routePath domainId = none := by
  unfold duplicateError at *
  split at single
  · rename_i missing
    have absent := select_none missing
    split
    · rfl
    rename_i route found
    obtain ⟨there, its⟩ := mem_of_select found
    rw [absent route (grows.routes route there)] at its
    contradiction
  · cases single

theorem routeDomain_earlier (grows : Grows db after)
    (allowed : routeDomain after domainId tenantId hostname deploymentId path privateWorkerId = .ok domain) :
    routeDomain db domainId tenantId hostname deploymentId path privateWorkerId = .ok domain := by
  obtain ⟨found, passed⟩ := routeDomain_ok allowed
  have deployments : deploymentError after tenantId = deploymentError db tenantId := by
    funext id
    simp [deploymentError, grows.deployments, grows.catalogEntries]
  have workers : workerError after tenantId = workerError db tenantId := by
    funext id revoked
    simp [workerError, grows.privateWorkers]
  simp only [ownDomain, grows.domains] at found
  simp only [createError, Option.or_eq_none_iff, deployments, workers] at passed
  obtain ⟨hostname_ok, deployment_ok, worker_ok, single⟩ := passed
  have still : createError db tenantId domain hostname (normalizePath path) deploymentId
      privateWorkerId = none := by
    simp only [createError, Option.or_eq_none_iff]
    exact ⟨hostname_ok, deployment_ok, worker_ok, duplicateError_earlier grows single⟩
  unfold routeDomain at allowed ⊢
  split at allowed
  · cases allowed
  rename_i one
  rw [if_neg one]
  split at allowed
  · cases allowed
  · simp [ownDomain, found, still]

theorem createApart_later (within : Within tenantId db after) (grows : Grows db after)
    (apart : createApart tenantId db domainId hostname deploymentId path privateWorkerId = true) :
    createApart tenantId after domainId hostname deploymentId path privateWorkerId = true := by
  unfold createApart at apart ⊢
  split
  · rename_i domain allowed
    rw [routeDomain_earlier grows allowed] at apart
    rw [within.apart]
    exact apart
  · rfl

theorem migrateDomain_within {env : Env} {p : Providers} {ids : Nat → Nat} {tenantId : Nat}
    {routed : List Route} {db : Db} {domain : Domain} (apart : domain.deploymentId.isSome = true →
      routed.any (fun r => r.hostname == domain.domainName) = false →
        createApart tenantId db domain.id domain.domainName domain.deploymentId none none = true) :
    Within tenantId db (migrateDomain env p ids tenantId routed db domain) ∧
      Grows db (migrateDomain env p ids tenantId routed db domain) := by
  unfold migrateDomain
  split
  · exact ⟨Within.refl tenantId db, Grows.refl db⟩
  rename_i legacy
  split
  · exact ⟨Within.refl tenantId db, Grows.refl db⟩
  rename_i unrouted
  split
  · rename_i done
    have some : domain.deploymentId.isSome = true := Option.isSome_iff_ne_none.mpr (by simpa using legacy)
    have apart := apart some (by simpa using unrouted)
    exact ⟨(createRoute_within apart done).2, createRoute_grows done⟩
  · exact ⟨Within.refl tenantId db, Grows.refl db⟩

theorem migrate_within {env : Env} {ids : Nat → Nat} {routed : List Route} (domains : List Domain) (db : Db)
    (apart : ∀ domain ∈ domains, domain.deploymentId.isSome = true →
      routed.any (fun r => r.hostname == domain.domainName) = false →
      createApart tenantId db domain.id domain.domainName domain.deploymentId none none = true) :
    Within tenantId db (domains.foldl (migrateDomain env p ids tenantId routed) db) := by
  induction domains generalizing db with
  | nil => exact Within.refl tenantId db
  | cons domain rest ih =>
    obtain ⟨within, grows⟩ :=
      @migrateDomain_within env p ids tenantId routed db domain (apart domain mem_cons_self)
    refine within.trans (ih _ ?_)
    intro later mem legacy unrouted
    exact createApart_later within grows (apart later (mem_cons_of_mem _ mem) legacy unrouted)

theorem handle_within {env : Env} {tenantId : Nat} {db : Db} {e : Event} (harmless : harmless tenantId db e = true) :
    Within tenantId db (handle env tenantId db e).1 ∧
      ∀ r ∈ (handle env tenantId db e).2.shown, db.foreign tenantId r.domainId = false := by
  cases e with
  | list domainId =>
    refine ⟨Within.refl tenantId db, ?_⟩
    simp only [IngressRoutes.harmless, Bool.or_eq_true, Bool.not_eq_true', List.isEmpty_iff] at harmless
    intro r mem
    simp only [handle] at mem
    rcases harmless with private' | none
    · have same := (mem_selectAll.mp mem).2
      simp only [beq_iff_eq] at same
      rw [same]
      exact private'
    · rw [none] at mem
      cases mem
  | create domainId body id p =>
    simp only [handle, createHandler]
    split
    · exact ⟨Within.refl tenantId db, by simp [Reply.shown]⟩
    split
    · exact ⟨Within.refl tenantId db, by simp [Reply.shown]⟩
    rename_i route after done
    obtain ⟨own, within⟩ := createRoute_within harmless done
    refine ⟨within, ?_⟩
    simp only [Reply.shown, Option.toList_some, mem_singleton]
    rintro r rfl
    exact not_foreign own
  | update domainId routeId body =>
    simp only [handle, updateHandler]
    split
    · exact ⟨Within.refl tenantId db, by simp [Reply.shown]⟩
    split
    · exact ⟨Within.refl tenantId db, by simp [Reply.shown]⟩
    · rename_i shown after done
      exact updateRoute_within harmless done
  | delete domainId routeId p =>
    simp only [handle, deleteHandler]
    split
    · exact ⟨Within.refl tenantId db, by simp [Reply.shown]⟩
    · rename_i after done
      exact ⟨deleteRoute_within harmless done, by simp [Reply.shown]⟩
  | reconcile ids p =>
    refine ⟨migrate_within _ db ?_, by simp [handle, Reply.shown]⟩
    simp only [IngressRoutes.harmless, migrates, all_eq_true, Bool.not_eq_true'] at harmless
    intro domain mem legacy unrouted
    have one := harmless domain mem
    simpa [legacy, unrouted] using one

/- what a run of harmless steps keeps -/
structure Kept (tenantId : Nat) (start : Db) (w : World) : Prop where
  within : Within tenantId start w.db
  shown : ∀ reply ∈ w.replies, ∀ r ∈ reply.shown, start.foreign tenantId r.domainId = false

theorem Kept.step {env : Env} {start : Db} {w after : World} {e : Event} (kept : Kept tenantId start w)
    (harmless : harmless tenantId w.db e = true) (taken : step env tenantId w e = some after) :
    Kept tenantId start after := by
  obtain ⟨within, shown⟩ := @handle_within env tenantId w.db e harmless
  cases taken
  refine ⟨kept.within.trans within, ?_⟩
  intro reply mem r there
  rcases mem_cons.mp mem with rfl | earlier
  · exact (kept.within.foreign _).symm.trans (shown r there)
  · exact kept.shown reply earlier r there

theorem Kept.isolated {start : Db} {w : World} (targets : OwnTargets tenantId start)
    (kept : Kept tenantId start w) : Isolated tenantId start w :=
  ⟨kept.within.routes, kept.within.records, kept.within.zones, kept.shown, kept.within.targets targets⟩

/-- While no request names a route or the routes of a domain of another tenant, no route is pointed
at another tenant's deployment, and nothing is published in a zone that two tenants share, tenants
are isolated from each other in every state of a run. -/
theorem tenants_isolated (env : Env) (tenantId : Nat) (start : Db) (events : List Event)
    (targets : OwnTargets tenantId start)
    (guarded : Guarded (step env tenantId) (fun w e => harmless tenantId w.db e = true) ⟨start, []⟩ events) :
    Always (step env tenantId) (Isolated tenantId start) ⟨start, []⟩ events := by
  rintro front back w rfl run
  have initial : Kept tenantId start ⟨start, []⟩ := ⟨Within.refl tenantId start, by simp⟩
  have kept : Kept tenantId start w :=
    guarded_invariant (fun _ _ _ kept harmless taken => kept.step harmless taken) initial guarded.front run
  exact kept.isolated targets

namespace TwoTenants
open Table

open List

def env : Env := ⟨none, none⟩

def domains : List Domain :=
  [⟨1, 1, "one.test", .primary, none, some 5⟩, ⟨2, 2, "two.test", .primary, none, none⟩]

def theirs : Route :=
  ⟨7, 2, "two.test", "/", .deployment, some 6, none, "two-test.ingress.localhost", none, true, .auto,
    .active, none, .none⟩

def server : DnsServer := ⟨1, none, .primary, true⟩

theorem server_alone : ([server].map DnsServer.id).Nodup := nodup_singleton server.id

def start : Db where
  domains := ⟨domains, by decide⟩
  ingressRoutes := ⟨[theirs], by decide⟩
  dnsRecords := ⟨[⟨3, 2, "A", some "mail", some "192.0.2.1"⟩], by decide⟩
  deployments := ⟨[⟨5, 1, "shop", none⟩, ⟨6, 2, "blog", none⟩], by decide⟩
  catalogEntries := .empty
  privateWorkers := .empty
  platformSettings := fun _ => none
  dns := ⟨⟨[server], server_alone⟩, none⟩
  zones := fun _ name => if name = "one.test." ∨ name = "two.test." then some [] else none

/- each call adds or takes away one record -/
def servers : Providers := fun _ =>
  { createRecord := fun _ zone record => some (.of record.name record.type record.content :: zone)
    deleteRecord := fun _ zone id =>
      some (zone.filter (fun r => r.name ++ "|" ++ r.type ++ "|" ++ r.content != id)) }

theorem own_targets : OwnTargets 1 start := by
  intro r mem own
  have one : r = theirs := mem_singleton.mp mem
  rw [one] at own
  exact absurd own (by decide)

/- the second request makes a route, which is given another deployment and is deleted in the end -/
def requests : List Event :=
  [.list 1, .create 1 (.ok ⟨"shop.one.test", none, none, none, none⟩) 8 servers,
    .reconcile (fun _ => 9) servers, .update 1 8 (.ok ⟨some (some 5), none, none, none, none⟩),
    .delete 1 8 servers]

/- the route of another tenant, by its id, under a domain of one's own -/
def intrusion : List Event := [.delete 1 7 servers]

end TwoTenants

theorem two_tenants_isolated : Always (step TwoTenants.env 1) (Isolated 1 TwoTenants.start) ⟨TwoTenants.start, []⟩
      TwoTenants.requests :=
  tenants_isolated TwoTenants.env 1 TwoTenants.start TwoTenants.requests TwoTenants.own_targets (by decide +kernel)

theorem foreign_route_deleted :
    ¬ ∀ (env : Env) (tenantId : Nat) (start : Db) (events : List Event), OwnTargets tenantId start →
      Always (step env tenantId) (Isolated tenantId start) ⟨start, []⟩ events := by
  intro isolated
  have run : ∃ w, exec (step TwoTenants.env 1) ⟨TwoTenants.start, []⟩ TwoTenants.intrusion = some w ∧
      w.db.ingressRoutes.rows = [] := by
    refine ⟨_, rfl, ?_⟩
    decide +kernel
  obtain ⟨w, run, gone⟩ := run
  have kept := isolated TwoTenants.env 1 TwoTenants.start TwoTenants.intrusion TwoTenants.own_targets
    TwoTenants.intrusion [] w (append_nil _).symm run
  have still := (kept.routes TwoTenants.theirs (by decide)).mpr (mem_singleton.mpr rfl)
  rw [mem_rows, gone] at still
  cases still

end HostingPlatform.IngressRoutes
