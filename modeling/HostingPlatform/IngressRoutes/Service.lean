import HostingPlatform.IngressRoutes.Dns
import HostingPlatform.Shared

/-! Ingress routes: hostnames under a domain, each with a deployment or a private worker behind it.
The settings of a route that none of these functions reads and the details of an error are left
out. -/
namespace HostingPlatform.IngressRoutes

open Js

inductive TargetType where
  | deployment
  | privateWorker

inductive TlsMode where
  | auto
  | custom
  | none

inductive IngressStatus where
  | active
  | pending
  | error
  deriving DecidableEq

inductive WwwRedirect where
  | none
  | addWww
  | removeWww
  deriving DecidableEq

structure Route where
  (id domainId : Nat)
  (hostname path : String)
  targetType : TargetType
  (deploymentId privateWorkerId : Option Nat)
  ingressCname : String
  nodeHostname : Option String
  isApex : Bool
  tlsMode : TlsMode
  status : IngressStatus
  servicePort : Option Nat
  wwwRedirect : WwwRedirect

structure Deployment where
  (id tenantId : Nat)
  name : String
  catalogEntryId : Option Nat

structure Port where
  port : Nat
  ingress : Bool

structure Component where
  name : String
  ports : List Port

structure CatalogEntry where
  id : Nat
  type : String
  components : List Component
  ingressPorts : List Nat

inductive WorkerStatus where
  | pending
  | active
  | revoked
  deriving DecidableEq

structure PrivateWorker where
  (id tenantId : Nat)
  name : String
  status : WorkerStatus

structure Db where
  domains : Table Domain Domain.id
  ingressRoutes : Table Route Route.id
  dnsRecords : Table DnsRecord DnsRecord.id
  deployments : Table Deployment Deployment.id
  catalogEntries : Table CatalogEntry CatalogEntry.id
  privateWorkers : Table PrivateWorker PrivateWorker.id
  platformSettings : String → Option String
  dns : Dns
  zones : Zones

structure Env where
  (ingressBaseDomain ingressDefaultIpv4 : Option String)

/- an ApiError, or an error of the database -/
inductive Failure where
  | api (error : ApiError)
  | database

def getSetting (db : Db) (key : String) : Option String := db.platformSettings key

structure IngressSettings where
  (ingressBaseDomain ingressDefaultIpv4 : String)
  ingressDefaultIpv6 : Option String

def getIngressSettings (env : Env) (db : Db) : IngressSettings where
  ingressBaseDomain :=
    ((getSetting db "ingress_base_domain").or env.ingressBaseDomain).getD "ingress.localhost"
  ingressDefaultIpv4 := ((getSetting db "ingress_default_ipv4").or env.ingressDefaultIpv4).getD "127.0.0.1"
  ingressDefaultIpv6 := getSetting db "ingress_default_ipv6"

def joinHyphens (s : List Char) : List Char :=
  s.foldr (fun c rest => if c = '-' ∧ rest.head? = some '-' then rest else c :: rest) []

def stripHyphens (s : List Char) : List Char :=
  let s := if s.head? = some '-' then s.tail else s
  if s.getLast? = some '-' then s.dropLast else s

def hostnameToSlug (hostname : String) : String :=
  let dashed := (toLowerCase hostname).toList.map (fun c => if isAlnum c || c == '-' then c else '-')
  slice (String.ofList (stripHyphens (joinHyphens dashed))) 63

def isApexHostname (hostname domainName : String) : Bool :=
  toLowerCase hostname == toLowerCase domainName

def getWwwCompanionHostname (hostname : String) (wwwRedirect : WwwRedirect) : Option String :=
  if wwwRedirect = .addWww ∧ !startsWith hostname "www." then some ("www." ++ hostname)
  else if wwwRedirect = .removeWww ∧ !startsWith hostname "www." then some ("www." ++ hostname)
  else if wwwRedirect = .removeWww ∧ startsWith hostname "www." then
    some (String.ofList (hostname.toList.drop 4))
  else none

/- the first occurrence is taken out -/
def removeFirst (part : List Char) : List Char → List Char
  | [] => []
  | c :: rest =>
    if part.isPrefixOf (c :: rest) then (c :: rest).drop part.length else c :: removeFirst part rest

/- the name of a host relative to the domain -/
def recordName (hostname domainName : String) : String :=
  if isApexHostname hostname domainName then "@"
  else String.ofList (removeFirst ('.' :: domainName.toList) hostname.toList)

/- leading and trailing slashes -/
def normalizePath (path : Option String) : String :=
  let routePath := trim (path.getD "")
  let routePath := if routePath = "" then "/" else routePath
  let routePath := if startsWith routePath "/" then routePath else "/" ++ routePath
  if routePath ≠ "/" ∧ !endsWith routePath "/" then routePath ++ "/" else routePath

def resolveIngressBackend (entry : CatalogEntry) (deploymentName : String) :
    Except String (String × Nat) :=
  if entry.type = "database" ∨ entry.type = "service" then
    .error s!"Catalog type '{entry.type}' cannot be exposed via Ingress (databases and internal services are cluster-only)."
  else if entry.components ≠ [] then
    match entry.components.find? (fun c => c.ports.any Port.ingress) with
    | some comp =>
      let serviceName :=
        if entry.components.length ≤ 1 then deploymentName else s!"{deploymentName}-{comp.name}"
      match comp.ports.find? Port.ingress with
      | some ingressPort => .ok (serviceName, ingressPort.port)
      | none => .error "No component declares an ingress: true port — this deployment cannot be routed."
    | none => .error "No component declares an ingress: true port — this deployment cannot be routed."
  else match entry.ingressPorts.head? with
    | some port => .ok (deploymentName, port)
    | none =>
      .error "Catalog entry has no components and no networking.ingress_ports — nothing to route to."

def bothTargets : ApiError :=
  ⟨"VALIDATION_ERROR", "A route can target a deployment or a private_worker, not both", 400⟩

def pathError (routePath : String) : Option ApiError :=
  if length routePath > 255 then
    some ⟨"VALIDATION_ERROR", "Path must be 255 characters or less", 400⟩
  else if includes routePath ".." then
    some ⟨"VALIDATION_ERROR", "Path must not contain \"..\"", 400⟩
  else if length routePath > 255 then
    some ⟨"VALIDATION_ERROR", "Path must be 255 characters or fewer", 400⟩
  else none

def ownDomain (db : Db) (domainId tenantId : Nat) : Option Domain :=
  db.domains.select (fun d => d.id == domainId && d.tenantId == tenantId)

def hostnameError (hostname : String) (domain : Domain) : Option ApiError :=
  if hostname ≠ domain.domainName ∧ !endsWith hostname ("." ++ domain.domainName) then
    some ⟨"INVALID_HOSTNAME", s!"Hostname '{hostname}' must be '{domain.domainName}' or a subdomain of it (e.g., www.{domain.domainName})", 400⟩
  else none

/- the deployment is one of the tenant, with something to route to -/
def deploymentError (db : Db) (tenantId deploymentId : Nat) : Option ApiError :=
  match db.deployments.select (fun d => d.id == deploymentId && d.tenantId == tenantId) with
  | none => some ⟨"DEPLOYMENT_NOT_FOUND", s!"Deployment '{deploymentId}' not found", 404⟩
  | some dep =>
    match db.catalogEntries.select (fun e => some e.id == dep.catalogEntryId) with
    | none => none
    | some entry =>
      match resolveIngressBackend entry dep.name with
      | .ok _ => none
      | .error message => some ⟨"CANNOT_EXPOSE_DEPLOYMENT", message, 400⟩

def workerError (db : Db) (tenantId privateWorkerId : Nat) (revoked : PrivateWorker → String) :
    Option ApiError :=
  match db.privateWorkers.select (fun w => w.id == privateWorkerId && w.tenantId == tenantId) with
  | none =>
    some ⟨"PRIVATE_WORKER_NOT_FOUND", s!"Private worker '{privateWorkerId}' not found for this tenant", 404⟩
  | some pw =>
    if pw.status = .revoked then some ⟨"PRIVATE_WORKER_REVOKED", revoked pw, 400⟩ else none

def duplicateError (db : Db) (hostname routePath : String) (domainId : Nat) : Option ApiError :=
  match db.ingressRoutes.select (fun r =>
    r.hostname == hostname && r.path == routePath && r.domainId == domainId) with
  | none => none
  | some _ =>
    let shown := if routePath = "/" then "" else routePath
    some ⟨"DUPLICATE_ROUTE", s!"Route for '{hostname}{shown}' already exists", 409⟩

/- the checks of a new route, in their order -/
def createError (db : Db) (tenantId : Nat) (domain : Domain) (hostname routePath : String)
    (deploymentId privateWorkerId : Option Nat) : Option ApiError :=
  (hostnameError hostname domain).or <|
  (deploymentId.bind (deploymentError db tenantId)).or <|
  (privateWorkerId.bind (fun id => workerError db tenantId id (fun pw =>
    s!"Private worker '{pw.name}' has been revoked; rotate or recreate before routing traffic to it"))).or <|
  duplicateError db hostname routePath domain.id

/- the domain under which a route may be made -/
def routeDomain (db : Db) (domainId tenantId : Nat) (hostname : String)
    (deploymentId : Option Nat) (path : Option String) (privateWorkerId : Option Nat) :
    Except ApiError Domain :=
  if deploymentId.isSome && privateWorkerId.isSome then .error bothTargets
  else match pathError (normalizePath path) with
    | some error => .error error
    | none =>
      match ownDomain db domainId tenantId with
      | none => .error ⟨"DOMAIN_NOT_FOUND", s!"Domain '{domainId}' not found", 404⟩
      | some domain =>
        match createError db tenantId domain hostname (normalizePath path) deploymentId privateWorkerId with
        | some error => .error error
        | none => .ok domain

theorem routeDomain_ok {tenantId domainId : Nat} {db : Db} {hostname : String}
    {deploymentId privateWorkerId : Option Nat} {path : Option String} {domain : Domain}
    (allowed : routeDomain db domainId tenantId hostname deploymentId path privateWorkerId = .ok domain) :
    ownDomain db domainId tenantId = some domain ∧
      createError db tenantId domain hostname (normalizePath path) deploymentId privateWorkerId = none := by
  unfold routeDomain at allowed
  split at allowed
  · cases allowed
  split at allowed
  · cases allowed
  split at allowed
  · cases allowed
  rename_i domain' found
  split at allowed
  · cases allowed
  rename_i passed
  cases allowed
  exact ⟨found, passed⟩

def newRoute (env : Env) (db : Db) (id : Nat) (domain : Domain) (hostname : String)
    (deploymentId : Option Nat) (path : Option String) (privateWorkerId servicePort : Option Nat) :
    Route where
  id := id
  domainId := domain.id
  hostname := hostname
  path := normalizePath path
  targetType := if privateWorkerId.isSome then .privateWorker else .deployment
  deploymentId := if privateWorkerId.isSome then none else deploymentId
  privateWorkerId := privateWorkerId
  ingressCname := hostnameToSlug hostname ++ "." ++ (getIngressSettings env db).ingressBaseDomain
  nodeHostname := none
  isApex := isApexHostname hostname domain.domainName
  tlsMode := .auto
  status := .active
  servicePort := servicePort
  wwwRedirect := .none

/- one record at the servers; no domain is passed where a route is created -/
def sync (p : Providers) (db : Db) (domainName : String) (action : SyncAction)
    (record : DnsRecordInput) (domain : Option Domain) : Db :=
  { db with zones := syncRecordToProviders p db.dns domainName action record domain db.zones }

/- the IPv6 address, if there is one that is not empty -/
def ipv6Setting (db : Db) : Option String :=
  (getSetting db "ingress_default_ipv6").filter (· ≠ "")

/- the A record of a host, and the AAAA record where an IPv6 address is configured -/
def syncAddresses (env : Env) (p : Providers) (db : Db) (domainName : String) (action : SyncAction)
    (name : String) (domain : Option Domain) : Db :=
  let ipv4 := (getIngressSettings env db).ingressDefaultIpv4
  let db := sync p db domainName action ⟨"A", name, ipv4⟩ domain
  match ipv6Setting db with
  | some ipv6 => sync p db domainName action ⟨"AAAA", name, ipv6⟩ domain
  | none => db

def publish (env : Env) (p : Providers) (db : Db) (domain : Domain) (hostname : String) : Db :=
  let name := recordName hostname domain.domainName
  let db :=
    if domain.dnsMode = .primary then
      syncAddresses env p db domain.domainName .create name none
    else db
  if endsWith hostname ".local" && domain.dnsMode != .primary then
    sync p db domain.domainName .create
      ⟨"A", name, (getIngressSettings env db).ingressDefaultIpv4⟩ none
  else db

def createRoute (env : Env) (p : Providers) (id : Nat) (db : Db) (domainId tenantId : Nat)
    (hostname : String) (deploymentId : Option Nat) (path : Option String)
    (privateWorkerId servicePort : Option Nat) : Except Failure (Route × Db) :=
  match routeDomain db domainId tenantId hostname deploymentId path privateWorkerId with
  | .error error => .error (.api error)
  | .ok domain =>
    let route := newRoute env db id domain hostname deploymentId path privateWorkerId servicePort
    match db.ingressRoutes.insert route with
    | none => .error .database
    | some ingressRoutes => .ok (route, publish env p { db with ingressRoutes } domain hostname)

/- a field that is not given stays as it is -/
structure UpdateInput where
  (deploymentId privateWorkerId : Option (Option Nat))
  tlsMode : Option TlsMode
  nodeHostname : Option (Option String)
  servicePort : Option (Option Nat)

def targetDeployment (deploymentId : Option (Option Nat)) (r : Route) : Route :=
  match deploymentId with
  | none => r
  | some none => { r with deploymentId := none }
  | some (some d) =>
    { r with
      deploymentId := some d
      targetType := .deployment
      privateWorkerId := none }

def targetWorker (privateWorkerId : Option (Option Nat)) (r : Route) : Route :=
  match privateWorkerId with
  | none => r
  | some none => { r with privateWorkerId := none }
  | some (some w) =>
    { r with
      privateWorkerId := some w
      targetType := .privateWorker
      deploymentId := none }

def UpdateInput.assign (input : UpdateInput) (r : Route) : Route :=
  let r := targetWorker input.privateWorkerId (targetDeployment input.deploymentId r)
  { r with
    tlsMode := input.tlsMode.getD r.tlsMode
    nodeHostname := input.nodeHostname.getD r.nodeHostname
    servicePort := input.servicePort.getD r.servicePort }

theorem UpdateInput.assign_id (input : UpdateInput) (r : Route) : (input.assign r).id = r.id := by
  unfold UpdateInput.assign targetWorker targetDeployment
  split <;> split <;> rfl

def routeById (db : Db) (routeId : Nat) : Option Route :=
  db.ingressRoutes.select (fun r => r.id == routeId)

/- the worker has to be one of the tenant; nothing is asked of the deployment -/
def updateError (db : Db) (input : UpdateInput) (tenantId : Nat) : Option ApiError :=
  match input.deploymentId.join, input.privateWorkerId.join with
  | some _, some _ => some bothTargets
  | _, some id =>
    workerError db tenantId id (fun _ => "Cannot point an ingress route at a revoked private worker")
  | _, none => none

def updateRoute (db : Db) (routeId : Nat) (input : UpdateInput) (tenantId : Nat) :
    Except Failure (Option Route × Db) :=
  match routeById db routeId with
  | none => .error (.api ⟨"ROUTE_NOT_FOUND", s!"Ingress route '{routeId}' not found", 404⟩)
  | some _ =>
    match updateError db input tenantId with
    | some error => .error (.api error)
    | none =>
      let ingressRoutes := db.ingressRoutes.update (fun r => r.id == routeId) input.assign input.assign_id
      let db := { db with ingressRoutes }
      .ok (routeById db routeId, db)

/- the addresses of a host at the servers, and its rows -/
def autoDeleteRouteDns (env : Env) (p : Providers) (db : Db) (domainId : Nat) (hostname : String) : Db :=
  match db.domains.select (fun d => d.id == domainId) with
  | none => db
  | some domain =>
    if domain.dnsMode ≠ .primary then db
    else
      let name := recordName hostname domain.domainName
      let db := syncAddresses env p db domain.domainName .delete name (some domain)
      { db with
        dnsRecords := db.dnsRecords.delete (fun row =>
          row.domainId == domainId && row.recordName == some name &&
            (row.recordType == "A" || row.recordType == "AAAA")) }

def deleteRoute (env : Env) (p : Providers) (db : Db) (routeId : Nat) : Except Failure Db :=
  match routeById db routeId with
  | none => .error (.api ⟨"ROUTE_NOT_FOUND", s!"Ingress route '{routeId}' not found", 404⟩)
  | some route =>
    let db := { db with ingressRoutes := db.ingressRoutes.delete (fun r => r.id == routeId) }
    let db := autoDeleteRouteDns env p db route.domainId route.hostname
    match getWwwCompanionHostname route.hostname route.wwwRedirect with
    | some companionHostname => .ok (autoDeleteRouteDns env p db route.domainId companionHostname)
    | none => .ok db

def listRoutesForDomain (db : Db) (domainId : Nat) : List Route :=
  db.ingressRoutes.selectAll (fun r => r.domainId == domainId)

/- the routes of a tenant with something behind them -/
def tenantRoutes (db : Db) (tenantId : Nat) : List Route :=
  db.ingressRoutes.selectAll (fun r =>
    db.domains.rows.any (fun d => d.id == r.domainId && d.tenantId == tenantId) &&
      (r.deploymentId.isSome || r.privateWorkerId.isSome) && r.status == .active)

/- a route for a domain from before there were routes; a failure is passed over -/
def migrateDomain (env : Env) (p : Providers) (ids : Nat → Nat) (tenantId : Nat) (routed : List Route)
    (db : Db) (domain : Domain) : Db :=
  if domain.deploymentId.isNone then db
  else if routed.any (fun r => r.hostname == domain.domainName) then db
  else
    match createRoute env p (ids domain.id) db domain.id tenantId domain.domainName domain.deploymentId
      none none none with
    | .ok (_, db) => db
    | .error _ => db

/- what the reconciler of a tenant's Ingress writes to the database -/
def reconcileIngress (env : Env) (p : Providers) (ids : Nat → Nat) (db : Db) (tenantId : Nat) : Db :=
  (db.domains.selectAll (fun d => d.tenantId == tenantId)).foldl
    (migrateDomain env p ids tenantId (tenantRoutes db tenantId)) db

end HostingPlatform.IngressRoutes
