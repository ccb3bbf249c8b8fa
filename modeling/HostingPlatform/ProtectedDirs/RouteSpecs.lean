import HostingPlatform.Go.Strings
import HostingPlatform.IngressRoutes.Service

/-! What is published of the routes of a tenant: the routes of its Traefik IngressRoute, the
middlewares that they refer to, and the Secrets of its protected directories. Certificates are left
out, and of the other middlewares of a route all but their names. -/
namespace HostingPlatform.ProtectedDirs

open Js
open IngressRoutes (WwwRedirect IngressStatus)

structure Domain where
  id : String
  suppressPublicIngress : Bool

structure RouteRow where
  (id domainId hostname path : String)
  wwwRedirect : WwwRedirect
  status : IngressStatus
  (deploymentId privateWorkerId : Option String)
  servicePort : Option Nat
  deriving DecidableEq

structure ProtectedDir where
  (id routeId path realm : String)
  enabled : Bool
  deriving DecidableEq

structure AuthUser where
  (dirId username passwordHash : String)
  enabled : Bool

/-- The domains are those of one tenant. Ids are UUIDs, so that those of routes and of directories are
different. -/
structure Db where
  kubernetesNamespace : Option String
  domains : List Domain
  ingressRoutes : List RouteRow
  routeProtectedDirs : List ProtectedDir
  routeAuthUsers : List AuthUser
  keyed : (routeProtectedDirs.map ProtectedDir.id).Nodup
  apart : ∀ route ∈ ingressRoutes, ∀ dir ∈ routeProtectedDirs, route.id ≠ dir.id

/-- The service behind a route, and the kinds of the other middlewares that its settings call for. -/
structure Surroundings where
  backend : RouteRow → Option (String × Nat)
  kinds : RouteRow → List String

def truthy (text : Option String) : Bool := text.any (· ≠ "")

def enabledDirs (db : Db) (routeId : String) : List ProtectedDir :=
  db.routeProtectedDirs.filter (fun dir => dir.routeId == routeId && dir.enabled)

def enabledUsers (db : Db) (dir : ProtectedDir) : List AuthUser :=
  db.routeAuthUsers.filter (fun u => u.dirId == dir.id && u.enabled)

abbrev Secrets := String → Option String

def secretName (id : String) : String := "route-auth-" ++ id

def htpasswd (users : List AuthUser) : String :=
  Go.join '\n' (users.map (fun u => u.username ++ ":" ++ u.passwordHash)) ++ "\n"

def syncDir (db : Db) (secrets : Secrets) (dir : ProtectedDir) : Secrets :=
  Function.update secrets (secretName dir.id)
    (if enabledUsers db dir = [] then none else some (htpasswd (enabledUsers db dir)))

/- the Secret that a route itself once had is deleted -/
def syncAuthSecret (db : Db) (secrets : Secrets) (routeId : String) : Secrets :=
  Function.update ((enabledDirs db routeId).foldl (syncDir db) secrets) (secretName routeId) none

inductive MiddlewareSpec where
  | basicAuth (secret realm : String)
  | other
  deriving DecidableEq

structure Middleware where
  name : String
  spec : MiddlewareSpec

structure Ref where
  (name namespace_ : String)
  deriving DecidableEq

structure TraefikRoute where
  rule : String
  priority : Option Nat
  middlewares : List Ref
  service : String × Nat
  deriving DecidableEq

def middlewareName (routeId kind : String) : String := "r-" ++ slice routeId 8 ++ "-" ++ kind

def authName (dir : ProtectedDir) : String := "dir-" ++ slice dir.id 8 ++ "-auth"

/- the delimiter of a text within a rule -/
def tick : Char := Char.ofNat 96

def hostRule (hostname : String) : String := "Host(`" ++ hostname ++ "`)"

def pathRule (hostname path : String) : String := hostRule hostname ++ " && PathPrefix(`" ++ path ++ "`)"

/- an Error where the text has the delimiter -/
def hostMatch (hostname : String) : Option String :=
  if tick ∈ hostname.toList then none else some (hostRule hostname)

def orRestricted (realm : String) : String := if realm = "" then "Restricted" else realm

/- those that get a route of their own -/
def usedDirs (db : Db) (routeId : String) : List ProtectedDir :=
  (enabledDirs db routeId).filter (fun dir => enabledUsers db dir ≠ [])

def authMiddleware (dir : ProtectedDir) : Middleware :=
  ⟨authName dir, .basicAuth (secretName dir.id) (orRestricted dir.realm)⟩

def childRoute (hostname ns : String) (service : String × Nat) (parentMiddlewareRefs : List Ref)
    (dir : ProtectedDir) : TraefikRoute where
  rule := pathRule hostname dir.path
  priority := some 100
  middlewares := parentMiddlewareRefs ++ [⟨authName dir, ns⟩]
  service := service

structure RouteSpec where
  middlewares : List Middleware
  middlewareRefs : List Ref
  childRoutes : List TraefikRoute

def buildRouteSpec (db : Db) (s : Surroundings) (ns : String) (route : RouteRow) (service : String × Nat) :
    RouteSpec :=
  let names := (s.kinds route).map (middlewareName route.id)
  let combinedRefs := ⟨"crowdsec", "traefik"⟩ :: names.map (fun name => ⟨name, ns⟩)
  { middlewares := names.map (fun name => ⟨name, .other⟩) ++ (usedDirs db route.id).map authMiddleware
    middlewareRefs := combinedRefs
    childRoutes := (usedDirs db route.id).map (childRoute route.hostname ns service combinedRefs) }

/- routes of the tenant's domains that are active and have something behind them -/
def tenantRoutes (db : Db) : List RouteRow :=
  db.ingressRoutes.filter (fun r =>
    (db.domains.map Domain.id).contains r.domainId && (truthy r.deploymentId || truthy r.privateWorkerId) &&
      r.status == .active)

def updatedRoutes (db : Db) : List RouteRow :=
  (tenantRoutes db).filter (fun r =>
    !((db.domains.filter Domain.suppressPublicIngress).map Domain.id).contains r.domainId)

def served (s : Surroundings) (routes : List RouteRow) : List (RouteRow × (String × Nat)) :=
  routes.filterMap (fun r => (s.backend r).map (fun service => (r, service)))

def canonicalHost (route : RouteRow) : String :=
  if route.wwwRedirect = .addWww ∧ !startsWith route.hostname "www." then "www." ++ route.hostname
  else if route.wwwRedirect = .removeWww ∧ startsWith route.hostname "www." then
    String.ofList (route.hostname.toList.drop 4)
  else route.hostname

def primaryRule (route : RouteRow) : Option String :=
  (hostMatch (canonicalHost route)).map (fun match_ =>
    if route.path ≠ "" ∧ route.path ≠ "/" then match_ ++ " && PathPrefix(`" ++ route.path ++ "`)" else match_)

def traefikRoutes (db : Db) (s : Surroundings) (ns : String) (entry : RouteRow × (String × Nat)) :
    Option (List TraefikRoute) :=
  let spec := buildRouteSpec db s ns entry.1 entry.2
  (primaryRule entry.1).map (fun rule => ⟨rule, none, spec.middlewareRefs, entry.2⟩ :: spec.childRoutes)

structure Published where
  namespace_ : String
  routes : List TraefikRoute
  middlewares : String → Option MiddlewareSpec
  secrets : Secrets

def applyMiddleware (store : String → Option MiddlewareSpec) (m : Middleware) : String → Option MiddlewareSpec :=
  Function.update store m.name (some m.spec)

/- what is there after a call that goes through, if routes are published; the namespace has what it
had before -/
def reconcileIngress (db : Db) (s : Surroundings) (middlewares : String → Option MiddlewareSpec)
    (secrets : Secrets) : Option Published :=
  match db.kubernetesNamespace.filter (· ≠ "") with
  | none => none
  | some ns =>
    let specs := (served s (tenantRoutes db)).map (fun entry => buildRouteSpec db s ns entry.1 entry.2)
    match (served s (updatedRoutes db)).mapM (traefikRoutes db s ns) with
    | none => none
    | some [] => none
    | some (first :: rest) =>
      some
        { namespace_ := ns
          routes := (first :: rest).flatten
          middlewares := (specs.flatMap RouteSpec.middlewares).foldl applyMiddleware middlewares
          secrets := (served s (tenantRoutes db)).foldl
            (fun secrets entry => syncAuthSecret db secrets entry.1.id) secrets }

end HostingPlatform.ProtectedDirs
