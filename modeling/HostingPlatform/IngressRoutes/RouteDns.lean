import HostingPlatform.IngressRoutes.Service
import HostingPlatform.Transition

/-! The records of a domain's hosts as its routes come and go. -/
namespace HostingPlatform.IngressRoutes

open Table List Transition

abbrev Adapters := DnsServer → Adapter

def providers (adapters : Adapters) : Providers := fun server => (adapters server).provider

inductive RouteCall where
  | create (id tenantId : Nat) (hostname : String) (deploymentId : Option Nat) (path : Option String)
      (privateWorkerId servicePort : Option Nat)
  | delete (routeId : Nat)

namespace RouteCall
open Table

open List

def step (env : Env) (adapters : Adapters) (domainId : Nat) (db : Db) : RouteCall → Option Db
  | create id tenantId hostname deploymentId path privateWorkerId servicePort =>
    match createRoute env (providers adapters) id db domainId tenantId hostname deploymentId path
        privateWorkerId servicePort with
    | .ok (_, db) => some db
    | .error _ => some db
  | delete routeId =>
    match routeById db routeId with
    | some route =>
      if route.domainId = domainId then (deleteRoute env (providers adapters) db routeId).toOption else none
    | none => some db

end RouteCall

/- the types and the contents of a host's records -/
def addresses (env : Env) (db : Db) : List (String × String) :=
  ("A", (getIngressSettings env db).ingressDefaultIpv4) ::
    (ipv6Setting db).toList.map (fun ipv6 => ("AAAA", ipv6))

def isAddress (row : DnsRecord) : Bool := row.recordType == "A" || row.recordType == "AAAA"

def Db.holds (db : Db) (domain : Domain) (server : DnsServer) (name type content : String) : Prop :=
  ∃ zone, db.zones server.id (absoluteName domain.domainName) = some zone ∧
    ∃ r ∈ zone, r.name = name ∧ r.type = type ∧ r.content = content

/- the name under which a tenant's record is published -/
def rowName (adapter : Adapter) (domain : Domain) (row : DnsRecord) : String :=
  adapter.publishesAt domain.domainName (row.recordName.getD "@")

structure Follows (env : Env) (adapters : Adapters) (domain : Domain) (start db : Db) : Prop where
  hosts : ∀ route ∈ db.ingressRoutes, route.domainId = domain.id →
    ∀ server ∈ getActiveServersForDomain db.dns domain, ∀ a ∈ addresses env db,
      db.holds domain server (absoluteName route.hostname) a.1 a.2
  rows : ∀ row ∈ start.dnsRecords, row.domainId = domain.id → isAddress row = true → row ∈ db.dnsRecords
  records : ∀ row ∈ start.dnsRecords, row.domainId = domain.id → isAddress row = true →
    ∀ server ∈ getActiveServersForDomain db.dns domain, ∀ content,
      row.recordValue = some content →
        start.holds domain server (rowName (adapters server) domain row) row.recordType content →
          db.holds domain server (rowName (adapters server) domain row) row.recordType content

/- a tenant's record of an address under a name, with another content if one is given -/
def occupied (adapter : Adapter) (db : Db) (domain : Domain) (name type : String)
    (content : Option String) : Bool :=
  db.dnsRecords.rows.any (fun row =>
    row.domainId == domain.id && isAddress row && rowName adapter domain row == name &&
      row.recordType == type && (content.isNone || row.recordValue != content))

/- the name given to the server is that of the host, and no tenant's record is written over -/
def createClear (env : Env) (adapter : Adapter) (db : Db) (domain : Domain) (hostname : String) : Bool :=
  let name := recordName hostname domain.domainName
  adapter.publishesAt domain.domainName name == absoluteName hostname &&
    (addresses env db).all (fun a =>
      adapter.adds domain.domainName ⟨a.1, name, a.2⟩ ||
        !occupied adapter db domain (adapter.publishesAt domain.domainName name) a.1 (some a.2))

/- the name and the type of the records that go with an address of a host -/
def deleted (adapter : Adapter) (domain : Domain) (name : String) (a : String × String) : String × String :=
  let parts := idParts (name ++ "|" ++ a.1 ++ "|" ++ a.2)
  (adapter.publishesAt domain.domainName parts.1, parts.2)

/- no other route and no tenant's record has what goes with a host -/
def deleteClear (env : Env) (adapters : Adapters) (db : Db) (domain : Domain) (routeId : Nat)
    (hostname : String) : Bool :=
  let name := recordName hostname domain.domainName
  let servers := getActiveServersForDomain db.dns domain
  !db.dnsRecords.rows.any (fun row =>
      row.domainId == domain.id && row.recordName == some name && isAddress row) &&
    (!canManageDnsZone domain.dnsMode servers || servers.all (fun server => (addresses env db).all (fun a =>
      let gone := deleted (adapters server) domain name a
      !occupied (adapters server) db domain gone.1 gone.2 none &&
        db.ingressRoutes.rows.all (fun route =>
          route.id == routeId || route.domainId != domain.id || absoluteName route.hostname != gone.1 ||
            !(addresses env db).any (fun needed => needed.1 == gone.2)))))

/- the host of a route and, with a redirect, the other one -/
def hostsOf (route : Route) : List String :=
  route.hostname :: (getWwwCompanionHostname route.hostname route.wwwRedirect).toList

def clear (env : Env) (adapters : Adapters) (domain : Domain) (db : Db) : RouteCall → Bool
  | .create _ tenantId hostname deploymentId path privateWorkerId _ =>
    match routeDomain db domain.id tenantId hostname deploymentId path privateWorkerId with
    | .ok domain =>
      (getActiveServersForDomain db.dns domain).all (fun server =>
        createClear env (adapters server) db domain hostname)
    | .error _ => true
  | .delete routeId =>
    match routeById db routeId with
    | some route => (hostsOf route).all (deleteClear env adapters db domain routeId)
    | none => true

/- the records are created one after another -/
def accepts (adapter : Adapter) (domainName name : String) : List (String × String) → Zone → Bool
  | [], _ => true
  | a :: rest, zone =>
    match adapter.provider.createRecord domainName zone ⟨a.1, name, a.2⟩ with
    | some after => accepts adapter domainName name rest after
    | none => false

def succeeds (env : Env) (adapters : Adapters) (domain : Domain) (db : Db) : RouteCall → Bool
  | .create _ tenantId hostname deploymentId path privateWorkerId _ =>
    match routeDomain db domain.id tenantId hostname deploymentId path privateWorkerId with
    | .ok domain =>
      (getActiveServersForDomain db.dns domain).all (fun server =>
        (db.zones server.id (absoluteName domain.domainName)).any
          (accepts (adapters server) domain.domainName (recordName hostname domain.domainName)
            (addresses env db)))
    | .error _ => true
  | .delete _ => true

variable {r : ZoneRecord} {adapter : Adapter} {domainName name hostname : String} {a : String × String}
  {zone : Zone} {db after : Db} {tenantId routeId : Nat} {p : Providers}
  {deploymentId privateWorkerId servicePort : Option Nat} {path : Option String} {route : Route}
  {server : DnsServer} {as : List (String × String)}

theorem ZoneRecord.same {r' : ZoneRecord} (name : r.name = r'.name) (type : r.type = r'.type)
    (content : r.content = r'.content) : r = r' := by
  cases r
  cases r'
  simp_all

def callAll (p : DnsProviderAdapter) (domainName : String) (action : SyncAction) (name : String)
    (as : List (String × String)) (zone : Zone) : Zone :=
  as.foldl (fun zone a => (call p domainName action ⟨a.1, name, a.2⟩ zone).getD zone) zone

/-- A record that a new one of the same name and type does not write over. -/
def Spared (adapter : Adapter) (domainName name : String) (r : ZoneRecord) (a : String × String) : Prop :=
  r.name = adapter.publishesAt domainName name → r.type = a.1 →
    adapter.adds domainName ⟨a.1, name, a.2⟩ = true ∨ r.content = a.2

theorem create_spares {after : Zone}
    (done : adapter.provider.createRecord domainName zone ⟨a.1, name, a.2⟩ = some after) (mem : r ∈ zone)
    (spared : Spared adapter domainName name r a) : r ∈ after := by
  by_cases its : r.name = adapter.publishesAt domainName name ∧ r.type = a.1
  · rcases spared its.1 its.2 with adds | same
    · exact adapter.added done adds r mem
    obtain ⟨new, there, itsName, itsType, itsContent⟩ := adapter.created done
    have one : new = r :=
      ZoneRecord.same (itsName.trans its.1.symm) (itsType.trans its.2.symm) (itsContent.trans same.symm)
    exact one ▸ there
  · exact adapter.beside done r mem its

theorem creates {adapter : Adapter} {domainName name : String} (as : List (String × String))
    (distinct : (as.map Prod.fst).Nodup) (zone : Zone) (accepted : accepts adapter domainName name as zone = true) :
    (∀ a ∈ as, ∃ r ∈ callAll adapter.provider domainName .create name as zone,
        r.name = adapter.publishesAt domainName name ∧ r.type = a.1 ∧ r.content = a.2) ∧
      ∀ r ∈ zone, (∀ a ∈ as, Spared adapter domainName name r a) →
        r ∈ callAll adapter.provider domainName .create name as zone := by
  induction as generalizing zone with
  | nil => exact ⟨fun a mem => absurd mem not_mem_nil, fun r mem _ => mem⟩
  | cons a rest ih =>
    obtain ⟨fresh, distinct⟩ := nodup_cons.mp distinct
    unfold accepts at accepted
    split at accepted
    · rename_i after done
      obtain ⟨published, kept⟩ := ih distinct after accepted
      have next : callAll adapter.provider domainName .create name (a :: rest) zone =
          callAll adapter.provider domainName .create name rest after := by
        simp [callAll, call, done]
      rw [next]
      constructor
      · intro b mem
        rcases mem_cons.mp mem with rfl | later
        · obtain ⟨new, there, itsName, itsType, itsContent⟩ := adapter.created done
          refine ⟨new, kept new there ?_, itsName, itsType, itsContent⟩
          intro c its _ same
          have type : b.1 = c.1 := itsType.symm.trans same
          refine absurd ?_ fresh
          rw [type]
          exact mem_map_of_mem its
        · exact published b later
      · intro r mem spared
        apply kept r (create_spares done mem (spared a mem_cons_self))
        intro b later
        exact spared b (mem_cons_of_mem _ later)
    · cases accepted

theorem delete_leaves {domain : Domain} (mem : r ∈ zone)
    (apart : ¬ (r.name = (deleted adapter domain name a).1 ∧ r.type = (deleted adapter domain name a).2)) :
    r ∈ (call adapter.provider domain.domainName .delete ⟨a.1, name, a.2⟩ zone).getD zone := by
  cases done : call adapter.provider domain.domainName .delete ⟨a.1, name, a.2⟩ zone with
  | none => exact mem
  | some after => exact adapter.left done r mem apart

theorem deletes {domain : Domain} (as : List (String × String)) (zone : Zone) (mem : r ∈ zone)
    (apart : ∀ a ∈ as, ¬ (r.name = (deleted adapter domain name a).1 ∧ r.type = (deleted adapter domain name a).2)) :
    r ∈ callAll adapter.provider domain.domainName .delete name as zone := by
  induction as generalizing zone with
  | nil => exact mem
  | cons a rest ih =>
    apply ih
    · exact delete_leaves mem (apart a mem_cons_self)
    · intro b later
      exact apart b (mem_cons_of_mem _ later)

def calledFor (dns : Dns) : Option Domain → List DnsServer
  | none => getActiveServers dns
  | some domain =>
    if canManageDnsZone domain.dnsMode (getActiveServersForDomain dns domain) then
      getActiveServersForDomain dns domain
    else []

theorem sync_eq (p : Providers) (dns : Dns) (domainName : String) (action : SyncAction)
    (record : DnsRecordInput) (domain : Option Domain) (zones : Zones) :
    syncRecordToProviders p dns domainName action record domain zones =
      (calledFor dns domain).foldl (push p domainName action record) zones := by
  unfold syncRecordToProviders calledFor
  split
  · dsimp only
    split <;> rfl
  · rfl

theorem calledFor_keyed (dns : Dns) (domain : Option Domain) : ((calledFor dns domain).map DnsServer.id).Nodup := by
  unfold calledFor
  split
  · exact getActiveServers_keyed dns
  split
  · exact getActiveServersForDomain_keyed dns _
  · exact nodup_nil

def syncAll (p : Providers) (db : Db) (domainName : String) (action : SyncAction) (name : String)
    (domain : Option Domain) (as : List (String × String)) : Db :=
  as.foldl (fun db a => sync p db domainName action ⟨a.1, name, a.2⟩ domain) db

theorem syncAddresses_eq (env : Env) (p : Providers) (db : Db) (domainName : String) (action : SyncAction)
    (name : String) (domain : Option Domain) : syncAddresses env p db domainName action name domain =
      syncAll p db domainName action name domain (addresses env db) := by
  have same : ipv6Setting (sync p db domainName action
      ⟨"A", name, (getIngressSettings env db).ingressDefaultIpv4⟩ domain) = ipv6Setting db := rfl
  unfold syncAddresses syncAll addresses
  dsimp only
  rw [same]
  cases ipv6Setting db with
  | none => rfl
  | some ipv6 => rfl

theorem syncAll_zones (p : Providers) (db : Db) (domainName : String) (action : SyncAction) (name : String)
    (domain : Option Domain) (as : List (String × String)) :
    ∃ zones, syncAll p db domainName action name domain as = { db with zones } := by
  induction as generalizing db with
  | nil => exact ⟨db.zones, rfl⟩
  | cons a rest ih =>
    obtain ⟨zones, same⟩ := ih (sync p db domainName action ⟨a.1, name, a.2⟩ domain)
    exact ⟨zones, same⟩

theorem syncAll_server {adapters : Adapters} {db : Db} {domainName : String} {action : SyncAction}
    {name : String} {domain : Option Domain} (as : List (String × String)) {server : DnsServer}
    {zone : Zone} (mem : server ∈ calledFor db.dns domain)
    (there : db.zones server.id (absoluteName domainName) = some zone) :
    (syncAll (providers adapters) db domainName action name domain as).zones server.id
        (absoluteName domainName) =
      some (callAll (adapters server).provider domainName action name as zone) := by
  induction as generalizing db zone with
  | nil => exact there
  | cons a rest ih =>
    have first : (sync (providers adapters) db domainName action ⟨a.1, name, a.2⟩ domain).zones server.id
        (absoluteName domainName) =
        some ((call (adapters server).provider domainName action ⟨a.1, name, a.2⟩ zone).getD zone) := by
      simp only [sync, sync_eq]
      exact pushes_server (providers adapters) action _ _ db.zones (calledFor_keyed db.dns domain) mem there
    exact @ih (sync (providers adapters) db domainName action ⟨a.1, name, a.2⟩ domain) _ mem first

theorem addresses_distinct (env : Env) (db : Db) : ((addresses env db).map Prod.fst).Nodup := by
  unfold addresses
  cases ipv6Setting db with
  | none => exact nodup_singleton _
  | some ipv6 => simp

theorem publish_primary {domain : Domain} (primary : domain.dnsMode = .primary) (env : Env) (p : Providers)
    (db : Db) (hostname : String) : publish env p db domain hostname =
      syncAll p db domain.domainName .create (recordName hostname domain.domainName) none
        (addresses env db) := by
  unfold publish
  simp only [primary, bne_self_eq_false, Bool.and_false, Bool.false_eq_true]
  exact syncAddresses_eq env p db domain.domainName .create _ none

theorem select_domain {domain : Domain} (there : domain ∈ db.domains) :
    db.domains.select (fun d => d.id == domain.id) = some domain := by
  cases found : db.domains.select (fun d => d.id == domain.id) with
  | none => exact absurd (select_none found domain there) (by simp)
  | some other =>
    obtain ⟨mem, same⟩ := mem_of_select found
    rw [db.domains.eq_of_key mem there (beq_iff_eq.mp same)]

theorem ownDomain_eq {domain other : Domain} (there : domain ∈ db.domains)
    (found : ownDomain db domain.id tenantId = some other) : other = domain := by
  obtain ⟨mem, its⟩ := mem_of_select found
  simp only [Bool.and_eq_true, beq_iff_eq] at its
  exact db.domains.eq_of_key mem there its.1

theorem createRoute_primary {env : Env} {domain : Domain} {id : Nat} (there : domain ∈ db.domains)
    (primary : domain.dnsMode = .primary)
    (done : createRoute env p id db domain.id tenantId hostname deploymentId path privateWorkerId
      servicePort = .ok (route, after)) :
    routeDomain db domain.id tenantId hostname deploymentId path privateWorkerId = .ok domain ∧
      route.hostname = hostname ∧
      ∃ table, db.ingressRoutes.insert route = some table ∧
        after = syncAll p { db with ingressRoutes := table } domain.domainName .create
          (recordName hostname domain.domainName) none (addresses env db) := by
  unfold createRoute at done
  split at done
  · cases done
  rename_i other allowed
  obtain rfl : other = domain := ownDomain_eq there (routeDomain_ok allowed).1
  dsimp only at done
  split at done
  · cases done
  rename_i table inserted
  rw [publish_primary primary] at done
  cases done
  exact ⟨allowed, rfl, table, inserted, rfl⟩

theorem holds_create {adapters : Adapters} {domain : Domain} {type content : String}
    (mem : server ∈ getActiveServersForDomain db.dns domain)
    (there : db.zones server.id (absoluteName domain.domainName) = some zone) (distinct : (as.map Prod.fst).Nodup)
    (accepted : accepts (adapters server) domain.domainName hostname as zone = true)
    (held : db.holds domain server name type content)
    (spared : ∀ a ∈ as, name = (adapters server).publishesAt domain.domainName hostname → type = a.1 →
      (adapters server).adds domain.domainName ⟨a.1, hostname, a.2⟩ = true ∨ content = a.2) :
    (syncAll (providers adapters) db domain.domainName .create hostname none as).holds domain server name
      type content := by
  obtain ⟨zone', found, r, its, rfl, rfl, rfl⟩ := held
  obtain rfl : zone = zone' := Option.some.inj (there.symm.trans found)
  refine ⟨_, syncAll_server as (getActiveServersForDomain_active mem) there, r, ?_, rfl, rfl, rfl⟩
  exact (creates as distinct zone accepted).2 r its spared

theorem createRoute_follows {env : Env} {adapters : Adapters} {start : Db} {domain : Domain} {id : Nat}
    (there : domain ∈ db.domains) (primary : domain.dnsMode = .primary)
    (follows : Follows env adapters domain start db) (clear : clear env adapters domain db
      (.create id tenantId hostname deploymentId path privateWorkerId servicePort) = true)
    (succeeds : succeeds env adapters domain db
      (.create id tenantId hostname deploymentId path privateWorkerId servicePort) = true)
    (done : createRoute env (providers adapters) id db domain.id tenantId hostname deploymentId path
      privateWorkerId servicePort = .ok (route, after)) : Follows env adapters domain start after := by
  obtain ⟨allowed, host, table, inserted, same⟩ := createRoute_primary there primary done
  simp only [IngressRoutes.clear, allowed, all_eq_true] at clear
  simp only [IngressRoutes.succeeds, allowed, all_eq_true] at succeeds
  obtain ⟨zones, only⟩ := syncAll_zones (providers adapters) { db with ingressRoutes := table }
    domain.domainName .create (recordName hostname domain.domainName) none (addresses env db)
  have routes : after.ingressRoutes = table := by rw [same, only]
  have rows : after.dnsRecords = db.dnsRecords := by rw [same, only]
  have dns : after.dns = db.dns := by rw [same, only]
  have settings : addresses env after = addresses env db := by
    rw [same, only]
    rfl
  have distinct := addresses_distinct env db
  have zoneOf : ∀ server ∈ getActiveServersForDomain db.dns domain, ∃ zone,
      db.zones server.id (absoluteName domain.domainName) = some zone ∧
        accepts (adapters server) domain.domainName (recordName hostname domain.domainName)
          (addresses env db) zone = true := by
    intro server mem
    have accepted := succeeds server mem
    cases found : db.zones server.id (absoluteName domain.domainName) with
    | none =>
      rw [found] at accepted
      cases accepted
    | some zone =>
      rw [found] at accepted
      exact ⟨zone, rfl, accepted⟩
  refine ⟨?_, ?_, ?_⟩
  · intro r mem its server active a needed
    rw [dns] at active
    rw [settings] at needed
    obtain ⟨zone, found, accepted⟩ := zoneOf server active
    have unshared := clear server active
    simp only [createClear, Bool.and_eq_true, beq_iff_eq] at unshared
    rw [routes] at mem
    rw [same]
    rcases (mem_insert inserted).mp mem with rfl | old
    · have all := @creates _ domain.domainName (recordName hostname domain.domainName) _ distinct
        zone accepted
      obtain ⟨x, new, name, type, content⟩ := all.1 a needed
      refine ⟨_, syncAll_server _ (getActiveServersForDomain_active active) found, x, new, ?_, type, content⟩
      rw [host, name, unshared.1]
    · refine holds_create active found distinct accepted (follows.hosts r old its server active a needed) ?_
      intro b given _ type
      right
      rw [inj_on_of_nodup_map distinct needed given type]
  · intro row mem its address
    rw [rows]
    exact follows.rows row mem its address
  intro row mem its address server active content value held
  rw [dns] at active
  obtain ⟨zone, found, accepted⟩ := zoneOf server active
  have unshared := clear server active
  simp only [createClear, Bool.and_eq_true, all_eq_true, Bool.or_eq_true, Bool.not_eq_true'] at unshared
  rw [same]
  refine holds_create active found distinct accepted
    (follows.records row mem its address server active content value held) ?_
  intro a given name type
  rcases unshared.2 a given with adds | free
  · exact .inl adds
  right
  simp only [occupied, any_eq_false, Bool.and_eq_true, beq_iff_eq, Bool.or_eq_true,
    Option.isNone_some, Bool.false_eq_true, false_or, bne_iff_ne, not_and, not_not] at free
  have content' := free row (follows.rows row mem its address) ⟨⟨⟨its, address⟩, name⟩, type⟩
  rw [value] at content'
  exact Option.some.inj content'

theorem syncAll_uncalled {action : SyncAction} {domain : Option Domain} (as : List (String × String))
    (none : calledFor db.dns domain = []) : syncAll p db domainName action name domain as = db := by
  induction as with
  | nil => rfl
  | cons a rest ih =>
    have same : sync p db domainName action ⟨a.1, name, a.2⟩ domain = db := by
      unfold sync
      rw [sync_eq, none]
      rfl
    calc syncAll p db domainName action name domain (a :: rest)
        = syncAll p (sync p db domainName action ⟨a.1, name, a.2⟩ domain) domainName action name domain rest :=
          rfl
      _ = db := by rw [same, ih]

theorem holds_delete {adapters : Adapters} {domain : Domain} {type content : String}
    (mem : server ∈ getActiveServersForDomain db.dns domain) (held : db.holds domain server name type content)
    (apart : canManageDnsZone domain.dnsMode (getActiveServersForDomain db.dns domain) = true → ∀ a ∈ as,
      ¬ (name = (deleted (adapters server) domain hostname a).1 ∧
      type = (deleted (adapters server) domain hostname a).2)) :
    (syncAll (providers adapters) db domain.domainName .delete hostname (some domain) as).holds domain server
      name type content := by
  by_cases manages : canManageDnsZone domain.dnsMode (getActiveServersForDomain db.dns domain) = true
  · have called : server ∈ calledFor db.dns (some domain) := by
      simp only [calledFor, manages]
      exact mem
    obtain ⟨zone, found, r, its, rfl, rfl, rfl⟩ := held
    exact ⟨_, syncAll_server as called found, r, deletes as zone its (apart manages), rfl, rfl, rfl⟩
  · have none : calledFor db.dns (some domain) = [] := by
      simp [calledFor, if_neg manages]
    rw [syncAll_uncalled as none]
    exact held

/- what is left of the database while the records of a deleted route are cleaned up -/
structure Cleaning (routeId : Nat) (db now : Db) : Prop where
  domains : now.domains = db.domains
  dns : now.dns = db.dns
  platformSettings : now.platformSettings = db.platformSettings
  routes : ∀ route ∈ now.ingressRoutes, route ∈ db.ingressRoutes ∧ route.id ≠ routeId
  rows : ∀ row ∈ now.dnsRecords, row ∈ db.dnsRecords

theorem Cleaning.addresses {now : Db} (cleaning : Cleaning routeId db now) (env : Env) :
    addresses env now = addresses env db := by
  simp [IngressRoutes.addresses, getIngressSettings, ipv6Setting, getSetting,
    cleaning.platformSettings]

theorem autoDeleteRouteDns_primary {env : Env} {p : Providers} {db : Db} {domain : Domain} {hostname : String}
    (there : domain ∈ db.domains) (primary : domain.dnsMode = .primary) :
    ∃ zones, autoDeleteRouteDns env p db domain.id hostname =
        { db with
          zones
          dnsRecords := db.dnsRecords.delete (fun row =>
            row.domainId == domain.id &&
              row.recordName == some (recordName hostname domain.domainName) &&
              (row.recordType == "A" || row.recordType == "AAAA")) } ∧
      zones = (syncAll p db domain.domainName .delete (recordName hostname domain.domainName) (some domain)
        (addresses env db)).zones := by
  obtain ⟨zones, only⟩ := syncAll_zones p db domain.domainName .delete
    (recordName hostname domain.domainName) (some domain) (addresses env db)
  refine ⟨zones, ?_, by rw [only]⟩
  unfold autoDeleteRouteDns
  rw [select_domain there]
  simp [primary, syncAddresses_eq, only]

theorem autoDelete_follows {env : Env} {adapters : Adapters} {start now : Db} {domain : Domain}
    (there : domain ∈ db.domains) (primary : domain.dnsMode = .primary) (cleaning : Cleaning routeId db now)
    (follows : Follows env adapters domain start now)
    (clear : deleteClear env adapters db domain routeId hostname = true) :
    Cleaning routeId db (autoDeleteRouteDns env (providers adapters) now domain.id hostname) ∧
      Follows env adapters domain start
        (autoDeleteRouteDns env (providers adapters) now domain.id hostname) := by
  have still : domain ∈ now.domains := by
    rw [cleaning.domains]
    exact there
  obtain ⟨zones, same, synced⟩ := @autoDeleteRouteDns_primary env (providers adapters) now domain hostname
    still primary
  have holds (server : DnsServer) (name type content : String) :
      (autoDeleteRouteDns env (providers adapters) now domain.id hostname).holds domain server name type
          content ↔
        (syncAll (providers adapters) now domain.domainName .delete (recordName hostname domain.domainName)
          (some domain) (addresses env now)).holds domain server name type content := by
    unfold Db.holds
    rw [same, ← synced]
  unfold deleteClear at clear
  simp only [Bool.and_eq_true, Bool.not_eq_true', any_eq_false, beq_iff_eq, not_and,
    Bool.or_eq_true, all_eq_true] at clear
  obtain ⟨unlisted, unserved⟩ := clear
  have dns : (autoDeleteRouteDns env (providers adapters) now domain.id hostname).dns = db.dns := by
    rw [same]
    exact cleaning.dns
  have settings : addresses env (autoDeleteRouteDns env (providers adapters) now domain.id hostname) =
      addresses env now := by
    rw [same]
    rfl
  have served (manages : canManageDnsZone domain.dnsMode (getActiveServersForDomain now.dns domain) = true) :=
    unserved.resolve_left (by rw [← cleaning.dns, manages]; simp)
  refine ⟨?_, ?_, ?_, ?_⟩
  · rw [same]
    exact
      { domains := cleaning.domains
        dns := cleaning.dns
        platformSettings := cleaning.platformSettings
        routes := cleaning.routes
        rows := fun row mem => cleaning.rows row (mem_delete.mp mem).1 }
  · intro route mem its server active a needed
    rw [dns, ← cleaning.dns] at active
    rw [settings] at needed
    rw [same] at mem
    obtain ⟨listed, other⟩ := cleaning.routes route mem
    refine (holds server _ a.1 a.2).mpr
      (holds_delete active (follows.hosts route mem its server active a needed) ?_)
    rintro manages b given ⟨name, type⟩
    rw [cleaning.addresses] at given needed
    rw [cleaning.dns] at active
    have untouched := ((served manages) server active b given).2 route listed
    simp only [other, its, bne_self_eq_false, Bool.false_eq_true, false_or, name] at untouched
    exact untouched a needed type
  · intro row mem its address
    rw [same]
    have listed := follows.rows row mem its address
    refine mem_delete.mpr ⟨listed, ?_⟩
    by_contra gone
    simp only [Bool.not_eq_false, Bool.and_eq_true, beq_iff_eq] at gone
    exact unlisted row (cleaning.rows row listed) ⟨its, gone.1.2⟩ address
  · intro row mem its address server active content value held
    rw [dns, ← cleaning.dns] at active
    refine (holds server _ row.recordType content).mpr
      (holds_delete active (follows.records row mem its address server active content value held) ?_)
    rintro manages b given ⟨name, type⟩
    rw [cleaning.addresses] at given
    rw [cleaning.dns] at active
    have free := ((served manages) server active b given).1
    simp only [occupied, any_eq_false, Bool.and_eq_true, beq_iff_eq, Option.isNone_none,
      Bool.true_or, and_true, not_and] at free
    exact free row (cleaning.rows row (follows.rows row mem its address)) ⟨⟨its, address⟩, name⟩ type

theorem deleteRoute_follows {env : Env} {adapters : Adapters} {start : Db} {domain : Domain}
    (there : domain ∈ db.domains) (primary : domain.dnsMode = .primary)
    (follows : Follows env adapters domain start db) (found : routeById db routeId = some route)
    (its : route.domainId = domain.id) (clear : clear env adapters domain db (.delete routeId) = true)
    (done : deleteRoute env (providers adapters) db routeId = .ok after) :
    Cleaning routeId db after ∧ Follows env adapters domain start after := by
  simp only [IngressRoutes.clear, found, hostsOf, all_cons, Bool.and_eq_true, all_eq_true,
    Option.mem_toList] at clear
  obtain ⟨own, companion⟩ := clear
  have cleaning : Cleaning routeId db
      { db with ingressRoutes := db.ingressRoutes.delete (fun r => r.id == routeId) } := by
    refine ⟨rfl, rfl, rfl, ?_, fun _ mem => mem⟩
    intro r mem
    obtain ⟨listed, other⟩ := mem_delete.mp mem
    exact ⟨listed, by simpa using other⟩
  have kept : Follows env adapters domain start
      { db with ingressRoutes := db.ingressRoutes.delete (fun r => r.id == routeId) } :=
    { hosts := fun r mem => follows.hosts r (mem_delete.mp mem).1
      rows := follows.rows
      records := follows.records }
  have first := autoDelete_follows there primary cleaning kept own
  unfold deleteRoute at done
  rw [found] at done
  dsimp only at done
  rw [its] at done
  split at done
  · rename_i companionHostname redirected
    cases done
    exact autoDelete_follows there primary first.1 first.2 (companion companionHostname redirected)
  · cases done
    exact first

/- what every call keeps -/
structure Settled (env : Env) (adapters : Adapters) (domain : Domain) (start db : Db) : Prop where
  there : domain ∈ db.domains
  follows : Follows env adapters domain start db

theorem Settled.step {env : Env} {adapters : Adapters} {domain : Domain} {start : Db} {call : RouteCall}
    (primary : domain.dnsMode = .primary) (settled : Settled env adapters domain start db)
    (clear : clear env adapters domain db call = true) (succeeds : succeeds env adapters domain db call = true)
    (taken : call.step env adapters domain.id db = some after) : Settled env adapters domain start after := by
  cases call with
  | create id tenantId hostname deploymentId path privateWorkerId servicePort =>
    unfold RouteCall.step at taken
    dsimp only at taken
    split at taken
    · rename_i route made done
      cases taken
      refine ⟨?_, createRoute_follows settled.there primary settled.follows clear succeeds done⟩
      obtain ⟨_, _, table, _, rfl⟩ := createRoute_primary settled.there primary done
      obtain ⟨zones, only⟩ := syncAll_zones (providers adapters) { db with ingressRoutes := table }
        domain.domainName .create (recordName hostname domain.domainName) none (addresses env db)
      rw [only]
      exact settled.there
    · cases taken
      exact settled
  | delete routeId =>
    unfold RouteCall.step at taken
    dsimp only at taken
    split at taken
    · rename_i route found
      split at taken
      · rename_i its
        cases done : deleteRoute env (providers adapters) db routeId with
        | error failure =>
          rw [done] at taken
          cases taken
        | ok deleted =>
          rw [done] at taken
          cases taken
          obtain ⟨cleaning, follows⟩ := deleteRoute_follows settled.there primary settled.follows found its
            clear done
          refine ⟨?_, follows⟩
          rw [cleaning.domains]
          exact settled.there
      · cases taken
    · cases taken
      exact settled

namespace OneDomain
open Table

open List

def env : Env := ⟨none, none⟩

def domain : Domain := ⟨1, 1, "one.test", .primary, none, none⟩

def adapters : Adapters := fun _ => PowerDns.adapter

/- with a record of the tenant's for another host -/
def start : Db where
  domains := ⟨[domain], by decide⟩
  ingressRoutes := .empty
  dnsRecords := ⟨[⟨3, 1, "A", some "mail", some "192.0.2.9"⟩], by decide⟩
  deployments := .empty
  catalogEntries := .empty
  privateWorkers := .empty
  platformSettings := fun _ => none
  dns := ⟨⟨[⟨1, none, .primary, true⟩], by decide⟩, none⟩
  zones := fun _ name => if name = "one.test." then some [.of "mail.one.test" "A" "192.0.2.9"] else none

theorem follows : Follows env adapters domain start start where
  hosts _ mem := absurd mem (not_mem_empty _)
  rows _ mem _ _ := mem
  records _ _ _ _ _ _ _ _ held := held

def calls : List RouteCall :=
  [.create 8 1 "app.one.test" none none none none, .create 9 1 "one.test" none none none none,
    .delete 8]

/- two paths of one host, of which one goes -/
def shared : List RouteCall :=
  [.create 8 1 "app.one.test" none none none none, .create 9 1 "app.one.test" none (some "/shop") none none,
    .delete 9]

end OneDomain

end HostingPlatform.IngressRoutes
