import HostingPlatform.DnsRecords.Agreement

/-! The reserved hostnames and the ways by which a tenant may bind a name: the records of its domain
and its routes. -/
namespace HostingPlatform.DnsRecords.Reservation

open Option Table List Js Transition DnsRecords
open IngressRoutes hiding Zone DnsRecordInput syncRecordToProviders
open DnsRecords (DnsRecordInput syncRecordToProviders)

/- a tenant's domain; its name has passed the pattern for domain names -/
structure Holding where
  tenantId : Nat
  domain : Domain
  trimmed : trim domain.domainName = domain.domainName
  relative : endsWith domain.domainName "." = false
  named : domain.domainName ≠ ""

/- with everything that the servers have been told -/
structure World where
  store : Store
  told : Requests

inductive Binding where
  | createDnsRecord (input : CreateDnsRecordInput)
  | updateDnsRecord (recordId : Nat) (input : UpdateDnsRecordInput)
  | createRoute (id : Nat) (hostname : String) (deploymentId : Option Nat) (path : Option String)
      (privateWorkerId servicePort : Option Nat)

/- a zone that is not the platform's gets the addresses of local hosts only -/
def published (domain : Domain) (hostname : String) : Bool :=
  domain.dnsMode == .primary || endsWith hostname ".local"

def routeRecords (env : Env) (db : Db) (domain : Domain) (hostname : String) :
    List IngressRoutes.DnsRecordInput :=
  let name := IngressRoutes.recordName hostname domain.domainName
  let address := ⟨"A", name, (getIngressSettings env db).ingressDefaultIpv4⟩
  if domain.dnsMode = .primary then
    address :: ((ipv6Setting db).map (fun ipv6 => ⟨"AAAA", name, ipv6⟩)).toList
  else if endsWith hostname ".local" then [address]
  else []

theorem publish_records (env : Env) (p : Providers) (db : Db) (domain : Domain) (hostname : String) :
    publish env p db domain hostname = { db with
        zones := (routeRecords env db domain hostname).foldl (fun zones record =>
          (getActiveServers db.dns).foldl (push p domain.domainName .create record) zones) db.zones } := by
  unfold publish routeRecords
  by_cases primary : domain.dnsMode = .primary
  · simp only [primary, bne_self_eq_false, Bool.and_false, Bool.false_eq_true]
    have same : ∀ zones, ipv6Setting { db with zones } = ipv6Setting db := fun _ => rfl
    unfold syncAddresses sync
    dsimp only
    rw [same]
    cases ipv6Setting db <;> rfl
  · have other : (domain.dnsMode != .primary) = true := by simpa using primary
    simp only [other, Bool.and_true]
    split <;> rfl

/- every active server is told, whichever zone it has -/
def tell (dns : Dns) (domainName : String) (record : IngressRoutes.DnsRecordInput) : Requests :=
  (getActiveServers dns).map (fun server => (server, .create domainName
    { record with
      priority := none }))

def step (reserved : ReservedHostnames) (env : Env) (p : Providers) (h : Holding) (w : World) :
    Binding → Option World
  | .createDnsRecord input =>
    match DnsRecords.createDnsRecord reserved w.store h.tenantId h.domain.id input with
    | .error _ => none
    | .ok (store, requests) => some ⟨store, w.told ++ requests⟩
  | .updateDnsRecord recordId input =>
    match DnsRecords.updateDnsRecord reserved w.store h.tenantId h.domain.id recordId input with
    | .error _ => none
    | .ok (store, requests) => some ⟨store, w.told ++ requests⟩
  | .createRoute id hostname deploymentId path privateWorkerId servicePort =>
    let db := w.store.platform
    match IngressRoutes.createRoute env p id db h.domain.id h.tenantId hostname deploymentId path
      privateWorkerId servicePort with
    | .error _ => none
    | .ok (_, platform) =>
      some
        { store := { w.store with platform }
          told := w.told ++ (routeRecords env db h.domain hostname).flatMap (tell db.dns h.domain.domainName) }

def Free (reserved : ReservedHostnames) (host : String) : Prop := reserved.has (canonical host) = false

/- the host in a value; in those of MX and SRV it comes last -/
def target (type value : String) : Option String :=
  if type ∈ ["MX", "SRV"] then
    some (String.ofList ((blankSeparated (trim value).toList).getLast?.getD []))
  else if type ∈ hostTypes then some (trim value)
  else none

def FreeTarget (reserved : ReservedHostnames) (type value : String) : Prop :=
  ∀ host ∈ target type value, Free reserved host

def ToldFree (reserved : ReservedHostnames) (told : Requests) : Prop :=
  ∀ server domainName record, (server, Request.create domainName record) ∈ told →
    Free reserved (IngressRoutes.PowerDns.recordName domainName record.name) ∧
      FreeTarget reserved record.type record.content

structure Unbound (reserved : ReservedHostnames) (h : Holding) (w : World) : Prop where
  told : ToldFree reserved w.told
  rows : ∀ row ∈ w.store.dnsRecords, row.domainId = h.domain.id →
    FreeTarget reserved row.recordType (row.recordValue.getD "")
  routes : ∀ route ∈ w.store.platform.ingressRoutes, route.domainId = h.domain.id →
    Free reserved route.hostname

/- and none will be by telling the servers of a row again -/
structure Clean (reserved : ReservedHostnames) (h : Holding) (w : World) : Prop
    extends Unbound reserved h w where
  own : ownDomain w.store.platform h.domain.id h.tenantId = some h.domain
  rowOwners : ∀ row ∈ w.store.dnsRecords, row.domainId = h.domain.id →
    Free reserved (IngressRoutes.PowerDns.recordName h.domain.domainName (row.recordName.getD "@"))

/-- A relative name without blanks around it. -/
def Plain (name : String) : Prop := trim name = name ∧ endsWith name "." = false

def NameSafe (reserved : ReservedHostnames) (h : Holding) (name : Option String) : Prop :=
  Plain (name.getD "@") ∨
    Free reserved (IngressRoutes.PowerDns.recordName h.domain.domainName (name.getD "@"))

/-- The target is compared as a whole, and for some types only. -/
def ValueSafe (reserved : ReservedHostnames) (type value : String) : Prop :=
  type ∈ ["CNAME", "NS"] ∨ (type ∈ ["MX", "SRV"] ∧ ∀ c ∈ (trim value).toList, isWhite c = false) ∨
    FreeTarget reserved type value

/-- Routes are not checked at all. -/
def Safe (reserved : ReservedHostnames) (h : Holding) (w : World) : Binding → Prop
  | .createDnsRecord input =>
    NameSafe reserved h input.recordName ∧ ValueSafe reserved input.recordType input.recordValue
  | .updateDnsRecord recordId input => ∀ value ∈ input.recordValue, ∀ row ∈ w.store.dnsRecords.rows,
      row.id = recordId → row.domainId = h.domain.id → ValueSafe reserved row.recordType value
  | .createRoute _ hostname _ _ _ _ => Free reserved hostname ∧
      (published h.domain hostname = true → Free reserved (IngressRoutes.PowerDns.recordName h.domain.domainName
        (IngressRoutes.recordName hostname h.domain.domainName)))

theorem stripDots_dot (s : String) : stripDots (s ++ ".") = stripDots s := by
  simp [stripDots]

variable {s hostname : String} {name : Option String} {requests : Requests} {w : World} {store : Store}
  {env : Env}

theorem last_ne_dot (relative : endsWith s "." = false) : s.toList.getLast? ≠ some '.' := by
  intro last
  rw [(IngressRoutes.PowerDns.endsWith_dot_iff s).mpr last] at relative
  cases relative

theorem toLowerCase_at (same : toLowerCase s = "@") : s = "@" := by
  have chars : s.toList.flatMap lowerChar = ['@'] := by
    rw [← String.toList_inj, toLowerCase, String.toList_ofList] at same
    exact same
  apply String.toList_inj.mp
  cases list : s.toList with
  | nil =>
    rw [list] at chars
    cases chars
  | cons c rest =>
    rw [list] at chars
    rcases append_eq_singleton_iff.mp chars with ⟨none, _⟩ | ⟨own, others⟩
    · exact absurd none (lowerChar_ne_nil c)
    have first : c = '@' := eq_of_lowerChar (own ▸ mem_singleton.mpr rfl) (by decide)
    cases rest with
    | nil => rw [first]; rfl
    | cons d more =>
      exact absurd (append_eq_nil_iff.mp others).1 (lowerChar_ne_nil d)

theorem toLowerCase_eq_empty (same : toLowerCase s = "") : s = "" := by
  have chars : s.toList.flatMap lowerChar = [] := by
    rw [← String.toList_inj, toLowerCase, String.toList_ofList] at same
    exact same
  apply String.toList_inj.mp
  cases list : s.toList with
  | nil => rfl
  | cons c rest =>
    rw [list] at chars
    exact absurd (append_eq_nil_iff.mp chars).1 (lowerChar_ne_nil c)

theorem normalize_plain {name : String} (plain : Plain name) : normalize name = toLowerCase name := by
  rw [normalize, plain.1, stripDots_fixed (last_ne_dot plain.2)]

theorem Holding.plain (h : Holding) : Plain h.domain.domainName := ⟨h.trimmed, h.relative⟩

theorem Holding.normalized (h : Holding) :
    IngressRoutes.PowerDns.normalized h.domain.domainName = h.domain.domainName ++ "." := by
  simp [IngressRoutes.PowerDns.normalized, h.relative]

theorem Holding.canonical_root (h : Holding) :
    canonical (h.domain.domainName ++ ".") = normalize h.domain.domainName := by
  rw [canonical, stripDots_dot, stripDots_fixed (last_ne_dot h.relative), normalize_plain h.plain]

theorem Holding.canonical_under (h : Holding) (label : String) :
    canonical (label ++ (h.domain.domainName ++ ".")) = toLowerCase label ++ normalize h.domain.domainName := by
  rw [canonical, ← String.append_assoc, stripDots_dot,
    stripDots_append _ (last_ne_dot h.relative) h.named, toLowerCase_append, normalize_plain h.plain]

theorem effective_owner (h : Holding) (plain : Plain (name.getD "@")) : effectiveFqdn h.domain.domainName name =
      canonical (IngressRoutes.PowerDns.recordName h.domain.domainName (name.getD "@")) := by
  have root := h.canonical_root
  unfold effectiveFqdn IngressRoutes.PowerDns.recordName
  rw [h.normalized]
  cases name with
  | none =>
    have empty : normalize "" = "" := rfl
    rw [getD_none]
    rw [if_pos (.inl rfl), if_pos (.inl rfl), root]
  | some name =>
    have plain : Plain name := plain
    rw [getD_some, getD_some, normalize_plain plain]
    by_cases atRoot : name = "@" ∨ name = ""
    · rw [if_pos atRoot, root, if_pos]
      rcases atRoot with rfl | rfl
      · exact .inr rfl
      · exact .inl rfl
    have apart : ¬ (toLowerCase name = "" ∨ toLowerCase name = "@") := by
      rintro (none | root)
      · exact atRoot (.inr (toLowerCase_eq_empty none))
      · exact atRoot (.inl (toLowerCase_at root))
    rw [if_neg apart, if_neg atRoot, plain.2, if_neg Bool.false_ne_true, h.canonical_under, toLowerCase_append]
    rfl

variable {reserved : ReservedHostnames}

theorem free_target {type value : String} (safe : ValueSafe reserved type value)
    (checked : hostnameTargetTypes.contains type = true → reserved.has (normalize value) = false) :
    FreeTarget reserved type value := by
  rcases safe with host | ⟨last, solid⟩ | free
  · intro target its
    have checked := checked (by rcases mem_pair.mp host with rfl | rfl <;> decide)
    have whole : HostingPlatform.DnsRecords.Reservation.target type value = some (trim value) := by
      rcases mem_pair.mp host with rfl | rfl <;> rfl
    rw [whole] at its
    cases its
    exact checked
  · intro target its
    have checked := checked (by rcases mem_pair.mp last with rfl | rfl <;> decide)
    have whole : HostingPlatform.DnsRecords.Reservation.target type value = some (trim value) := by
      unfold HostingPlatform.DnsRecords.Reservation.target
      rw [if_pos last, blankSeparated_one solid]
      simp
    rw [whole] at its
    cases its
    exact checked
  · exact free

variable {h : Holding}

theorem free_owner (safe : NameSafe reserved h name)
    (checked : reserved.has (effectiveFqdn h.domain.domainName name) = false) :
    Free reserved (IngressRoutes.PowerDns.recordName h.domain.domainName (name.getD "@")) := by
  rcases safe with plain | free
  · unfold Free
    rw [← effective_owner h plain]
    exact checked
  · exact free

theorem ToldFree.append {told more : Requests} (old : ToldFree reserved told)
    (new : ToldFree reserved more) : ToldFree reserved (told ++ more) := by
  intro server domainName record mem
  rcases mem_append.mp mem with before | now
  · exact old server domainName record before
  · exact new server domainName record now

theorem toldFree_of_sent {domainName : String} {record : DnsRecordInput}
    (sent : ∀ r ∈ requests, r.2 = .create domainName record)
    (owner : Free reserved (IngressRoutes.PowerDns.recordName domainName record.name))
    (target : FreeTarget reserved record.type record.content) : ToldFree reserved requests := by
  intro server domainName' record' mem
  obtain ⟨rfl, rfl⟩ := Request.create.inj (sent _ mem)
  exact ⟨owner, target⟩

theorem created_clean {input : CreateDnsRecordInput} (clean : Clean reserved h w)
    (name : NameSafe reserved h input.recordName) (value : ValueSafe reserved input.recordType input.recordValue)
    (done : createDnsRecord reserved w.store h.tenantId h.domain.id input = .ok (store, requests)) :
    Clean reserved h ⟨store, w.told ++ requests⟩ := by
  obtain ⟨domain, owned, passed, ⟨records, inserted, rfl⟩, sent⟩ := createDnsRecord_ok done
  obtain rfl : h.domain = domain := some.inj (clean.own.symm.trans owned)
  obtain ⟨owner, target⟩ := unreserved passed
  have owner := free_owner name owner
  have target := free_target value target
  constructor
  · constructor
    · exact clean.told.append (toldFree_of_sent sent owner target)
    · intro row mem own
      rcases (mem_insert inserted).mp mem with rfl | old
      · exact target
      · exact clean.rows row old own
    · exact clean.routes
  · exact clean.own
  intro row mem own
  rcases (mem_insert inserted).mp mem with rfl | old
  · exact owner
  · exact clean.rowOwners row old own

theorem updated_clean {recordId : Nat} {input : UpdateDnsRecordInput} (clean : Clean reserved h w)
    (values : Safe reserved h w (.updateDnsRecord recordId input))
    (done : updateDnsRecord reserved w.store h.tenantId h.domain.id recordId input = .ok (store, requests)) :
    Clean reserved h ⟨store, w.told ++ requests⟩ := by
  obtain ⟨domain, record, owned, ⟨mem, same, own⟩, passed, rfl, sent⟩ := updateDnsRecord_ok done
  obtain rfl : h.domain = domain := some.inj (clean.own.symm.trans owned)
  have owner := clean.rowOwners record mem own
  have target : FreeTarget reserved record.recordType ((input.assign record).recordValue.getD "") := by
    cases given : input.recordValue with
    | none =>
      have kept : (input.assign record).recordValue = record.recordValue := by
        simp [UpdateDnsRecordInput.assign, given]
      rw [kept]
      exact clean.rows record mem own
    | some value =>
      have new : (input.assign record).recordValue.getD "" = value := by
        simp [UpdateDnsRecordInput.assign, given]
      rw [new]
      exact free_target (values value given record mem same own) (unreserved (passed value given)).2
  have only : ∀ row ∈ w.store.dnsRecords, row.id = recordId → row = record :=
    fun row there key => w.store.dnsRecords.eq_of_key there mem (key.trans same.symm)
  constructor
  · constructor
    · exact clean.told.append (toldFree_of_sent sent owner target)
    · intro row there ownRow
      rcases (mem_update input.assign_id).mp there with ⟨old, _⟩ | ⟨old, memOld, its, rfl⟩
      · exact clean.rows row old ownRow
      · rw [only old memOld (by simpa using its)]
        exact target
    · exact clean.routes
  · exact clean.own
  intro row there ownRow
  rcases (mem_update input.assign_id).mp there with ⟨old, _⟩ | ⟨old, memOld, its, rfl⟩
  · exact clean.rowOwners row old ownRow
  · exact clean.rowOwners old memOld ownRow

theorem routeRecords_free {db : Db}
    (free : published h.domain hostname = true → Free reserved (IngressRoutes.PowerDns.recordName
      h.domain.domainName (IngressRoutes.recordName hostname h.domain.domainName))) :
    ToldFree reserved ((routeRecords env db h.domain hostname).flatMap (tell db.dns h.domain.domainName)) := by
  intro server domainName record mem
  obtain ⟨address, listed, told⟩ := mem_flatMap.mp mem
  obtain ⟨active, _, same⟩ := mem_map.mp told
  obtain ⟨rfl, rfl⟩ := Request.create.inj (Prod.mk.inj same).2
  have addressed : published h.domain hostname = true ∧
      address.name = IngressRoutes.recordName hostname h.domain.domainName ∧
        (address.type = "A" ∨ address.type = "AAAA") := by
    unfold routeRecords at listed
    split at listed
    · rename_i primary
      refine ⟨by simp [published, primary], ?_⟩
      rcases mem_cons.mp listed with rfl | second
      · exact ⟨rfl, Or.inl rfl⟩
      · obtain ⟨ipv6, _, rfl⟩ := map_eq_some_iff.mp (mem_toList.mp second)
        exact ⟨rfl, .inr rfl⟩
    · split at listed
      · rename_i localHost
        rw [mem_singleton.mp listed]
        exact ⟨by simp [published, localHost], rfl, .inl rfl⟩
      · cases listed
  obtain ⟨is, name, type⟩ := addressed
  refine ⟨by rw [name]; exact free is, fun host its => ?_⟩
  have none : HostingPlatform.DnsRecords.Reservation.target address.type address.content = .none := by
    rcases type with type | type <;> rw [type] <;> rfl
  rw [none] at its
  cases its

theorem routed_clean {p : Providers} {platform : Db} {id : Nat}
    {deploymentId privateWorkerId servicePort : Option Nat} {path : Option String} {route : Route}
    (clean : Clean reserved h w)
    (safe : Safe reserved h w (.createRoute id hostname deploymentId path privateWorkerId servicePort))
    (done : IngressRoutes.createRoute env p id w.store.platform h.domain.id h.tenantId hostname deploymentId
      path privateWorkerId servicePort = .ok (route, platform)) : Clean reserved h
      { store := { w.store with platform }
        told := w.told ++ (routeRecords env w.store.platform h.domain hostname).flatMap
          (tell w.store.platform.dns h.domain.domainName) } := by
  unfold IngressRoutes.createRoute at done
  split at done
  · cases done
  dsimp only at done
  split at done
  · cases done
  rename_i ingressRoutes inserted
  obtain ⟨rfl, rfl⟩ := Prod.mk.inj (Except.ok.inj done)
  rw [publish_records]
  constructor
  · constructor
    · exact clean.told.append (routeRecords_free safe.2)
    · exact clean.rows
    intro r mem own
    rcases (mem_insert inserted).mp mem with rfl | old
    · exact safe.1
    · exact clean.routes r old own
  · exact clean.own
  · exact clean.rowOwners

instance (reserved : ReservedHostnames) (host : String) : Decidable (Free reserved host) :=
  inferInstanceAs (Decidable (_ = _))

instance (reserved : ReservedHostnames) (type value : String) : Decidable (FreeTarget reserved type value) :=
  inferInstanceAs (Decidable (∀ host ∈ target type value, _))

instance (name : String) : Decidable (Plain name) := inferInstanceAs (Decidable (_ ∧ _))

instance (reserved : ReservedHostnames) (h : Holding) (name : Option String) :
    Decidable (NameSafe reserved h name) := inferInstanceAs (Decidable (Plain _ ∨ Free _ _))

instance (reserved : ReservedHostnames) (type value : String) : Decidable (ValueSafe reserved type value) :=
  inferInstanceAs (Decidable (_ ∨ _ ∨ FreeTarget _ _ _))

instance (reserved : ReservedHostnames) (h : Holding) (w : World) : ∀ call, Decidable (Safe reserved h w call) := by
  intro _
  unfold Safe
  split <;> infer_instance

/-- No call that is safe binds a reserved name, and so no run of them does. -/
theorem unbound_throughout {reserved : ReservedHostnames} {env : Env} {p : Providers} {h : Holding}
    {start : World} {calls : List Binding} (clean : Clean reserved h start)
    (safe : Guarded (step reserved env p h) (Safe reserved h) start calls) :
    Always (step reserved env p h) (Unbound reserved h) start calls := by
  have preserves : ∀ w call after, Clean reserved h w → Safe reserved h w call →
      step reserved env p h w call = some after → Clean reserved h after := by
    intro w call after clean safe taken
    cases call with
    | createDnsRecord input =>
      simp only [step] at taken
      split at taken
      · cases taken
      rename_i store requests done
      rw [← some.inj taken]
      exact created_clean clean safe.1 safe.2 done
    | updateDnsRecord recordId input =>
      simp only [step] at taken
      split at taken
      · cases taken
      rename_i store requests done
      rw [← some.inj taken]
      exact updated_clean clean safe done
    | createRoute id hostname deploymentId path privateWorkerId servicePort =>
      simp only [step] at taken
      split at taken
      · cases taken
      rename_i route platform done
      rw [← some.inj taken]
      exact routed_clean clean safe done
  rintro front back after rfl reached
  exact (guarded_invariant preserves clean safe.front reached).toUnbound

def parentZone : Holding where
  tenantId := oneZone.domain.tenantId
  domain := oneZone.domain
  trimmed := by decide
  relative := by decide
  named := by decide

def platformHosts : ReservedHostnames :=
  getReservedPlatformHostnames (fun _ => none) ⟨some "platform.example.com", none, none, fun _ => none⟩

def noServers : IngressRoutes.Env := ⟨none, none⟩

def logged : Providers := fun _ => ⟨fun _ zone _ => some zone, fun _ zone _ => some zone⟩

def nothingTold : World := ⟨⟨oneZone.platform, .empty⟩, []⟩

theorem nothingTold_clean : Clean platformHosts parentZone nothingTold where
  told := fun _ _ _ mem => nomatch mem
  rows := fun _ mem => nomatch mem
  routes := fun _ mem => nomatch mem
  own := by decide
  rowOwners := fun _ mem => nomatch mem

theorem unbound_for_a_while : (exec (step platformHosts noServers logged parentZone) nothingTold
      [.createDnsRecord (newAddress "192.0.2.1"),
        .createDnsRecord ⟨"CNAME", some "shop", "www.example.com", none, none, none⟩,
        .updateDnsRecord 1 (newValue "192.0.2.2"),
        .createRoute 5 "blog.example.com" none none none none]).isSome = true ∧
    Always (step platformHosts noServers logged parentZone) (Unbound platformHosts parentZone) nothingTold
      [.createDnsRecord (newAddress "192.0.2.1"),
        .createDnsRecord ⟨"CNAME", some "shop", "www.example.com", none, none, none⟩,
        .updateDnsRecord 1 (newValue "192.0.2.2"),
        .createRoute 5 "blog.example.com" none none none none] :=
  ⟨by decide +kernel, unbound_throughout nothingTold_clean (by decide +kernel)⟩

/-- An absolute name is checked as if it were a relative one. -/
theorem absolute_name_bound : Clean platformHosts parentZone nothingTold ∧
      ¬ Always (step platformHosts noServers logged parentZone) (Unbound platformHosts parentZone) nothingTold
        [.createDnsRecord ⟨"A", some "admin.platform.example.com.", "192.0.2.1", none, none, none⟩] := by
  refine ⟨nothingTold_clean, fun always => ?_⟩
  have reached : (exec (step platformHosts noServers logged parentZone) nothingTold
      [.createDnsRecord ⟨"A", some "admin.platform.example.com.", "192.0.2.1", none, none, none⟩]).any
        (fun w => w.told.any (fun r => decide (r = (oneZone.server, .create "example.com"
          ⟨⟨"A", "admin.platform.example.com.", "192.0.2.1"⟩, none⟩)))) = true := by
    decide +kernel
  obtain ⟨w, run, told⟩ := (any_eq_true _ _).mp reached
  obtain ⟨r, mem, is⟩ := any_eq_true.mp told
  have unbound := always _ [] w (append_nil _).symm run
  rw [of_decide_eq_true is] at mem
  exact absurd (unbound.told _ _ _ mem).1 (by decide +kernel)

end HostingPlatform.DnsRecords.Reservation
