import HostingPlatform.IngressRoutes.Service

/-! The hostnames that the platform keeps for itself: they are computed from its base domain and
from the addresses that an operator has set. -/
namespace HostingPlatform.DnsRecords

open Option List Js IngressRoutes

def stripDots (s : String) : String :=
  String.ofList (s.toList.reverse.dropWhile (· == '.')).reverse

def normalize (host : String) : String := toLowerCase (stripDots (trim host))

/- how two hosts are compared: without regard to case and to a dot at the end -/
def canonical (host : String) : String := toLowerCase (stripDots host)

/-- The reserved hosts with the reason for each. Of a host that has two the first is kept. -/
structure ReservedHostnames where
  apex : String
  reasons : List (String × String)
  canonical : ∀ r ∈ reasons, canonical r.1 = r.1

def ReservedHostnames.fqdns (r : ReservedHostnames) : List String := r.reasons.map Prod.fst

def ReservedHostnames.has (r : ReservedHostnames) (host : String) : Bool := r.fqdns.contains host

def ReservedHostnames.reason (r : ReservedHostnames) (host : String) : String :=
  (r.reasons.lookup host).getD "platform-reserved hostname"

/- what the set is computed from; the first is a column of the system settings -/
structure Settings where
  (ingressBaseDomain platformBaseDomain ingressBaseDomainEnv : Option String)
  platformSettings : String → Option String

def resolveBaseDomain (platformBaseDomain ingressBaseDomain : Option String) : String :=
  let raw := (platformBaseDomain.or ingressBaseDomain).getD "k8s-platform.test"
  String.ofList ((trim raw).toList.dropWhile (· == '.'))

def resolveApex (s : Settings) : String :=
  let configured := trim (s.ingressBaseDomain.getD "")
  normalize (if configured ≠ "" then configured
    else resolveBaseDomain s.platformBaseDomain s.ingressBaseDomainEnv)

def staticLabels : List (String × String) :=
  [("admin", "platform admin panel"), ("tenant", "platform tenant panel"),
    ("mail", "platform mail SMTP/IMAP server"), ("stalwart", "platform Stalwart web-admin"),
    ("dex", "platform Dex OIDC issuer"), ("webmail", "platform webmail")]

def urlKeys : List (String × String) :=
  [("longhorn_url", "platform Longhorn dashboard"), ("stalwart_admin_url", "platform Stalwart web-admin"),
    ("default_webmail_url", "platform webmail"), ("mail_server_hostname", "platform mail server hostname")]

def staticDenyLabels : List String :=
  ["traefik", "master", "tunnels", "suspended", "bulwark", "roundcube", "api", "ingress", "cluster",
    "longhorn"]

/- `new URL(s).hostname`, where the URL is valid, is a parameter -/
def hostnameFromUrl (urlHostname : String → Option String) (raw : Option String) (apex : String) :
    Option String :=
  let trimmed := trim (raw.getD "")
  if trimmed = "" then none
  else
    match urlHostname (if includes trimmed "://" then trimmed else "https://" ++ trimmed) with
    | none => none
    | some host =>
      let norm := normalize host
      if apex = "" then if norm = "" then none else some norm
      else if norm = apex ∨ endsWith norm ("." ++ apex) then some norm
      else none

def reservedSources (urlHostname : String → Option String) (s : Settings) : List (String × String) :=
  let apex := resolveApex s
  let config := if apex = "" then [] else staticLabels.map (fun l =>
    (normalize (l.1 ++ "." ++ resolveBaseDomain (some apex) none), l.2))
  let urls := urlKeys.filterMap (fun k =>
    (hostnameFromUrl urlHostname (s.platformSettings k.1) apex).map (fun host => (host, k.2)))
  let denied := if apex = "" then [] else staticDenyLabels.map (fun label =>
    (label ++ "." ++ apex, "platform-reserved label '" ++ label ++ "'"))
  config ++ urls ++ denied

def addReserved (reasons : List (String × String)) (source : String × String) : List (String × String) :=
  if source.1 = "" ∨ reasons.any (fun r => r.1 == source.1) then reasons else reasons ++ [source]

theorem stripDots_last (s : String) : (stripDots s).toList.getLast? ≠ some '.' := by
  unfold stripDots
  rw [String.toList_ofList, getLast?_reverse]
  intro first
  obtain ⟨rest, same⟩ := head?_eq_some_iff.mp first
  have stops := head?_dropWhile_not (· == '.') s.toList.reverse
  rw [same] at stops
  simp at stops

variable {s : String} {r : String × String} {urlHostname : String → Option String} {platform : Db}
  {domain : Domain} {tenantId domainId : Nat} {reserved : ReservedHostnames}

theorem stripDots_fixed (last : s.toList.getLast? ≠ some '.') : stripDots s = s := by
  unfold stripDots
  have stays : s.toList.reverse.dropWhile (· == '.') = s.toList.reverse := by
    cases chars : s.toList.reverse with
    | nil => rfl
    | cons c rest =>
      have other : (c == '.') = false := by
        rw [beq_eq_false_iff_ne]
        rintro rfl
        refine last ?_
        rw [← head?_reverse, chars]
        rfl
      rw [dropWhile_cons_of_neg (by simp [other])]
  rw [stays, reverse_reverse, String.ofList_toList]

theorem eq_of_lowerChar {c d : Char} (mem : d ∈ lowerChar c) (before : d.toNat < 97) : c = d := by
  cases upper : c.isUpper with
  | true =>
    simp only [lowerChar, upper, if_true, mem_singleton] at mem
    obtain ⟨low, _⟩ := toLower_small upper
    rw [← mem] at low
    omega
  | false =>
    simp only [lowerChar, upper, Bool.false_eq_true, if_false] at mem
    split at mem
    · rw [mem_singleton.mp mem] at before
      exact absurd before (by decide)
    · rcases mem_cons.mp mem with rfl | mem
      · exact absurd before (by decide)
      · rw [mem_singleton.mp mem] at before
        exact absurd before (by decide)
    · exact (mem_singleton.mp mem).symm

theorem lowerChar_ne_nil (c : Char) : lowerChar c ≠ [] := by
  unfold lowerChar
  split
  · exact cons_ne_nil _ _
  · split <;> exact cons_ne_nil _ _

theorem toLowerCase_last (last : s.toList.getLast? ≠ some '.') : (toLowerCase s).toList.getLast? ≠ some '.' := by
  unfold toLowerCase
  rw [String.toList_ofList]
  cases chars : s.toList.getLast? with
  | none =>
    have empty : s.toList = [] := getLast?_eq_none_iff.mp chars
    rw [empty]
    simp
  | some c =>
    obtain ⟨front, same⟩ := getLast?_eq_some_iff.mp chars
    rw [same, flatMap_append, flatMap_cons, flatMap_nil, append_nil,
      getLast?_append_of_ne_nil _ (lowerChar_ne_nil c)]
    intro dot
    rw [eq_of_lowerChar (mem_of_getLast? dot) (by decide)] at chars
    exact last chars

theorem canonical_canonical (s : String) : canonical (canonical s) = canonical s := by
  unfold canonical
  rw [stripDots_fixed (toLowerCase_last (stripDots_last s)), toLowerCase_idem]

theorem canonical_normalize (host : String) : canonical (normalize host) = normalize host :=
  canonical_canonical (trim host)

theorem canonical_resolveApex (s : Settings) : canonical (resolveApex s) = resolveApex s := by
  exact canonical_normalize _

theorem stripDots_append (s : String) {t : String} (last : t.toList.getLast? ≠ some '.')
    (some : t ≠ "") : stripDots (s ++ t) = s ++ t := by
  apply stripDots_fixed
  have chars : t.toList ≠ [] := fun none => some (String.toList_eq_nil_iff.mp none)
  rw [String.toList_append, getLast?_append_of_ne_nil _ chars]
  exact last

theorem canonical_label {label apex : String} (lower : toLowerCase (label ++ ".") = label ++ ".")
    (own : canonical apex = apex) (some : apex ≠ "") : canonical (label ++ "." ++ apex) = label ++ "." ++ apex := by
  have last : apex.toList.getLast? ≠ .some '.' := by
    rw [← own]
    exact toLowerCase_last (stripDots_last apex)
  have small : toLowerCase apex = apex := by
    conv_lhs => rw [← own, canonical, toLowerCase_idem]
    exact own
  rw [canonical, stripDots_append _ last some, toLowerCase_append, lower, small]

theorem staticDenyLabels_lower : ∀ label ∈ staticDenyLabels, toLowerCase (label ++ ".") = label ++ "." := by
  decide +kernel

theorem mem_foldl_addReserved {sources reasons : List (String × String)}
    (mem : r ∈ sources.foldl addReserved reasons) : r ∈ reasons ∨ r ∈ sources := by
  induction sources generalizing reasons with
  | nil => exact .inl mem
  | cons source rest ih =>
    rcases ih mem with old | new
    · unfold addReserved at old
      split at old
      · exact .inl old
      rcases mem_append.mp old with old | own
      · exact .inl old
      · exact .inr (mem_cons.mpr (.inl (mem_singleton.mp own)))
    · exact .inr (mem_cons_of_mem source new)

theorem hostnameFromUrl_canonical {raw : Option String} {apex host : String}
    (parsed : hostnameFromUrl urlHostname raw apex = some host) : canonical host = host := by
  unfold hostnameFromUrl at parsed
  dsimp only at parsed
  split at parsed
  · cases parsed
  split at parsed
  · cases parsed
  split at parsed
  · split at parsed
    · cases parsed
    · rw [← some.inj parsed, canonical_normalize]
  · split at parsed
    · rw [← some.inj parsed, canonical_normalize]
    · cases parsed

theorem reservedSources_canonical {s : Settings} (mem : r ∈ reservedSources urlHostname s) : canonical r.1 = r.1 := by
  simp only [reservedSources, mem_append] at mem
  rcases mem with (config | url) | denied
  · split at config
    · cases config
    · obtain ⟨label, _, rfl⟩ := mem_map.mp config
      exact canonical_normalize _
  · obtain ⟨key, _, found⟩ := mem_filterMap.mp url
    obtain ⟨host, parsed, rfl⟩ := map_eq_some_iff.mp found
    exact hostnameFromUrl_canonical parsed
  split at denied
  · cases denied
  rename_i some
  obtain ⟨label, known, rfl⟩ := mem_map.mp denied
  exact canonical_label (staticDenyLabels_lower label known) (canonical_resolveApex s) some

/- the base domain comes last, and with its own reason -/
def getReservedPlatformHostnames (urlHostname : String → Option String) (s : Settings) :
    ReservedHostnames where
  apex := resolveApex s
  reasons :=
    let found := (reservedSources urlHostname s).foldl addReserved []
    if resolveApex s = "" then found
    else (resolveApex s, "platform apex domain (owned by SYSTEM)") ::
      found.filter (fun r => r.1 != resolveApex s)
  canonical := by
    intro r mem
    have sources : r ∈ (reservedSources urlHostname s).foldl addReserved [] → canonical r.1 = r.1 := by
      intro there
      rcases mem_foldl_addReserved there with none | source
      · cases none
      · exact reservedSources_canonical source
    dsimp only at mem
    split at mem
    · exact sources mem
    rcases List.mem_cons.mp mem with rfl | found
    · exact canonical_resolveApex s
    · exact sources (List.mem_filter.mp found).1

/-! The DNS records of a tenant's domain: their rows, and what the servers are told of them. The
times to live are left out. -/

structure DnsRecordRow where
  (id domainId : Nat)
  recordType : String
  (recordName recordValue : Option String)
  (priority weight port : Option Int)

abbrev Records := Table DnsRecordRow DnsRecordRow.id

/- the platform's tables beside the records -/
structure Store where
  platform : Db
  dnsRecords : Records

structure CreateDnsRecordInput where
  recordType : String
  recordName : Option String
  recordValue : String
  (priority weight port : Option Int)

/- a field that is not given stays as it is -/
structure UpdateDnsRecordInput where
  recordValue : Option String
  (priority weight port : Option Int)
  deriving DecidableEq

/- what a provider is given -/
structure DnsRecordInput extends IngressRoutes.DnsRecordInput where
  priority : Option Int
  deriving DecidableEq

inductive Request where
  | create (domainName : String) (record : DnsRecordInput)
  | delete (domainName recordId : String)
  deriving DecidableEq

abbrev Requests := List (DnsServer × Request)

structure RemoteRecord where
  (type name content : String)
  priority : Option Number

/- the columns: an enumeration, texts of limited length, integers of 32 bits -/
def dnsRecordTypes : List String :=
  ["A", "AAAA", "CNAME", "MX", "TXT", "SRV", "NS", "CAA", "PTR", "SOA", "ALIAS", "DNAME"]

def integerColumn (n : Int) : Bool := -2 ^ 31 ≤ n && n < 2 ^ 31

def fits (row : DnsRecordRow) : Bool :=
  dnsRecordTypes.contains row.recordType && (row.recordName.getD "").toList.length ≤ 253 &&
    (row.recordValue.getD "").toList.length ≤ 1000 &&
      [row.priority, row.weight, row.port].all (fun n => integerColumn (n.getD 0))

def insertRecord (records : Records) (row : DnsRecordRow) : Option Records :=
  if fits row then records.insert row else none

/- `crypto.randomUUID()`, an id that no record has -/
def randomUUID (records : Records) : Nat := (records.rows.map DnsRecordRow.id).foldr Nat.max 0 + 1

/- nothing is sent where the platform has no authority over the zone -/
def syncRecordToProviders (platform : Db) (domain : Domain) (request : Request) : Requests :=
  let servers := getActiveServersForDomain platform.dns domain
  if canManageDnsZone domain.dnsMode servers then servers.map (fun server => (server, request)) else []

def verifyDomainOwnership (platform : Db) (tenantId domainId : Nat) : Except Failure Domain :=
  match ownDomain platform domainId tenantId with
  | some domain => .ok domain
  | none => .error (.api ⟨"DOMAIN_NOT_FOUND", s!"Domain '{domainId}' not found for tenant", 404⟩)

/- the name that the check compares with the reserved ones -/
def effectiveFqdn (domainName : String) (recordName : Option String) : String :=
  let name := normalize (recordName.getD "")
  if name = "" ∨ name = "@" then normalize domainName else name ++ "." ++ normalize domainName

def hostnameTargetTypes : List String := ["CNAME", "A", "AAAA", "MX", "NS", "SRV"]

def assertNotReservedHostname (reserved : ReservedHostnames) (domainName recordType : String)
    (recordName : Option String) (recordValue : String) : Option ApiError :=
  let fqdn := effectiveFqdn domainName recordName
  let target := normalize recordValue
  if reserved.has fqdn then
    let reason := reserved.reason fqdn
    some ⟨"RESERVED_PLATFORM_HOSTNAME", s!"DNS record '{fqdn}' collides with a platform-reserved hostname ({reason}).", 409⟩
  else if hostnameTargetTypes.contains recordType ∧ reserved.has target then
    let reason := reserved.reason target
    some ⟨"RESERVED_PLATFORM_HOSTNAME", s!"DNS record target '{target}' is a platform-reserved hostname ({reason}).", 409⟩
  else none

def newRecord (records : Records) (domainId : Nat) (input : CreateDnsRecordInput) : DnsRecordRow :=
  ⟨randomUUID records, domainId, input.recordType, input.recordName, some input.recordValue, input.priority,
    input.weight, input.port⟩

def toProvider (row : DnsRecordRow) : DnsRecordInput :=
  { type := row.recordType
    name := row.recordName.getD "@"
    content := row.recordValue.getD ""
    priority := row.priority }

def createDnsRecord (reserved : ReservedHostnames) (store : Store) (tenantId domainId : Nat)
    (input : CreateDnsRecordInput) : Except Failure (Store × Requests) :=
  match verifyDomainOwnership store.platform tenantId domainId with
  | .error failure => .error failure
  | .ok domain =>
    match assertNotReservedHostname reserved domain.domainName input.recordType input.recordName
      input.recordValue with
    | some error => .error (.api error)
    | none =>
      let row := newRecord store.dnsRecords domainId input
      match insertRecord store.dnsRecords row with
      | none => .error .database
      | some dnsRecords =>
        .ok ({ store with dnsRecords }, syncRecordToProviders store.platform domain
          (.create domain.domainName (toProvider row)))

def recordOf (store : Store) (recordId domainId : Nat) : Except Failure DnsRecordRow :=
  match store.dnsRecords.select (fun r => r.id == recordId && r.domainId == domainId) with
  | some record => .ok record
  | none => .error (.api ⟨"DNS_RECORD_NOT_FOUND", s!"DNS record '{recordId}' not found", 404⟩)

def UpdateDnsRecordInput.assign (input : UpdateDnsRecordInput) (row : DnsRecordRow) : DnsRecordRow :=
  { row with
    recordValue := input.recordValue.or row.recordValue
    priority := input.priority.or row.priority
    weight := input.weight.or row.weight
    port := input.port.or row.port }

theorem UpdateDnsRecordInput.assign_id (input : UpdateDnsRecordInput) (row : DnsRecordRow) :
    (input.assign row).id = row.id := rfl

def updateDnsRecord (reserved : ReservedHostnames) (store : Store) (tenantId domainId recordId : Nat)
    (input : UpdateDnsRecordInput) : Except Failure (Store × Requests) :=
  match verifyDomainOwnership store.platform tenantId domainId with
  | .error failure => .error failure
  | .ok domain =>
    match recordOf store recordId domainId with
    | .error failure => .error failure
    | .ok record =>
      match input.recordValue.bind (assertNotReservedHostname reserved domain.domainName
        record.recordType record.recordName) with
      | some error => .error (.api error)
      | none =>
        let updated := input.assign record
        -- without a field there is no statement that could fail
        if input ≠ ⟨none, none, none, none⟩ ∧ !fits updated then .error .database
        else
          let dnsRecords := store.dnsRecords.update (fun r => r.id == recordId) input.assign input.assign_id
          .ok ({ store with dnsRecords }, syncRecordToProviders store.platform domain
            (.create domain.domainName (toProvider updated)))

/- a record without a value is not deleted at the servers -/
def deleteDnsRecord (store : Store) (tenantId domainId recordId : Nat) :
    Except Failure (Store × Requests) :=
  match verifyDomainOwnership store.platform tenantId domainId with
  | .error failure => .error failure
  | .ok domain =>
    match recordOf store recordId domainId with
    | .error failure => .error failure
    | .ok record =>
      let dnsRecords := store.dnsRecords.delete (fun r => r.id == recordId)
      let name := record.recordName.getD "@"
      let value := record.recordValue.getD ""
      let requests :=
        if record.recordType ≠ "" ∧ value ≠ "" then
          syncRecordToProviders store.platform domain
            (.delete domain.domainName (name ++ "|" ++ record.recordType ++ "|" ++ value))
        else []
      .ok ({ store with dnsRecords }, requests)

/- a number that is no integer of 32 bits is refused -/
def integer : Number → Option Int
  | .finite q => if q.den = 1 then if integerColumn q.num then some q.num else none else none
  | _ => none

def pulledRow (records : Records) (domainId : Nat) (r : RemoteRecord) : Option DnsRecordRow :=
  let row := DnsRecordRow.mk (randomUUID records) domainId r.type (some r.name) (some r.content)
  match r.priority with
  | none => some (row none none none)
  | some n => (integer n).map (fun priority => row (some priority) none none)

/- the records are inserted one after another, up to the first that is refused -/
def insertRemote (domainId : Nat) : Records → List RemoteRecord → Records × Bool
  | records, [] => (records, true)
  | records, r :: rest =>
    match (pulledRow records domainId r).bind (insertRecord records) with
    | none => (records, false)
    | some records => insertRemote domainId records rest

/- the store after the call, also where it fails; the records of a zone are listed by the first
server -/
def syncRecordsFromProvider (listRecords : DnsServer → String → List RemoteRecord) (store : Store)
    (tenantId domainId : Nat) : Store × Except Failure Unit :=
  match verifyDomainOwnership store.platform tenantId domainId with
  | .error failure => (store, .error failure)
  | .ok domain =>
    let own := getActiveServersForDomain store.platform.dns domain
    let servers := if own = [] then getActiveServers store.platform.dns else own
    match servers with
    | [] => (store, .error (.api ⟨"NO_DNS_SERVERS", "No DNS servers configured", 400⟩))
    | server :: _ =>
      let kept := store.dnsRecords.delete (fun r => r.domainId == domainId)
      let (dnsRecords, whole) := insertRemote domainId kept (listRecords server domain.domainName)
      ({ store with dnsRecords }, if whole then .ok () else .error .database)

theorem fresh_randomUUID (records : Records) : ∀ r ∈ records, r.id ≠ randomUUID records := by
  have below : ∀ (l : List Nat), ∀ n ∈ l, n ≤ l.foldr Nat.max 0 := by
    intro l n mem
    induction l with
    | nil => cases mem
    | cons m rest ih =>
      rcases mem_cons.mp mem with rfl | later
      · exact Nat.le_max_left _ _
      · exact Nat.le_trans (ih later) (Nat.le_max_right _ _)
  intro r mem same
  have small := below _ r.id (mem_map_of_mem mem)
  unfold randomUUID at same
  omega

theorem told_of_sync {request : Request} {r : DnsServer × Request}
    (mem : r ∈ syncRecordToProviders platform domain request) : r.2 = request := by
  unfold syncRecordToProviders at mem
  dsimp only at mem
  split at mem
  · obtain ⟨server, _, rfl⟩ := mem_map.mp mem
    rfl
  · cases mem

theorem verified (passed : verifyDomainOwnership platform tenantId domainId = .ok domain) :
    ownDomain platform domainId tenantId = some domain := by
  unfold verifyDomainOwnership at passed
  split at passed
  · rename_i found
    cases passed
    exact found
  · cases passed

variable {store : Store} {requests : Requests}

theorem recordOf_ok {recordId : Nat} {record : DnsRecordRow} (found : recordOf store recordId domainId = .ok record) :
    record ∈ store.dnsRecords.rows ∧ record.id = recordId ∧ record.domainId = domainId := by
  unfold recordOf at found
  split at found
  · rename_i row selected
    cases found
    obtain ⟨mem, its⟩ := Table.mem_of_select selected
    simp only [Bool.and_eq_true, beq_iff_eq] at its
    exact ⟨mem, its⟩
  · cases found

theorem unreserved {domainName recordType : String} {recordName : Option String} {recordValue : String}
    (passed : assertNotReservedHostname reserved domainName recordType recordName recordValue = none) :
    reserved.has (effectiveFqdn domainName recordName) = false ∧
      (hostnameTargetTypes.contains recordType = true → reserved.has (normalize recordValue) = false) := by
  unfold assertNotReservedHostname at passed
  dsimp only at passed
  split at passed
  · cases passed
  rename_i fqdn
  split at passed
  · cases passed
  rename_i value
  refine ⟨by simpa using fqdn, fun listed => ?_⟩
  simpa using fun there => value ⟨listed, there⟩

theorem createDnsRecord_ok {after : Store} {input : CreateDnsRecordInput}
    (done : createDnsRecord reserved store tenantId domainId input = .ok (after, requests)) :
    ∃ domain, ownDomain store.platform domainId tenantId = some domain ∧
      assertNotReservedHostname reserved domain.domainName input.recordType input.recordName
        input.recordValue = none ∧
      (∃ records, store.dnsRecords.insert (newRecord store.dnsRecords domainId input) = some records ∧
        after = { store with dnsRecords := records }) ∧
      ∀ r ∈ requests, r.2 = .create domain.domainName
        (toProvider (newRecord store.dnsRecords domainId input)) := by
  unfold createDnsRecord at done
  split at done
  · cases done
  rename_i domain owned
  split at done
  · cases done
  rename_i passed
  dsimp only at done
  split at done
  · cases done
  rename_i records inserted
  obtain ⟨rfl, rfl⟩ := Prod.mk.inj (Except.ok.inj done)
  unfold insertRecord at inserted
  split at inserted
  · exact ⟨domain, verified owned, passed, ⟨records, inserted, rfl⟩, fun r mem => told_of_sync mem⟩
  · cases inserted

theorem updateDnsRecord_ok {after : Store} {recordId : Nat} {input : UpdateDnsRecordInput}
    (done : updateDnsRecord reserved store tenantId domainId recordId input = .ok (after, requests)) :
    ∃ domain record, ownDomain store.platform domainId tenantId = some domain ∧
      (record ∈ store.dnsRecords.rows ∧ record.id = recordId ∧ record.domainId = domainId) ∧
      (∀ value ∈ input.recordValue, assertNotReservedHostname reserved domain.domainName record.recordType
        record.recordName value = none) ∧
      after = { store with
        dnsRecords := store.dnsRecords.update (fun r => r.id == recordId) input.assign input.assign_id } ∧
      ∀ r ∈ requests, r.2 = .create domain.domainName (toProvider (input.assign record)) := by
  unfold updateDnsRecord at done
  split at done
  · cases done
  rename_i domain owned
  split at done
  · cases done
  rename_i record found
  split at done
  · cases done
  rename_i passed
  dsimp only at done
  split at done
  · cases done
  obtain ⟨rfl, rfl⟩ := Prod.mk.inj (Except.ok.inj done)
  refine ⟨domain, record, verified owned, recordOf_ok found, fun value given => ?_, rfl,
    fun r mem => told_of_sync mem⟩
  rw [mem_def.mp given] at passed
  exact passed

end HostingPlatform.DnsRecords

/-! A zone at a PowerDNS server and the calls of its adapter, with the contents as they are formatted. -/
namespace HostingPlatform.DnsRecords.PowerDns
open Option

open List Js IngressRoutes

/- a record of a set; names are absolute and in lower case, as the server has them -/
structure Entry where
  (name type content : String)
  disabled : Bool
  absolute : absoluteName name = name

theorem Entry.ext_iff {a b : Entry} : a = b ↔
    a.name = b.name ∧ a.type = b.type ∧ a.content = b.content ∧ a.disabled = b.disabled := by
  cases a
  cases b
  simp

instance : DecidableEq Entry := fun _ _ => decidable_of_iff _ Entry.ext_iff.symm

abbrev Zone := List Entry

def Entry.of (name type content : String) : Entry :=
  ⟨absoluteName name, type, content, false, absoluteName_idem name⟩

def Entry.inSet (name type : String) (e : Entry) : Bool := e.name == name && e.type == type

def formatContent (input : DnsRecordInput) : String :=
  if input.type = "MX" ∧ input.priority.isSome then
    toString (input.priority.getD 0) ++ " " ++ input.content
  else if (input.type = "TXT" ∨ input.type = "SPF") ∧ !startsWith input.content "\"" then
    "\"" ++ input.content ++ "\""
  else if input.type ∈ ["CNAME", "NS", "PTR", "DNAME"] ∧ !endsWith input.content "." then
    input.content ++ "."
  else input.content

def parsePriority (type content : String) : Option Number :=
  if type = "MX" then
    match blankSeparated content.toList with
    | first :: _ :: _ => some (parseInt (String.ofList first))
    | _ => none
  else none

def listRecords (zone : Zone) : List RemoteRecord :=
  zone.map (fun e => ⟨e.type, e.name, e.content, parsePriority e.type e.content⟩)

/- changetype REPLACE and DELETE -/
def replace (zone : Zone) (name type : String) (contents : List String) : Zone :=
  zone.filter (fun e => !e.inSet (absoluteName name) type) ++ contents.map (Entry.of name type)

def erase (zone : Zone) (name type : String) : Zone :=
  zone.filter (fun e => !e.inSet (absoluteName name) type)

/- the set is looked up by the name as it is given -/
def createRecord (domainName : String) (zone : Zone) (input : DnsRecordInput) : Zone :=
  let name := IngressRoutes.PowerDns.recordName domainName input.name
  let existing := ((zone.filter (Entry.inSet name input.type)).filter (fun e => !e.disabled)).map Entry.content
  let newContent := formatContent input
  replace zone name input.type
    (if existing.contains newContent then existing else existing ++ [newContent])

def deleteRecord (domainName : String) (zone : Zone) (recordId : String) : Zone :=
  let (name, type) := idParts recordId
  erase zone (IngressRoutes.PowerDns.recordName domainName name) type

/- the requests that a server gets, on the zone of a domain -/
def handle (server : DnsServer) (zone : Zone) (request : DnsServer × Request) : Zone :=
  if request.1.id = server.id then
    match request.2 with
    | .create domainName record => createRecord domainName zone record
    | .delete domainName recordId => deleteRecord domainName zone recordId
  else zone

end HostingPlatform.DnsRecords.PowerDns
