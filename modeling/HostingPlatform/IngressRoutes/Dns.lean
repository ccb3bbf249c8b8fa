import HostingPlatform.Js.Text
import HostingPlatform.Table

/-! Domains, their DNS records, and the servers on which the records are published. A provider is
seen through its adapter: a call changes one zone of one server, or it fails. What is stored of a
record besides its name, type and content is left out. -/
namespace HostingPlatform.IngressRoutes

open List Js

inductive DnsMode where
  | primary
  | cname
  | secondary
  deriving DecidableEq

structure Domain where
  (id tenantId : Nat)
  domainName : String
  dnsMode : DnsMode
  dnsGroupId : Option Nat
  /- the workload of a domain from before there were routes -/
  deploymentId : Option Nat
  deriving DecidableEq

structure DnsRecord where
  (id domainId : Nat)
  recordType : String
  (recordName recordValue : Option String)

inductive ServerRole where
  | primary
  | secondary
  deriving DecidableEq

structure DnsServer where
  id : Nat
  groupId : Option Nat
  role : ServerRole
  enabled : Bool
  deriving DecidableEq

/- names are absolute, and compared without regard to case -/
def absoluteName (name : String) : String :=
  toLowerCase (if endsWith name "." then name else name ++ ".")

theorem toLower_small {c : Char} (upper : c.isUpper = true) : 97 ≤ c.toLower.toNat ∧ c.toLower.toNat ≤ 122 := by
  have both : c.val ≥ 'A'.val ∧ c.val ≤ 'Z'.val := of_decide_eq_true upper
  have codes := Ascii.isUpper_iff.mp upper
  have sum : c.toLower.toNat = c.toNat + 32 := by
    unfold Char.toLower
    rw [dif_pos both]
    simp only [Char.toNat, UInt32.toNat_add] at codes ⊢
    have : ('a'.val - 'A'.val).toNat = 32 := by decide
    omega
  omega

theorem lowerChar_mem {c d : Char} (mem : d ∈ lowerChar c) : lowerChar d = [d] := by
  cases upper : c.isUpper with
  | true =>
    simp only [lowerChar, upper, if_true, mem_singleton] at mem
    obtain ⟨low, high⟩ := toLower_small upper
    rw [← mem] at low high
    apply lowerChar_ascii (by omega)
    rw [Bool.eq_false_iff]
    intro capital
    have below := (Ascii.isUpper_iff.mp capital).2
    omega
  | false =>
    simp only [lowerChar, upper, Bool.false_eq_true, if_false] at mem
    split at mem
    · rw [mem_singleton.mp mem]
      decide
    · rcases mem_cons.mp mem with rfl | mem
      · decide
      · rw [mem_singleton.mp mem]
        decide
    · rename_i kelvin dotted
      rw [mem_singleton.mp mem]
      exact lowerChar_fixed upper kelvin dotted

theorem toLowerCase_idem (s : String) : toLowerCase (toLowerCase s) = toLowerCase s := by
  have fixed (c : Char) : (lowerChar c).flatMap lowerChar = lowerChar c := by
    calc (lowerChar c).flatMap lowerChar = (lowerChar c).flatMap (fun d => [d]) :=
          flatMap_congr (fun d mem => lowerChar_mem mem)
      _ = lowerChar c := by simp
  simp [toLowerCase, flatMap_assoc, fixed]

theorem toLowerCase_append (s t : String) : toLowerCase (s ++ t) = toLowerCase s ++ toLowerCase t := by
  simp [toLowerCase]

theorem endsWith_append (s ending : String) : endsWith (s ++ ending) ending = true := by
  simp [endsWith]

theorem append_of_endsWith {s ending : String} (ends : endsWith s ending = true) : ∃ front, s = front ++ ending := by
  obtain ⟨front, same⟩ := isSuffixOf_iff_suffix.mp ends
  refine ⟨String.ofList front, ?_⟩
  apply String.toList_inj.mp
  simp [same]

theorem absoluteName_ends (name : String) : ∃ front, absoluteName name = front ++ "." := by
  unfold absoluteName
  split
  · rename_i ends
    obtain ⟨front, rfl⟩ := append_of_endsWith ends
    exact ⟨toLowerCase front, toLowerCase_append front "."⟩
  · exact ⟨toLowerCase name, toLowerCase_append name "."⟩

theorem absoluteName_idem (name : String) : absoluteName (absoluteName name) = absoluteName name := by
  obtain ⟨front, ends⟩ := absoluteName_ends name
  have dotted : endsWith (absoluteName name) "." = true := by
    rw [ends]
    exact endsWith_append front "."
  calc absoluteName (absoluteName name) = toLowerCase (absoluteName name) := by
        rw [absoluteName, if_pos dotted]
    _ = absoluteName name := toLowerCase_idem _

/- as a server has it: the name is an absolute one -/
structure ZoneRecord where
  (name type content : String)
  absolute : absoluteName name = name
  deriving DecidableEq

def ZoneRecord.of (name type content : String) : ZoneRecord :=
  ⟨absoluteName name, type, content, absoluteName_idem name⟩

abbrev Zone := List ZoneRecord

structure DnsRecordInput where
  (type name content : String)
  deriving DecidableEq

/- on the zone of a name; the second is given a record's id -/
structure DnsProviderAdapter where
  createRecord : String → Zone → DnsRecordInput → Option Zone
  deleteRecord : String → Zone → String → Option Zone

abbrev Providers := DnsServer → DnsProviderAdapter

/- of each server the zones that it has, by their names -/
abbrev Zones := Nat → String → Option Zone

def Zones.set (zones : Zones) (server : Nat) (name : String) (zone : Zone) : Zones :=
  fun s n => if s = server ∧ n = name then some zone else zones s n

structure Dns where
  servers : Table DnsServer DnsServer.id
  defaultGroup : Option Nat

def getActiveServers (dns : Dns) : List DnsServer := dns.servers.selectAll DnsServer.enabled

def getPrimaryServersForGroup (dns : Dns) (groupId : Nat) : List DnsServer :=
  dns.servers.selectAll (fun s => s.groupId == some groupId && s.role == .primary && s.enabled)

def getActiveServersForDomain (dns : Dns) (domain : Domain) : List DnsServer :=
  match domain.dnsGroupId.or dns.defaultGroup with
  | some groupId => getPrimaryServersForGroup dns groupId
  | none => getActiveServers dns

def canManageDnsZone (mode : DnsMode) (servers : List DnsServer) : Bool :=
  mode == .primary && servers.any (fun s => s.enabled && s.role == .primary)

inductive SyncAction where
  | create
  | delete

def call (p : DnsProviderAdapter) (domainName : String) (action : SyncAction) (record : DnsRecordInput)
    (zone : Zone) : Option Zone :=
  match action with
  | .create => p.createRecord domainName zone record
  | .delete => p.deleteRecord domainName zone
      (record.name ++ "|" ++ record.type ++ "|" ++ record.content)

def push (p : Providers) (domainName : String) (action : SyncAction) (record : DnsRecordInput)
    (zones : Zones) (server : DnsServer) : Zones :=
  let after := (zones server.id (absoluteName domainName)).bind (call (p server) domainName action record)
  (after.map (zones.set server.id (absoluteName domainName))).getD zones

/- with a domain only where the platform has authority over its zone, without one everywhere -/
def syncRecordToProviders (p : Providers) (dns : Dns) (domainName : String) (action : SyncAction)
    (record : DnsRecordInput) (domain : Option Domain) (zones : Zones) : Zones :=
  match domain with
  | some domain =>
    let servers := getActiveServersForDomain dns domain
    if canManageDnsZone domain.dnsMode servers then
      servers.foldl (push p domainName action record) zones
    else zones
  | none => (getActiveServers dns).foldl (push p domainName action record) zones

variable {domainName other : String} {zone : Zone} {server : DnsServer}

theorem push_other (p : Providers) (action : SyncAction) (record : DnsRecordInput) (zones : Zones)
    (server : DnsServer) (s : Nat) (differs : other ≠ absoluteName domainName) :
    push p domainName action record zones server s other = zones s other := by
  unfold push
  cases (zones server.id (absoluteName domainName)).bind _ with
  | none => rfl
  | some zone => simp [Zones.set, differs]

theorem pushes_other (p : Providers) (action : SyncAction) (record : DnsRecordInput)
    (servers : List DnsServer) (zones : Zones) (s : Nat) (differs : other ≠ absoluteName domainName) :
    servers.foldl (push p domainName action record) zones s other = zones s other := by
  induction servers generalizing zones with
  | nil => rfl
  | cons server rest ih =>
    calc (server :: rest).foldl (push p domainName action record) zones s other
        = push p domainName action record zones server s other := ih _
      _ = zones s other := push_other p action record zones server s differs

theorem sync_other (p : Providers) (dns : Dns) (action : SyncAction) (record : DnsRecordInput)
    (domain : Option Domain) (zones : Zones) (s : Nat) (differs : other ≠ absoluteName domainName) :
    syncRecordToProviders p dns domainName action record domain zones s other = zones s other := by
  unfold syncRecordToProviders
  split
  · dsimp only
    split
    · exact pushes_other p action record _ zones s differs
    · rfl
  · exact pushes_other p action record _ zones s differs

section

variable (p : Providers) (action : SyncAction) (record : DnsRecordInput)
include p action record

theorem push_server (zones : Zones)
    (server : DnsServer) (there : zones server.id (absoluteName domainName) = some zone) :
    push p domainName action record zones server server.id (absoluteName domainName) =
      some ((call (p server) domainName action record zone).getD zone) := by
  unfold push
  rw [there, Option.bind_some]
  cases call (p server) domainName action record zone with
  | none => exact there
  | some after => simp [Zones.set]

theorem push_apart (zones : Zones) {other : DnsServer} (differs : other.id ≠ server.id) (name : String) :
    push p domainName action record zones server other.id name = zones other.id name := by
  unfold push
  cases (zones server.id (absoluteName domainName)).bind _ with
  | none => rfl
  | some zone => simp [Zones.set, differs]

theorem pushes_apart (servers : List DnsServer) (zones : Zones) {other : DnsServer}
    (differs : other.id ∉ servers.map DnsServer.id) (name : String) :
    servers.foldl (push p domainName action record) zones other.id name = zones other.id name := by
  induction servers generalizing zones with
  | nil => rfl
  | cons server rest ih =>
    simp only [map_cons, mem_cons, not_or] at differs
    calc (server :: rest).foldl (push p domainName action record) zones other.id name
        = push p domainName action record zones server other.id name := ih _ differs.2
      _ = zones other.id name := push_apart p action record zones differs.1 name

theorem pushes_server (servers : List DnsServer) (zones : Zones) (keyed : (servers.map DnsServer.id).Nodup)
    (mem : server ∈ servers) (there : zones server.id (absoluteName domainName) = some zone) :
    servers.foldl (push p domainName action record) zones server.id (absoluteName domainName) =
      some ((call (p server) domainName action record zone).getD zone) := by
  induction servers generalizing zones with
  | nil => cases mem
  | cons first rest ih =>
    obtain ⟨fresh, keyed⟩ := nodup_cons.mp keyed
    rcases mem_cons.mp mem with rfl | later
    · calc (server :: rest).foldl (push p domainName action record) zones server.id (absoluteName domainName)
          = push p domainName action record zones server server.id (absoluteName domainName) :=
            pushes_apart p action record rest _ fresh _
        _ = _ := push_server p action record zones server there
    · have differs : server.id ≠ first.id := by
        intro same
        exact fresh (same ▸ mem_map_of_mem later)
      exact ih _ keyed later ((push_apart p action record zones differs _).trans there)

end

theorem getActiveServers_keyed (dns : Dns) : ((getActiveServers dns).map DnsServer.id).Nodup :=
  dns.servers.keyed.sublist (filter_sublist.map _)

theorem getActiveServersForDomain_active {dns : Dns} {domain : Domain}
    (mem : server ∈ getActiveServersForDomain dns domain) : server ∈ getActiveServers dns := by
  unfold getActiveServersForDomain at mem
  split at mem
  · obtain ⟨there, its⟩ := Table.mem_selectAll.mp mem
    simp only [Bool.and_eq_true] at its
    exact Table.mem_selectAll.mpr ⟨there, its.2⟩
  · exact mem

theorem getActiveServersForDomain_keyed (dns : Dns) (domain : Domain) :
    ((getActiveServersForDomain dns domain).map DnsServer.id).Nodup := by
  unfold getActiveServersForDomain
  split
  · exact dns.servers.keyed.sublist (filter_sublist.map _)
  · exact getActiveServers_keyed dns

/- the name and the type in a record's id -/
def idParts (recordId : String) : String × String :=
  match split '|' recordId with
  | name :: type :: _ => (name, type)
  | [name] => (name, "")
  | [] => ("", "")

structure Adapter where
  provider : DnsProviderAdapter
  /- the name under which a record is published -/
  publishesAt : String → String → String
  /- a new record stands beside those of the same name and type -/
  adds : String → DnsRecordInput → Bool
  created : ∀ {domainName : String} {zone after : Zone} {input : DnsRecordInput},
    provider.createRecord domainName zone input = some after →
      ∃ r ∈ after, r.name = publishesAt domainName input.name ∧ r.type = input.type ∧
        r.content = input.content
  beside : ∀ {domainName : String} {zone after : Zone} {input : DnsRecordInput},
    provider.createRecord domainName zone input = some after → ∀ r ∈ zone,
      ¬ (r.name = publishesAt domainName input.name ∧ r.type = input.type) → r ∈ after
  added : ∀ {domainName : String} {zone after : Zone} {input : DnsRecordInput},
    provider.createRecord domainName zone input = some after → adds domainName input = true →
      ∀ r ∈ zone, r ∈ after
  left : ∀ {domainName : String} {zone after : Zone} {recordId : String},
    provider.deleteRecord domainName zone recordId = some after → ∀ r ∈ zone,
      ¬ (r.name = publishesAt domainName (idParts recordId).1 ∧ r.type = (idParts recordId).2) → r ∈ after

def inZone (domainName name : String) : Bool :=
  absoluteName name == absoluteName domainName ||
    endsWith (absoluteName name) ("." ++ absoluteName domainName)

namespace PowerDns

open List

def normalized (zone : String) : String := if endsWith zone "." then zone else zone ++ "."

/- '@' is the root of the zone -/
def recordName (zone name : String) : String :=
  if name = "@" ∨ name = "" then normalized zone
  else if endsWith name "." then name else name ++ "." ++ normalized zone

def ofRrset (name type : String) (r : ZoneRecord) : Bool := r.name == name && r.type == type

/- the set is replaced by what it held, where that is found, and the new record -/
def createRecord (domainName : String) (zone : Zone) (input : DnsRecordInput) : Option Zone :=
  let name := recordName domainName input.name
  let existing := (zone.filter (ofRrset name input.type)).map ZoneRecord.content
  let records := if existing.contains input.content then existing else existing ++ [input.content]
  if inZone domainName name then
    some (zone.filter (fun r => !ofRrset (absoluteName name) input.type r) ++
      records.map (ZoneRecord.of name input.type))
  else none

def deleteRecord (domainName : String) (zone : Zone) (recordId : String) : Option Zone :=
  let (name, type) := idParts recordId
  let name := recordName domainName name
  if inZone domainName name then
    some (zone.filter (fun r => !ofRrset (absoluteName name) type r))
  else none

def provider : DnsProviderAdapter := ⟨createRecord, deleteRecord⟩

def publishesAt (domainName name : String) : String := absoluteName (recordName domainName name)

/- the server has its names in lower case, and the adapter compares them as they are -/
def adds (domainName : String) (input : DnsRecordInput) : Bool :=
  recordName domainName input.name == publishesAt domainName input.name

theorem endsWith_dot_iff (s : String) : endsWith s "." = true ↔ s.toList.getLast? = some '.' := by
  constructor
  · intro ends
    obtain ⟨front, rfl⟩ := append_of_endsWith ends
    simp
  · intro last
    obtain ⟨front, same⟩ := getLast?_eq_some_iff.mp last
    exact isSuffixOf_iff_suffix.mpr ⟨front, same.symm⟩

theorem ofRrset_iff {name type : String} {r : ZoneRecord} :
    ofRrset name type r = true ↔ r.name = name ∧ r.type = type := by
  simp [ofRrset]

variable {domainName : String} {zone after : Zone} {input : DnsRecordInput}

section

variable (done : provider.createRecord domainName zone input = some after)
include done

theorem created : ∃ r ∈ after, r.name = publishesAt domainName input.name ∧ r.type = input.type ∧
      r.content = input.content := by
  unfold provider createRecord at done
  dsimp only at done
  split at done
  · cases done
    refine ⟨.of (recordName domainName input.name) input.type input.content, ?_, rfl, rfl, rfl⟩
    apply mem_append_right
    apply mem_map_of_mem
    split
    · rename_i there
      exact contains_iff_mem.mp there
    · simp
  · cases done

theorem beside (r : ZoneRecord)
    (mem : r ∈ zone) (apart : ¬ (r.name = publishesAt domainName input.name ∧ r.type = input.type)) : r ∈ after := by
  unfold provider createRecord at done
  dsimp only at done
  split at done
  · cases done
    apply mem_append_left
    refine mem_filter.mpr ⟨mem, ?_⟩
    simp only [Bool.not_eq_true', Bool.eq_false_iff, ne_eq, ofRrset_iff]
    exact apart
  · cases done

theorem added (adds : adds domainName input = true) (r : ZoneRecord) (mem : r ∈ zone) : r ∈ after := by
  by_cases its : r.name = publishesAt domainName input.name ∧ r.type = input.type
  · unfold provider createRecord at done
    dsimp only at done
    split at done
    · cases done
      apply mem_append_right
      have same : r.name = recordName domainName input.name := its.1.trans (beq_iff_eq.mp adds).symm
      have held : r.content ∈
          (zone.filter (ofRrset (recordName domainName input.name) input.type)).map ZoneRecord.content :=
        mem_map_of_mem (mem_filter.mpr ⟨mem, ofRrset_iff.mpr ⟨same, its.2⟩⟩)
      refine mem_map.mpr ⟨r.content, ?_, ?_⟩
      · split
        · exact held
        · exact mem_append_left _ held
      · obtain ⟨name, type, content, absolute⟩ := r
        obtain ⟨rfl, rfl⟩ := its
        rfl
    · cases done
  · exact beside done r mem its

end

theorem left {recordId : String} (done : provider.deleteRecord domainName zone recordId = some after)
    (r : ZoneRecord) (mem : r ∈ zone)
    (apart : ¬ (r.name = publishesAt domainName (idParts recordId).1 ∧ r.type = (idParts recordId).2)) : r ∈ after := by
  unfold provider deleteRecord at done
  dsimp only at done
  split at done
  · cases done
    refine mem_filter.mpr ⟨mem, ?_⟩
    simp only [Bool.not_eq_true', Bool.eq_false_iff, ne_eq, ofRrset_iff]
    exact apart
  · cases done

def adapter : Adapter where
  provider := provider
  publishesAt := publishesAt
  adds := adds
  created done := created done
  beside done r mem apart := beside done r mem apart
  added done adds r mem := added done adds r mem
  left done r mem apart := left done r mem apart

end PowerDns

end HostingPlatform.IngressRoutes
