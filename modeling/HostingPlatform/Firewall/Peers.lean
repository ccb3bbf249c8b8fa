import HostingPlatform.Firewall.Nft
import HostingPlatform.Go.Strings

/-! The peers and trusted ranges of a node's firewall: what the reconciler accepts of the
nodes, the trusted ranges and the pending peers, and the sets it wants in the kernel. -/
namespace HostingPlatform.Firewall.Peers

open List Netip Go

/- the canonical text of a single address, and its family -/
def canonicalAddr (z : ZonedAddr) : String × Family :=
  if z.unmap.addr.is4 then (z.unmap.string ++ "/32", .v4) else (z.unmap.string ++ "/128", .v6)

/- the prefix of the whole internet is refused -/
def canonicalisePrefix (p : Prefix) : Option (String × Family) :=
  if p.bits = 0 then none else some (p.masked.string, p.masked.addr.family)

def parseIPOrCIDR (s : String) : Option (String × Family) :=
  if trimSpace s = "" then none
  else
    match parsePrefix (trimSpace s) with
    | some p => canonicalisePrefix p
    | none => (parseAddr (trimSpace s)).map canonicalAddr

def parseBareIP (s : String) : Option (String × Family) :=
  if trimSpace s = "" then none else (parseAddr (trimSpace s)).map canonicalAddr

/- what stands before the first slash, unless that is nothing -/
def stripPrefix (s : String) : String :=
  let before := s.toList.takeWhile (· != '/')
  if before.isEmpty then s else String.ofList before

structure NodeAddress where
  (type address : String)

structure Node where
  podCIDR : String
  podCIDRs : List String
  addresses : List NodeAddress

/- a range without `spec.cidr` has the empty text -/
structure ClusterTrustedRange where
  cidr : String

/- in nanoseconds -/
abbrev Time := Int

/- a peer without `spec.ip` has the empty text -/
structure ClusterPendingPeer where
  ip : String
  ttlSeconds : Option Int
  (creationTimestamp claimedAt : Option Time)

/- what the informers hold at a tick, with the time of it -/
structure Objects where
  nodes : List Node
  trustedRanges : List ClusterTrustedRange
  pendingPeers : List ClusterPendingPeer
  now : Time
  cppGrace : Duration

structure PeerNftSets where
  (peersV4 peersV6 trustedV4 trustedV6 : List String)

def internalIPs (nodes : List Node) : List ZonedAddr :=
  nodes.flatMap (fun n => n.addresses.filterMap (fun addr =>
    if addr.type = "InternalIP" then (parseAddr addr.address).map ZonedAddr.unmap else none))

def splitInternalIPs (nodes : List Node) : List String × List String :=
  let (v4, v6) := (internalIPs nodes).partition (·.addr.is4)
  (sortStrings (v4.map ZonedAddr.string), sortStrings (v6.map ZonedAddr.string))

/- the product of a `time.Duration` wraps around at 64 bits -/
def expiresAt (o : Objects) (cpp : ClusterPendingPeer) : Time :=
  cpp.creationTimestamp.getD o.now + Int.bmod (cpp.ttlSeconds.getD 1800 * 1000000000) (2 ^ 64)

def expired (o : Objects) (cpp : ClusterPendingPeer) : Bool :=
  match cpp.claimedAt with
  | some claimedAt => claimedAt + o.cppGrace < o.now
  | none => expiresAt o cpp < o.now

/- the address of a peer that is not expired, and its family -/
def activePeer (o : Objects) (cpp : ClusterPendingPeer) : Option (String × Family) :=
  if cpp.ip = "" then none
  else
    match parseBareIP cpp.ip with
    | none => none
    | some (canonical, family) =>
      if expired o cpp then none else some (stripPrefix canonical, family)

def trustedRange (ctr : ClusterTrustedRange) : Option (String × Family) :=
  if ctr.cidr = "" then none else parseIPOrCIDR ctr.cidr

def ofFamily (family : Family) (l : List (String × Family)) : List String :=
  (l.filter (fun entry => entry.2 == family)).map Prod.fst

def desired (o : Objects) : PeerNftSets :=
  let (peerV4, peerV6) := splitInternalIPs o.nodes
  let cpps := o.pendingPeers.filterMap (activePeer o)
  let ctrs := o.trustedRanges.filterMap trustedRange
  { peersV4 := uniqueSorted (peerV4 ++ ofFamily .v4 cpps)
    peersV6 := uniqueSorted (peerV6 ++ ofFamily .v6 cpps)
    trustedV4 := uniqueSorted (ofFamily .v4 ctrs)
    trustedV6 := uniqueSorted (ofFamily .v6 ctrs) }

def host (a : Addr) : Prefix := ⟨a, a.family.width, Nat.le_refl _⟩

structure Entry where
  range : Prefix
  zone : String

def Entry.family (e : Entry) : Family := e.range.addr.family

def Entry.addr (e : Entry) : ZonedAddr := ⟨e.range.addr, e.zone⟩

def Entry.text (e : Entry) : String := e.addr.string ++ "/" ++ toString e.range.bits

def Entry.of (z : ZonedAddr) : Entry := ⟨host z.unmap.addr, z.unmap.zone⟩

def bareEntry (s : String) : Option Entry :=
  if trimSpace s = "" then none else (parseAddr (trimSpace s)).map Entry.of

def rangeEntry (s : String) : Option Entry :=
  if trimSpace s = "" then none
  else
    match parsePrefix (trimSpace s) with
    | some p => if p.bits = 0 then none else some ⟨p.masked, ""⟩
    | none => (parseAddr (trimSpace s)).map Entry.of

def nodeEntries (o : Objects) : List Entry :=
  o.nodes.flatMap (fun n => n.addresses.filterMap (fun addr =>
    if addr.type = "InternalIP" then (parseAddr addr.address).map Entry.of else none))

def peerEntry (o : Objects) (cpp : ClusterPendingPeer) : Option Entry :=
  if cpp.ip = "" then none
  else (bareEntry cpp.ip).bind (fun e => if expired o cpp then none else some e)

def peerEntries (o : Objects) : List Entry := o.pendingPeers.filterMap (peerEntry o)

def rangeEntries (o : Objects) : List Entry :=
  o.trustedRanges.filterMap (fun ctr => if ctr.cidr = "" then none else rangeEntry ctr.cidr)

def accepted (o : Objects) : List Entry := nodeEntries o ++ peerEntries o ++ rangeEntries o

variable {a : Addr} {s : String} {o : Objects}

theorem is4_iff : a.is4 = true ↔ a.family = .v4 := by
  simp [Addr.is4]

theorem not_is4_iff : ¬ a.is4 = true ↔ a.family = .v6 := by
  rw [is4_iff]
  cases a.family <;> simp

theorem canonicalAddr_eq (z : ZonedAddr) : canonicalAddr z = ((Entry.of z).text, (Entry.of z).family) := by
  have slash : "/32" = "/" ++ toString 32 ∧ "/128" = "/" ++ toString 128 := by decide
  have text : (Entry.of z).text = z.unmap.string ++ "/" ++ toString z.unmap.addr.family.width := rfl
  have family : (Entry.of z).family = z.unmap.addr.family := rfl
  rw [text, family, canonicalAddr]
  split
  · rename_i four
    rw [is4_iff.mp four, String.append_assoc]
    rfl
  · rename_i six
    rw [not_is4_iff.mp six, String.append_assoc]
    rfl

theorem parseBareIP_eq (s : String) : parseBareIP s = (bareEntry s).map (fun e => (e.text, e.family)) := by
  unfold parseBareIP bareEntry
  split
  · rfl
  · rw [Option.map_map]
    exact congrArg (fun f => (parseAddr (trimSpace s)).map f) (funext canonicalAddr_eq)

theorem Entry.text_plain (p : Prefix) : (Entry.mk p "").text = p.string := by
  simp [Entry.text, Entry.addr, ZonedAddr.string_plain, Prefix.string]

theorem parseIPOrCIDR_eq (s : String) : parseIPOrCIDR s = (rangeEntry s).map (fun e => (e.text, e.family)) := by
  unfold parseIPOrCIDR rangeEntry
  split
  · rfl
  split
  · unfold canonicalisePrefix
    split
    · rfl
    · rfl
  · rw [Option.map_map]
    exact congrArg (fun f => (parseAddr (trimSpace s)).map f) (funext canonicalAddr_eq)

theorem activePeer_eq (o : Objects) (cpp : ClusterPendingPeer) :
    activePeer o cpp = (peerEntry o cpp).map (fun e => (stripPrefix e.text, e.family)) := by
  unfold activePeer peerEntry
  split
  · rfl
  rw [parseBareIP_eq]
  cases bareEntry cpp.ip with
  | none => rfl
  | some e =>
    simp only [Option.map_some]
    split <;> rfl

theorem takeWhile_stop {p : Char → Bool} (l : List Char) {d : Char} (rest : List Char)
    (stops : p d = false) : (l ++ d :: rest).takeWhile p = l.takeWhile p := by
  induction l with
  | nil => simp [stops]
  | cons c l ih => simp [takeWhile_cons, ih]

theorem stripPrefix_text (e : Entry) : (stripPrefix e.text).toList =
    e.range.addr.string.toList ++ (zoneText e.zone).takeWhile (· != '/') := by
  have slash : "/".toList = ['/'] := by decide
  have text : e.text.toList = e.range.addr.string.toList ++
      (zoneText e.zone ++ '/' :: (toString e.range.bits).toList) := by
    rw [Entry.text, ZonedAddr.string_eq]
    simp [Entry.addr]
  have plain : ∀ c ∈ e.range.addr.string.toList, (c != '/') = true := by
    intro c mem
    rw [bne_iff_ne]
    rintro rfl
    rcases Addr.string_chars mem with digit | colon | dot
    · exact absurd digit (by decide)
    · exact absurd colon (by decide)
    · exact absurd dot (by decide)
  have some : e.range.addr.string.toList ≠ [] := by
    intro none
    have read := parseAddr_plain e.range.addr
    rw [String.toList_eq_nil_iff.mp none] at read
    cases read
  have cut := takeWhile_stop (p := (· != '/')) (zoneText e.zone) (toString e.range.bits).toList
    (d := '/') (by decide)
  unfold stripPrefix
  rw [text, takeWhile_append_of_pos plain, cut]
  rw [if_neg (by simp [some]), String.toList_ofList]

def PeerNftSets.peers (s : PeerNftSets) : Family → List String
  | .v4 => s.peersV4
  | .v6 => s.peersV6

def PeerNftSets.trusted (s : PeerNftSets) : Family → List String
  | .v4 => s.trustedV4
  | .v6 => s.trustedV6

theorem mem_ofFamily {family : Family} {es : List Entry} {f : Entry → String} :
    s ∈ ofFamily family (es.map (fun e => (f e, e.family))) ↔ ∃ e ∈ es, e.family = family ∧ f e = s := by
  simp only [ofFamily, mem_map, mem_filter, beq_iff_eq]
  constructor
  · rintro ⟨_, ⟨⟨e, mem, rfl⟩, same⟩, rfl⟩
    exact ⟨e, mem, same, rfl⟩
  · rintro ⟨e, mem, same, rfl⟩
    exact ⟨_, ⟨⟨e, mem, rfl⟩, same⟩, rfl⟩

theorem mem_trusted {family : Family} :
    s ∈ (desired o).trusted family ↔ ∃ e ∈ rangeEntries o, e.family = family ∧ e.text = s := by
  have texts : o.trustedRanges.filterMap trustedRange = (rangeEntries o).map (fun e => (e.text, e.family)) := by
    rw [rangeEntries, map_filterMap]
    refine filterMap_congr ?_
    intro ctr _
    unfold trustedRange
    split
    · rfl
    · exact parseIPOrCIDR_eq ctr.cidr
  cases family <;> simp [desired, PeerNftSets.trusted, mem_uniqueSorted, texts, mem_ofFamily]

theorem mem_internalIPs {z : ZonedAddr} (mem : z ∈ internalIPs o.nodes) : ∃ e ∈ nodeEntries o, e.addr = z := by
  obtain ⟨n, memN, inside⟩ := mem_flatMap.mp mem
  obtain ⟨addr, memA, read⟩ := mem_filterMap.mp inside
  split at read
  · rename_i internal
    obtain ⟨w, parsed, rfl⟩ := Option.map_eq_some_iff.mp read
    refine ⟨Entry.of w, mem_flatMap.mpr ⟨n, memN, mem_filterMap.mpr ⟨addr, memA, ?_⟩⟩, rfl⟩
    rw [if_pos internal, parsed]
    rfl
  · cases read

theorem nodeEntries_internalIPs {e : Entry} (mem : e ∈ nodeEntries o) :
    e.addr ∈ internalIPs o.nodes ∧ e.range = host e.range.addr := by
  obtain ⟨n, memN, inside⟩ := mem_flatMap.mp mem
  obtain ⟨addr, memA, read⟩ := mem_filterMap.mp inside
  split at read
  · rename_i internal
    obtain ⟨w, parsed, rfl⟩ := Option.map_eq_some_iff.mp read
    refine ⟨mem_flatMap.mpr ⟨n, memN, mem_filterMap.mpr ⟨addr, memA, ?_⟩⟩, rfl⟩
    rw [if_pos internal, parsed]
    rfl
  · cases read

def side (family : Family) (both : List String × List String) : List String :=
  match family with
  | .v4 => both.1
  | .v6 => both.2

theorem mem_splitInternalIPs {family : Family} : s ∈ side family (splitInternalIPs o.nodes) ↔
      ∃ e ∈ nodeEntries o, e.family = family ∧ e.addr.string = s := by
  have inside : s ∈ side family (splitInternalIPs o.nodes) ↔
      ∃ z ∈ internalIPs o.nodes, z.addr.family = family ∧ z.string = s := by
    cases family with
    | v4 =>
      simp [side, splitInternalIPs, mem_sortStrings,
        is4_iff, and_assoc]
    | v6 =>
      simp [side, splitInternalIPs, mem_sortStrings,
        ← Bool.not_eq_true,
        not_is4_iff, and_assoc]
  rw [inside]
  constructor
  · rintro ⟨z, mem, same, text⟩
    obtain ⟨e, memE, rfl⟩ := mem_internalIPs mem
    exact ⟨e, memE, same, text⟩
  · rintro ⟨e, mem, same, text⟩
    exact ⟨e.addr, (nodeEntries_internalIPs mem).1, same, text⟩

theorem mem_peers {family : Family} : s ∈ (desired o).peers family ↔
      (∃ e ∈ nodeEntries o, e.family = family ∧ e.addr.string = s) ∨
        ∃ e ∈ peerEntries o, e.family = family ∧ stripPrefix e.text = s := by
  have texts : o.pendingPeers.filterMap (activePeer o) =
      (peerEntries o).map (fun e => (stripPrefix e.text, e.family)) := by
    rw [peerEntries, map_filterMap]
    exact filterMap_congr (fun cpp _ => activePeer_eq o cpp)
  have split : s ∈ (desired o).peers family ↔ s ∈ side family (splitInternalIPs o.nodes) ∨
      s ∈ ofFamily family (o.pendingPeers.filterMap (activePeer o)) := by
    cases family <;>
      simp [desired, PeerNftSets.peers, mem_uniqueSorted, side]
  rw [split, mem_splitInternalIPs, texts, mem_ofFamily]

end HostingPlatform.Firewall.Peers
