import HostingPlatform.Firewall.Peers

/-! The exclusions of the blocklist are read from the same objects as the peers and the trusted
ranges, by another reader. What it overlooks of what is trusted can be banned. -/
namespace HostingPlatform.Firewall.Peers

open List Netip Go

def parseCIDRSafely (s : String) : Option Prefix := (parsePrefix s).map unmapPrefix

def podCIDRsFromNode (n : Node) : List String :=
  (if trimSpace n.podCIDR = "" then [] else [trimSpace n.podCIDR]) ++
    (n.podCIDRs.map trimSpace).filter (fun c => c != "" && c != n.podCIDR)

/- a node's own addresses, inside and outside -/
def nodePrefix (addr : NodeAddress) : Option Prefix :=
  if addr.type ≠ "InternalIP" ∧ addr.type ≠ "ExternalIP" then none
  else (parseAddr addr.address).map (fun z => host z.addr.unmap)

def rangePrefix (ctr : ClusterTrustedRange) : Option Prefix :=
  if ctr.cidr = "" then none else parseCIDRSafely ctr.cidr

def peerPrefix (cpp : ClusterPendingPeer) : Option Prefix :=
  if cpp.ip = "" then none
  else
    (parseBareIP cpp.ip).bind (fun found =>
      (parseAddr (stripPrefix found.1)).map (fun z => host z.addr.unmap))

def appendToFamily (ex : ExclusionSet) (p : Prefix) : ExclusionSet :=
  if p.addr.is4 then { ex with v4 := ex.v4 ++ [p] } else { ex with v6 := ex.v6 ++ [p] }

def buildExclusionSet (o : Objects) (serviceCIDREnv : String) : ExclusionSet :=
  let service := if serviceCIDREnv = "" then [] else (parseCIDRSafely serviceCIDREnv).toList
  let nodes := o.nodes.flatMap (fun n =>
    (podCIDRsFromNode n).filterMap parseCIDRSafely ++ n.addresses.filterMap nodePrefix)
  (service ++ nodes ++ o.trustedRanges.filterMap rangePrefix ++
    o.pendingPeers.filterMap peerPrefix).foldl appendToFamily ⟨[], []⟩

/-- A zone whose text `stripPrefix` cuts off entirely. -/
def SlashZone (zone : String) : Prop := zone.toList.head? = some '/'

instance (zone : String) : Decidable (SlashZone zone) := inferInstanceAs (Decidable (_ = _))

/- what the exclusions take from the objects -/
inductive Source (o : Objects) (serviceCIDREnv : String) : Prefix → Prop
  | service {p : Prefix} (read : parsePrefix serviceCIDREnv = some p) :
      Source o serviceCIDREnv (unmapPrefix p)
  | pod {n : Node} {cidr : String} {p : Prefix} (mem : n ∈ o.nodes)
      (listed : cidr ∈ podCIDRsFromNode n) (read : parsePrefix cidr = some p) :
      Source o serviceCIDREnv (unmapPrefix p)
  | node {n : Node} {addr : NodeAddress} {z : ZonedAddr} (mem : n ∈ o.nodes)
      (listed : addr ∈ n.addresses) (own : addr.type = "InternalIP" ∨ addr.type = "ExternalIP")
      (read : parseAddr addr.address = some z) : Source o serviceCIDREnv (host z.addr.unmap)
  | range {ctr : ClusterTrustedRange} {p : Prefix} (mem : ctr ∈ o.trustedRanges)
      (read : parsePrefix ctr.cidr = some p) : Source o serviceCIDREnv (unmapPrefix p)
  | peer {cpp : ClusterPendingPeer} {e : Entry} (mem : cpp ∈ o.pendingPeers)
      (read : bareEntry cpp.ip = some e) (zone : ¬ SlashZone e.zone) :
      Source o serviceCIDREnv e.range

def AllExcluded (o : Objects) (serviceCIDREnv : String) : Prop :=
  ∀ e ∈ accepted o, ∃ q ∈ (buildExclusionSet o serviceCIDREnv).v4 ++
    (buildExclusionSet o serviceCIDREnv).v6, prefixContainsOrEquals q e.range = true

/-- A prefix with no white space around it, which is not one of IPv4 addresses in disguise and
others. -/
def Direct (cidr : String) : Prop :=
  trimSpace cidr = cidr ∧ ∃ p, parsePrefix cidr = some p ∧ (p.addr.is4In6 = true → 96 ≤ p.bits)

def Elsewhere (o : Objects) (serviceCIDREnv : String) (r : Prefix) : Prop :=
  ∃ q, Source o serviceCIDREnv q ∧ prefixContainsOrEquals q r = true

theorem unmapPrefix_addr (p : Prefix) : (unmapPrefix p).addr = p.addr.unmap := by
  unfold unmapPrefix
  split
  · rename_i same
    exact same.symm
  · rfl

variable {p q : Prefix} {s : String} {z : ZonedAddr} {e : Entry} {cpp : ClusterPendingPeer} {o : Objects}

theorem unmapPrefix_plain (plain : p.addr.is4In6 = false) : unmapPrefix p = p := by
  rw [unmapPrefix, if_pos (unmap_plain plain)]

theorem unmapPrefix_unmapPrefix (p : Prefix) : unmapPrefix (unmapPrefix p) = unmapPrefix p := by
  have same : (unmapPrefix p).addr.unmap = (unmapPrefix p).addr := by
    rw [unmapPrefix_addr, unmap_unmap]
  conv_lhs => rw [unmapPrefix, if_pos same]

theorem containsOrEquals_iff_covers (outer inner : Prefix) :
    prefixContainsOrEquals outer inner = true ↔ (unmapPrefix outer).Covers (unmapPrefix inner) := by
  have plain : ∀ p : Prefix, (unmapPrefix p).addr.unmap = (unmapPrefix p).addr := by
    intro p
    rw [unmapPrefix_addr, unmap_unmap]
  have same : prefixContainsOrEquals outer inner =
      prefixContainsOrEquals (unmapPrefix outer) (unmapPrefix inner) := by
    simp [prefixContainsOrEquals, unmapPrefix_unmapPrefix]
  rw [same, containsOrEquals_iff (plain outer) (plain inner)]

theorem contains_self (p : Prefix) : prefixContainsOrEquals p p = true :=
  (containsOrEquals_iff_covers p p).mpr ⟨rfl, Nat.le_refl _, rfl⟩

theorem masked_div {k : Nat} (low : p.hostBits ≤ k) : p.masked.addr.value / 2 ^ k = p.addr.value / 2 ^ k :=
  div_coarser low (clearLow_div p.hostBits p.addr.value)

theorem is4In6_iff {a : Addr} : a.is4In6 = true ↔ a.family = .v6 ∧ a.value / 2 ^ 32 = 0xffff := by
  simp [Addr.is4In6]

theorem masked_plain (plain : p.addr.is4In6 = false) : p.masked.addr.is4In6 = false := by
  by_contra mapped
  rw [Bool.not_eq_false, is4In6_iff] at mapped
  obtain ⟨six, high⟩ := mapped
  have own : p.addr.value / 2 ^ 32 ≠ 0xffff := by
    intro same
    have both : p.addr.is4In6 = true := is4In6_iff.mpr ⟨six, same⟩
    rw [plain] at both
    cases both
  by_cases low : p.hostBits ≤ 32
  · rw [masked_div low] at high
    exact own high
  -- the lowest bit above the 32 is cleared
  have even : p.masked.addr.value / 2 ^ 32 = 2 * (p.addr.value / 2 ^ p.hostBits * 2 ^ (p.hostBits - 33)) := by
    have power : 2 ^ p.hostBits = 2 ^ 32 * (2 * 2 ^ (p.hostBits - 33)) := by
      rw [← Nat.pow_succ', ← Nat.pow_add]
      congr 1
      omega
    have cleared : p.masked.addr.value = p.addr.value / 2 ^ p.hostBits * 2 ^ p.hostBits := rfl
    rw [cleared]
    conv_lhs => rw [power, Nat.mul_left_comm, Nat.mul_div_cancel_left _ (Nat.two_pow_pos 32)]
    rw [← power]
    ring
  omega

theorem unmapPrefix_mapped (mapped : q.addr.is4In6 = true) (long : 96 ≤ q.bits) :
    (unmapPrefix q).addr.family = .v4 ∧ (unmapPrefix q).addr.value = q.addr.value % 2 ^ 32 ∧
      (unmapPrefix q).bits = q.bits - 96 ∧ (unmapPrefix q).hostBits = q.hostBits := by
  have four : q.addr.unmap.family = .v4 := by simp [Addr.unmap, mapped]
  have six := (is4In6_iff.mp mapped).1
  have whole := q.inRange
  rw [six] at whole
  simp only [Family.width] at whole
  have differs : ¬ q.addr.unmap = q.addr := by
    intro same
    rw [same, six] at four
    cases four
  have bits : (unmapPrefix q).bits = q.bits - 96 := by
    rw [unmapPrefix, if_neg differs]
    exact Nat.min_eq_left (by omega)
  refine ⟨(unmapPrefix_addr q).symm ▸ four, by rw [unmapPrefix_addr]; simp [Addr.unmap, mapped], bits, ?_⟩
  rw [Prefix.hostBits, unmapPrefix_addr, four, Prefix.hostBits, six]
  simp only [Family.width]
  omega

theorem contains_masked (fits : p.addr.is4In6 = true → 96 ≤ p.bits) : prefixContainsOrEquals p p.masked = true := by
  rw [containsOrEquals_iff_covers]
  cases mapped : p.addr.is4In6 with
  | false =>
    rw [unmapPrefix_plain mapped, unmapPrefix_plain (masked_plain mapped)]
    exact ⟨rfl, Nat.le_refl _, clearLow_div p.hostBits p.addr.value⟩
  | true =>
    have long := fits mapped
    obtain ⟨six, high⟩ := is4In6_iff.mp mapped
    have hostBits : p.hostBits = 128 - p.bits := by rw [Prefix.hostBits, six]; rfl
    have low : p.hostBits ≤ 32 := by omega
    have mapped' : p.masked.addr.is4In6 = true := is4In6_iff.mpr ⟨six, (masked_div low).trans high⟩
    obtain ⟨familyP, valueP, bitsP, same⟩ := unmapPrefix_mapped mapped long
    obtain ⟨familyM, valueM, bitsM, _⟩ := unmapPrefix_mapped mapped' long
    have length : p.masked.bits = p.bits := rfl
    refine ⟨familyP.trans familyM.symm, by omega, ?_⟩
    have power : 2 ^ 32 = 2 ^ p.hostBits * 2 ^ (32 - p.hostBits) := by
      rw [← Nat.pow_add, Nat.add_sub_cancel' low]
    rw [same, valueM, valueP, power, Nat.mod_mul_right_div_self, Nat.mod_mul_right_div_self,
      masked_div (Nat.le_refl _)]

theorem foldl_appendToFamily (l : List Prefix) (ex : ExclusionSet) (q : Prefix) :
    q ∈ (l.foldl appendToFamily ex).v4 ++ (l.foldl appendToFamily ex).v6 ↔ q ∈ ex.v4 ++ ex.v6 ∨ q ∈ l := by
  induction l generalizing ex with
  | nil => simp
  | cons p rest ih =>
    rw [foldl_cons, ih, mem_cons]
    have step : q ∈ (appendToFamily ex p).v4 ++ (appendToFamily ex p).v6 ↔ q ∈ ex.v4 ++ ex.v6 ∨ q = p := by
      unfold appendToFamily
      split
      · simp only [mem_append, mem_singleton]
        tauto
      · simp only [mem_append, mem_singleton]
        tauto
    rw [step, or_assoc]

theorem zone_of_parseAddr (read : parseAddr s = some z) : z.zone = "" ∨ z.addr.family = .v6 := by
  unfold parseAddr at read
  split at read
  · obtain ⟨a, _, rfl⟩ := Option.map_eq_some_iff.mp read
    exact .inl rfl
  · unfold parseIPv6 at read
    dsimp only at read
    split at read
    · cases read
    obtain ⟨gs, _, tail⟩ := Option.bind_eq_some_iff.mp read
    obtain ⟨a, found, rfl⟩ := Option.map_eq_some_iff.mp tail
    right
    unfold addrOf at found
    split at found
    · cases found
      rfl
    · cases found
  · cases read

theorem zone_of_unmap (zoned : z.zone = "" ∨ z.addr.family = .v6) : z.unmap.zone = "" ∨ z.unmap.addr.family = .v6 := by
  unfold ZonedAddr.unmap
  split
  · exact .inl rfl
  · exact zoned

theorem parseAddr_stripPrefix (zoned : e.zone = "" ∨ e.range.addr.family = .v6) :
    (SlashZone e.zone → parseAddr (stripPrefix e.text) = none) ∧
      (¬ SlashZone e.zone → ∃ zone, parseAddr (stripPrefix e.text) = some ⟨e.range.addr, zone⟩) := by
  have text : stripPrefix e.text = String.ofList (e.range.addr.string.toList ++
      (zoneText e.zone).takeWhile (· != '/')) := by
    rw [← stripPrefix_text, String.ofList_toList]
  constructor
  · intro cut
    have some : e.zone ≠ "" := by
      intro none
      rw [none] at cut
      cases cut
    have six := zoned.resolve_left some
    obtain ⟨free, first, _⟩ := string_v6 six
    have left : (zoneText e.zone).takeWhile (· != '/') = ['%'] := by
      rw [zoneText, if_neg some]
      cases chars : e.zone.toList with
      | nil => exact absurd (String.toList_eq_nil_iff.mp chars) some
      | cons c rest =>
        rw [SlashZone, chars] at cut
        cases cut
        rfl
    have empty : ((e.range.addr.string.toList ++ ['%']).dropWhile (· != '%')).tail = [] := by
      rw [dropWhile_append_of_pos]
      · rfl
      intro c mem
      rw [bne_iff_ne]
      rintro rfl
      exact free mem
    rw [text, left, parseAddr, String.toList_ofList, find?_append, first]
    simp [parseIPv6, empty]
  · intro kept
    rcases zoned with none | six
    · refine ⟨"", ?_⟩
      rw [text, none, zoneText, if_pos rfl, takeWhile_nil, append_nil, String.ofList_toList]
      exact parseAddr_plain e.range.addr
    obtain ⟨free, first, gs, read, same⟩ := string_v6 six
    refine ⟨String.ofList (e.zone.toList.takeWhile (· != '/')), ?_⟩
    have left : (zoneText e.zone).takeWhile (· != '/') =
        zoneText (String.ofList (e.zone.toList.takeWhile (· != '/'))) := by
      unfold zoneText
      cases chars : e.zone.toList with
      | nil => rw [String.toList_eq_nil_iff.mp chars]; rfl
      | cons c rest =>
        have some : e.zone ≠ "" := by
          intro none
          rw [none] at chars
          cases chars
        have solid : (c != '/') = true := by
          rw [bne_iff_ne]
          rintro rfl
          exact kept (by rw [SlashZone, chars]; rfl)
        have still : String.ofList ((c :: rest).takeWhile (· != '/')) ≠ "" := by
          intro none
          have chars' := congrArg String.toList none
          simp [solid] at chars'
        rw [if_neg some, if_neg still, String.toList_ofList]
        rfl
    rw [text, left]
    exact parseAddr_groups six free first read same _

theorem bareEntry_zoned (read : bareEntry s = some e) : e.zone = "" ∨ e.range.addr.family = .v6 := by
  unfold bareEntry at read
  split at read
  · cases read
  · obtain ⟨z, parsed, rfl⟩ := Option.map_eq_some_iff.mp read
    exact zone_of_unmap (zone_of_parseAddr parsed)

theorem bareEntry_range (read : bareEntry s = some e) : e.range = host e.range.addr.unmap := by
  unfold bareEntry at read
  split at read
  · cases read
  · obtain ⟨z, _, rfl⟩ := Option.map_eq_some_iff.mp read
    simp [Entry.of, host, ZonedAddr.unmap_addr, unmap_unmap]

theorem mem_peerPrefix : peerPrefix cpp = some q ↔
    ∃ e, bareEntry cpp.ip = some e ∧ ¬ SlashZone e.zone ∧ e.range = q := by
  unfold peerPrefix
  by_cases empty : cpp.ip = ""
  · rw [empty]
    constructor
    · intro none
      cases none
    · rintro ⟨e, read, _⟩
      cases read
  · rw [if_neg empty, parseBareIP_eq]
    cases read : bareEntry cpp.ip with
    | none => simp
    | some e =>
      obtain ⟨lost, kept⟩ := parseAddr_stripPrefix (bareEntry_zoned read)
      have own := bareEntry_range read
      simp only [Option.map_some, Option.bind_some, Option.some.injEq, exists_eq_left']
      by_cases slash : SlashZone e.zone
      · rw [lost slash]
        simp [slash]
      obtain ⟨zone, found⟩ := kept slash
      rw [found]
      simp only [Option.map_some, Option.some.injEq, slash, not_false_eq_true, true_and]
      rw [← own]

theorem mem_buildExclusionSet {env : String} :
    q ∈ (buildExclusionSet o env).v4 ++ (buildExclusionSet o env).v6 ↔ Source o env q := by
  have none : parsePrefix "" = none := by decide
  unfold buildExclusionSet
  rw [foldl_appendToFamily]
  simp only [not_mem_nil, false_or, mem_append, mem_flatMap, mem_filterMap]
  constructor
  · rintro (((service | ⟨n, memN, pod | node⟩) | ⟨ctr, mem, read⟩) | ⟨cpp, mem, read⟩)
    · split at service
      · cases service
      rw [Option.mem_toList] at service
      obtain ⟨p, read, rfl⟩ := Option.map_eq_some_iff.mp service
      exact .service read
    · obtain ⟨cidr, listed, read⟩ := pod
      obtain ⟨p, parsed, rfl⟩ := Option.map_eq_some_iff.mp read
      exact .pod memN listed parsed
    · obtain ⟨addr, listed, read⟩ := node
      unfold nodePrefix at read
      split at read
      · cases read
      · obtain ⟨z, parsed, rfl⟩ := Option.map_eq_some_iff.mp read
        exact .node memN listed (by tauto) parsed
    · unfold rangePrefix at read
      split at read
      · cases read
      · obtain ⟨p, parsed, rfl⟩ := Option.map_eq_some_iff.mp read
        exact .range mem parsed
    · obtain ⟨e, parsed, zone, rfl⟩ := mem_peerPrefix.mp read
      exact .peer mem parsed zone
  · intro source
    cases source with
    | service read =>
      refine .inl (.inl (.inl ?_))
      rw [if_neg (by rintro rfl; cases read), Option.mem_toList, parseCIDRSafely, read]
      rfl
    | pod memN listed read =>
      exact .inl (.inl (.inr ⟨_, memN, .inl ⟨_, listed, by rw [parseCIDRSafely, read]; rfl⟩⟩))
    | node memN listed own read =>
      refine .inl (.inl (.inr ⟨_, memN, .inr ⟨_, listed, ?_⟩⟩))
      rw [nodePrefix, if_neg (by tauto), read]
      rfl
    | range mem read =>
      refine .inl (.inr ⟨_, mem, ?_⟩)
      rw [rangePrefix, if_neg (by intro empty; rw [empty] at read; cases read), parseCIDRSafely, read]
      rfl
    | peer mem read zone => exact .inr ⟨_, mem, mem_peerPrefix.mpr ⟨_, read, zone, rfl⟩⟩

theorem bareEntry_of_peerEntry (read : peerEntry o cpp = some e) : bareEntry cpp.ip = some e := by
  unfold peerEntry at read
  split at read
  · cases read
  obtain ⟨f, parsed, kept⟩ := Option.bind_eq_some_iff.mp read
  split at kept
  · cases kept
  · cases kept
    exact parsed

theorem rangeEntry_direct {cidr : String} (trimmed : trimSpace cidr = cidr)
    (parsed : parsePrefix cidr = some p) (read : rangeEntry cidr = some e) : e.range = p.masked := by
  unfold rangeEntry at read
  rw [trimmed, parsed] at read
  split at read
  · cases read
  dsimp only at read
  split at read
  · cases read
  · cases read
    rfl

/-- Everything that is trusted is excluded from the bans, exactly when this holds of what the
exclusions read otherwise: the ranges that are not a prefix with nothing around it, and the peers
whose zone begins with a slash. -/
theorem trusted_excluded_iff (o : Objects) (serviceCIDREnv : String) : AllExcluded o serviceCIDREnv ↔
      (∀ ctr ∈ o.trustedRanges, ¬ Direct ctr.cidr → ∀ e, rangeEntry ctr.cidr = some e →
        Elsewhere o serviceCIDREnv e.range) ∧
      ∀ cpp ∈ o.pendingPeers, ∀ e, peerEntry o cpp = some e → SlashZone e.zone →
        Elsewhere o serviceCIDREnv e.range := by
  have byEntry : AllExcluded o serviceCIDREnv ↔ ∀ e ∈ accepted o, Elsewhere o serviceCIDREnv e.range := by
    simp only [AllExcluded, Elsewhere, mem_buildExclusionSet]
  rw [byEntry]
  constructor
  · intro all
    constructor
    · intro ctr mem _ e read
      have some : ctr.cidr ≠ "" := by
        intro empty
        have none : rangeEntry "" = none := by decide
        rw [empty] at read
        cases read
      apply all e
      refine mem_append_right _ (mem_filterMap.mpr ⟨ctr, mem, ?_⟩)
      rw [if_neg some, read]
    · intro cpp mem e read _
      apply all e
      exact mem_append_left _ (mem_append_right _ (mem_filterMap.mpr ⟨cpp, mem, read⟩))
  · rintro ⟨ranges, peers⟩ e mem
    rcases mem_append.mp mem with mem | range
    · rcases mem_append.mp mem with node | peer
      · obtain ⟨n, memN, inside⟩ := mem_flatMap.mp node
        obtain ⟨addr, memA, read⟩ := mem_filterMap.mp inside
        split at read
        · rename_i internal
          obtain ⟨z, parsed, rfl⟩ := Option.map_eq_some_iff.mp read
          refine ⟨_, .node memN memA (.inl internal) parsed, ?_⟩
          rw [← ZonedAddr.unmap_addr]
          exact contains_self _
        · cases read
      · obtain ⟨cpp, memC, read⟩ := mem_filterMap.mp peer
        by_cases slash : SlashZone e.zone
        · exact peers cpp memC e read slash
        · refine ⟨_, .peer memC (bareEntry_of_peerEntry read) slash, contains_self _⟩
    · obtain ⟨ctr, memC, read⟩ := mem_filterMap.mp range
      split at read
      · cases read
      by_cases direct : Direct ctr.cidr
      · obtain ⟨trimmed, p, parsed, fits⟩ := direct
        refine ⟨_, .range memC parsed, ?_⟩
        rw [rangeEntry_direct trimmed parsed read, containsOrEquals_iff_covers,
          unmapPrefix_unmapPrefix, ← containsOrEquals_iff_covers]
        exact contains_masked fits
      · exact ranges ctr memC direct e read

def bareRange : Objects := ⟨[], [⟨"203.0.113.7"⟩], [], 0, 0⟩

/-- A trusted range that is written as a bare address is accepted, and not excluded. -/
theorem bare_range_bannable : ¬ AllExcluded bareRange "10.43.0.0/16" := by
  have overlooked : ∃ e ∈ accepted bareRange, ∀ q ∈ (buildExclusionSet bareRange "10.43.0.0/16").v4 ++
      (buildExclusionSet bareRange "10.43.0.0/16").v6, prefixContainsOrEquals q e.range = false := by
    decide +kernel
  intro all
  obtain ⟨e, mem, outside⟩ := overlooked
  obtain ⟨q, memQ, inside⟩ := all e mem
  rw [outside q memQ] at inside
  cases inside

end HostingPlatform.Firewall.Peers

namespace HostingPlatform.Firewall

open List Netip Peers

structure LapiDecision where
  (value type scope duration : String)

/- an address is promoted to the prefix of it alone -/
def parseLAPIValue (s : String) : Option Prefix :=
  if s.toList.contains '/' then (parsePrefix s).map unmapPrefix
  else (parseAddr s).map (fun z => host z.addr.unmap)

/- how often the protection of the trusted addresses tripped, and whether the ticks stopped -/
structure Latch where
  tripCount : Nat
  quiescent : Bool

def selfProtectTripBudget : Nat := 3

def selfProtectIntersection (proposed : CrowdsecBlocklist) (ex : ExclusionSet) : Nat × Nat :=
  ((proposed.v4.filter (excluded ex.v4)).length, (proposed.v6.filter (excluded ex.v6)).length)

def shouldSelfProtectTrip (proposed : CrowdsecBlocklist) (ex : ExclusionSet) : Bool :=
  let (intV4, intV6) := selfProtectIntersection proposed ex
  let totalProposed := proposed.v4.length + proposed.v6.length
  if totalProposed = 0 then false else totalProposed < 20 * (intV4 + intV6)

/- what a tick queues when the mode is `enforce` -/
def tick (s : SliceSort) (latch : Latch) (bl : CrowdsecBlocklist) (ex : ExclusionSet) :
    Latch × Option Sets :=
  if latch.quiescent then (latch, none)
  else if shouldSelfProtectTrip bl ex then
    (⟨latch.tripCount + 1, selfProtectTripBudget ≤ latch.tripCount + 1⟩, none)
  else (latch, some (written s bl ex))

section Durations

/- `time.ParseDuration` -/
variable (parseDuration : String → Option Duration)

def appendDecision (bl : CrowdsecBlocklist) (d : LapiDecision) : CrowdsecBlocklist :=
  if d.type ≠ "ban" then bl
  else if d.scope ≠ "Ip" ∧ d.scope ≠ "Range" then bl
  else
    match parseLAPIValue d.value with
    | none => bl
    | some p =>
      match parseDuration d.duration with
      | none => bl
      | some ttl =>
        if ttl ≤ 0 then bl
        else if p.addr.is4 then { bl with v4 := bl.v4 ++ [p], ttlV4 := bl.ttlV4 ++ [ttl] }
        else { bl with v6 := bl.v6 ++ [p], ttlV6 := bl.ttlV6 ++ [ttl] }

def parseLAPIStream (new : List LapiDecision) : CrowdsecBlocklist :=
  new.foldl (appendDecision parseDuration) ⟨[], [], [], []⟩

def LapiDecision.ban (d : LapiDecision) : Option Ban :=
  if d.type = "ban" ∧ (d.scope = "Ip" ∨ d.scope = "Range") then
    (parseLAPIValue d.value).bind (fun p =>
      (parseDuration d.duration).bind (fun ttl => if 0 < ttl then some ⟨p, ttl⟩ else none))
  else none

def bansOf (new : List LapiDecision) : List Ban := new.filterMap (LapiDecision.ban parseDuration)

def bansIn (new : List LapiDecision) (isV6 : Bool) : List Ban :=
  (bansOf parseDuration new).filter (fun b => b.p.addr.is4 != isV6)

def Aligned (bl : CrowdsecBlocklist) : Prop :=
  bl.v4.length = bl.ttlV4.length ∧ bl.v6.length = bl.ttlV6.length

theorem pairs_append {ps : List Prefix} {ttls : List Duration} (p : Prefix) (ttl : Duration)
    (aligned : ps.length = ttls.length) : pairs (ps ++ [p]) (ttls ++ [ttl]) = pairs ps ttls ++ [⟨p, ttl⟩] := by
  induction ps generalizing ttls with
  | nil =>
    rw [eq_nil_of_length_eq_zero aligned.symm]
    rfl
  | cons q rest ih =>
    cases ttls with
    | nil => cases aligned
    | cons first ttls => simp [pairs, ih (Nat.succ.inj aligned)]

theorem appendDecision_bans {bl : CrowdsecBlocklist} (aligned : Aligned bl) (d : LapiDecision) :
    Aligned (appendDecision parseDuration bl d) ∧ ∀ isV6,
      (appendDecision parseDuration bl d).bans isV6 = bl.bans isV6 ++
        ((LapiDecision.ban parseDuration d).toList.filter (fun b => b.p.addr.is4 != isV6)) := by
  have nothing : LapiDecision.ban parseDuration d = none → Aligned bl ∧ ∀ isV6, bl.bans isV6 = bl.bans isV6 ++
      ((LapiDecision.ban parseDuration d).toList.filter (fun b => b.p.addr.is4 != isV6)) := by
    intro none
    rw [none]
    simp [aligned]
  unfold appendDecision
  split
  · rename_i other
    exact nothing (by simp [LapiDecision.ban, other])
  split
  · rename_i ban other
    exact nothing (by simp [LapiDecision.ban, other])
  have taken : d.type = "ban" ∧ (d.scope = "Ip" ∨ d.scope = "Range") := by tauto
  split
  · rename_i none
    exact nothing (by simp [LapiDecision.ban, none])
  rename_i p value
  split
  · rename_i none
    exact nothing (by simp [LapiDecision.ban, none])
  rename_i ttl duration
  split
  · rename_i dead
    exact nothing (by simp [LapiDecision.ban, duration, dead])
  rename_i live
  have ban : LapiDecision.ban parseDuration d = some ⟨p, ttl⟩ := by
    rw [LapiDecision.ban, if_pos taken, value, duration, Option.bind_some, Option.bind_some,
      if_pos (Int.not_le.mp live)]
  obtain ⟨four, six⟩ := aligned
  rw [ban]
  split
  · rename_i is4
    refine ⟨⟨by simp [four], six⟩, fun isV6 => ?_⟩
    cases isV6 <;> simp [CrowdsecBlocklist.bans, pairs_append p ttl four, is4]
  · rename_i is6
    refine ⟨⟨four, by simp [six]⟩, fun isV6 => ?_⟩
    cases isV6 <;> simp [CrowdsecBlocklist.bans, pairs_append p ttl six, is6]

theorem parseLAPIStream_bans (new : List LapiDecision) : Aligned (parseLAPIStream parseDuration new) ∧
      ∀ isV6, (parseLAPIStream parseDuration new).bans isV6 = bansIn parseDuration new isV6 := by
  have run : ∀ (new : List LapiDecision) (bl : CrowdsecBlocklist), Aligned bl →
      Aligned (new.foldl (appendDecision parseDuration) bl) ∧ ∀ isV6,
        (new.foldl (appendDecision parseDuration) bl).bans isV6 =
          bl.bans isV6 ++ bansIn parseDuration new isV6 := by
    intro new
    induction new with
    | nil =>
      intro bl aligned
      exact ⟨aligned, fun isV6 => by simp [bansIn, bansOf]⟩
    | cons d rest ih =>
      intro bl aligned
      obtain ⟨still, bans⟩ := appendDecision_bans parseDuration aligned d
      obtain ⟨last, all⟩ := ih _ still
      refine ⟨last, fun isV6 => ?_⟩
      rw [foldl_cons, all, bans, append_assoc]
      unfold bansIn bansOf
      rw [filterMap_cons]
      cases LapiDecision.ban parseDuration d with
      | none => simp
      | some b =>
        simp only [Option.toList_some, filter_cons]
        split <;> rfl
  obtain ⟨aligned, bans⟩ := run new ⟨[], [], [], []⟩ ⟨rfl, rfl⟩
  refine ⟨aligned, fun isV6 => ?_⟩
  have none : CrowdsecBlocklist.bans ⟨[], [], [], []⟩ isV6 = [] := by cases isV6 <;> rfl
  rw [parseLAPIStream, bans, none, nil_append]

end Durations

variable {parseDuration : String → Option Duration} {b : Ban}

theorem ban_value {d : LapiDecision} (taken : d.ban parseDuration = some b) :
    0 < b.ttl ∧ b.p.addr.unmap = b.p.addr := by
  unfold LapiDecision.ban at taken
  split at taken
  · obtain ⟨p, value, rest⟩ := Option.bind_eq_some_iff.mp taken
    obtain ⟨ttl, duration, kept⟩ := Option.bind_eq_some_iff.mp rest
    split at kept
    · rename_i live
      cases kept
      refine ⟨live, ?_⟩
      unfold parseLAPIValue at value
      split at value
      · obtain ⟨q, _, rfl⟩ := Option.map_eq_some_iff.mp value
        rw [unmapPrefix_addr, unmap_unmap]
      · obtain ⟨z, _, rfl⟩ := Option.map_eq_some_iff.mp value
        exact unmap_unmap z.addr
    · cases kept
  · cases taken

theorem mem_bansIn {new : List LapiDecision} {isV6 : Bool} (mem : b ∈ bansIn parseDuration new isV6) :
    b.p.addr.family = familyOf isV6 ∧ 0 < b.ttl ∧ b.p.addr.unmap = b.p.addr := by
  obtain ⟨listed, family⟩ := mem_filter.mp mem
  obtain ⟨d, _, taken⟩ := mem_filterMap.mp listed
  refine ⟨?_, ban_value taken⟩
  by_contra other
  rw [is4_eq_iff.mpr other] at family
  simp at family

theorem length_pairs (ps : List Prefix) (ttls : List Duration) : (pairs ps ttls).length = ps.length := by
  induction ps generalizing ttls with
  | nil => rfl
  | cons p rest ih => simp [pairs, ih]

theorem filter_pairs (f : Prefix → Bool) (ps : List Prefix) (ttls : List Duration) :
    ((pairs ps ttls).filter (fun b => f b.p)).length = (ps.filter f).length := by
  induction ps generalizing ttls with
  | nil => rfl
  | cons p rest ih =>
    simp only [pairs, filter_cons]
    split <;> simp [ih]

def Targets (bans : Bool → List Ban) (ex : ExclusionSet) : Prop :=
  (bans false).length + (bans true).length <
    20 * (((bans false).filter (fun b => excluded (ex.of false) b.p)).length +
      ((bans true).filter (fun b => excluded (ex.of true) b.p)).length)

instance (bans : Bool → List Ban) (ex : ExclusionSet) : Decidable (Targets bans ex) :=
  inferInstanceAs (Decidable (_ < _))

theorem trips_iff (bl : CrowdsecBlocklist) (ex : ExclusionSet) :
    shouldSelfProtectTrip bl ex = true ↔ Targets bl.bans ex := by
  have fewer : ∀ (f : Prefix → Bool) (ps : List Prefix), (ps.filter f).length ≤ ps.length :=
    fun f ps => length_filter_le f ps
  have few4 := fewer (excluded ex.v4) bl.v4
  have few6 := fewer (excluded ex.v6) bl.v6
  simp only [shouldSelfProtectTrip, Targets, CrowdsecBlocklist.bans,
    ExclusionSet.of, Bool.false_eq_true, if_false, if_true, length_pairs, filter_pairs]
  split
  · simp only [Bool.false_eq_true, false_iff]
    omega
  · exact decide_eq_true_iff

end HostingPlatform.Firewall
