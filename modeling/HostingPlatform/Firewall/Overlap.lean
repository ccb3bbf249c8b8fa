import HostingPlatform.Firewall.ExclusionSources
import HostingPlatform.Firewall.PeerElements
import HostingPlatform.Firewall.TenantPorts

/-! A set of intervals takes no two that overlap. When do the trusted ranges, the ports of the
tenants and the bans overlap in what is queued for them? -/
namespace HostingPlatform.Firewall

open List Netip Digits Ranking Go Peers TenantPorts

def ApartIntervals (i j : Nat × Nat) : Prop := i.1 ≠ j.1 ∧ ∀ x, ¬ (InInterval i x ∧ InInterval j x)

def Apart (elems : List SetElement) : Prop := (intervals elems).Pairwise ApartIntervals

def Meet (p q : Prefix) : Prop :=
  (p.Covers q ∨ q.Covers p) ∧ ¬ (p.bits = 0 ∧ IsLast q) ∧ ¬ (q.bits = 0 ∧ IsLast p)

instance (q : Prefix) : Decidable (IsLast q) := inferInstanceAs (Decidable (_ ∧ _))

instance (p q : Prefix) : Decidable (Meet p q) := inferInstanceAs (Decidable (_ ∧ _))

/- the text that a host port adds to a protocol's set -/
def hostPortText (udp : Bool) (p : ContainerPort) : Option String :=
  if p.hostPort < 1 ∨ 65535 < p.hostPort then none
  else if p.protocol.toUpper = "UDP" then if udp then some (toString p.hostPort) else none
  else if p.protocol.toUpper = "" ∨ p.protocol.toUpper = "TCP" then
    if udp then none else some (toString p.hostPort)
  else none

def Opens (udp : Bool) (pod : Pod) (elem : String) : Prop :=
  (∃ p ∈ pod.containers.flatten, hostPortText udp p = some elem) ∨
    elem ∈ annotationPorts pod (if udp then tenantPortAnnotationUDP else tenantPortAnnotationTCP)

def SeparatePorts (elem other : String) : Prop :=
  ∀ r r', parsePortOrRange elem = some r → parsePortOrRange other = some r' → r.2 < r'.1 ∨ r'.2 < r.1

def setOf (udp : Bool) (s : TenantPortSets) : List String := if udp then s.udp else s.tcp

section Durations

variable (parseDuration : String → Option Duration)

def candidates (new : List LapiDecision) (ex : ExclusionSet) (isV6 : Bool) : List Ban :=
  (bansIn parseDuration new isV6).filter (fun b => !excluded (ex.of isV6) b.p)

structure NoneOverlap (o : Objects) (serviceCIDREnv : String) (t : TenantPorts.Node)
    (new : List LapiDecision) : Prop where
  trusted : ∀ family, Apart ((applyPeerSets (desired o)).trusted family)
  ports : ∀ udp, Apart (portsToElements (setOf udp (desiredPorts t)))
  bans : ∀ s latch sets, (tick s latch (parseLAPIStream parseDuration new)
    (buildExclusionSet o serviceCIDREnv)).2 = some sets → ∀ isV6, Apart (sets.of isV6)

/-- Two ranges are the same or apart, so are the ports of two entries, and two bans that both have
room below the cap do not meet. -/
structure AllSeparate (o : Objects) (serviceCIDREnv : String) (t : TenantPorts.Node)
    (new : List LapiDecision) : Prop where
  ranges : ∀ e ∈ rangeEntries o, ∀ e' ∈ rangeEntries o, e.zone = "" → e'.zone = "" →
    e.range = e'.range ∨ ¬ e.range.Covers e'.range ∧ ¬ e'.range.Covers e.range
  ports : ∀ udp, ∀ pod ∈ tenantPods t, ∀ pod' ∈ tenantPods t, ∀ elem elem', Opens udp pod elem →
    Opens udp pod' elem' → elem = elem' ∨ SeparatePorts elem elem'
  bans : ¬ Targets (bansIn parseDuration new) (buildExclusionSet o serviceCIDREnv) → ∀ isV6 b c rest,
    (candidates parseDuration new (buildExclusionSet o serviceCIDREnv) isV6).Perm (b :: c :: rest) →
      ¬ c.p.string < b.p.string →
        (smaller (·.p.string) rest c).length + 2 ≤ crowdsecBlocklistMaxElements → ¬ Meet b.p c.p

end Durations

theorem ApartIntervals.symm {i j : Nat × Nat} (apart : ApartIntervals i j) : ApartIntervals j i :=
  ⟨apart.1.symm, fun x both => apart.2 x both.symm⟩

theorem start_inside (i : Nat × Nat) : InInterval i i.1 := by
  unfold InInterval
  omega

theorem apart_iff_disjoint {i j : Nat × Nat} : ApartIntervals i j ↔ ∀ x, ¬ (InInterval i x ∧ InInterval j x) := by
  constructor
  · exact fun apart => apart.2
  intro disjoint
  refine ⟨fun same => disjoint i.1 ⟨start_inside i, ?_⟩, disjoint⟩
  rw [same]
  exact start_inside j

theorem apart_flatMap_iff {f : String → List SetElement}
    (pairs : ∀ s, f s = [] ∨ ∃ x y, f s = [x, y]) {l : List String} (nodup : l.Nodup) :
    Apart (l.flatMap f) ↔ ∀ s ∈ l, ∀ t ∈ l, s ≠ t →
      ∀ i ∈ intervals (f s), ∀ j ∈ intervals (f t), ApartIntervals i j := by
  unfold Apart
  rw [intervals_flatMap pairs, pairwise_flatMap]
  constructor
  · rintro ⟨_, between⟩ s memS t memT differ
    have symmetric : Std.Symm (fun s t => ∀ i ∈ intervals (f s), ∀ j ∈ intervals (f t),
        ApartIntervals i j) := ⟨fun s t apart j memJ i memI => (apart i memI j memJ).symm⟩
    exact between.forall memS memT differ
  intro all
  constructor
  · intro s _
    rcases pairs s with none | ⟨x, y, pair⟩
    · rw [none]
      exact .nil
    · rw [pair]
      exact pairwise_singleton _ _
  · exact nodup.pairwise_of_forall_ne (fun s memS t memT differ => all s memS t memT differ)

/- its start and its end, which may have wrapped around -/
def span (p : Prefix) (isV6 : Bool) : Nat × Nat :=
  (clearLow p.hostBits p.addr.value, value 256 (addPow2 p.masked.addr p.hostBits isV6))

theorem meet_iff (p q : Prefix) : (∃ a, Reaches p a ∧ Reaches q a) ↔ Meet p q := by
  have last : ∀ {q : Prefix} {a : Addr}, IsLast q → q.contains a = true → a.value = 2 ^ a.family.width - 1 := by
    intro q a last inside
    obtain ⟨family, same⟩ := contains_iff.mp inside
    have single : q.hostBits = 0 := by rw [Prefix.hostBits, last.1, Nat.sub_self]
    rw [single, Nat.pow_zero, Nat.div_one, Nat.div_one] at same
    rw [family, same]
    exact last.2
  have wide : ∀ {p q : Prefix}, p.Covers q → ¬ (p.bits = 0 ∧ IsLast q) → ∃ a, Reaches p a ∧ Reaches q a := by
    intro p q covers spared
    by_cases all : p.bits = 0
    · obtain ⟨a, inQ, inner⟩ := exists_not_last (fun last => spared ⟨all, last⟩)
      exact ⟨a, ⟨covers.contains inQ, fun _ => inner⟩, inQ, fun _ => inner⟩
    have more : q.bits ≠ 0 := by
      have le := covers.2.1
      omega
    exact ⟨q.addr, ⟨covers.contains (contains_addr q), fun none => absurd none all⟩,
      contains_addr q, fun none => absurd none more⟩
  constructor
  · rintro ⟨a, ⟨inP, stopP⟩, inQ, stopQ⟩
    refine ⟨nested_of_common inP inQ, ?_, ?_⟩
    · rintro ⟨all, single⟩
      exact stopP all (last single inQ)
    · rintro ⟨all, single⟩
      exact stopQ all (last single inP)
  · rintro ⟨covers | covers, one, two⟩
    · exact wide covers one
    · obtain ⟨a, reachesQ, reachesP⟩ := wide covers two
      exact ⟨a, reachesP, reachesQ⟩

variable {isV6 : Bool} {o : Objects} {e : Entry}

theorem span_bounds {p : Prefix} (family : p.addr.family = familyOf isV6) :
    (span p isV6).1 < 2 ^ p.addr.family.width ∧ (span p isV6).2 < 2 ^ p.addr.family.width := by
  have familyM : p.masked.addr.family = familyOf isV6 := family
  refine ⟨Nat.lt_of_le_of_lt (clearLow_le _ _) p.addr.inRange, ?_⟩
  have positive := Nat.two_pow_pos p.addr.family.width
  unfold span
  by_cases all : p.bits = 0
  · have hostBits : p.hostBits = p.masked.addr.family.width := by
      rw [Prefix.hostBits, all]
      rfl
    have ends := value_addPow2_all familyM
    rw [← hostBits] at ends
    rw [ends, hostBits]
    change 2 ^ p.addr.family.width - 1 < 2 ^ p.addr.family.width
    omega
  · have below : p.hostBits < p.masked.addr.family.width := by
      have fits := p.inRange
      change p.hostBits < p.addr.family.width
      unfold Prefix.hostBits
      omega
    rw [value_addPow2 familyM below]
    exact Nat.mod_lt _ positive

theorem span_apart_iff {p q : Prefix} (familyP : p.addr.family = familyOf isV6)
    (familyQ : q.addr.family = familyOf isV6) : ApartIntervals (span p isV6) (span q isV6) ↔ ¬ Meet p q := by
  obtain ⟨startP, endP⟩ := span_bounds familyP
  obtain ⟨startQ, endQ⟩ := span_bounds familyQ
  have same : q.addr.family = p.addr.family := familyQ.trans familyP.symm
  rw [same] at startQ endQ
  rw [apart_iff_disjoint, ← meet_iff, not_exists]
  constructor
  · rintro disjoint a ⟨reachesP, reachesQ⟩
    have familyA : a.family = p.addr.family := (contains_iff.mp reachesP.1).1
    exact disjoint a.value ⟨(reaches_iff familyP familyA).mpr reachesP,
      (reaches_iff familyQ (familyA.trans same.symm)).mpr reachesQ⟩
  rintro none x ⟨inP, inQ⟩
  -- beyond the last address both intervals have wrapped around, and hold it
  have inside : ∃ y, y < 2 ^ p.addr.family.width ∧ InInterval (span p isV6) y ∧ InInterval (span q isV6) y := by
    by_cases small : x < 2 ^ p.addr.family.width
    · exact ⟨x, small, inP, inQ⟩
    refine ⟨2 ^ p.addr.family.width - 1, by omega, ?_, ?_⟩
    · unfold InInterval at inP ⊢
      omega
    · unfold InInterval at inQ ⊢
      omega
  obtain ⟨y, small, inP, inQ⟩ := inside
  have family : (Addr.mk p.addr.family y small).family = p.addr.family := rfl
  refine none ⟨p.addr.family, y, small⟩ ⟨?_, ?_⟩
  · exact (reaches_iff familyP family).mp inP
  · exact (reaches_iff familyQ (family.trans same.symm)).mp inQ

theorem Entry.text_zone (mem : e ∈ rangeEntries o) (zone : e.zone ≠ "") : parsePrefix e.text = none := by
  have six : e.range.addr.family = .v6 := by
    obtain ⟨ctr, _, read⟩ := mem_filterMap.mp mem
    split at read
    · cases read
    unfold rangeEntry at read
    split at read
    · cases read
    split at read
    · split at read
      · cases read
      · cases read
        exact absurd rfl zone
    · obtain ⟨z, parsed, rfl⟩ := Option.map_eq_some_iff.mp read
      exact (zone_of_unmap (zone_of_parseAddr parsed)).resolve_left zone
  exact parsePrefix_zone (z := e.addr) six zone e.range.bits

theorem intervals_range (mem : e ∈ rangeEntries o) (family : e.family = familyOf isV6) :
    intervals (cidrElements isV6 e.text) = if e.zone = "" then [span e.range isV6] else [] := by
  split
  · rename_i zone
    obtain ⟨masked, _⟩ := rangeEntries_masked mem
    have fits : ¬ (familyOf isV6).width < e.range.bits := by
      rw [← family]
      exact Nat.not_lt.mpr e.range.inRange
    have exponent : (familyOf isV6).width - e.range.bits = e.range.hostBits := by
      rw [← family]
      rfl
    have start : clearLow e.range.hostBits e.range.addr.value = e.range.addr.value :=
      congrArg (fun q : Prefix => q.addr.value) masked
    have here : ¬ e.range.addr.is4 = isV6 := not_is4 family
    rw [(Entry.string_plain zone).2.1]
    simp [cidrElements, parsePrefix_string, masked, here, nextNetwork, familyOf_width, fits, exponent,
      intervals, value_addrBytes family, span, start]
  · rename_i zone
    simp [cidrElements, Entry.text_zone mem zone, intervals]

theorem string_injective {p q : Prefix} (same : p.string = q.string) : p = q := by
  have read := parsePrefix_string p
  rw [same, parsePrefix_string q] at read
  simpa using read.symm

theorem trusted_apart_iff (o : Objects) (isV6 : Bool) : Apart ((applyPeerSets (desired o)).trusted (familyOf isV6)) ↔
      ∀ e ∈ rangeEntries o, ∀ e' ∈ rangeEntries o, e.family = familyOf isV6 →
        e'.family = familyOf isV6 → e.zone = "" → e'.zone = "" →
          e.range = e'.range ∨ ¬ e.range.Covers e'.range ∧ ¬ e'.range.Covers e.range := by
  have nodup : ((desired o).trusted (familyOf isV6)).Nodup := by
    cases isV6 <;> exact uniqueSorted_nodup _
  have meet : ∀ e ∈ rangeEntries o, ∀ e' ∈ rangeEntries o, ¬ Meet e.range e'.range ↔
      ¬ e.range.Covers e'.range ∧ ¬ e'.range.Covers e.range := by
    intro e mem e' mem'
    have some := (rangeEntries_masked mem).2
    have some' := (rangeEntries_masked mem').2
    unfold Meet
    tauto
  rw [trusted_applied, cidrsToElements, apart_flatMap_iff (cidrElements_pairs isV6) nodup]
  constructor
  · intro all e mem e' mem' family family' zone zone'
    by_cases same : e.range = e'.range
    · exact .inl same
    right
    have differ : e.text ≠ e'.text := by
      rw [(Entry.string_plain zone).2.1, (Entry.string_plain zone').2.1]
      exact fun equal => same (string_injective equal)
    have apart := all e.text (mem_trusted.mpr ⟨e, mem, family, rfl⟩) e'.text
      (mem_trusted.mpr ⟨e', mem', family', rfl⟩) differ
    rw [intervals_range mem family, intervals_range mem' family', if_pos zone, if_pos zone'] at apart
    have own := apart _ (mem_singleton_self _) _ (mem_singleton_self _)
    exact (meet e mem e' mem').mp ((span_apart_iff family family').mp own)
  · intro all s memS t memT differ i memI j memJ
    obtain ⟨e, mem, family, rfl⟩ := mem_trusted.mp memS
    obtain ⟨e', mem', family', rfl⟩ := mem_trusted.mp memT
    rw [intervals_range mem family] at memI
    rw [intervals_range mem' family'] at memJ
    split at memI
    · rename_i zone
      split at memJ
      · rename_i zone'
        rw [mem_singleton.mp memI, mem_singleton.mp memJ]
        rcases all e mem e' mem' family family' zone zone' with same | unnested
        · rw [(Entry.string_plain zone).2.1, (Entry.string_plain zone').2.1, same] at differ
          exact absurd rfl differ
        · exact (span_apart_iff family family').mpr ((meet e mem e' mem').mpr unnested)
      · cases memJ
    · cases memI

theorem collectHostPort_of (udp : Bool) (sets : TenantPortSets) (p : ContainerPort) :
    setOf udp (collectHostPort sets p) = (hostPortText udp p).toList ++ setOf udp sets := by
  unfold collectHostPort hostPortText
  split
  · rw [if_pos (by omega)]
    rfl
  split
  · rfl
  dsimp only
  split
  · cases udp <;> rfl
  split
  · cases udp <;> rfl
  · rfl

theorem mem_collectHostPorts_of {udp : Bool} {sets : TenantPortSets} {ports : List ContainerPort}
    {elem : String} : elem ∈ setOf udp (ports.foldl collectHostPort sets) ↔
      elem ∈ setOf udp sets ∨ ∃ p ∈ ports, hostPortText udp p = some elem := by
  induction ports generalizing sets with
  | nil => simp
  | cons p rest ih =>
    rw [foldl_cons, ih, collectHostPort_of]
    simp only [mem_append, Option.mem_toList, mem_cons, exists_eq_or_imp]
    tauto

theorem mem_collectPorts_of {udp : Bool} {sets : TenantPortSets} {pods : List Pod} {elem : String} :
    elem ∈ setOf udp (pods.foldl collectPorts sets) ↔
      elem ∈ setOf udp sets ∨ ∃ pod ∈ pods, Opens udp pod elem := by
  induction pods generalizing sets with
  | nil => simp
  | cons pod rest ih =>
    have step : elem ∈ setOf udp (collectPorts sets pod) ↔ elem ∈ setOf udp sets ∨ Opens udp pod elem := by
      have hosts := @mem_collectHostPorts_of udp sets pod.containers.flatten elem
      cases udp with
      | false =>
        simp only [setOf, collectPorts, collectAnnotationPorts, collectHostPorts, Opens, mem_append,
          Bool.false_eq_true, if_false] at hosts ⊢
        rw [hosts, or_comm, or_assoc]
      | true =>
        simp only [setOf, collectPorts, collectAnnotationPorts, collectHostPorts, Opens, mem_append,
          if_true] at hosts ⊢
        rw [hosts, or_comm, or_assoc]
    rw [foldl_cons, ih]
    simp only [mem_cons, exists_eq_or_imp]
    tauto

theorem mem_desiredPorts_of {udp : Bool} {t : TenantPorts.Node} {elem : String} :
    elem ∈ setOf udp (desiredPorts t) ↔ ∃ pod ∈ tenantPods t, Opens udp pod elem := by
  have all := @mem_collectPorts_of udp ⟨[], []⟩ (tenantPods t) elem
  have none : elem ∉ setOf udp ⟨[], []⟩ := by cases udp <;> exact not_mem_nil
  have same : elem ∈ setOf udp (desiredPorts t) ↔
      elem ∈ setOf udp ((tenantPods t).foldl collectPorts ⟨[], []⟩) := by
    cases udp <;> simp [setOf, desiredPorts, mem_uniqueSorted]
  rw [same, all]
  exact or_iff_right none

theorem portElements_pairs (s : String) : portElements s = [] ∨ ∃ x y, portElements s = [x, y] := by
  unfold portElements
  split
  · exact .inl rfl
  · exact .inr ⟨_, _, rfl⟩

theorem intervals_ports (s : String) : intervals (portElements s) =
    (parsePortOrRange s).toList.map (fun r => (r.1, (r.2 + 1) % 65536)) := by
  unfold portElements
  cases read : parsePortOrRange s with
  | none => rfl
  | some r =>
    obtain ⟨lo, hi⟩ := r
    obtain ⟨_, rises, fits⟩ := parsePortOrRange_bounds read
    have small : lo % 65536 = lo := Nat.mod_eq_of_lt (by omega)
    have power : (256 : Nat) ^ 2 = 65536 := by norm_num
    simp [intervals, portBytes, value_groups, small]

theorem inInterval_ports {lo hi x : Nat} (rises : lo ≤ hi) (fits : hi ≤ 65535) :
    InInterval (lo, (hi + 1) % 65536) x ↔ lo ≤ x ∧ (x ≤ hi ∨ hi = 65535) := by
  unfold InInterval
  rcases Nat.lt_or_eq_of_le fits with below | top
  · have inside : (hi + 1) % 65536 = hi + 1 := Nat.mod_eq_of_lt (by omega)
    rw [inside]
    omega
  · omega

theorem ports_apart_iff (udp : Bool) (t : TenantPorts.Node) : Apart (portsToElements (setOf udp (desiredPorts t))) ↔
      ∀ pod ∈ tenantPods t, ∀ pod' ∈ tenantPods t, ∀ elem elem', Opens udp pod elem →
        Opens udp pod' elem' → elem = elem' ∨ SeparatePorts elem elem' := by
  have nodup : (setOf udp (desiredPorts t)).Nodup := by
    cases udp <;> exact uniqueSorted_nodup _
  have apart : ∀ s u, (∀ i ∈ intervals (portElements s), ∀ j ∈ intervals (portElements u),
      ApartIntervals i j) ↔ SeparatePorts s u := by
    intro s u
    rw [intervals_ports, intervals_ports]
    unfold SeparatePorts
    cases readS : parsePortOrRange s with
    | none => simp
    | some r =>
      cases readU : parsePortOrRange u with
      | none => simp
      | some r' =>
        obtain ⟨lo, hi⟩ := r
        obtain ⟨lo', hi'⟩ := r'
        obtain ⟨_, rises, fits⟩ := parsePortOrRange_bounds readS
        obtain ⟨_, rises', fits'⟩ := parsePortOrRange_bounds readU
        simp only [Option.toList_some, map_cons, map_nil, mem_singleton, forall_eq,
          Option.some.injEq, apart_iff_disjoint, inInterval_ports rises fits,
          inInterval_ports rises' fits']
        constructor
        · rintro disjoint r r' rfl rfl
          have here := disjoint (max lo lo')
          omega
        · intro separate x
          have sides := separate (lo, hi) (lo', hi') rfl rfl
          omega
  rw [portsToElements, apart_flatMap_iff portElements_pairs nodup]
  simp only [apart]
  constructor
  · intro all pod mem pod' mem' elem elem' opens opens'
    by_cases same : elem = elem'
    · exact .inl same
    · exact .inr (all elem (mem_desiredPorts_of.mpr ⟨pod, mem, opens⟩) elem'
        (mem_desiredPorts_of.mpr ⟨pod', mem', opens'⟩) same)
  · intro all s memS u memU differ
    obtain ⟨pod, mem, opens⟩ := mem_desiredPorts_of.mp memS
    obtain ⟨pod', mem', opens'⟩ := mem_desiredPorts_of.mp memU
    exact (all pod mem pod' mem' s u opens opens').resolve_left differ

def placing {bans sorted : List Ban} (perm : sorted.Perm bans)
    (ordered : sorted.Pairwise (fun a b => ¬ b.p.string < a.p.string)) : SliceSort where
  sort := fun l => if l = bans then sorted else (favoring ⟨host ⟨.v4, 0, by decide⟩, 0⟩).sort l
  perm := by
    intro l
    split
    · rename_i same
      rw [same]
      exact perm
    · exact (favoring _).perm l
  ordered := by
    intro l
    split
    · exact ordered
    · exact (favoring _).ordered l

theorem placing_sort {bans sorted : List Ban} (perm : sorted.Perm bans)
    (ordered : sorted.Pairwise (fun a b => ¬ b.p.string < a.p.string)) :
    (placing perm ordered).sort bans = sorted := if_pos rfl

section Bans

variable (parseDuration : String → Option Duration) (new : List LapiDecision) (ex : ExclusionSet)

theorem unexcluded_eq (isV6 : Bool) : unexcluded (parseLAPIStream parseDuration new) ex isV6 =
    candidates parseDuration new ex isV6 := by
  rw [unexcluded, (parseLAPIStream_bans parseDuration new).2 isV6]
  rfl

theorem left_apart_iff (s : SliceSort) (isV6 : Bool) :
    Apart ((written s (parseLAPIStream parseDuration new) ex).of isV6) ↔
      ((s.sort (candidates parseDuration new ex isV6)).take crowdsecBlocklistMaxElements).Pairwise
        (fun b c => ¬ Meet b.p c.p) := by
  have live : ∀ b ∈ left s (parseLAPIStream parseDuration new) ex isV6,
      b.p.addr.family = familyOf isV6 ∧ intervals (banElements b.p b.ttl isV6) = [span b.p isV6] := by
    intro b mem
    have listed := mem_unexcluded_of_left mem
    rw [unexcluded_eq] at listed
    obtain ⟨family, ttl, _⟩ := mem_bansIn (mem_filter.mp listed).1
    exact ⟨family, intervals_live family ttl⟩
  rw [← unexcluded_eq, Apart, written_of, intervals_bans, pairwise_flatMap]
  constructor
  · rintro ⟨_, between⟩
    refine between.imp_of_mem ?_
    intro b c memB memC apart
    obtain ⟨familyB, ownB⟩ := live b memB
    obtain ⟨familyC, ownC⟩ := live c memC
    rw [ownB, ownC] at apart
    have both := apart _ (mem_singleton_self _) _ (mem_singleton_self _)
    exact (span_apart_iff familyB familyC).mp both
  · intro separate
    constructor
    · intro b mem
      rw [(live b mem).2]
      exact pairwise_singleton _ _
    refine separate.imp_of_mem ?_
    intro b c memB memC apart i memI j memJ
    obtain ⟨familyB, ownB⟩ := live b memB
    obtain ⟨familyC, ownC⟩ := live c memC
    rw [ownB] at memI
    rw [ownC] at memJ
    rw [mem_singleton.mp memI, mem_singleton.mp memJ]
    exact (span_apart_iff familyB familyC).mpr apart

theorem bans_apart_iff : (∀ s latch sets, (tick s latch (parseLAPIStream parseDuration new) ex).2 = some sets →
      ∀ isV6, Apart (sets.of isV6)) ↔ (¬ Targets (bansIn parseDuration new) ex → ∀ isV6 b c rest,
      (candidates parseDuration new ex isV6).Perm (b :: c :: rest) → ¬ c.p.string < b.p.string →
        (smaller (·.p.string) rest c).length + 2 ≤ crowdsecBlocklistMaxElements → ¬ Meet b.p c.p) := by
  have trips : shouldSelfProtectTrip (parseLAPIStream parseDuration new) ex = true ↔
      Targets (bansIn parseDuration new) ex := by
    have lists := funext (parseLAPIStream_bans parseDuration new).2
    rw [trips_iff, lists]
  have pairs := fun isV6 => @pairwise_take_iff Ban String _ (·.p.string) (fun b c => ¬ Meet b.p c.p)
    (candidates parseDuration new ex isV6) crowdsecBlocklistMaxElements
  constructor
  · intro all spared isV6
    apply (pairs isV6).mp
    intro sorted perm ordered
    have queued : (tick (placing perm ordered) ⟨0, false⟩ (parseLAPIStream parseDuration new) ex).2 =
        some (written (placing perm ordered) (parseLAPIStream parseDuration new) ex) := by
      have passes : ¬ shouldSelfProtectTrip (parseLAPIStream parseDuration new) ex = true :=
        fun trip => spared (trips.mp trip)
      simp [tick, passes]
    have apart := (left_apart_iff parseDuration new ex _ isV6).mp (all _ _ _ queued isV6)
    rwa [placing_sort] at apart
  · intro separate s latch sets queued isV6
    unfold tick at queued
    split at queued
    · cases queued
    split at queued
    · cases queued
    rename_i passes
    cases queued
    rw [left_apart_iff]
    have own := (pairs isV6).mpr (separate (fun trip => passes (trips.mpr trip)) isV6)
    exact own _ (s.perm _) (s.ordered _)

end Bans

/-- What is queued for a set never overlaps exactly when the trusted ranges are the same or apart,
the entries of the ports too, and no two bans meet that have room below the cap. -/
theorem none_overlap_iff (parseDuration : String → Option Duration) (o : Objects)
    (serviceCIDREnv : String) (t : TenantPorts.Node) (new : List LapiDecision) :
    NoneOverlap parseDuration o serviceCIDREnv t new ↔ AllSeparate parseDuration o serviceCIDREnv t new := by
  have ports := fun udp => ports_apart_iff udp t
  have bans := bans_apart_iff parseDuration new (buildExclusionSet o serviceCIDREnv)
  constructor
  · intro apart
    refine ⟨?_, fun udp => (ports udp).mp (apart.ports udp), bans.mp apart.bans⟩
    intro e mem e' mem' zone zone'
    by_cases families : e.family = e'.family
    · obtain ⟨isV6, family⟩ := exists_familyOf e.family
      exact (trusted_apart_iff o isV6).mp (apart.trusted _) e mem e' mem' family
        (families.symm.trans family) zone zone'
    · exact .inr ⟨fun covers => families covers.1, fun covers => families covers.1.symm⟩
  · intro separate
    refine ⟨?_, fun udp => (ports udp).mpr (separate.ports udp), bans.mpr separate.bans⟩
    intro family
    obtain ⟨isV6, rfl⟩ := exists_familyOf family
    refine (trusted_apart_iff o isV6).mpr ?_
    intro e mem e' mem' _ _ zone zone'
    exact separate.ranges e mem e' mem' zone zone'

/- 10.0.0.0/8 and a network in it -/
def nestedRanges : Objects := ⟨[], [⟨"10.0.0.0/8"⟩, ⟨"10.1.0.0/16"⟩], [], 0, 0⟩

/-- A trusted range inside another one is queued beside it. -/
theorem nested_ranges_overlap : ¬ NoneOverlap (fun _ => none) nestedRanges "" ⟨"worker", [], fun _ => none⟩ [] := by
  intro apart
  have both : intervals ((applyPeerSets (desired nestedRanges)).trusted .v4) =
      [(0x0A000000, 0x0B000000), (0x0A010000, 0x0A020000)] := by decide +kernel
  have pairwise := apart.trusted .v4
  rw [Apart, both, pairwise_pair] at pairwise
  have inside : InInterval (0x0A000000, 0x0B000000) 0x0A010000 := ⟨by decide, .inl (by decide)⟩
  exact pairwise.2 0x0A010000 ⟨inside, start_inside _⟩

end HostingPlatform.Firewall
