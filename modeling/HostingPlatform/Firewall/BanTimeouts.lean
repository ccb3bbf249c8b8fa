import HostingPlatform.Firewall.Overlap

/-! The timeouts that the blocklist's intervals are written with, and what the counts of the filter and
the cap account for. -/
namespace HostingPlatform.Firewall

open List Netip Digits Peers

/- the intervals of a set, each with the timeout of its opening element -/
def timedIntervals : List SetElement → List ((Nat × Nat) × Duration)
  | opening :: closing :: rest =>
    ((value 256 opening.key, value 256 closing.key), opening.timeout) :: timedIntervals rest
  | _ => []

def LapiDecision.Denotes (d : LapiDecision) (a : Addr) : Prop :=
  if d.value.toList.contains '/' then ∃ p, parsePrefix d.value = some p ∧ p.contains a = true
  else ∃ z, parseAddr d.value = some z ∧ z.addr = a

/-- The decision denotes the addresses of an interval of the family, and those that are written in
disguise. -/
def LapiDecision.Exactly (d : LapiDecision) (isV6 : Bool) (i : Nat × Nat) : Prop :=
  ∀ a : Addr, a.family = familyOf isV6 → (InInterval i a.value ↔ ∃ x, d.Denotes x ∧ (x = a ∨ x.unmap = a))

/-- The interval has the timeout of a ban that denotes it, seven days at most; a ban of a prefix of length
zero is not said to denote its interval. -/
def Answers (parseDuration : String → Option Duration) (new : List LapiDecision) (isV6 : Bool)
    (t : (Nat × Nat) × Duration) : Prop :=
  ∃ d ∈ new, d.type = "ban" ∧ ∃ p ttl, parseLAPIValue d.value = some p ∧ parseDuration d.duration = some ttl ∧
    t.2 = min maxTtl ttl ∧ (p.bits ≠ 0 → d.Exactly isV6 t.1)

/- the counts that a tick reports: what the filter dropped, and the cap of each family -/
def dropCounts (s : SliceSort) (bl : CrowdsecBlocklist) (ex : ExclusionSet) : Nat × Nat × Nat :=
  ((applyExclusions bl ex).2, (enforceCap s (applyExclusions bl ex).1).2)

variable {isV6 : Bool} {a : Addr} {d : LapiDecision} {p : Prefix}

theorem timed_banElements {b : Ban} (family : b.p.addr.family = familyOf isV6) (live : 0 < b.ttl)
    (rest : List SetElement) : timedIntervals (banElements b.p b.ttl isV6 ++ rest) =
      (span b.p isV6, min maxTtl b.ttl) :: timedIntervals rest := by
  have capped : (if maxTtl < b.ttl then maxTtl else b.ttl) = min maxTtl b.ttl := (min_def_lt maxTtl b.ttl).symm
  rw [banElements_live family live, capped]
  simp [timedIntervals, start_masked family, span]

theorem timed_bans {l : List Ban} (fine : ∀ b ∈ l, b.p.addr.family = familyOf isV6 ∧ 0 < b.ttl) :
    timedIntervals (l.flatMap (fun b => banElements b.p b.ttl isV6)) =
      l.map (fun b => (span b.p isV6, min maxTtl b.ttl)) := by
  induction l with
  | nil => rfl
  | cons b rest ih =>
    obtain ⟨family, live⟩ := fine b mem_cons_self
    rw [flatMap_cons, timed_banElements family live, ih (fun c mem => fine c (mem_cons_of_mem b mem))]
    rfl

theorem filterLoop_dropped (exPrefixes prefixes : List Prefix) (ttls : List Duration) :
    (filterLoop exPrefixes prefixes ttls).2.2 = (prefixes.filter (excluded exPrefixes)).length := by
  induction prefixes generalizing ttls with
  | nil => rfl
  | cons p rest ih =>
    simp only [filterLoop, filter_cons]
    split <;> simp [ih]

theorem filterFamily_dropped (exPrefixes prefixes : List Prefix) (ttls : List Duration) :
    (filterFamily prefixes ttls exPrefixes).2.2 =
      ((pairs prefixes ttls).filter (fun b => excluded exPrefixes b.p)).length := by
  rw [filter_pairs]
  unfold filterFamily
  split
  · rename_i none
    rw [length_eq_zero_iff.mp none]
    rfl
  · exact filterLoop_dropped exPrefixes prefixes ttls

theorem capFamily_dropped (sorted : List Prefix × List Duration) :
    (capFamily sorted).2.2 = sorted.1.length - crowdsecBlocklistMaxElements := by
  unfold capFamily
  split
  · rfl
  · dsimp only
    omega

theorem length_unexcluded (bl : CrowdsecBlocklist) (ex : ExclusionSet) (isV6 : Bool) :
    (unexcluded bl ex isV6).length + ((bl.bans isV6).filter (fun b => excluded (ex.of isV6) b.p)).length =
      (bl.bans isV6).length := by
  have both := length_eq_length_filter_add (l := bl.bans isV6) (fun b => excluded (ex.of isV6) b.p)
  rw [unexcluded]
  omega

theorem length_left (s : SliceSort) (bl : CrowdsecBlocklist) (ex : ExclusionSet) (isV6 : Bool) :
    (left s bl ex isV6).length = min crowdsecBlocklistMaxElements (unexcluded bl ex isV6).length := by
  rw [left, length_take, (s.perm _).length_eq]

theorem capped_dropped (s : SliceSort) (prefixes : List Prefix) (ttls : List Duration) (exPrefixes : List Prefix) :
    let filtered := filterFamily prefixes ttls exPrefixes
    (capFamily (sortPrefixes s filtered.1 filtered.2.1)).2.2 =
      ((pairs prefixes ttls).filter (fun b => !excluded exPrefixes b.p)).length - crowdsecBlocklistMaxElements := by
  simp [capFamily_dropped, sortPrefixes, pairs_filterFamily, (s.perm _).length_eq]

theorem dropCounts_eq (s : SliceSort) (bl : CrowdsecBlocklist) (ex : ExclusionSet) : dropCounts s bl ex =
      (((bl.bans false).filter (fun b => excluded (ex.of false) b.p)).length +
          ((bl.bans true).filter (fun b => excluded (ex.of true) b.p)).length,
        (unexcluded bl ex false).length - crowdsecBlocklistMaxElements,
        (unexcluded bl ex true).length - crowdsecBlocklistMaxElements) := by
  simp only [dropCounts, applyExclusions, enforceCap, filterFamily_dropped, capped_dropped]
  rfl

theorem unmap_family (mapped : a.is4In6 = true) : a.unmap.family = .v4 := by
  simp [Addr.unmap, mapped]

theorem div_disguised {h low low' : Nat} (short : h ≤ 32) :
    (0xffff * 2 ^ 32 + low) / 2 ^ h = (0xffff * 2 ^ 32 + low') / 2 ^ h ↔ low / 2 ^ h = low' / 2 ^ h := by
  have power : 0xffff * 2 ^ 32 = 2 ^ h * (0xffff * 2 ^ (32 - h)) := by
    rw [Nat.mul_left_comm, ← Nat.pow_add, Nat.add_sub_cancel' short]
  rw [power, Nat.mul_add_div (Nat.two_pow_pos h), Nat.mul_add_div (Nat.two_pow_pos h), Nat.add_left_cancel_iff]

theorem value_disguised (mapped : a.is4In6 = true) : a.value = 0xffff * 2 ^ 32 + a.unmap.value := by
  have high := (is4In6_iff.mp mapped).2
  have low : a.unmap.value = a.value % 2 ^ 32 := by simp [Addr.unmap, mapped]
  rw [low, ← high, Nat.mul_comm]
  exact (Nat.div_add_mod a.value (2 ^ 32)).symm

theorem exists_disguised (four : a.family = .v4) : ∃ x : Addr, x.is4In6 = true ∧ x.unmap = a := by
  obtain ⟨family, value, inRange⟩ := a
  cases four
  simp only [Family.width] at inRange
  have fits : 0xffff * 2 ^ 32 + value < 2 ^ Family.v6.width := by
    simp only [Family.width]
    omega
  have mapped : (Addr.mk .v6 (0xffff * 2 ^ 32 + value) fits).is4In6 = true := by
    refine is4In6_iff.mpr ⟨rfl, ?_⟩
    dsimp only
    omega
  refine ⟨_, mapped, ?_⟩
  have low : (0xffff * 2 ^ 32 + value) % 2 ^ 32 = value := by omega
  rw [Addr.unmap, if_pos mapped]
  exact (Addr.mk.injEq ..).mpr ⟨rfl, low⟩

theorem contains_unmapPrefix {q : Prefix} (family : (unmapPrefix q).addr.family = familyOf isV6)
    (some : (unmapPrefix q).bits ≠ 0) (same : a.family = familyOf isV6) :
    (unmapPrefix q).contains a = true ↔ ∃ x, q.contains x = true ∧ (x = a ∨ x.unmap = a) := by
  cases mapped : q.addr.is4In6 with
  | false =>
    rw [unmapPrefix_plain mapped] at family ⊢
    constructor
    · intro inside
      exact ⟨a, inside, .inl rfl⟩
    rintro ⟨x, inside, rfl | rfl⟩
    · exact inside
    have plain : x.is4In6 = false := by
      by_contra disguised
      rw [Bool.not_eq_false] at disguised
      have six := (is4In6_iff.mp disguised).1
      rw [unmap_family disguised] at same
      rw [(contains_iff.mp inside).1, family, ← same] at six
      contradiction
    rw [unmap_plain plain]
    exact inside
  | true =>
    have long : 96 ≤ q.bits := by
      by_contra short
      have none : q.bits - 96 = 0 := by omega
      rw [unmapPrefix] at some
      split at some
      · rename_i plain
        have four := unmap_family mapped
        rw [plain, (is4In6_iff.mp mapped).1] at four
        contradiction
      · simp [none] at some
    obtain ⟨four, value, _, host⟩ := unmapPrefix_mapped mapped long
    have familyA : a.family = .v4 := same.trans (family.symm.trans four)
    have six := (is4In6_iff.mp mapped).1
    have short : q.hostBits ≤ 32 := by
      rw [Prefix.hostBits, six]
      simp only [Family.width]
      omega
    have own : (unmapPrefix q).addr.value = q.addr.unmap.value := by rw [unmapPrefix_addr]
    rw [contains_iff, host, own, familyA, four, and_iff_right rfl]
    constructor
    · intro inside
      obtain ⟨x, disguised, rfl⟩ := exists_disguised familyA
      refine ⟨x, contains_iff.mpr ⟨(is4In6_iff.mp disguised).1.trans six.symm, ?_⟩, .inr rfl⟩
      rw [value_disguised disguised, value_disguised mapped]
      exact (div_disguised short).mpr inside
    rintro ⟨x, inside, other⟩
    obtain ⟨familyX, close⟩ := contains_iff.mp inside
    have disguised : x.is4In6 = true ∧ x.unmap = a := by
      by_cases disguise : x.is4In6 = true
      · refine ⟨disguise, other.resolve_left ?_⟩
        rintro rfl
        rw [familyX, six] at familyA
        contradiction
      · rw [Bool.not_eq_true] at disguise
        rw [unmap_plain disguise, or_self] at other
        rw [← other, familyX, six] at familyA
        contradiction
    rw [value_disguised disguised.1, value_disguised mapped, disguised.2] at close
    exact (div_disguised short).mp close

theorem host_contains {x : Addr} : (host a).contains x = true ↔ a = x := by
  have single : (host a).hostBits = 0 := Nat.sub_self _
  rw [contains_iff, single, Nat.pow_zero, Nat.div_one, Nat.div_one]
  constructor
  · rintro ⟨family, value⟩
    cases a
    cases x
    cases family
    cases value
    rfl
  · rintro rfl
    exact ⟨rfl, rfl⟩

theorem unmapPrefix_host (a : Addr) : unmapPrefix (host a) = host a.unmap := by
  cases mapped : a.is4In6 with
  | false => rw [unmapPrefix_plain mapped, unmap_plain mapped]
  | true =>
    have six := (is4In6_iff.mp mapped).1
    have four := unmap_family mapped
    have differs : ¬ (host a).addr.unmap = (host a).addr := by
      intro same
      rw [show a.unmap = a from same, six] at four
      contradiction
    have bits : min ((host a).bits - 96) 32 = a.unmap.family.width := by
      rw [four]
      change min (a.family.width - 96) 32 = _
      rw [six]
      rfl
    rw [unmapPrefix, if_neg differs]
    exact (Prefix.mk.injEq ..).mpr ⟨rfl, bits⟩

theorem denotes_of_read (read : parseLAPIValue d.value = some p) :
    ∃ q, p = unmapPrefix q ∧ ∀ x, d.Denotes x ↔ q.contains x = true := by
  unfold parseLAPIValue at read
  unfold LapiDecision.Denotes
  split at read
  · rename_i slash
    obtain ⟨q, parsed, rfl⟩ := Option.map_eq_some_iff.mp read
    refine ⟨q, rfl, fun x => ?_⟩
    rw [if_pos slash, parsed]
    simp
  rename_i bare
  obtain ⟨z, parsed, rfl⟩ := Option.map_eq_some_iff.mp read
  refine ⟨host z.addr, (unmapPrefix_host z.addr).symm, fun x => ?_⟩
  rw [if_neg bare, parsed, host_contains]
  simp

theorem span_exact (read : parseLAPIValue d.value = some p) (family : p.addr.family = familyOf isV6)
    (some : p.bits ≠ 0) : d.Exactly isV6 (span p isV6) := by
  intro a same
  have reached : Reaches p a ↔ p.contains a = true := by simp [Reaches, some]
  obtain ⟨q, rfl, denotes⟩ := denotes_of_read read
  rw [span, reaches_iff family (same.trans family.symm), reached, contains_unmapPrefix family some same]
  simp [denotes]

section Stream

variable (parseDuration : String → Option Duration) (new : List LapiDecision) (ex : ExclusionSet) (s : SliceSort)

theorem mem_left_stream {isV6 : Bool} {b : Ban} (mem : b ∈ left s (parseLAPIStream parseDuration new) ex isV6) :
    b.p.addr.family = familyOf isV6 ∧ 0 < b.ttl ∧ ∃ d ∈ new, d.ban parseDuration = some b := by
  have listed := mem_unexcluded_of_left mem
  rw [unexcluded_eq] at listed
  have taken := (mem_filter.mp listed).1
  obtain ⟨family, live, _⟩ := mem_bansIn taken
  exact ⟨family, live, mem_filterMap.mp (mem_filter.mp taken).1⟩

theorem timed_written (isV6 : Bool) : timedIntervals ((written s (parseLAPIStream parseDuration new) ex).of isV6) =
      (left s (parseLAPIStream parseDuration new) ex isV6).map (fun b => (span b.p isV6, min maxTtl b.ttl)) := by
  rw [written_of]
  refine timed_bans fun b mem => ?_
  obtain ⟨family, live, _⟩ := mem_left_stream parseDuration new ex s mem
  exact ⟨family, live⟩

theorem length_bansIn : (bansIn parseDuration new false).length + (bansIn parseDuration new true).length =
    (bansOf parseDuration new).length := by
  have both := length_eq_length_filter_add (l := bansOf parseDuration new) (fun b => b.p.addr.is4)
  simpa [bansIn] using both.symm

/-- Of the decisions of a body, every interval that is written has the timeout of a ban that denotes it, a
set has no more than the cap, and the bans are those that are written and those that are counted. -/
theorem bans_accounted : (∀ isV6, ∀ t ∈ timedIntervals ((written s (parseLAPIStream parseDuration new) ex).of isV6),
      Answers parseDuration new isV6 t) ∧
    (∀ isV6, (timedIntervals ((written s (parseLAPIStream parseDuration new) ex).of isV6)).length ≤ 500000) ∧
    (bansOf parseDuration new).length =
      (timedIntervals (written s (parseLAPIStream parseDuration new) ex).v4).length +
      (timedIntervals (written s (parseLAPIStream parseDuration new) ex).v6).length +
      (dropCounts s (parseLAPIStream parseDuration new) ex).1 +
      (dropCounts s (parseLAPIStream parseDuration new) ex).2.1 +
      (dropCounts s (parseLAPIStream parseDuration new) ex).2.2 := by
  refine ⟨?_, ?_, ?_⟩
  · intro isV6 t mem
    rw [timed_written] at mem
    obtain ⟨b, memB, rfl⟩ := mem_map.mp mem
    obtain ⟨family, live, d, memD, taken⟩ := mem_left_stream parseDuration new ex s memB
    unfold LapiDecision.ban at taken
    split at taken
    · rename_i kind
      obtain ⟨p, read, rest⟩ := Option.bind_eq_some_iff.mp taken
      obtain ⟨ttl, duration, kept⟩ := Option.bind_eq_some_iff.mp rest
      rw [Option.ite_none_right_eq_some] at kept
      obtain ⟨_, same⟩ := kept
      cases same
      exact ⟨d, memD, kind.1, p, ttl, read, duration, rfl, span_exact read family⟩
    · contradiction
  · intro isV6
    rw [timed_written, length_map, length_left]
    exact Nat.min_le_left _ _
  have four := timed_written parseDuration new ex s false
  have six := timed_written parseDuration new ex s true
  have leftFour := length_unexcluded (parseLAPIStream parseDuration new) ex false
  have leftSix := length_unexcluded (parseLAPIStream parseDuration new) ex true
  have bans := (parseLAPIStream_bans parseDuration new).2
  have all := length_bansIn parseDuration new
  rw [← bans, ← bans] at all
  simp only [Sets.of, Bool.false_eq_true, if_false, if_true] at four six
  rw [four, six, length_map, length_map, length_left, length_left, dropCounts_eq]
  dsimp only
  omega

end Stream

/- an hour, for those who can read it -/
def hours (duration : String) : Option Duration := if duration = "1h" then some 3600000000000 else none

def captcha : LapiDecision := ⟨"1.2.3.4", "captcha", "Ip", "1h"⟩

/-- A decision that is no ban is neither written nor counted. -/
theorem captcha_uncounted : written (favoring networkBan) (parseLAPIStream hours [captcha]) ⟨[], []⟩ = ⟨[], []⟩ ∧
      dropCounts (favoring networkBan) (parseLAPIStream hours [captcha]) ⟨[], []⟩ = (0, 0, 0) := by
  exact ⟨rfl, rfl⟩

end HostingPlatform.Firewall
