import HostingPlatform.Netip
import HostingPlatform.Ranking
import Mathlib.Data.String.Basic

/-! The blocklist of the firewall reconciler: the exclusion filter and the cap. Times to
live stand beside the prefixes by index, and a list of them may be too short. -/
namespace HostingPlatform.Firewall

open List Netip Ranking

/- in nanoseconds -/
abbrev Duration := Int

structure CrowdsecBlocklist where
  (v4 v6 : List Prefix)
  (ttlV4 ttlV6 : List Duration)

structure ExclusionSet where
  (v4 v6 : List Prefix)

def crowdsecBlocklistMaxElements : Nat := 500000

theorem width_ge (family : Family) : 32 ≤ family.width := by
  cases family <;> decide

def unmapPrefix (p : Prefix) : Prefix :=
  if p.addr.unmap = p.addr then p
  else ⟨p.addr.unmap, min (p.bits - 96) 32,
    Nat.le_trans (Nat.min_le_right _ 32) (width_ge p.addr.unmap.family)⟩

def prefixContainsOrEquals (outer inner : Prefix) : Bool :=
  let outer := unmapPrefix outer
  let inner := unmapPrefix inner
  if outer.addr.is4 ≠ inner.addr.is4 then false
  else if inner.bits < outer.bits then false
  else
    match inner.addr.toPrefix outer.bits with
    | none => false
    | some truncated => truncated.addr == outer.masked.addr

def excluded (exPrefixes : List Prefix) (p : Prefix) : Bool :=
  exPrefixes.any (fun ep => prefixContainsOrEquals ep p)

/- the loop of `filterFamily`: what is left of both lists, and the count of the dropped -/
def filterLoop (exPrefixes : List Prefix) :
    List Prefix → List Duration → List Prefix × List Duration × Nat
  | [], _ => ([], [], 0)
  | p :: rest, ttls =>
    let (out, outTTL, dropped) := filterLoop exPrefixes rest ttls.tail
    if excluded exPrefixes p then (out, outTTL, dropped + 1)
    else (p :: out, ttls.take 1 ++ outTTL, dropped)

def filterFamily (prefixes : List Prefix) (ttls : List Duration) (exPrefixes : List Prefix) :
    List Prefix × List Duration × Nat :=
  if prefixes.length = 0 then (prefixes, ttls, 0) else filterLoop exPrefixes prefixes ttls

def applyExclusions (bl : CrowdsecBlocklist) (ex : ExclusionSet) : CrowdsecBlocklist × Nat :=
  let (v4, ttl4, d4) := filterFamily bl.v4 bl.ttlV4 ex.v4
  let (v6, ttl6, d6) := filterFamily bl.v6 bl.ttlV6 ex.v6
  (⟨v4, v6, ttl4, ttl6⟩, d4 + d6)

structure Ban where
  p : Prefix
  ttl : Duration
  deriving DecidableEq

/- a prefix without a time to live has the zero one -/
def pairs : List Prefix → List Duration → List Ban
  | [], _ => []
  | p :: rest, ttls => ⟨p, ttls.headD 0⟩ :: pairs rest ttls.tail

/- `sort.Slice` by the prefixes' strings; it leaves the order of equal ones open -/
structure SliceSort where
  sort : List Ban → List Ban
  perm : ∀ l, (sort l).Perm l
  ordered : ∀ l, (sort l).Pairwise (fun a b => ¬ b.p.string < a.p.string)

def sortPrefixes (s : SliceSort) (prefixes : List Prefix) (ttls : List Duration) :
    List Prefix × List Duration :=
  let sorted := s.sort (pairs prefixes ttls)
  (sorted.map (·.p), sorted.map (·.ttl))

def capFamily (sorted : List Prefix × List Duration) : List Prefix × List Duration × Nat :=
  if crowdsecBlocklistMaxElements < sorted.1.length then
    (sorted.1.take crowdsecBlocklistMaxElements, sorted.2.take crowdsecBlocklistMaxElements,
      sorted.1.length - crowdsecBlocklistMaxElements)
  else (sorted.1, sorted.2, 0)

def enforceCap (s : SliceSort) (bl : CrowdsecBlocklist) : CrowdsecBlocklist × Nat × Nat :=
  let (v4, ttl4, droppedV4) := capFamily (sortPrefixes s bl.v4 bl.ttlV4)
  let (v6, ttl6, droppedV6) := capFamily (sortPrefixes s bl.v6 bl.ttlV6)
  (⟨v4, v6, ttl4, ttl6⟩, droppedV4, droppedV6)

theorem containsOrEquals_iff {outer inner : Prefix} (outerPlain : outer.addr.unmap = outer.addr)
    (innerPlain : inner.addr.unmap = inner.addr) : prefixContainsOrEquals outer inner = true ↔ outer.Covers inner := by
  have sameFamily : outer.addr.is4 = inner.addr.is4 ↔ outer.addr.family = inner.addr.family := by
    cases one : outer.addr.family <;> cases other : inner.addr.family <;>
      simp [Addr.is4, one, other]
  simp only [prefixContainsOrEquals, unmapPrefix, if_pos outerPlain, if_pos innerPlain, ne_eq, sameFamily]
  by_cases family : outer.addr.family = inner.addr.family
  · by_cases bits : outer.bits ≤ inner.bits
    · have fits : outer.bits ≤ inner.addr.family.width := Nat.le_trans bits inner.inRange
      have hostBits : inner.addr.family.width - outer.bits = outer.hostBits := by
        rw [Prefix.hostBits, family]
      simp only [family, not_true_eq_false, if_false, if_neg (Nat.not_lt.mpr bits), Addr.toPrefix,
        dif_pos fits, hostBits, Prefix.masked, beq_iff_eq, Addr.mk.injEq, Addr.clear, true_and,
        Prefix.Covers, bits]
      constructor
      · intro same
        have divided := congrArg (· / 2 ^ outer.hostBits) same
        simpa only [clearLow_div] using divided
      · intro high
        rw [clearLow, clearLow, high]
    · simp [Nat.lt_of_not_le bits, Prefix.Covers]
  · simp [family, Prefix.Covers]

theorem filterLoop_ttls (exPrefixes prefixes : List Prefix) : (filterLoop exPrefixes prefixes []).2.1 = [] := by
  induction prefixes with
  | nil => rfl
  | cons p rest ih =>
    simp only [filterLoop, take_nil]
    split <;> exact ih

theorem pairs_filterLoop (exPrefixes prefixes : List Prefix) (ttls : List Duration) :
    pairs (filterLoop exPrefixes prefixes ttls).1 (filterLoop exPrefixes prefixes ttls).2.1 =
      (pairs prefixes ttls).filter (fun b => !excluded exPrefixes b.p) := by
  induction prefixes generalizing ttls with
  | nil => rfl
  | cons p rest ih =>
    simp only [filterLoop, pairs, filter_cons]
    by_cases out : excluded exPrefixes p = true
    · simp only [out, Bool.false_eq_true]
      exact ih ttls.tail
    simp only [out, Bool.false_eq_true, if_false, Bool.not_false, if_true, pairs]
    cases ttls with
    | nil =>
      have tail := ih []
      rw [filterLoop_ttls] at tail
      simp only [tail_nil, take_nil, nil_append, filterLoop_ttls]
      rw [tail]
    | cons ttl ttls =>
      have tail := ih ttls
      simp only [take_succ_cons, take_zero, cons_append, nil_append, headD_cons, tail_cons]
      rw [tail]

theorem pairs_filterFamily (prefixes : List Prefix) (ttls : List Duration) (exPrefixes : List Prefix) :
    pairs (filterFamily prefixes ttls exPrefixes).1 (filterFamily prefixes ttls exPrefixes).2.1 =
      (pairs prefixes ttls).filter (fun b => !excluded exPrefixes b.p) := by
  unfold filterFamily
  split
  · rename_i none
    rw [length_eq_zero_iff.mp none]
    rfl
  · exact pairs_filterLoop exPrefixes prefixes ttls

theorem capFamily_eq (l : List Ban) :
    ((capFamily (l.map (·.p), l.map (·.ttl))).1, (capFamily (l.map (·.p), l.map (·.ttl))).2.1) =
      ((l.take crowdsecBlocklistMaxElements).map (·.p), (l.take crowdsecBlocklistMaxElements).map (·.ttl)) := by
  simp only [capFamily, length_map]
  split
  · simp
  · rename_i fits
    rw [take_of_length_le (Nat.le_of_not_lt fits)]

/- one family of what the cap leaves of the filtered blocklist -/
def kept (s : SliceSort) (prefixes : List Prefix) (ttls : List Duration)
    (exPrefixes : List Prefix) : List Ban :=
  (s.sort ((pairs prefixes ttls).filter (fun b => !excluded exPrefixes b.p))).take
    crowdsecBlocklistMaxElements

theorem capped_family (s : SliceSort) (prefixes : List Prefix) (ttls : List Duration) (exPrefixes : List Prefix) :
    let filtered := filterFamily prefixes ttls exPrefixes
    let capped := capFamily (sortPrefixes s filtered.1 filtered.2.1)
    capped.1 = (kept s prefixes ttls exPrefixes).map (·.p) ∧
      capped.2.1 = (kept s prefixes ttls exPrefixes).map (·.ttl) := by
  have both := capFamily_eq (s.sort ((pairs prefixes ttls).filter (fun b => !excluded exPrefixes b.p)))
  rw [Prod.mk.injEq] at both
  simp only [sortPrefixes, pairs_filterFamily]
  exact both

def favoring (b : Ban) : SliceSort where
  sort := List.insertionSort (Favors (·.p.string) b)
  perm := List.perm_insertionSort (Favors (·.p.string) b)
  ordered := fun l =>
    (List.pairwise_insertionSort (Favors (·.p.string) b) l).imp not_less_of_favors

/-! The elements of an nft interval set that the reconciler writes for a blocklist: every
prefix becomes an opening and a closing key, the closing one computed byte by byte. -/

open Digits

structure SetElement where
  key : List Nat
  timeout : Duration
  intervalEnd : Bool

def as16 (a : Addr) : List Nat :=
  groups 16 256 (if a.is4 then 0xffff * 2 ^ 32 + a.value else a.value)

/- `As4` panics on an IPv6 address that is not a mapped one; it is not called on one -/
def as4 (a : Addr) : List Nat := groups 4 256 a.value

def addrBytes (a : Addr) (isV6 : Bool) : List Nat := if isV6 then as16 a else as4 a

def addPow2 (a : Addr) (exp : Nat) (isV6 : Bool) : List Nat :=
  let b := addrBytes a isV6
  -- the carry enters at the byte that many places from the right
  if b.length ≤ exp / 8 then List.replicate b.length 0xFF
  else
    let right := b.reverse
    (right.take (exp / 8) ++ addCarry 256 (right.drop (exp / 8)) (2 ^ (exp % 8))).reverse

def nextNetwork (a : Addr) (bits : Nat) (isV6 : Bool) : Option (List Nat) :=
  let totalBits := if isV6 then 128 else 32
  if totalBits < bits then none else some (addPow2 a (totalBits - bits) isV6)

def maxTtl : Duration := 7 * 24 * 3600 * 1000000000

def banElements (p : Prefix) (ttl : Duration) (isV6 : Bool) : List SetElement :=
  if p.addr.is4 = isV6 then []
  else
    let p := p.masked
    match nextNetwork p.addr p.bits isV6 with
    | none => []
    | some endBytes =>
      if ttl ≤ 0 then []
      else
        [⟨addrBytes p.addr isV6, if maxTtl < ttl then maxTtl else ttl, false⟩,
          ⟨endBytes, 0, true⟩]

def crowdsecPrefixesToElements : List Prefix → List Duration → Bool → List SetElement
  | [], _, _ => []
  | p :: rest, ttls, isV6 =>
    banElements p (ttls.headD 0) isV6 ++ crowdsecPrefixesToElements rest ttls.tail isV6

/- the intervals of a set, an opening key and the closing key after it -/
def intervals : List SetElement → List (Nat × Nat)
  | opening :: closing :: rest =>
    (value 256 opening.key, value 256 closing.key) :: intervals rest
  | _ => []

/-- An interval that has wrapped around at its end reaches up to the last address. -/
def InInterval (i : Nat × Nat) (x : Nat) : Prop := i.1 ≤ x ∧ (x < i.2 ∨ i.2 ≤ i.1)

def familyOf (isV6 : Bool) : Family := if isV6 then .v6 else .v4

variable {isV6 : Bool}

variable {a : Addr} {p q : Prefix} {s : SliceSort}

theorem is4_eq_iff : a.is4 = isV6 ↔ a.family ≠ familyOf isV6 := by
  cases family : a.family <;> cases isV6 <;> simp [Addr.is4, familyOf, family]

theorem value_addrBytes (family : a.family = familyOf isV6) : value 256 (addrBytes a isV6) = a.value := by
  have inRange := a.inRange
  cases isV6 with
  | false =>
    rw [family] at inRange
    simp only [addrBytes, as4, value_groups, Bool.false_eq_true, if_false]
    exact Nat.mod_eq_of_lt inRange
  | true =>
    rw [family] at inRange
    have plain : a.is4 = false := by simp [Addr.is4, family, familyOf]
    simp only [addrBytes, as16, plain, value_groups, if_true]
    exact Nat.mod_eq_of_lt inRange

theorem length_addrBytes (a : Addr) (isV6 : Bool) : (addrBytes a isV6).length * 8 = (familyOf isV6).width := by
  cases isV6 <;> simp [addrBytes, as4, as16, length_groups, familyOf, Family.width]

theorem addrBytes_lt (a : Addr) (isV6 : Bool) : ∀ d ∈ addrBytes a isV6, d < 256 := by
  cases isV6 <;> exact groups_lt (by decide)

theorem value_addPow2 {exp : Nat} (family : a.family = familyOf isV6) (fits : exp < a.family.width) :
    value 256 (addPow2 a exp isV6) = (a.value + 2 ^ exp) % 2 ^ a.family.width := by
  have length := length_addrBytes a isV6
  rw [← family] at length
  have inside : exp / 8 < (addrBytes a isV6).length := by omega
  have digits : ∀ d ∈ (addrBytes a isV6).reverse, d < 256 :=
    fun d mem => addrBytes_lt a isV6 d (mem_reverse.mp mem)
  have position : exp / 8 ≤ (addrBytes a isV6).reverse.length := by
    rw [length_reverse]
    exact Nat.le_of_lt inside
  have weight : 256 ^ (exp / 8) * 2 ^ (exp % 8) = 2 ^ exp := by
    have base : (256 : Nat) = 2 ^ 8 := by norm_num
    rw [base, ← Nat.pow_mul, ← Nat.pow_add, Nat.div_add_mod]
  have width : 256 ^ (addrBytes a isV6).length = 2 ^ a.family.width := by
    have base : (256 : Nat) = 2 ^ 8 := by norm_num
    rw [base, ← Nat.pow_mul, Nat.mul_comm, length]
  have start := value_addrBytes family
  unfold value at start ⊢
  rw [addPow2, if_neg (Nat.not_le.mpr inside), reverse_reverse,
    ofDigits_add_at (by decide) digits position, start, weight, length_reverse, width]

theorem value_addPow2_all (family : a.family = familyOf isV6) :
    value 256 (addPow2 a a.family.width isV6) = 2 ^ a.family.width - 1 := by
  cases isV6 with
  | false =>
    simp only [family, addPow2, addrBytes, as4, length_groups, Bool.false_eq_true, if_false]
    rw [if_pos (by decide)]
    decide
  | true =>
    simp only [family, addPow2, addrBytes, as16, length_groups, if_true]
    rw [if_pos (by decide)]
    decide

structure Sets where
  (v4 v6 : List SetElement)

def written (s : SliceSort) (bl : CrowdsecBlocklist) (ex : ExclusionSet) : Sets :=
  let capped := (enforceCap s (applyExclusions bl ex).1).1
  ⟨crowdsecPrefixesToElements capped.v4 capped.ttlV4 false,
    crowdsecPrefixesToElements capped.v6 capped.ttlV6 true⟩

def Sets.of (sets : Sets) (isV6 : Bool) : List SetElement := if isV6 then sets.v6 else sets.v4

/-- The set of the address's family has an interval that covers it. -/
def Dropped (sets : Sets) (a : Addr) : Prop :=
  ∃ i ∈ intervals (sets.of (!a.is4)), InInterval i a.value

def ExclusionsWin (s : SliceSort) (bl : CrowdsecBlocklist) (ex : ExclusionSet) : Prop :=
  ∀ q ∈ ex.v4 ++ ex.v6, ∀ a, q.contains a = true → ¬ Dropped (written s bl ex) a

def Unmapped (bl : CrowdsecBlocklist) (ex : ExclusionSet) : Prop :=
  ∀ p ∈ bl.v4 ++ bl.v6 ++ ex.v4 ++ ex.v6, p.addr.unmap = p.addr

instance (bl : CrowdsecBlocklist) (ex : ExclusionSet) : Decidable (Unmapped bl ex) :=
  inferInstanceAs (Decidable (∀ p ∈ _, _))

/- the blocklist's and the exclusions' lists for a family -/
def CrowdsecBlocklist.bans (bl : CrowdsecBlocklist) (isV6 : Bool) : List Ban :=
  if isV6 then pairs bl.v6 bl.ttlV6 else pairs bl.v4 bl.ttlV4

def ExclusionSet.of (ex : ExclusionSet) (isV6 : Bool) : List Prefix := if isV6 then ex.v6 else ex.v4

def unexcluded (bl : CrowdsecBlocklist) (ex : ExclusionSet) (isV6 : Bool) : List Ban :=
  (bl.bans isV6).filter (fun b => !excluded (ex.of isV6) b.p)

/-- A ban that can be written: of its list's family, with a time to live, not excluded, and
with room for it below the cap. -/
def Writable (bl : CrowdsecBlocklist) (ex : ExclusionSet) (isV6 : Bool) (b : Ban) : Prop :=
  b ∈ unexcluded bl ex isV6 ∧ b.p.addr.family = familyOf isV6 ∧ 0 < b.ttl ∧
    (smaller (·.p.string) (unexcluded bl ex isV6) b).length < crowdsecBlocklistMaxElements

/-- The last address of the family, and no other. -/
def IsLast (q : Prefix) : Prop :=
  q.bits = q.addr.family.width ∧ q.addr.value = 2 ^ q.addr.family.width - 1

/-- Neither contains the other; the interval of a whole family, though, stops short of its
last address. -/
def Spares (p q : Prefix) : Prop :=
  prefixContainsOrEquals p q = false ∧ prefixContainsOrEquals q p = false ∨ p.bits = 0 ∧ IsLast q

/-- The addresses of a ban that its interval covers. -/
def Reaches (p : Prefix) (a : Addr) : Prop :=
  p.contains a = true ∧ (p.bits = 0 → a.value ≠ 2 ^ a.family.width - 1)

theorem elements_bans (l : List Ban) (isV6 : Bool) : crowdsecPrefixesToElements (l.map (·.p)) (l.map (·.ttl)) isV6 =
      l.flatMap (fun b => banElements b.p b.ttl isV6) := by
  induction l with
  | nil => rfl
  | cons b rest ih =>
    simp [crowdsecPrefixesToElements, ih]

theorem intervals_banElements (p : Prefix) (ttl : Duration) (isV6 : Bool)
    (rest : List SetElement) : intervals (banElements p ttl isV6 ++ rest) =
      intervals (banElements p ttl isV6) ++ intervals rest := by
  unfold banElements
  split
  · rfl
  dsimp only
  split
  · rfl
  · split <;> rfl

theorem intervals_bans (l : List Ban) (isV6 : Bool) : intervals (l.flatMap (fun b => banElements b.p b.ttl isV6)) =
      l.flatMap (fun b => intervals (banElements b.p b.ttl isV6)) := by
  induction l with
  | nil => rfl
  | cons b rest ih => rw [flatMap_cons, flatMap_cons, intervals_banElements, ih]

theorem inInterval_iff {start size total x : Nat} (positive : 0 < size)
    (fits : start + size ≤ total) (inside : x < total) :
    InInterval (start, (start + size) % total) x ↔ start ≤ x ∧ x < start + size := by
  unfold InInterval
  rcases Nat.lt_or_eq_of_le fits with below | top
  · rw [Nat.mod_eq_of_lt below]
    omega
  -- at the top of the address space the end wraps around to zero
  rw [top, Nat.mod_self]
  omega

theorem clearLow_fits (p : Prefix) : clearLow p.hostBits p.addr.value + 2 ^ p.hostBits ≤ 2 ^ p.addr.family.width := by
  have split : 2 ^ p.addr.family.width = 2 ^ (p.addr.family.width - p.hostBits) * 2 ^ p.hostBits := by
    have le : p.hostBits ≤ p.addr.family.width := Nat.sub_le _ _
    rw [← Nat.pow_add, Nat.sub_add_cancel le]
  have high : p.addr.value / 2 ^ p.hostBits < 2 ^ (p.addr.family.width - p.hostBits) := by
    refine Nat.div_lt_of_lt_mul ?_
    rw [Nat.mul_comm, ← split]
    exact p.addr.inRange
  rw [split, clearLow, ← Nat.succ_mul]
  exact Nat.mul_le_mul_right _ high

theorem div_eq_iff_clearLow {hostBits v x : Nat} : x / 2 ^ hostBits = v / 2 ^ hostBits ↔
    clearLow hostBits v ≤ x ∧ x < clearLow hostBits v + 2 ^ hostBits := by
  have positive := Nat.two_pow_pos hostBits
  rw [clearLow, Nat.div_eq_iff positive]
  omega

theorem familyOf_width (isV6 : Bool) : (if isV6 then 128 else 32) = (familyOf isV6).width := by
  cases isV6 <;> rfl

variable {ttl : Duration}

theorem banElements_live (family : p.addr.family = familyOf isV6) (live : 0 < ttl) : banElements p ttl isV6 =
      [⟨addrBytes p.masked.addr isV6, if maxTtl < ttl then maxTtl else ttl, false⟩,
        ⟨addPow2 p.masked.addr p.hostBits isV6, 0, true⟩] := by
  have here : ¬ p.addr.is4 = isV6 := fun other => is4_eq_iff.mp other family
  have fits : ¬ (familyOf isV6).width < p.masked.bits := by
    rw [← family]
    exact Nat.not_lt.mpr p.inRange
  have exponent : (familyOf isV6).width - p.masked.bits = p.hostBits := by
    rw [← family]
    rfl
  unfold banElements
  rw [if_neg here]
  dsimp only
  rw [nextNetwork, familyOf_width, if_neg fits]
  dsimp only
  rw [if_neg (Int.not_le.mpr live), exponent]

theorem start_masked (family : p.addr.family = familyOf isV6) :
    value 256 (addrBytes p.masked.addr isV6) = clearLow p.hostBits p.addr.value :=
  value_addrBytes (a := p.masked.addr) family

theorem intervals_live (family : p.addr.family = familyOf isV6) (live : 0 < ttl) : intervals (banElements p ttl isV6) =
      [(clearLow p.hostBits p.addr.value, value 256 (addPow2 p.masked.addr p.hostBits isV6))] := by
  rw [banElements_live family live]
  simp [intervals, start_masked family]

theorem intervals_dead (dead : p.addr.family ≠ familyOf isV6 ∨ ttl ≤ 0) : intervals (banElements p ttl isV6) = [] := by
  unfold banElements
  rcases dead with other | expired
  · rw [if_pos (is4_eq_iff.mpr other)]
    rfl
  split
  · rfl
  · dsimp only
    split <;> rfl

theorem reaches_iff (family : p.addr.family = familyOf isV6) (familyA : a.family = p.addr.family) :
    InInterval (clearLow p.hostBits p.addr.value, value 256 (addPow2 p.masked.addr p.hostBits isV6))
      a.value ↔ Reaches p a := by
  have inside : a.value < 2 ^ p.addr.family.width := familyA ▸ a.inRange
  have familyM : p.masked.addr.family = familyOf isV6 := family
  have contains : p.contains a = true ↔ clearLow p.hostBits p.addr.value ≤ a.value ∧
      a.value < clearLow p.hostBits p.addr.value + 2 ^ p.hostBits := by
    rw [contains_iff, ← div_eq_iff_clearLow]
    exact and_iff_right familyA
  have fits := clearLow_fits p
  unfold Reaches
  rw [contains, familyA]
  by_cases all : p.bits = 0
  · have hostBits : p.hostBits = p.addr.family.width := by rw [Prefix.hostBits, all, Nat.sub_zero]
    have last : value 256 (addPow2 p.masked.addr p.hostBits isV6) = 2 ^ p.addr.family.width - 1 := by
      rw [hostBits]
      exact value_addPow2_all familyM
    have wide : 1 < 2 ^ p.addr.family.width :=
      Nat.one_lt_two_pow (Nat.ne_of_gt (Nat.lt_of_lt_of_le (by decide) (width_ge _)))
    rw [last]
    rw [hostBits] at fits ⊢
    unfold InInterval
    omega
  · have below : p.hostBits < p.addr.family.width := by
      have := p.inRange
      unfold Prefix.hostBits
      omega
    have wrapped : value 256 (addPow2 p.masked.addr p.hostBits isV6) =
        (clearLow p.hostBits p.addr.value + 2 ^ p.hostBits) % 2 ^ p.addr.family.width :=
      value_addPow2 familyM below
    rw [wrapped, inInterval_iff (Nat.two_pow_pos _) fits inside]
    exact (and_iff_left (fun none => absurd none all)).symm

theorem covered_iff (familyA : a.family = familyOf isV6) :
    (∃ i ∈ intervals (banElements p ttl isV6), InInterval i a.value) ↔
      p.addr.family = familyOf isV6 ∧ 0 < ttl ∧ Reaches p a := by
  by_cases alive : p.addr.family = familyOf isV6 ∧ 0 < ttl
  · obtain ⟨family, live⟩ := alive
    rw [intervals_live family live]
    simp [reaches_iff family (familyA.trans family.symm), family, live]
  have dead : p.addr.family ≠ familyOf isV6 ∨ ttl ≤ 0 := by
    rw [Classical.not_and_iff_not_or_not, Int.not_lt] at alive
    exact alive
  rw [intervals_dead dead]
  constructor
  · rintro ⟨i, mem, _⟩
    contradiction
  · rintro ⟨family, live, _⟩
    exact absurd ⟨family, live⟩ alive

theorem clearLow_not_last {hostBits width v : Nat} (host : 0 < hostBits) (wide : 0 < width) :
    clearLow hostBits v ≠ 2 ^ width - 1 := by
  obtain ⟨h, rfl⟩ := Nat.exists_eq_add_one.mpr host
  obtain ⟨w, rfl⟩ := Nat.exists_eq_add_one.mpr wide
  have positive := Nat.two_pow_pos w
  unfold clearLow
  rw [Nat.pow_succ 2 h, ← Nat.mul_assoc]
  omega

theorem exists_not_last (more : ¬ IsLast q) : ∃ a, q.contains a = true ∧ a.value ≠ 2 ^ a.family.width - 1 := by
  by_cases last : q.addr.value = 2 ^ q.addr.family.width - 1
  · have host : 0 < q.hostBits := by
      have different : q.bits ≠ q.addr.family.width := fun single => more ⟨single, last⟩
      exact Nat.sub_pos_of_lt (Nat.lt_of_le_of_ne q.inRange different)
    have wide : 0 < q.addr.family.width := Nat.lt_of_lt_of_le (by decide) (width_ge _)
    exact ⟨q.masked.addr, contains_iff.mpr ⟨rfl, clearLow_div q.hostBits q.addr.value⟩,
      clearLow_not_last host wide⟩
  · exact ⟨q.addr, contains_addr q, last⟩

theorem reaches_exclusion_iff (plainP : p.addr.unmap = p.addr) (plainQ : q.addr.unmap = q.addr) :
    (∃ a, q.contains a = true ∧ Reaches p a) ↔ ¬ Spares p q := by
  have outer := containsOrEquals_iff plainP plainQ
  have inner := containsOrEquals_iff plainQ plainP
  constructor
  · rintro ⟨a, inQ, inP, stops⟩ spares
    rcases spares with ⟨notOuter, notInner⟩ | ⟨all, last⟩
    · rcases nested_of_common inP inQ with covers | covers
      · exact absurd (outer.mpr covers) (Bool.eq_false_iff.mp notOuter)
      · exact absurd (inner.mpr covers) (Bool.eq_false_iff.mp notInner)
    obtain ⟨family, same⟩ := contains_iff.mp inQ
    have single : q.hostBits = 0 := by rw [Prefix.hostBits, last.1, Nat.sub_self]
    rw [single, Nat.pow_zero, Nat.div_one, Nat.div_one] at same
    rw [family, same] at stops
    exact stops all last.2
  · intro hit
    have nested : p.Covers q ∨ q.Covers p := by
      by_contra apart
      rw [not_or, ← outer, ← inner, Bool.not_eq_true, Bool.not_eq_true] at apart
      exact hit (.inl apart)
    by_cases all : p.bits = 0
    · -- the ban of a whole family: any address but the last one is reached
      have more : ∃ a, q.contains a = true ∧ p.contains a = true ∧ a.value ≠ 2 ^ a.family.width - 1 := by
        rcases nested with covers | covers
        · obtain ⟨a, inQ, notLast⟩ := exists_not_last (fun last => hit (.inr ⟨all, last⟩))
          exact ⟨a, inQ, covers.contains inQ, notLast⟩
        have notLast : ¬ IsLast p := by
          intro last
          have wide := width_ge p.addr.family
          rw [← last.1, all] at wide
          contradiction
        obtain ⟨a, inP, notLast⟩ := exists_not_last notLast
        exact ⟨a, covers.contains inP, inP, notLast⟩
      obtain ⟨a, inQ, inP, notLast⟩ := more
      exact ⟨a, inQ, inP, fun _ => notLast⟩
    · rcases nested with covers | covers
      · exact ⟨q.addr, contains_addr q, covers.contains (contains_addr q), fun none => absurd none all⟩
      · exact ⟨p.addr, covers.contains (contains_addr p), contains_addr p, fun none => absurd none all⟩

def left (s : SliceSort) (bl : CrowdsecBlocklist) (ex : ExclusionSet) (isV6 : Bool) : List Ban :=
  (s.sort (unexcluded bl ex isV6)).take crowdsecBlocklistMaxElements

theorem written_of (s : SliceSort) (bl : CrowdsecBlocklist) (ex : ExclusionSet) (isV6 : Bool) :
    (written s bl ex).of isV6 = (left s bl ex isV6).flatMap (fun b => banElements b.p b.ttl isV6) := by
  rw [← elements_bans]
  cases isV6 with
  | false =>
    obtain ⟨ps, ttls⟩ := capped_family s bl.v4 bl.ttlV4 ex.v4
    simp only [written, enforceCap, applyExclusions, ps, ttls]
    rfl
  | true =>
    obtain ⟨ps, ttls⟩ := capped_family s bl.v6 bl.ttlV6 ex.v6
    simp only [written, enforceCap, applyExclusions, ps, ttls]
    rfl

theorem familyOf_not_is4 (a : Addr) : a.family = familyOf (!a.is4) := by
  cases family : a.family <;> simp [Addr.is4, familyOf, family]

theorem familyOf_injective {isV6' : Bool} (same : familyOf isV6 = familyOf isV6') : isV6 = isV6' := by
  cases isV6 <;> cases isV6' <;> first | rfl | contradiction

theorem dropped_iff (s : SliceSort) (bl : CrowdsecBlocklist) (ex : ExclusionSet) (a : Addr) :
    Dropped (written s bl ex) a ↔ ∃ isV6, ∃ b ∈ left s bl ex isV6,
        b.p.addr.family = familyOf isV6 ∧ 0 < b.ttl ∧ Reaches b.p a := by
  have byBan : Dropped (written s bl ex) a ↔ ∃ b ∈ left s bl ex (!a.is4),
      ∃ i ∈ intervals (banElements b.p b.ttl (!a.is4)), InInterval i a.value := by
    simp only [Dropped, written_of, intervals_bans, mem_flatMap]
    constructor
    · rintro ⟨i, ⟨b, memB, memI⟩, inside⟩
      exact ⟨b, memB, i, memI, inside⟩
    · rintro ⟨b, memB, i, memI, inside⟩
      exact ⟨i, ⟨b, memB, memI⟩, inside⟩
  simp only [byBan, covered_iff (familyOf_not_is4 a)]
  constructor
  · exact fun drop => ⟨!a.is4, drop⟩
  rintro ⟨isV6, b, memB, family, live, reaches⟩
  have familyA : a.family = familyOf isV6 := (contains_iff.mp reaches.1).1.trans family
  have here : isV6 = !a.is4 := familyOf_injective (familyA.symm.trans (familyOf_not_is4 a))
  subst here
  exact ⟨b, memB, family, live, reaches⟩

variable {bl : CrowdsecBlocklist} {ex : ExclusionSet} {b : Ban}

theorem mem_unexcluded_of_left (mem : b ∈ left s bl ex isV6) : b ∈ unexcluded bl ex isV6 :=
  (s.perm _).mem_iff.mp (mem_of_mem_take mem)

theorem few_of_left (mem : b ∈ left s bl ex isV6) :
    (smaller (·.p.string) (unexcluded bl ex isV6) b).length < crowdsecBlocklistMaxElements := by
  have few := smaller_lt_of_mem_take (s.ordered _) mem
  rwa [smaller_perm (s.perm _) b] at few

theorem mem_left_favoring (mem : b ∈ unexcluded bl ex isV6)
    (few : (smaller (·.p.string) (unexcluded bl ex isV6) b).length < crowdsecBlocklistMaxElements) :
    b ∈ left (favoring b) bl ex isV6 := by
  have perm := (favoring b).perm (unexcluded bl ex isV6)
  rw [← smaller_perm perm b] at few
  exact mem_take_of_favored (pairwise_insertionSort _ _) (perm.mem_iff.mpr mem) few

theorem mem_of_mem_pairs {prefixes : List Prefix} {ttls : List Duration}
    (mem : b ∈ pairs prefixes ttls) : b.p ∈ prefixes := by
  induction prefixes generalizing ttls with
  | nil => contradiction
  | cons p rest ih =>
    rcases mem_cons.mp mem with rfl | later
    · exact mem_cons_self
    · exact mem_cons_of_mem p (ih later)

theorem Unmapped.ban (unmapped : Unmapped bl ex)
    {isV6 : Bool} {b : Ban} (mem : b ∈ unexcluded bl ex isV6) : b.p.addr.unmap = b.p.addr := by
  have listed := (mem_filter.mp mem).1
  refine unmapped b.p ?_
  cases isV6 with
  | false =>
    have inV4 : b.p ∈ bl.v4 := mem_of_mem_pairs listed
    simp [inV4]
  | true =>
    have inV6 : b.p ∈ bl.v6 := mem_of_mem_pairs listed
    simp [inV6, true_or]

theorem Unmapped.exclusion (unmapped : Unmapped bl ex) (mem : q ∈ ex.v4 ++ ex.v6) : q.addr.unmap = q.addr := by
  refine unmapped q ?_
  rw [append_assoc]
  exact mem_append_right _ mem

/-- However the sort orders equal prefixes, the exclusions win exactly when every ban that can
be written spares every exclusion. -/
theorem exclusions_win_iff (bl : CrowdsecBlocklist) (ex : ExclusionSet)
    (unmapped : Unmapped bl ex) : (∀ s, ExclusionsWin s bl ex) ↔
      ∀ isV6 b, Writable bl ex isV6 b → ∀ q ∈ ex.v4 ++ ex.v6, Spares b.p q := by
  constructor
  · intro win isV6 b ⟨mem, family, live, few⟩ q memQ
    by_contra hit
    obtain ⟨a, inQ, reaches⟩ := (reaches_exclusion_iff (unmapped.ban mem) (unmapped.exclusion memQ)).mpr hit
    refine win (favoring b) q memQ a inQ ?_
    exact (dropped_iff (favoring b) bl ex a).mpr ⟨isV6, b, mem_left_favoring mem few, family, live, reaches⟩
  intro spared s q memQ a inQ drop
  obtain ⟨isV6, b, memB, family, live, reaches⟩ := (dropped_iff s bl ex a).mp drop
  have mem := mem_unexcluded_of_left memB
  have spares := spared isV6 b ⟨mem, family, live, few_of_left memB⟩ q memQ
  exact (reaches_exclusion_iff (unmapped.ban mem) (unmapped.exclusion memQ)).mp ⟨a, inQ, reaches⟩ spares

def ipv4 (value : Nat) (inRange : value < 2 ^ 32) (bits : Nat) (fits : bits ≤ 32) : Prefix :=
  ⟨⟨.v4, value, inRange⟩, bits, fits⟩

/- 1.2.3.0/24 for an hour -/
def networkBan : Ban := ⟨ipv4 0x01020300 (by decide) 24 (by decide), 3600000000000⟩

def networkBanned : CrowdsecBlocklist := ⟨[networkBan.p], [], [networkBan.ttl], []⟩

/- 1.2.3.4/32 and 1.2.4.0/24 -/
def operator : Prefix := ipv4 0x01020304 (by decide) 32 (by decide)
def neighbor : Prefix := ipv4 0x01020400 (by decide) 24 (by decide)

theorem left_single (single : unexcluded bl ex isV6 = [b]) : left s bl ex isV6 = [b] := by
  have perm := s.perm (unexcluded bl ex isV6)
  rw [single] at perm
  have alone : s.sort [b] = [b] := perm_singleton.mp perm
  rw [left, single, alone]
  rfl

theorem neighbor_spared : Unmapped networkBanned ⟨[neighbor], []⟩ ∧
    ∀ s, ExclusionsWin s networkBanned ⟨[neighbor], []⟩ := by
  have unmapped : Unmapped networkBanned ⟨[neighbor], []⟩ := by decide
  refine ⟨unmapped, (exclusions_win_iff networkBanned ⟨[neighbor], []⟩ unmapped).mpr ?_⟩
  rintro isV6 b ⟨mem, _⟩ q memQ
  cases isV6 with
  | true => contradiction
  | false =>
    obtain rfl : b = networkBan := mem_singleton.mp mem
    obtain rfl : q = neighbor := mem_singleton.mp memQ
    exact .inl ⟨by decide, by decide⟩

/-- The ban of a network stays when one of its addresses is excluded, and drops the address. -/
theorem operator_dropped : Unmapped networkBanned ⟨[operator], []⟩ ∧
    ∀ s, ¬ ExclusionsWin s networkBanned ⟨[operator], []⟩ := by
  constructor
  · decide
  intro s win
  have single : unexcluded networkBanned ⟨[operator], []⟩ false = [networkBan] := by decide
  have reaches : Reaches networkBan.p operator.addr := ⟨by decide, nofun⟩
  refine win operator (by decide) operator.addr (contains_addr operator) ?_
  refine (dropped_iff s _ _ _).mpr ⟨false, networkBan, ?_, rfl, by decide, reaches⟩
  rw [left_single single]
  exact mem_singleton_self networkBan

end HostingPlatform.Firewall
