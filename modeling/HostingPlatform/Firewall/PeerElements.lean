import HostingPlatform.Firewall.Peers

/-! The peers and trusted ranges as elements of the kernel's sets, written and read back at
every tick to see whether they have to be written again. -/
namespace HostingPlatform.Firewall.Peers

open Option List Netip Go Digits

/- `a.Next()`: there is none after the last address of a family -/
def nextAddr (a : Addr) : Option Addr := addrOf a.family (a.value + 1)

def ipElements (isV6 : Bool) (ip : String) : List SetElement :=
  match parseAddr ip with
  | none => []
  | some z =>
    if z.unmap.addr.is4 = isV6 then []
    else
      match nextAddr z.unmap.addr with
      | none => []
      | some next => [⟨addrBytes z.unmap.addr isV6, 0, false⟩, ⟨addrBytes next isV6, 0, true⟩]

def ipsToElements (ips : List String) (isV6 : Bool) : List SetElement := ips.flatMap (ipElements isV6)

def cidrElements (isV6 : Bool) (c : String) : List SetElement :=
  match parsePrefix c with
  | none => []
  | some p =>
    if p.masked.addr.is4 = isV6 then []
    else
      match nextNetwork p.masked.addr p.masked.bits isV6 with
      | none => []
      | some endBytes => [⟨addrBytes p.masked.addr isV6, 0, false⟩, ⟨endBytes, 0, true⟩]

def cidrsToElements (cidrs : List String) (isV6 : Bool) : List SetElement :=
  cidrs.flatMap (cidrElements isV6)

def bytesToAddr (b : List Nat) (isV6 : Bool) : Option Addr :=
  if b.length = (if isV6 then 16 else 4) then addrOf (familyOf isV6) (value 256 b) else none

def prefixFromInterval (start close : Addr) (totalBits : Nat) : Option Nat :=
  if close.value ≤ start.value then none
  else
    let k := Nat.log2 (close.value - start.value)
    if close.value - start.value ≠ 2 ^ k then none
    else if totalBits < k then none
    else some (totalBits - k)

/-- The loop of the readers, with the opening key that waits for its closing one; an interval
that decodes to nothing is left out. -/
def readIntervals (isV6 : Bool) (decode : Addr → Addr → Option String) :
    Option Addr → List SetElement → List String
  | _, [] => []
  | pending, e :: rest =>
    if !e.intervalEnd then readIntervals isV6 decode (bytesToAddr e.key isV6) rest
    else
      match pending, bytesToAddr e.key isV6 with
      | some start, some close => (decode start close).toList ++ readIntervals isV6 decode none rest
      | _, _ => readIntervals isV6 decode none rest

def decodeAddr (start close : Addr) : Option String :=
  if nextAddr start = some close then some start.string else none

def decodeCidr (isV6 : Bool) (start close : Addr) : Option String :=
  (prefixFromInterval start close (if isV6 then 128 else 32)).map (fun bits =>
    start.string ++ "/" ++ toString bits)

def readAddrSet (elems : List SetElement) (isV6 : Bool) : List String :=
  sortStrings (readIntervals isV6 decodeAddr none elems)

def readCidrSet (elems : List SetElement) (isV6 : Bool) : List String :=
  sortStrings (readIntervals isV6 (decodeCidr isV6) none elems)

def peerFingerprint (s : PeerNftSets) : String :=
  join '|' [join ',' s.peersV4, join ',' s.peersV6, join ',' s.trustedV4, join ',' s.trustedV6]

structure PeerTable where
  (peersV4 peersV6 trustedV4 trustedV6 : List SetElement)

def applyPeerSets (s : PeerNftSets) : PeerTable :=
  ⟨ipsToElements s.peersV4 false, ipsToElements s.peersV6 true,
    cidrsToElements s.trustedV4 false, cidrsToElements s.trustedV6 true⟩

def observedPeers (kernel : PeerTable) : PeerNftSets :=
  ⟨readAddrSet kernel.peersV4 false, readAddrSet kernel.peersV6 true,
    readCidrSet kernel.trustedV4 false, readCidrSet kernel.trustedV6 true⟩

def observePeerFingerprint (kernel : PeerTable) : String := peerFingerprint (observedPeers kernel)

/- whether there was a write, and the kernel's sets after it -/
def applyPeersIfChanged (s : PeerNftSets) (kernel : PeerTable) : Bool × PeerTable :=
  if peerFingerprint s = observePeerFingerprint kernel then (false, kernel)
  else (true, applyPeerSets s)

def reconcileOnce (o : Objects) (kernel : PeerTable) : Bool × PeerTable :=
  applyPeersIfChanged (desired o) kernel

def PeerTable.peers (t : PeerTable) : Family → List SetElement
  | .v4 => t.peersV4
  | .v6 => t.peersV6

def PeerTable.trusted (t : PeerTable) : Family → List SetElement
  | .v4 => t.trustedV4
  | .v6 => t.trustedV6

/-- Every address of the range is in an interval of the set. -/
def Present (elems : List SetElement) (r : Prefix) : Prop :=
  ∀ a, r.contains a = true → ∃ i ∈ intervals elems, InInterval i a.value

/-- What was written reads as what is desired, so that a second tick writes nothing; and every
accepted entry is in the kernel. -/
structure Settled (o : Objects) : Prop where
  same : observePeerFingerprint (applyPeerSets (desired o)) = peerFingerprint (desired o)
  quiet : ∀ kernel, (reconcileOnce o (reconcileOnce o kernel).2).1 = false
  peers : ∀ e ∈ nodeEntries o ++ peerEntries o,
    Present ((applyPeerSets (desired o)).peers e.family) e.range
  trusted : ∀ e ∈ rangeEntries o, Present ((applyPeerSets (desired o)).trusted e.family) e.range

def EndsSpace (r : Prefix) : Prop :=
  clearLow r.hostBits r.addr.value + 2 ^ r.hostBits = 2 ^ r.addr.family.width

theorem length_addCarry (base : Nat) (ds : List Nat) (carry : Nat) : (addCarry base ds carry).length = ds.length := by
  induction ds generalizing carry with
  | nil => rfl
  | cons d rest ih =>
    simp only [addCarry, length_cons]
    split
    · rfl
    · rw [ih]

theorem length_addPow2 (a : Addr) (exp : Nat) (isV6 : Bool) :
    (addPow2 a exp isV6).length = (addrBytes a isV6).length := by
  simp only [addPow2]
  split
  · simp
  · simp only [length_reverse, length_append, length_addCarry, length_take, length_drop]
    omega

theorem length_addrBytes' (a : Addr) (isV6 : Bool) : (addrBytes a isV6).length = if isV6 then 16 else 4 := by
  cases isV6 <;> simp [addrBytes, as4, as16, length_groups]

variable {a : Addr} {isV6 : Bool} {family : Family} {v : Nat} {decode : Addr → Addr → Option String}
  {f : String → List SetElement} {l : List String} {p : Prefix} {s : String} {e : Entry} {o : Objects}

theorem bytesToAddr_addrBytes (family : a.family = familyOf isV6) : bytesToAddr (addrBytes a isV6) isV6 = some a := by
  rw [bytesToAddr, if_pos (length_addrBytes' a isV6), value_addrBytes family, ← family, addrOf_value]

theorem addrOf_family (found : addrOf family v = some a) : a.family = family ∧ a.value = v := by
  unfold addrOf at found
  split at found
  · cases found
    exact ⟨rfl, rfl⟩
  · cases found

theorem addrOf_fits (fits : v < 2 ^ family.width) : addrOf family v = some ⟨family, v, fits⟩ := by
  rw [addrOf, dif_pos fits]

theorem readIntervals_pairs {text : String → Option String}
    (shape : ∀ s ∈ l, f s = [] ∧ text s = none ∨ ∃ start close k₁ k₂,
      f s = [⟨k₁, 0, false⟩, ⟨k₂, 0, true⟩] ∧ bytesToAddr k₁ isV6 = some start ∧
      bytesToAddr k₂ isV6 = some close ∧ decode start close = text s) :
    readIntervals isV6 decode none (l.flatMap f) = l.filterMap text := by
  induction l with
  | nil => rfl
  | cons s rest ih =>
    have tail := ih (fun t mem => shape t (mem_cons_of_mem s mem))
    rw [flatMap_cons, filterMap_cons]
    rcases shape s mem_cons_self with ⟨none, skipped⟩ | ⟨start, close, k₁, k₂, pair, opens, closes, read⟩
    · rw [none, skipped]
      exact tail
    rw [pair]
    simp only [cons_append, nil_append, readIntervals, opens, closes, tail, read]
    cases text s <;> rfl

/- what is read back of the text of an address or of a prefix -/
def ipText (s : String) : Option String :=
  (parseAddr s).bind (fun z => (nextAddr z.addr).map (fun _ => s))

def cidrText (s : String) : Option String :=
  (parsePrefix s).bind (fun p =>
    if clearLow p.hostBits p.addr.value + 2 ^ p.hostBits = 2 ^ p.addr.family.width then none
    else some s)

theorem not_is4 (family : a.family = familyOf isV6) : ¬ a.is4 = isV6 :=
  fun other => is4_eq_iff.mp other family

theorem ipElements_shape (plain : a.unmap = a) (family : a.family = familyOf isV6) :
    ipElements isV6 a.string = [] ∧ ipText a.string = none ∨ ∃ start close k₁ k₂,
      ipElements isV6 a.string = [⟨k₁, 0, false⟩, ⟨k₂, 0, true⟩] ∧
        bytesToAddr k₁ isV6 = some start ∧ bytesToAddr k₂ isV6 = some close ∧
        decodeAddr start close = ipText a.string := by
  have unmapped : (ZonedAddr.mk a "").unmap.addr = a := by rw [ZonedAddr.unmap_addr, plain]
  unfold ipElements ipText
  rw [parseAddr_plain]
  simp only [bind_some, unmapped, if_neg (not_is4 family)]
  cases next : nextAddr a with
  | none => exact .inl ⟨rfl, rfl⟩
  | some close =>
    right
    have familyC : close.family = familyOf isV6 := (addrOf_family next).1.trans family
    refine ⟨a, close, _, _, rfl, bytesToAddr_addrBytes family, bytesToAddr_addrBytes familyC, ?_⟩
    rw [decodeAddr, if_pos next]
    rfl

theorem bytesToAddr_addPow2 (family : p.addr.family = familyOf isV6) (nonzero : p.bits ≠ 0) :
    ∃ close, bytesToAddr (addPow2 p.addr p.hostBits isV6) isV6 = some close ∧
      close.value = (p.addr.value + 2 ^ p.hostBits) % 2 ^ p.addr.family.width := by
  have fits : p.hostBits < p.addr.family.width := by
    have whole := p.inRange
    unfold Prefix.hostBits
    omega
  have read := value_addPow2 family fits
  have inside : (p.addr.value + 2 ^ p.hostBits) % 2 ^ p.addr.family.width < 2 ^ (familyOf isV6).width := by
    rw [← family]
    exact Nat.mod_lt _ (Nat.two_pow_pos _)
  refine ⟨⟨familyOf isV6, _, inside⟩, ?_, rfl⟩
  have length : (addPow2 p.addr p.hostBits isV6).length = if isV6 then 16 else 4 := by
    rw [length_addPow2, length_addrBytes']
  rw [bytesToAddr, if_pos length, read, addrOf_fits inside]

theorem prefixFromInterval_masked (masked : p.masked = p) {close : Addr}
    (ends : close.value = (p.addr.value + 2 ^ p.hostBits) % 2 ^ p.addr.family.width) :
    prefixFromInterval p.addr close p.addr.family.width =
      if clearLow p.hostBits p.addr.value + 2 ^ p.hostBits = 2 ^ p.addr.family.width then none
      else some p.bits := by
  have start : clearLow p.hostBits p.addr.value = p.addr.value := congrArg (fun q : Prefix => q.addr.value) masked
  have fits := clearLow_fits p
  have whole := p.inRange
  have positive := Nat.two_pow_pos p.hostBits
  rw [start] at fits ⊢
  unfold prefixFromInterval
  rcases Nat.lt_or_eq_of_le fits with below | top
  · rw [Nat.mod_eq_of_lt below] at ends
    have gap : close.value - p.addr.value = 2 ^ p.hostBits := by omega
    have log : Nat.log2 (2 ^ p.hostBits) = p.hostBits := Nat.log2_two_pow
    have small : p.hostBits ≤ p.addr.family.width := Nat.sub_le _ _
    have bits : p.addr.family.width - p.hostBits = p.bits := by
      unfold Prefix.hostBits
      omega
    rw [if_neg (by omega), if_neg (Nat.ne_of_lt below)]
    simp [gap, if_neg (Nat.not_lt.mpr small), bits]
  · rw [top, Nat.mod_self] at ends
    rw [if_pos (by omega), if_pos top]

theorem addCarry_lt {ds : List Nat} (digits : ∀ d ∈ ds, d < 256) (carry : Nat) :
    ∀ d ∈ addCarry 256 ds carry, d < 256 := by
  induction ds generalizing carry with
  | nil => exact nofun
  | cons d rest ih =>
    obtain ⟨_, later⟩ := List.forall_mem_cons.mp digits
    refine List.forall_mem_cons.mpr ⟨Nat.mod_lt _ (by decide), ?_⟩
    split
    · exact later
    · exact ih later _

theorem addPow2_lt (a : Addr) (exp : Nat) : ∀ d ∈ addPow2 a exp isV6, d < 256 := by
  have digits : ∀ d ∈ (addrBytes a isV6).reverse, d < 256 :=
    fun d mem => addrBytes_lt a isV6 d (List.mem_reverse.mp mem)
  intro d mem
  rw [addPow2] at mem
  split at mem
  · rw [List.eq_of_mem_replicate mem]
    decide
  rcases List.mem_append.mp (List.mem_reverse.mp mem) with low | high
  · exact digits d (List.mem_of_mem_take low)
  · exact addCarry_lt (fun e there => digits e (List.mem_of_mem_drop there)) _ d high

/-- The next network of a masked prefix is the big-endian text of the sum, and where that does not wrap the prefix
is found again from the two. -/
theorem nextNetwork_inverse (masked : p.masked = p) (family : p.addr.family = familyOf isV6) (nonzero : 1 ≤ p.bits) :
    ∃ next close, nextNetwork p.addr p.bits isV6 = some next ∧
      next = groups (p.addr.family.width / 8) 256
        ((p.addr.value + 2 ^ (p.addr.family.width - p.bits)) % 2 ^ p.addr.family.width) ∧
      bytesToAddr next isV6 = some close ∧
      (p.addr.value + 2 ^ (p.addr.family.width - p.bits) < 2 ^ p.addr.family.width →
        prefixFromInterval p.addr close p.addr.family.width = some p.bits) := by
  have within := p.inRange
  have below : p.hostBits < p.addr.family.width := by
    unfold Prefix.hostBits
    omega
  obtain ⟨close, read, ends⟩ := bytesToAddr_addPow2 family (Nat.one_le_iff_ne_zero.mp nonzero)
  refine ⟨addPow2 p.addr p.hostBits isV6, close, ?_, ?_, read, fun fits => ?_⟩
  · simp only [nextNetwork, familyOf_width, ← family, if_neg (Nat.not_lt.mpr within), Prefix.hostBits]
  · have length : (addPow2 p.addr p.hostBits isV6).length = p.addr.family.width / 8 := by
      have bytes := length_addrBytes p.addr isV6
      rw [← length_addPow2 p.addr p.hostBits isV6, ← family] at bytes
      omega
    refine List.reverse_injective (Nat.ofDigits_inj_of_len_eq (b := 256) (by decide) ?_ ?_ ?_ ?_)
    · simp [length, length_groups]
    · exact fun d mem => addPow2_lt p.addr p.hostBits d (List.mem_reverse.mp mem)
    · exact fun d mem => groups_lt (by decide) d (List.mem_reverse.mp mem)
    have sum := value_addPow2 family below
    have whole : 256 ^ (p.addr.family.width / 8) = 2 ^ p.addr.family.width := by
      cases p.addr.family <;> decide
    have back := value_groups (p.addr.family.width / 8) 256 ((p.addr.value + 2 ^ p.hostBits) % 2 ^ p.addr.family.width)
    rw [whole, Nat.mod_mod] at back
    exact sum.trans back.symm
  · have start : clearLow p.hostBits p.addr.value = p.addr.value := congrArg (fun q : Prefix => q.addr.value) masked
    have apart : p.addr.value + 2 ^ p.hostBits ≠ 2 ^ p.addr.family.width := fits.ne
    rw [prefixFromInterval_masked masked ends, start, if_neg apart]

theorem nextNetwork_inverse_carry : ∃ next close, nextNetwork ⟨.v4, 0x0affff00, by decide⟩ 24 false = some next ∧
    next = [0x0b, 0, 0, 0] ∧ bytesToAddr next false = some close ∧
    prefixFromInterval ⟨.v4, 0x0affff00, by decide⟩ close 32 = some 24 := by
  obtain ⟨next, close, found, text, read, back⟩ :=
    @nextNetwork_inverse false ⟨⟨.v4, 0x0affff00, by decide⟩, 24, by decide⟩ (by decide) rfl (by decide)
  exact ⟨next, close, found, text.trans (by decide), read, back (by decide)⟩

theorem cidrElements_shape (masked : p.masked = p) (nonzero : p.bits ≠ 0) (family : p.addr.family = familyOf isV6) :
    cidrElements isV6 p.string = [] ∧ cidrText p.string = none ∨ ∃ start close k₁ k₂,
      cidrElements isV6 p.string = [⟨k₁, 0, false⟩, ⟨k₂, 0, true⟩] ∧
        bytesToAddr k₁ isV6 = some start ∧ bytesToAddr k₂ isV6 = some close ∧
        decodeCidr isV6 start close = cidrText p.string := by
  right
  obtain ⟨close, read, ends⟩ := bytesToAddr_addPow2 family nonzero
  have fits : ¬ (familyOf isV6).width < p.bits := by
    rw [← family]
    exact Nat.not_lt.mpr p.inRange
  have exponent : (familyOf isV6).width - p.bits = p.hostBits := by
    rw [← family]
    rfl
  refine ⟨p.addr, close, addrBytes p.addr isV6, addPow2 p.addr p.hostBits isV6, ?_,
    bytesToAddr_addrBytes family, read, ?_⟩
  · simp [cidrElements, parsePrefix_string, masked, if_neg (not_is4 family), nextNetwork,
      familyOf_width, if_neg fits, exponent]
  have text := prefixFromInterval_masked masked ends
  rw [family] at text
  simp only [decodeCidr, familyOf_width, text, cidrText, parsePrefix_string, bind_some, family]
  split
  · rfl
  · rfl

/-- A text of an address or a prefix without a zone. -/
def Clean (s : String) : Prop :=
  s ≠ "" ∧ ∀ c ∈ s.toList, isHex c = true ∨ c = ':' ∨ c = '.' ∨ c = '/'

theorem clean_addr (a : Addr) : Clean a.string := by
  constructor
  · intro none
    have read := parseAddr_plain a
    rw [none] at read
    cases read
  intro c mem
  rcases Addr.string_chars mem with digit | colon | dot
  · exact .inl digit
  · exact .inr (.inl colon)
  · exact .inr (.inr (.inl dot))

theorem clean_cidr (a : Addr) (bits : Nat) : Clean (a.string ++ "/" ++ toString bits) := by
  have slash : "/".toList = ['/'] := by decide
  have text : (a.string ++ "/" ++ toString bits).toList = a.string.toList ++ '/' :: Nat.toDigits 10 bits := by
    simp
  constructor
  · intro none
    have chars := congrArg String.toList none
    simp at chars
  intro c mem
  rw [text] at mem
  rcases mem_append.mp mem with front | mem
  · exact (clean_addr a).2 c front
  rcases mem_cons.mp mem with same | digit
  · exact .inr (.inr (.inr same))
  · exact .inl (isHex_of_isDigit (isDigit_toDigits digit))

theorem Clean.free (clean : Clean s) {c : Char} (hex : isHex c = false)
    (other : c ≠ ':' ∧ c ≠ '.' ∧ c ≠ '/') : c ∉ s.toList := by
  intro mem
  rcases clean.2 c mem with is | is | is | is
  · rw [is] at hex
    cases hex
  · exact other.1 is
  · exact other.2.1 is
  · exact other.2.2 is

theorem readIntervals_clean (clean : ∀ start close s, decode start close = some s → Clean s)
    {elems : List SetElement} {pending : Option Addr} (mem : s ∈ readIntervals isV6 decode pending elems) :
    Clean s := by
  induction elems generalizing pending with
  | nil => cases mem
  | cons e rest ih =>
    unfold readIntervals at mem
    split at mem
    · exact ih mem
    cases pending with
    | none => exact ih mem
    | some start =>
      cases closes : bytesToAddr e.key isV6 with
      | none =>
        rw [closes] at mem
        exact ih mem
      | some close =>
        rw [closes] at mem
        rcases mem_append.mp mem with here | later
        · exact clean start close s (mem_toList.mp here)
        · exact ih later

theorem decodeAddr_clean (start close : Addr) (s : String) (read : decodeAddr start close = some s) : Clean s := by
  unfold decodeAddr at read
  split at read
  · cases read
    exact clean_addr start
  · cases read

theorem decodeCidr_clean (isV6 : Bool) (start close : Addr) (s : String)
    (read : decodeCidr isV6 start close = some s) : Clean s := by
  obtain ⟨bits, _, rfl⟩ := map_eq_some_iff.mp read
  exact clean_cidr start bits

def PeerNftSets.lists (s : PeerNftSets) : List (List String) :=
  [s.peersV4, s.peersV6, s.trustedV4, s.trustedV6]

theorem peerFingerprint_eq (s : PeerNftSets) : peerFingerprint s = join '|' (s.lists.map (join ',')) := rfl

theorem observed_clean (kernel : PeerTable) : ∀ l ∈ (observedPeers kernel).lists, ∀ s ∈ l, Clean s := by
  intro l mem s there
  simp only [PeerNftSets.lists, mem_cons, not_mem_nil, or_false] at mem
  rcases mem with rfl | rfl | rfl | rfl
  · exact readIntervals_clean decodeAddr_clean (mem_sortStrings.mp there)
  · exact readIntervals_clean decodeAddr_clean (mem_sortStrings.mp there)
  · exact readIntervals_clean (decodeCidr_clean false) (mem_sortStrings.mp there)
  · exact readIntervals_clean (decodeCidr_clean true) (mem_sortStrings.mp there)

theorem fingerprint_injective {s u : PeerNftSets} (cleanS : ∀ l ∈ s.lists, ∀ t ∈ l, Clean t)
    (cleanU : ∀ l ∈ u.lists, ∀ t ∈ l, Clean t) (same : peerFingerprint s = peerFingerprint u) : s = u := by
  have lists : s.lists = u.lists := by
    refine join_join_injective (by decide) ?_ (by simp [PeerNftSets.lists]) (by simp [PeerNftSets.lists]) same
    intro l mem t there
    have clean : Clean t := by
      rcases mem_append.mp mem with own | other
      · exact cleanS l own t there
      · exact cleanU l other t there
    exact ⟨clean.1, clean.free (by decide) (by decide), clean.free (by decide) (by decide)⟩
  simp only [PeerNftSets.lists, cons.injEq] at lists
  cases s
  cases u
  simp_all

theorem no_zone {s u : PeerNftSets} (cleanU : ∀ l ∈ u.lists, ∀ t ∈ l, Clean t)
    (same : peerFingerprint s = peerFingerprint u) (mem : l ∈ s.lists) {t : String} (there : t ∈ l) :
    '%' ∉ t.toList := by
  intro percent
  have inside : '%' ∈ (peerFingerprint s).toList := by
    exact mem_join_of_mem (mem_map_of_mem mem) (mem_join_of_mem there percent)
  rw [same, peerFingerprint_eq] at inside
  rcases mem_join inside with bar | ⟨text, memT, inside⟩
  · exact absurd bar (by decide)
  obtain ⟨m, memM, rfl⟩ := mem_map.mp memT
  rcases mem_join inside with comma | ⟨v, memV, inside⟩
  · exact absurd comma (by decide)
  · exact (cleanU m memM v memV).free (by decide) (by decide) inside

theorem percent_of_zone (zone : e.zone ≠ "") :
    '%' ∈ e.addr.string.toList ∧ '%' ∈ e.text.toList ∧ '%' ∈ (stripPrefix e.text).toList := by
  have sign : '%' ∈ zoneText e.zone := by
    rw [zoneText, if_neg zone]
    exact mem_cons_self
  have string : '%' ∈ e.addr.string.toList := by
    rw [ZonedAddr.string_eq, String.toList_ofList]
    exact mem_append_right _ sign
  refine ⟨string, ?_, ?_⟩
  · rw [Entry.text, String.toList_append, String.toList_append]
    exact mem_append_left _ (mem_append_left _ string)
  · rw [stripPrefix_text, zoneText, if_neg zone]
    exact mem_append_right _ (by simp)

theorem Entry.string_plain (zone : e.zone = "") : e.addr.string = e.range.addr.string ∧ e.text = e.range.string ∧
      stripPrefix e.text = e.range.addr.string := by
  refine ⟨?_, ?_, ?_⟩
  · rw [Entry.addr, zone, ZonedAddr.string_plain]
  · obtain ⟨range, z⟩ := e
    cases zone
    exact Entry.text_plain range
  · apply String.toList_injective
    rw [stripPrefix_text, zone, zoneText, if_pos rfl, takeWhile_nil, append_nil]

theorem clearLow_clearLow (hostBits v : Nat) : clearLow hostBits (clearLow hostBits v) = clearLow hostBits v := by
  conv_lhs => rw [clearLow, clearLow_div]
  rfl

theorem masked_masked (p : Prefix) : p.masked.masked = p.masked := by
  unfold Prefix.masked Addr.clear
  simp [Prefix.hostBits, clearLow_clearLow]

theorem host_masked (a : Addr) : (host a).masked = host a := by
  have none : (host a).hostBits = 0 := Nat.sub_self _
  have same : (host a).addr.clear (host a).hostBits = a := by
    rw [none]
    simp [Addr.clear, clearLow, host]
  unfold Prefix.masked
  simp only [same]
  rfl

theorem rangeEntries_masked (mem : e ∈ rangeEntries o) : e.range.masked = e.range ∧ e.range.bits ≠ 0 := by
  obtain ⟨ctr, _, read⟩ := mem_filterMap.mp mem
  split at read
  · cases read
  unfold rangeEntry at read
  split at read
  · cases read
  split at read
  · split at read
    · cases read
    rename_i some
    cases read
    exact ⟨masked_masked _, some⟩
  obtain ⟨z, _, rfl⟩ := map_eq_some_iff.mp read
  have wide := width_ge z.unmap.addr.family
  refine ⟨host_masked _, ?_⟩
  change z.unmap.addr.family.width ≠ 0
  omega

theorem peers_host (mem : e ∈ nodeEntries o ++ peerEntries o) :
    e.range = host e.range.addr ∧ e.range.addr.unmap = e.range.addr := by
  have single : ∀ z, e = Entry.of z → e.range = host e.range.addr ∧ e.range.addr.unmap = e.range.addr := by
    rintro z rfl
    refine ⟨rfl, ?_⟩
    change z.unmap.addr.unmap = z.unmap.addr
    rw [ZonedAddr.unmap_addr, unmap_unmap]
  rcases mem_append.mp mem with node | peer
  · obtain ⟨n, _, inside⟩ := mem_flatMap.mp node
    obtain ⟨addr, _, read⟩ := mem_filterMap.mp inside
    split at read
    · obtain ⟨z, _, same⟩ := map_eq_some_iff.mp read
      exact single z same.symm
    · cases read
  · obtain ⟨cpp, _, read⟩ := mem_filterMap.mp peer
    unfold peerEntry at read
    split at read
    · cases read
    obtain ⟨f, parsed, kept⟩ := bind_eq_some_iff.mp read
    split at kept
    · cases kept
    cases kept
    unfold bareEntry at parsed
    split at parsed
    · cases parsed
    · obtain ⟨z, _, same⟩ := map_eq_some_iff.mp parsed
      exact single z same.symm

theorem mem_peers_plain (plain : ∀ e ∈ accepted o, e.zone = "") : s ∈ (desired o).peers family ↔
      ∃ e ∈ nodeEntries o ++ peerEntries o, e.family = family ∧ e.range.addr.string = s := by
  rw [mem_peers]
  constructor
  · rintro (⟨e, mem, same, rfl⟩ | ⟨e, mem, same, rfl⟩)
    · have zone := plain e (mem_append_left _ (mem_append_left _ mem))
      exact ⟨e, mem_append_left _ mem, same, (Entry.string_plain zone).1.symm⟩
    · have zone := plain e (mem_append_left _ (mem_append_right _ mem))
      exact ⟨e, mem_append_right _ mem, same, (Entry.string_plain zone).2.2.symm⟩
  rintro ⟨e, mem, same, rfl⟩
  have zone := plain e (mem_append_left _ mem)
  rcases mem_append.mp mem with node | peer
  · exact .inl ⟨e, node, same, (Entry.string_plain zone).1⟩
  · exact .inr ⟨e, peer, same, (Entry.string_plain zone).2.2⟩

theorem mem_trusted_plain (plain : ∀ e ∈ accepted o, e.zone = "") : s ∈ (desired o).trusted family ↔
      ∃ e ∈ rangeEntries o, e.family = family ∧ e.range.string = s := by
  rw [mem_trusted]
  constructor
  · rintro ⟨e, mem, same, rfl⟩
    exact ⟨e, mem, same, (Entry.string_plain (plain e (mem_append_right _ mem))).2.1.symm⟩
  · rintro ⟨e, mem, same, rfl⟩
    exact ⟨e, mem, same, (Entry.string_plain (plain e (mem_append_right _ mem))).2.1⟩

theorem desired_sorted (o : Objects) (family : Family) :
    ((desired o).peers family).Pairwise (· ≤ ·) ∧ ((desired o).trusted family).Pairwise (· ≤ ·) := by
  cases family <;> exact ⟨uniqueSorted_sorted _, uniqueSorted_sorted _⟩

theorem ipText_own (s t : String) (read : ipText s = some t) : t = s := by
  obtain ⟨z, _, read⟩ := bind_eq_some_iff.mp read
  obtain ⟨_, _, same⟩ := map_eq_some_iff.mp read
  exact same.symm

theorem cidrText_own (s t : String) (read : cidrText s = some t) : t = s := by
  obtain ⟨p, _, read⟩ := bind_eq_some_iff.mp read
  split at read
  · cases read
  · cases read
    rfl

theorem nextAddr_isSome_iff (a : Addr) : (nextAddr a).isSome = true ↔ ¬ EndsSpace (host a) := by
  have none : (host a).hostBits = 0 := Nat.sub_self _
  have inRange := a.inRange
  unfold nextAddr addrOf EndsSpace
  rw [none]
  simp only [host, clearLow, Nat.div_one]
  split
  · simp only [isSome_some, true_iff]
    omega
  · simp only [isSome_none, Bool.false_eq_true, false_iff]
    omega

theorem ipText_iff (a : Addr) : ipText a.string = some a.string ↔ ¬ EndsSpace (host a) := by
  rw [← nextAddr_isSome_iff, ipText, parseAddr_plain, bind_some]
  cases nextAddr a <;> simp

theorem cidrText_iff (p : Prefix) : cidrText p.string = some p.string ↔ ¬ EndsSpace p := by
  rw [cidrText, parsePrefix_string, bind_some, EndsSpace]
  split
  · rename_i ends
    simp [ends]
  · rename_i ends
    simp [ends]

theorem ipElements_plain (plain : ∀ e ∈ accepted o, e.zone = "") (isV6 : Bool) :
    readAddrSet (ipsToElements ((desired o).peers (familyOf isV6)) isV6) isV6 = (desired o).peers (familyOf isV6) ↔
      ∀ e ∈ nodeEntries o ++ peerEntries o, e.family = familyOf isV6 → ¬ EndsSpace e.range := by
  have read : readIntervals isV6 decodeAddr none (ipsToElements ((desired o).peers (familyOf isV6)) isV6) =
      ((desired o).peers (familyOf isV6)).filterMap ipText := by
    apply readIntervals_pairs
    intro s mem
    obtain ⟨e, memE, family, rfl⟩ := (mem_peers_plain plain).mp mem
    exact ipElements_shape (peers_host memE).2 family
  rw [readAddrSet, read, sortStrings_filterMap_iff ipText_own (desired_sorted o _).1]
  constructor
  · intro all e mem family
    have text := all _ ((mem_peers_plain plain).mpr ⟨e, mem, family, rfl⟩)
    rw [(peers_host mem).1]
    exact (ipText_iff _).mp text
  · intro none s mem
    obtain ⟨e, memE, family, rfl⟩ := (mem_peers_plain plain).mp mem
    rw [ipText_iff, ← (peers_host memE).1]
    exact none e memE family

theorem cidrElements_plain (plain : ∀ e ∈ accepted o, e.zone = "") (isV6 : Bool) :
    readCidrSet (cidrsToElements ((desired o).trusted (familyOf isV6)) isV6) isV6 =
        (desired o).trusted (familyOf isV6) ↔
      ∀ e ∈ rangeEntries o, e.family = familyOf isV6 → ¬ EndsSpace e.range := by
  have read : readIntervals isV6 (decodeCidr isV6) none
      (cidrsToElements ((desired o).trusted (familyOf isV6)) isV6) =
      ((desired o).trusted (familyOf isV6)).filterMap cidrText := by
    apply readIntervals_pairs
    intro s mem
    obtain ⟨e, memE, family, rfl⟩ := (mem_trusted_plain plain).mp mem
    obtain ⟨masked, nonzero⟩ := rangeEntries_masked memE
    exact cidrElements_shape masked nonzero family
  rw [readCidrSet, read, sortStrings_filterMap_iff cidrText_own (desired_sorted o _).2]
  constructor
  · intro all e mem family
    exact (cidrText_iff _).mp (all _ ((mem_trusted_plain plain).mpr ⟨e, mem, family, rfl⟩))
  intro none s mem
  obtain ⟨e, memE, family, rfl⟩ := (mem_trusted_plain plain).mp mem
  rw [cidrText_iff]
  exact none e memE family

theorem intervals_flatMap (pairs : ∀ s, f s = [] ∨ ∃ x y, f s = [x, y]) (l : List String) :
    intervals (l.flatMap f) = l.flatMap (fun s => intervals (f s)) := by
  induction l with
  | nil => rfl
  | cons s rest ih =>
    rw [flatMap_cons, flatMap_cons, ← ih]
    rcases pairs s with none | ⟨x, y, pair⟩
    · rw [none]
      rfl
    · rw [pair]
      rfl

theorem ipElements_pairs (isV6 : Bool) (s : String) : ipElements isV6 s = [] ∨ ∃ x y, ipElements isV6 s = [x, y] := by
  unfold ipElements
  split
  · exact .inl rfl
  split
  · exact .inl rfl
  split
  · exact .inl rfl
  · exact .inr ⟨_, _, rfl⟩

theorem cidrElements_pairs (isV6 : Bool) (s : String) :
    cidrElements isV6 s = [] ∨ ∃ x y, cidrElements isV6 s = [x, y] := by
  unfold cidrElements
  split
  · exact .inl rfl
  split
  · exact .inl rfl
  split
  · exact .inl rfl
  · exact .inr ⟨_, _, rfl⟩

theorem peers_applied (s : PeerNftSets) (isV6 : Bool) :
    (applyPeerSets s).peers (familyOf isV6) = ipsToElements (s.peers (familyOf isV6)) isV6 := by
  cases isV6 <;> rfl

theorem trusted_applied (s : PeerNftSets) (isV6 : Bool) :
    (applyPeerSets s).trusted (familyOf isV6) = cidrsToElements (s.trusted (familyOf isV6)) isV6 := by
  cases isV6 <;> rfl

theorem exists_familyOf (family : Family) : ∃ isV6, family = familyOf isV6 := by
  cases family with
  | v4 => exact ⟨false, rfl⟩
  | v6 => exact ⟨true, rfl⟩

theorem ipElements_present (plain : a.unmap = a) (family : a.family = familyOf isV6)
    (inside : ¬ EndsSpace (host a)) (mem : a.string ∈ l) : Present (ipsToElements l isV6) (host a) := by
  obtain ⟨next, found⟩ := isSome_iff_exists.mp ((nextAddr_isSome_iff a).mpr inside)
  have unmapped : (ZonedAddr.mk a "").unmap.addr = a := by rw [ZonedAddr.unmap_addr, plain]
  have elements : ipElements isV6 a.string = [⟨addrBytes a isV6, 0, false⟩, ⟨addrBytes next isV6, 0, true⟩] := by
    simp [ipElements, parseAddr_plain, unmapped, if_neg (not_is4 family), found]
  obtain ⟨familyN, valueN⟩ := addrOf_family found
  have single : (host a).hostBits = 0 := Nat.sub_self _
  intro b contained
  obtain ⟨_, same⟩ := contains_iff.mp contained
  rw [single, Nat.pow_zero, Nat.div_one, Nat.div_one] at same
  have value : b.value = a.value := same
  refine ⟨(a.value, a.value + 1), ?_, ?_⟩
  · rw [ipsToElements, intervals_flatMap (ipElements_pairs isV6), mem_flatMap]
    refine ⟨a.string, mem, ?_⟩
    rw [elements]
    simp [intervals, value_addrBytes family, value_addrBytes (familyN.trans family), valueN]
  · unfold InInterval
    omega

theorem cidrElements_present (masked : p.masked = p) (nonzero : p.bits ≠ 0)
    (family : p.addr.family = familyOf isV6) (inside : ¬ EndsSpace p) (mem : p.string ∈ l) :
    Present (cidrsToElements l isV6) p := by
  have start : clearLow p.hostBits p.addr.value = p.addr.value := congrArg (fun q : Prefix => q.addr.value) masked
  have fits : ¬ (familyOf isV6).width < p.bits := by
    rw [← family]
    exact Nat.not_lt.mpr p.inRange
  have exponent : (familyOf isV6).width - p.bits = p.hostBits := by
    rw [← family]
    rfl
  have below : p.addr.value + 2 ^ p.hostBits < 2 ^ p.addr.family.width := by
    have whole := clearLow_fits p
    unfold EndsSpace at inside
    omega
  have short : p.hostBits < p.addr.family.width := by
    have whole := p.inRange
    unfold Prefix.hostBits
    omega
  have close : value 256 (addPow2 p.addr p.hostBits isV6) = p.addr.value + 2 ^ p.hostBits := by
    rw [value_addPow2 family short, Nat.mod_eq_of_lt below]
  intro b contained
  obtain ⟨_, same⟩ := contains_iff.mp contained
  obtain ⟨from', to'⟩ := div_eq_iff_clearLow.mp same
  rw [start] at from' to'
  refine ⟨(p.addr.value, p.addr.value + 2 ^ p.hostBits), ?_, ?_⟩
  · rw [cidrsToElements, intervals_flatMap (cidrElements_pairs isV6), mem_flatMap]
    refine ⟨p.string, mem, ?_⟩
    simp [cidrElements, parsePrefix_string, masked, not_is4 family, nextNetwork, familyOf_width, fits,
      exponent, intervals, value_addrBytes family, close]
  · exact ⟨from', .inl to'⟩

theorem fingerprint_iff (o : Objects) :
    observePeerFingerprint (applyPeerSets (desired o)) = peerFingerprint (desired o) ↔
      ∀ e ∈ accepted o, e.zone = "" ∧ ¬ EndsSpace e.range := by
  have clean := observed_clean (applyPeerSets (desired o))
  constructor
  · intro same
    have plain : ∀ e ∈ accepted o, e.zone = "" := by
      intro e mem
      by_contra zone
      obtain ⟨inAddr, inText, inStripped⟩ := percent_of_zone zone
      have list : ∀ family, (desired o).peers family ∈ (desired o).lists ∧
          (desired o).trusted family ∈ (desired o).lists := by
        intro family
        cases family <;> simp [PeerNftSets.peers, PeerNftSets.trusted, PeerNftSets.lists]
      rcases mem_append.mp mem with mem | range
      · have there : e.addr.string ∈ (desired o).peers e.family ∨
            stripPrefix e.text ∈ (desired o).peers e.family := by
          rcases mem_append.mp mem with node | peer
          · exact .inl (mem_peers.mpr (.inl ⟨e, node, rfl, rfl⟩))
          · exact .inr (mem_peers.mpr (.inr ⟨e, peer, rfl, rfl⟩))
        rcases there with there | there
        · exact no_zone clean same.symm (list e.family).1 there inAddr
        · exact no_zone clean same.symm (list e.family).1 there inStripped
      · exact no_zone clean same.symm (list e.family).2 (mem_trusted.mpr ⟨e, range, rfl, rfl⟩) inText
    have cleanDesired : ∀ l ∈ (desired o).lists, ∀ s ∈ l, Clean s := by
      have peers : ∀ family, ∀ s ∈ (desired o).peers family, Clean s := by
        intro family s mem
        obtain ⟨e, _, _, rfl⟩ := (mem_peers_plain plain).mp mem
        exact clean_addr _
      have trusted : ∀ family, ∀ s ∈ (desired o).trusted family, Clean s := by
        intro family s mem
        obtain ⟨e, _, _, rfl⟩ := (mem_trusted_plain plain).mp mem
        exact clean_cidr _ _
      intro l mem
      simp only [PeerNftSets.lists, mem_cons, not_mem_nil, or_false] at mem
      rcases mem with rfl | rfl | rfl | rfl
      · exact peers .v4
      · exact peers .v6
      · exact trusted .v4
      · exact trusted .v6
    have sets : observedPeers (applyPeerSets (desired o)) = desired o :=
      fingerprint_injective clean cleanDesired same
    intro e mem
    refine ⟨plain e mem, ?_⟩
    obtain ⟨isV6, family⟩ := exists_familyOf e.family
    rcases mem_append.mp mem with peer | range
    · have own : readAddrSet (ipsToElements ((desired o).peers (familyOf isV6)) isV6) isV6 =
          (desired o).peers (familyOf isV6) := by
        have side := congrArg (fun s => s.peers (familyOf isV6)) sets
        cases isV6 <;> exact side
      exact (ipElements_plain plain isV6).mp own e peer family
    have own : readCidrSet (cidrsToElements ((desired o).trusted (familyOf isV6)) isV6) isV6 =
        (desired o).trusted (familyOf isV6) := by
      have side := congrArg (fun s => s.trusted (familyOf isV6)) sets
      cases isV6 <;> exact side
    exact (cidrElements_plain plain isV6).mp own e range family
  · intro all
    have plain : ∀ e ∈ accepted o, e.zone = "" := fun e mem => (all e mem).1
    have peers : ∀ isV6, readAddrSet (ipsToElements ((desired o).peers (familyOf isV6)) isV6) isV6 =
        (desired o).peers (familyOf isV6) := fun isV6 => (ipElements_plain plain isV6).mpr
      (fun e mem _ => (all e (mem_append_left _ mem)).2)
    have trusted : ∀ isV6, readCidrSet (cidrsToElements ((desired o).trusted (familyOf isV6)) isV6) isV6 =
          (desired o).trusted (familyOf isV6) := fun isV6 => (cidrElements_plain plain isV6).mpr
      (fun e mem _ => (all e (mem_append_right _ mem)).2)
    have v4 : readAddrSet (ipsToElements (desired o).peersV4 false) false = (desired o).peersV4 := peers false
    have v6 : readAddrSet (ipsToElements (desired o).peersV6 true) true = (desired o).peersV6 := peers true
    have t4 : readCidrSet (cidrsToElements (desired o).trustedV4 false) false =
        (desired o).trustedV4 := trusted false
    have t6 : readCidrSet (cidrsToElements (desired o).trustedV6 true) true = (desired o).trustedV6 := trusted true
    simp [observePeerFingerprint, observedPeers, applyPeerSets, v4, v6, t4, t6]

/-- A tick settles the kernel's sets exactly when no accepted entry has a zone or ends with the
last address of its family. -/
theorem peers_settle_iff (o : Objects) : Settled o ↔ ∀ e ∈ accepted o, e.zone = "" ∧ ¬ EndsSpace e.range := by
  constructor
  · exact fun settled => (fingerprint_iff o).mp settled.same
  intro all
  have same := (fingerprint_iff o).mpr all
  have plain : ∀ e ∈ accepted o, e.zone = "" := fun e mem => (all e mem).1
  have still : ∀ kernel, peerFingerprint (desired o) = observePeerFingerprint kernel →
      (reconcileOnce o kernel).1 = false := by
    intro kernel equal
    rw [reconcileOnce, applyPeersIfChanged, if_pos equal]
  refine ⟨same, fun kernel => ?_, fun e mem => ?_, fun e mem => ?_⟩
  · apply still
    by_cases equal : peerFingerprint (desired o) = observePeerFingerprint kernel
    · rw [reconcileOnce, applyPeersIfChanged, if_pos equal]
      exact equal
    · rw [reconcileOnce, applyPeersIfChanged, if_neg equal]
      exact same.symm
  · obtain ⟨isV6, family⟩ := exists_familyOf e.family
    obtain ⟨single, unmapped⟩ := peers_host mem
    have inside := (all e (mem_append_left _ mem)).2
    rw [single] at inside ⊢
    rw [family, peers_applied]
    exact ipElements_present unmapped family inside ((mem_peers_plain plain).mpr ⟨e, mem, family, rfl⟩)
  · obtain ⟨isV6, family⟩ := exists_familyOf e.family
    obtain ⟨masked, nonzero⟩ := rangeEntries_masked mem
    have inside := (all e (mem_append_right _ mem)).2
    rw [family, trusted_applied]
    exact cidrElements_present masked nonzero family inside ((mem_trusted_plain plain).mpr ⟨e, mem, family, rfl⟩)

/- the upper half of the IPv4 addresses -/
def upperHalf : Objects := ⟨[], [⟨"128.0.0.0/1"⟩], [], 0, 0⟩

/-- A trusted range at the top of the address space is written again at every tick. -/
theorem upper_half_rewritten : ¬ Settled upperHalf := by
  intro settled
  exact absurd settled.same (by decide +kernel)

end HostingPlatform.Firewall.Peers
