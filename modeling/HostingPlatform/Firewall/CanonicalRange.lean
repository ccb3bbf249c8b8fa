import HostingPlatform.Firewall.ExclusionSources
import HostingPlatform.Firewall.PeerElements

/-! The canonical text of an address or a range, which the firewall's validation gives back: when it
is its own canonical text, and what its family says of the addresses denoted. -/
namespace HostingPlatform.Firewall.Peers

open Option Netip Go

/-- The addresses that a text denotes: those of a prefix, or the one address. -/
def Denotes (s : String) (a : Addr) : Prop :=
  match parsePrefix (trimSpace s) with
  | some p => p.contains a = true
  | none => ∃ z, parseAddr (trimSpace s) = some z ∧ z.addr = a

/-- A bare IPv6 address with a zone, which is no IPv4 address in disguise. -/
def ZonedAddress (s : String) : Prop :=
  parsePrefix (trimSpace s) = none ∧
    ∃ z, parseAddr (trimSpace s) = some z ∧ z.zone ≠ "" ∧ z.addr.is4In6 = false

/-- A range of IPv4 addresses in disguise. -/
def DisguisedRange (s : String) : Prop :=
  ∃ p, parsePrefix (trimSpace s) = some p ∧ p.addr.is4In6 = true ∧ 96 ≤ p.bits

/-- The text is read back as what it is the text of, and the family is that of the addresses. -/
def Canonical (s c : String) (family : Family) : Prop :=
  parseIPOrCIDR c = some (c, family) ∧
    (family = .v4 ↔ ∀ a, Denotes s a → a.is4 = true ∨ a.is4In6 = true)

theorem is4In6_v4 {a : Addr} (four : a.family = .v4) : a.is4In6 = false := by
  simp [Addr.is4In6, four]

theorem v4_unmap_iff (a : Addr) : a.unmap.family = .v4 ↔ a.is4 = true ∨ a.is4In6 = true := by
  cases mapped : a.is4In6 with
  | true => simp [Addr.unmap, mapped]
  | false => simp [unmap_plain mapped, is4_iff]

theorem two_blocks {v h : Nat} (inRange : v < 2 ^ 128) (wide : 32 < h) (fits : h ≤ 128) :
    ∃ first second, (first < 2 ^ 128 ∧ first / 2 ^ h = v / 2 ^ h) ∧
      (second < 2 ^ 128 ∧ second / 2 ^ h = v / 2 ^ h) ∧ second / 2 ^ 32 = first / 2 ^ 32 + 1 := by
  obtain ⟨k, rfl⟩ : ∃ k, h = 32 + (k + 1) := ⟨h - 33, by omega⟩
  have split : 2 ^ (32 + (k + 1)) = 2 ^ 32 * 2 ^ (k + 1) := Nat.pow_add 2 32 (k + 1)
  have whole : 2 ^ 128 = 2 ^ (32 + (k + 1)) * 2 ^ (128 - (32 + (k + 1))) := by
    rw [← Nat.pow_add]
    congr 1
    omega
  have block : v / 2 ^ (32 + (k + 1)) < 2 ^ (128 - (32 + (k + 1))) := Nat.div_lt_of_lt_mul (whole ▸ inRange)
  have next : 2 ^ (32 + (k + 1)) * (v / 2 ^ (32 + (k + 1)) + 1) ≤ 2 ^ 128 := by
    rw [whole]
    exact Nat.mul_le_mul_left _ block
  have positive := Nat.two_pow_pos (32 + (k + 1))
  generalize v / 2 ^ (32 + (k + 1)) = q at next
  have more : 2 ^ 32 < 2 ^ (32 + (k + 1)) := by omega
  rw [Nat.mul_succ] at next
  refine ⟨2 ^ (32 + (k + 1)) * q, 2 ^ (32 + (k + 1)) * q + 2 ^ 32, ⟨by omega, ?_⟩, ⟨by omega, ?_⟩, ?_⟩
  · exact Nat.mul_div_cancel_left q positive
  · rw [Nat.mul_add_div positive, Nat.div_eq_of_lt more, Nat.add_zero]
  · rw [split, Nat.mul_assoc, Nat.mul_div_cancel_left _ (Nat.two_pow_pos 32),
      Nat.mul_add_div (Nat.two_pow_pos 32), Nat.div_self (Nat.two_pow_pos 32)]

theorem disguised_iff {p : Prefix} (six : p.addr.family = .v6) :
    (∀ a, p.contains a = true → a.is4 = true ∨ a.is4In6 = true) ↔ p.addr.is4In6 = true ∧ 96 ≤ p.bits := by
  have inRange := p.addr.inRange
  have short := p.inRange
  have host : p.hostBits = 128 - p.bits := by
    rw [Prefix.hostBits, six]
    rfl
  rw [six] at inRange short
  have other {a : Addr} (inside : p.contains a = true) (all : a.is4 = true ∨ a.is4In6 = true) :
      a.value / 2 ^ 32 = 0xffff := by
    rcases all with four | mapped
    · rw [is4_iff, (contains_iff.mp inside).1, six] at four
      cases four
    · exact (is4In6_iff.mp mapped).2
  constructor
  · intro all
    refine ⟨(all p.addr (contains_addr p)).resolve_left ?_, ?_⟩
    · intro four
      rw [is4_iff, six] at four
      cases four
    by_contra few
    have wide : 32 < p.hostBits := by omega
    obtain ⟨first, second, firstIn, secondIn, apart⟩ := two_blocks inRange wide (by omega)
    have inside {v : Nat} (fits : v < 2 ^ 128) (same : v / 2 ^ p.hostBits = p.addr.value / 2 ^ p.hostBits) :
        v / 2 ^ 32 = 0xffff := by
      have here : p.contains ⟨.v6, v, fits⟩ = true := contains_iff.mpr ⟨six.symm, same⟩
      exact other here (all _ here)
    have one := inside firstIn.1 firstIn.2
    have two := inside secondIn.1 secondIn.2
    omega
  · rintro ⟨mapped, many⟩ a inside
    right
    have low : p.hostBits ≤ 32 := by omega
    refine is4In6_iff.mpr ⟨(contains_iff.mp inside).1.trans six, ?_⟩
    rw [div_coarser low (contains_iff.mp inside).2]
    exact (is4In6_iff.mp mapped).2

theorem string_ne_empty (a : Addr) : a.string.toList ≠ [] := by
  intro empty
  have none : parseAddr "" = none := by decide
  have read := parseAddr_plain a
  rw [String.toList_eq_nil_iff.mp empty] at read
  contradiction

theorem hex_range {c : Char} (hex : isHex c = true) : 48 ≤ c.toNat ∧ c.toNat ≤ 102 := by
  unfold isHex hexValue at hex
  split at hex
  · rename_i digit
    have ⟨low, high⟩ := Ascii.isDigit_iff.mp digit
    exact ⟨low, by omega⟩
  split at hex
  · rename_i lower
    have low : 97 ≤ c.toNat := UInt32.le_iff_toNat_le.mp lower.1
    exact ⟨by omega, UInt32.le_iff_toNat_le.mp lower.2⟩
  split at hex
  · rename_i upper
    have low : 65 ≤ c.toNat := UInt32.le_iff_toNat_le.mp upper.1
    have high : c.toNat ≤ 70 := UInt32.le_iff_toNat_le.mp upper.2
    exact ⟨by omega, by omega⟩
  · contradiction

theorem trimSpace_text (z : ZonedAddr) (n : Nat) :
    trimSpace (z.string ++ "/" ++ toString n) = z.string ++ "/" ++ toString n := by
  have chars := toList_slash z.string n
  apply trimSpace_fixed
  · intro c head
    obtain ⟨d, rest, whole⟩ := List.exists_cons_of_ne_nil (string_ne_empty z.addr)
    rw [chars, z.string_eq, String.toList_ofList, whole] at head
    have own : d = c := some.inj head
    have kinds := Addr.string_chars (a := z.addr) (c := c) (whole ▸ own ▸ List.mem_cons_self)
    rcases kinds with hex | rfl | rfl
    · have range := hex_range hex
      exact isSpace_of_range (by omega) (by omega)
    all_goals decide
  · intro c last
    rw [chars, List.getLast?_append_of_ne_nil _ (List.cons_ne_nil _ _)] at last
    rcases List.mem_cons.mp (List.mem_of_getLast? last) with rfl | digit
    · decide
    · have range := hex_range (isHex_of_isDigit (isDigit_toDigits digit))
      exact isSpace_of_range (by omega) (by omega)

theorem trimSpace_entry (e : Entry) : trimSpace e.text = e.text := trimSpace_text e.addr e.range.bits

theorem entry_ne_empty (e : Entry) : e.text ≠ "" := by
  intro empty
  have chars := toList_slash e.addr.string e.range.bits
  rw [← Entry.text, empty] at chars
  simp at chars

theorem parse_range {p : Prefix} (masked : p.masked = p) (some : p.bits ≠ 0) :
    parseIPOrCIDR p.string = Option.some (p.string, p.addr.family) := by
  have text : (Entry.mk p "").text = p.string := Entry.text_plain p
  have trimmed := trimSpace_entry ⟨p, ""⟩
  have nonempty := entry_ne_empty ⟨p, ""⟩
  rw [text] at trimmed nonempty
  rw [parseIPOrCIDR, trimmed, if_neg nonempty, parsePrefix_string]
  dsimp only
  rw [canonicalisePrefix, if_neg some, masked]

theorem parse_zoned {e : Entry} (six : e.range.addr.family = .v6) (zone : e.zone ≠ "")
    (plain : e.range.addr.is4In6 = false) : parseIPOrCIDR e.text = some (e.text ++ "/128", .v6) := by
  have refused : parsePrefix e.text = none := parsePrefix_zone (z := e.addr) six zone e.range.bits
  have longer : (ZonedAddr.mk e.range.addr (e.zone ++ "/" ++ toString e.range.bits)).string = e.text := by
    have both : e.zone ++ "/" ++ toString e.range.bits ≠ "" := by
      intro empty
      have chars := toList_slash e.zone e.range.bits
      rw [empty] at chars
      simp at chars
    rw [Entry.text, Entry.addr, ZonedAddr.string, ZonedAddr.string, if_neg zone]
    simp [String.append_assoc]
  have read := parseAddr_string (z := ⟨e.range.addr, e.zone ++ "/" ++ toString e.range.bits⟩) (.inr six)
  rw [longer] at read
  have own : ZonedAddr.unmap ⟨e.range.addr, e.zone ++ "/" ++ toString e.range.bits⟩ =
      ⟨e.range.addr, e.zone ++ "/" ++ toString e.range.bits⟩ := by
    simp [ZonedAddr.unmap, plain]
  have other : e.range.addr.is4 = false := by simp [Addr.is4, six]
  rw [parseIPOrCIDR, trimSpace_entry, if_neg (entry_ne_empty e), refused]
  rw [read, map_some, canonicalAddr, own]
  rw [other, if_neg Bool.false_ne_true, longer]

theorem ne_longer (s : String) : s ++ "/128" ≠ s := by
  intro same
  have lengths := congrArg (fun t => t.toList.length) same
  simp at lengths

theorem parse_prefix_iff {s : String} {p : Prefix} (read : parsePrefix (trimSpace s) = some p)
    (some : p.bits ≠ 0) : Canonical s p.masked.string p.masked.addr.family ↔ ¬ DisguisedRange s := by
  have fixed := parse_range (masked_masked p) some
  have denotes : ∀ a, Denotes s a ↔ p.contains a = true := by
    intro a
    rw [Denotes, read]
  have disguised : DisguisedRange s ↔ p.addr.is4In6 = true ∧ 96 ≤ p.bits := by
    simp [DisguisedRange, read]
  have family : p.masked.addr.family = p.addr.family := rfl
  rw [Canonical, and_iff_right fixed, disguised, family]
  simp only [denotes]
  cases kind : p.addr.family with
  | v4 =>
    have plain := is4In6_v4 kind
    refine iff_of_true ⟨fun _ a inside => .inl ?_, fun _ => rfl⟩ (by simp [plain])
    rw [is4_iff, (contains_iff.mp inside).1, kind]
  | v6 =>
    rw [disguised_iff kind]
    simp

theorem parse_addr_iff {s : String} {z : ZonedAddr} (refused : parsePrefix (trimSpace s) = none)
    (read : parseAddr (trimSpace s) = some z) :
    Canonical s (Entry.of z).text (Entry.of z).family ↔ ¬ ZonedAddress s := by
  have denotes : ∀ a, Denotes s a ↔ z.addr = a := by
    intro a
    rw [Denotes, refused]
    simp [read]
  have family : (Entry.of z).family = .v4 ↔ ∀ a, Denotes s a → a.is4 = true ∨ a.is4In6 = true := by
    have own : (Entry.of z).family = z.addr.unmap.family := congrArg Addr.family z.unmap_addr
    rw [own, v4_unmap_iff]
    simp [denotes]
  have zoned : ZonedAddress s ↔ z.zone ≠ "" ∧ z.addr.is4In6 = false := by
    simp [ZonedAddress, refused, read]
  rw [Canonical, and_iff_left family, zoned]
  by_cases zone : (Entry.of z).zone = ""
  · have text : (Entry.of z).text = (Entry.of z).range.string := by
      rw [← Entry.text_plain, ← zone]
    have masked : (Entry.of z).range.masked = (Entry.of z).range := host_masked _
    have wide : (Entry.of z).range.bits ≠ 0 := by
      have positive := width_ge (Entry.of z).range.addr.family
      change (Entry.of z).range.addr.family.width ≠ 0
      omega
    have fixed := parse_range masked wide
    rw [← text] at fixed
    refine iff_of_true fixed ?_
    rintro ⟨some, plain⟩
    simp [Entry.of, ZonedAddr.unmap, plain] at zone
    exact some zone
  · have six : z.unmap.addr.family = .v6 := (zone_of_unmap (zone_of_parseAddr read)).resolve_left zone
    have plain : z.addr.is4In6 = false := by
      cases mapped : z.addr.is4In6 with
      | false => rfl
      | true => simp [Entry.of, ZonedAddr.unmap, mapped] at zone
    have own : z.unmap = z := by simp [ZonedAddr.unmap, plain]
    have longer := parse_zoned (e := Entry.of z) six zone (by simpa [Entry.of, host, own] using plain)
    refine iff_of_false ?_ ?_
    · intro fixed
      rw [longer] at fixed
      exact ne_longer _ (congrArg Prod.fst (some.inj fixed))
    · intro never
      exact never ⟨by simpa [Entry.of, own] using zone, plain⟩

/-- What is accepted is canonical exactly when it is neither an IPv6 address with a zone nor a range
of IPv4 addresses in disguise. -/
theorem parseIPOrCIDR_canonical_iff {s c : String} {family : Family} (accepted : parseIPOrCIDR s = some (c, family)) :
    Canonical s c family ↔ ¬ (ZonedAddress s ∨ DisguisedRange s) := by
  rw [not_or]
  unfold parseIPOrCIDR at accepted
  split at accepted
  · contradiction
  cases read : parsePrefix (trimSpace s) with
  | some p =>
    rw [read] at accepted
    dsimp only at accepted
    unfold canonicalisePrefix at accepted
    split at accepted
    · contradiction
    rename_i some
    cases accepted
    have bare : ¬ ZonedAddress s := by simp [ZonedAddress, read]
    rw [parse_prefix_iff read some, and_iff_right bare]
  | none =>
    rw [read] at accepted
    obtain ⟨z, parsed, same⟩ := map_eq_some_iff.mp accepted
    rw [canonicalAddr_eq] at same
    cases same
    have range : ¬ DisguisedRange s := by simp [DisguisedRange, read]
    rw [parse_addr_iff read parsed, and_iff_left range]

theorem documentation_range_canonical : Canonical " 2001:db8::1/32" "2001:db8::/32" .v6 := by
  have accepted : parseIPOrCIDR " 2001:db8::1/32" = some ("2001:db8::/32", .v6) := by decide +kernel
  refine (parseIPOrCIDR_canonical_iff accepted).mpr ?_
  rintro (⟨refused, _⟩ | ⟨p, read, mapped, _⟩)
  · exact absurd refused (by decide +kernel)
  have none : (parsePrefix (trimSpace " 2001:db8::1/32")).all (fun p => !p.addr.is4In6) = true := by
    decide +kernel
  rw [read] at none
  simp [mapped] at none

/-- The canonical text of an address with a zone is another address's, and a range of IPv4 addresses
in disguise has the family of IPv6. -/
theorem zone_and_disguise_not_canonical : (parseIPOrCIDR "fe80::1%eth0" = some ("fe80::1%eth0/128", .v6) ∧
      parseIPOrCIDR "fe80::1%eth0/128" = some ("fe80::1%eth0/128/128", .v6)) ∧
    parseIPOrCIDR "::ffff:1.2.3.0/120" = some ("::ffff:1.2.3.0/120", .v6) ∧
      ¬ Canonical "::ffff:1.2.3.0/120" "::ffff:1.2.3.0/120" .v6 := by
  refine ⟨⟨by decide +kernel, by decide +kernel⟩, by decide +kernel, ?_⟩
  intro canonical
  have shape : (parsePrefix (trimSpace "::ffff:1.2.3.0/120")).any (fun p => p.bits != 0 &&
      p.masked.string == "::ffff:1.2.3.0/120" && p.masked.addr.family == .v6 && p.addr.is4In6 &&
      decide (96 ≤ p.bits)) = true := by decide +kernel
  obtain ⟨p, read, facts⟩ := (any_eq_true _ _).mp shape
  simp only [Bool.and_eq_true, bne_iff_ne, beq_iff_eq, decide_eq_true_eq] at facts
  obtain ⟨⟨⟨⟨some, own⟩, six⟩, mapped⟩, many⟩ := facts
  have plain := parse_prefix_iff read some
  rw [own, six] at plain
  exact plain.mp canonical ⟨p, read, mapped, many⟩

end HostingPlatform.Firewall.Peers
