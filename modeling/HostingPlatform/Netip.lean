import HostingPlatform.Ascii
import HostingPlatform.Digits
import Mathlib.Data.List.TakeWhile

/-! IP addresses and prefixes as Go's `net/netip` has them: an address is a number of its
family's width, a prefix an address with a length that fits, so that a prefix without a
valid length cannot be built. Zones are left out, a prefix has none. -/
namespace HostingPlatform.Netip

open List Digits

inductive Family where
  | v4 | v6
  deriving DecidableEq

def Family.width : Family → Nat
  | .v4 => 32
  | .v6 => 128

structure Addr where
  family : Family
  value : Nat
  inRange : value < 2 ^ family.width
  deriving DecidableEq

def Addr.unspecified (family : Family) : Addr := ⟨family, 0, Nat.two_pow_pos family.width⟩

def Addr.is4 (a : Addr) : Bool := a.family == .v4

/- `::ffff:0:0/96`, the IPv4 addresses written as IPv6 -/
def Addr.is4In6 (a : Addr) : Bool := a.family == .v6 && a.value / 2 ^ 32 == 0xffff

def Addr.unmap (a : Addr) : Addr :=
  if a.is4In6 then ⟨.v4, a.value % 2 ^ 32, Nat.mod_lt a.value (Nat.two_pow_pos 32)⟩ else a

structure Prefix where
  addr : Addr
  bits : Nat
  inRange : bits ≤ addr.family.width
  deriving DecidableEq

def clearLow (hostBits value : Nat) : Nat := value / 2 ^ hostBits * 2 ^ hostBits

theorem clearLow_le (hostBits value : Nat) : clearLow hostBits value ≤ value :=
  Nat.div_mul_le_self value (2 ^ hostBits)

theorem clearLow_div (hostBits value : Nat) : clearLow hostBits value / 2 ^ hostBits = value / 2 ^ hostBits :=
  Nat.mul_div_cancel (value / 2 ^ hostBits) (Nat.two_pow_pos hostBits)

def Addr.clear (a : Addr) (hostBits : Nat) : Addr :=
  ⟨a.family, clearLow hostBits a.value, Nat.lt_of_le_of_lt (clearLow_le hostBits a.value) a.inRange⟩

/- `ip.Prefix(b)`: the masked prefix, an error where the length does not fit -/
def Addr.toPrefix (a : Addr) (bits : Nat) : Option Prefix :=
  if fits : bits ≤ a.family.width then some ⟨a.clear (a.family.width - bits), bits, fits⟩ else none

def Prefix.hostBits (p : Prefix) : Nat := p.addr.family.width - p.bits

def Prefix.masked (p : Prefix) : Prefix := ⟨p.addr.clear p.hostBits, p.bits, p.inRange⟩

/- `p.Contains(ip)`: the families agree and so do the first bits -/
def Prefix.contains (p : Prefix) (a : Addr) : Bool :=
  a.family == p.addr.family && a.value / 2 ^ p.hostBits == p.addr.value / 2 ^ p.hostBits

variable {p q : Prefix} {a : Addr} {n g room : Nat} {c : Char} {fields gs : List Nat} {rest body : List Char}

theorem contains_iff : p.contains a = true ↔
    a.family = p.addr.family ∧ a.value / 2 ^ p.hostBits = p.addr.value / 2 ^ p.hostBits := by
  simp [Prefix.contains]

theorem contains_addr (p : Prefix) : p.contains p.addr = true := contains_iff.mpr ⟨rfl, rfl⟩

def Prefix.Covers (q p : Prefix) : Prop :=
  q.addr.family = p.addr.family ∧ q.bits ≤ p.bits ∧
    p.addr.value / 2 ^ q.hostBits = q.addr.value / 2 ^ q.hostBits

instance (q p : Prefix) : Decidable (q.Covers p) := inferInstanceAs (Decidable (_ ∧ _ ∧ _))

theorem div_coarser {small large x y : Nat} (le : small ≤ large)
    (same : x / 2 ^ small = y / 2 ^ small) : x / 2 ^ large = y / 2 ^ large := by
  have split : (2 : Nat) ^ large = 2 ^ small * 2 ^ (large - small) := by
    rw [← Nat.pow_add, Nat.add_sub_cancel' le]
  rw [split, ← Nat.div_div_eq_div_mul, ← Nat.div_div_eq_div_mul, same]

theorem hostBits_le (family : q.addr.family = p.addr.family) (le : q.bits ≤ p.bits) : p.hostBits ≤ q.hostBits := by
  rw [Prefix.hostBits, Prefix.hostBits, family]
  exact Nat.sub_le_sub_left le p.addr.family.width

theorem Prefix.Covers.contains (covers : q.Covers p) (inside : p.contains a = true) : q.contains a = true := by
  obtain ⟨family, bits, high⟩ := covers
  obtain ⟨familyA, highA⟩ := contains_iff.mp inside
  refine contains_iff.mpr ⟨familyA.trans family.symm, ?_⟩
  exact (div_coarser (hostBits_le family bits) highA).trans high

theorem nested_of_common (inP : p.contains a = true) (inQ : q.contains a = true) : p.Covers q ∨ q.Covers p := by
  obtain ⟨familyP, highP⟩ := contains_iff.mp inP
  obtain ⟨familyQ, highQ⟩ := contains_iff.mp inQ
  have family : p.addr.family = q.addr.family := familyP.symm.trans familyQ
  rcases Nat.le_total p.bits q.bits with le | le
  · have coarser := div_coarser (hostBits_le family le) highQ
    exact .inl ⟨family, le, coarser.symm.trans highP⟩
  · have coarser := div_coarser (hostBits_le family.symm le) highP
    exact .inr ⟨family.symm, le, coarser.symm.trans highQ⟩

def decimals (a : Nat) : String := ".".intercalate ((groups 4 256 a).map toString)

def hex (group : Nat) : String := String.ofList (Nat.toDigits 16 group)

def zeroRun : List Nat → Nat
  | 0 :: rest => zeroRun rest + 1
  | _ => 0

/-- Where the longest run of two or more zero groups stands, the first of the longest: its
position and its length. -/
def longestRun : List Nat → Nat → Nat × Nat → Nat × Nat
  | [], _, best => best
  | g :: rest, i, best =>
    let run := zeroRun (g :: rest)
    longestRun rest (i + 1) (if 2 ≤ run ∧ best.2 < run then (i, run) else best)

def colons (gs : List Nat) : String := ":".intercalate (gs.map hex)

def hextets (a : Nat) : String :=
  let gs := groups 8 65536 a
  let (start, run) := longestRun gs 0 (0, 0)
  if run = 0 then colons gs else colons (gs.take start) ++ "::" ++ colons (gs.drop (start + run))

def Addr.string (a : Addr) : String :=
  if a.is4 then decimals a.value
  else if a.is4In6 then "::ffff:" ++ decimals (a.value % 2 ^ 32)
  else hextets a.value

def Prefix.string (p : Prefix) : String := p.addr.string ++ "/" ++ toString p.bits

/-! The texts of addresses and prefixes: `ParseAddr` and `ParsePrefix` of `net/netip`. -/

/- an address with the zone it was written with, "" being none -/
structure ZonedAddr where
  addr : Addr
  zone : String

def ZonedAddr.string (z : ZonedAddr) : String :=
  if z.zone = "" then z.addr.string else z.addr.string ++ "%" ++ z.zone

/- an IPv4 address has no zone -/
def ZonedAddr.unmap (z : ZonedAddr) : ZonedAddr :=
  if z.addr.is4In6 then ⟨z.addr.unmap, ""⟩ else z

/- a decimal number without leading zeros -/
def parseDecimal (max : Nat) (cs : List Char) : Option Nat :=
  if cs.isEmpty || !cs.all Char.isDigit || (1 < cs.length && cs.head? == some '0') then none
  else
    let v := Nat.ofDigitChars 10 cs 0
    if max < v then none else some v

def parseFields : List (List Char) → Option (List Nat)
  | [] => some []
  | cs :: rest =>
    match parseDecimal 255 cs, parseFields rest with
    | some field, some fields => some (field :: fields)
    | _, _ => none

def parseIPv4Fields (s : List Char) : Option (List Nat) :=
  (parseFields (s.splitOn '.')).filter (fun fields => fields.length == 4)

def addrOf (family : Family) (v : Nat) : Option Addr :=
  if fits : v < 2 ^ family.width then some ⟨family, v, fits⟩ else none

def parseIPv4 (s : List Char) : Option ZonedAddr :=
  ((parseIPv4Fields s).bind (fun fields => addrOf .v4 (value 256 fields))).map (⟨·, ""⟩)

def hexValue (c : Char) : Option Nat :=
  if c.isDigit then some (c.toNat - 48)
  else if 'a' ≤ c ∧ c ≤ 'f' then some (c.toNat - 87)
  else if 'A' ≤ c ∧ c ≤ 'F' then some (c.toNat - 55)
  else none

def isHex (c : Char) : Bool := (hexValue c).isSome

def hexNumber (cs : List Char) : Nat := cs.foldl (fun acc c => acc * 16 + (hexValue c).getD 0) 0

/- the groups read so far, and how many of them stand before the ellipsis -/
structure Groups where
  groups : List Nat
  ellipsis : Option Nat

def Groups.push (done : Groups) (group : Nat) : Groups :=
  ⟨done.groups ++ [group], done.ellipsis⟩

/- four fields as two groups -/
def embed : List Nat → List Nat
  | [a, b, c, d] => [a * 256 + b, c * 256 + d]
  | _ => []

def trailingIPv4 (room : Nat) (done : Groups) (s : List Char) : Option Groups :=
  if done.ellipsis.isNone && done.groups.length != 6 then none
  else if room = 0 then none
  else (parseIPv4Fields s).map (fun fields => ⟨done.groups ++ embed fields, done.ellipsis⟩)

/- the loop of `parseIPv6`, with room for that many groups -/
def parseGroups : Nat → Groups → List Char → Option Groups
  | 0, done, s => if s.isEmpty then some done else none
  | room + 1, done, s =>
    let digits := s.takeWhile isHex
    if digits.isEmpty || 4 < digits.length then none
    else
      let done' := done.push (hexNumber digits)
      match s.dropWhile isHex with
      | [] => some done'
      | '.' :: _ => trailingIPv4 room done s
      | ':' :: ':' :: rest =>
        if done'.ellipsis.isSome then none
        else if rest.isEmpty then some ⟨done'.groups, some done'.groups.length⟩
        else parseGroups room ⟨done'.groups, some done'.groups.length⟩ rest
      | ':' :: c :: rest => parseGroups room done' (c :: rest)
      | _ => none

def expand (done : Groups) : Option (List Nat) :=
  let missing := 8 - done.groups.length
  match done.ellipsis with
  | none => if missing = 0 then some done.groups else none
  | some before =>
    if missing = 0 then none
    else some (done.groups.take before ++ List.replicate missing 0 ++ done.groups.drop before)

def parseHextets (s : List Char) : Option Groups :=
  match s with
  | ':' :: ':' :: rest => if rest.isEmpty then some ⟨[], some 0⟩ else parseGroups 8 ⟨[], some 0⟩ rest
  | _ => parseGroups 8 ⟨[], none⟩ s

def parseIPv6 (s : List Char) : Option ZonedAddr :=
  let zone := (s.dropWhile (· != '%')).tail
  if s.contains '%' && zone.isEmpty then none
  else
    ((parseHextets (s.takeWhile (· != '%'))).bind expand).bind (fun gs =>
      (addrOf .v6 (value 65536 gs)).map (⟨·, String.ofList zone⟩))

def parseAddr (s : String) : Option ZonedAddr :=
  match s.toList.find? (fun c => c == '.' || c == ':' || c == '%') with
  | some '.' => parseIPv4 s.toList
  | some ':' => parseIPv6 s.toList
  | _ => none

def parsePrefix (s : String) : Option Prefix :=
  if !s.toList.contains '/' then none
  else
    let bitsStr := (s.toList.reverse.takeWhile (· != '/')).reverse
    match parseAddr (String.ofList (s.toList.reverse.dropWhile (· != '/')).tail.reverse) with
    | none => none
    | some z =>
      if z.zone ≠ "" then none
      else
        (parseDecimal z.addr.family.width bitsStr).bind (fun bits =>
          if fits : bits ≤ z.addr.family.width then some ⟨z.addr, bits, fits⟩ else none)

theorem unmap_plain (plain : a.is4In6 = false) : a.unmap = a := by
  simp [Addr.unmap, plain]

theorem unmap_unmap (a : Addr) : a.unmap.unmap = a.unmap := by
  cases mapped : a.is4In6 with
  | false => rw [unmap_plain mapped, unmap_plain mapped]
  | true =>
    have four : a.unmap.family = .v4 := by simp [Addr.unmap, mapped]
    apply unmap_plain
    simp [Addr.is4In6, four]

theorem ZonedAddr.unmap_addr (z : ZonedAddr) : z.unmap.addr = z.addr.unmap := by
  unfold ZonedAddr.unmap
  cases mapped : z.addr.is4In6 with
  | false => simp [unmap_plain mapped]
  | true => simp

theorem head_toDigits (positive : 0 < n) : (Nat.toDigits 10 n).head? ≠ some '0' := by
  induction n using Nat.strongRecOn with
  | ind n ih =>
    by_cases small : n < 10
    · have nonzero : ∀ d < 10, 0 < d → d.digitChar ≠ '0' := by decide
      rw [Nat.toDigits_of_lt_base small]
      simpa using nonzero n small positive
    · have front := ih (n / 10) (by omega) (by omega)
      rw [Nat.toDigits_of_base_le (by decide) (by omega), head?_append_of_ne_nil _ Nat.toDigits_ne_nil]
      exact front

theorem isDigit_toDigits (mem : c ∈ Nat.toDigits 10 n) : c.isDigit = true :=
  Nat.isDigit_of_mem_toDigits (by decide) (by decide) mem

theorem parseDecimal_toDigits {max : Nat} (fits : n ≤ max) : parseDecimal max (Nat.toDigits 10 n) = some n := by
  have digits : (Nat.toDigits 10 n).all Char.isDigit = true := all_eq_true.mpr (fun c mem => isDigit_toDigits mem)
  have plain : (1 < (Nat.toDigits 10 n).length && (Nat.toDigits 10 n).head? == some '0') = false := by
    rcases Nat.eq_zero_or_pos n with rfl | positive
    · decide
    · simp [head_toDigits positive]
  simp [parseDecimal, digits, plain, Nat.not_lt.mpr fits]

theorem parseFields_toDigits (bytes : ∀ d ∈ fields, d < 256) :
    parseFields (fields.map (Nat.toDigits 10)) = some fields := by
  induction fields with
  | nil => rfl
  | cons d rest ih =>
    have first := parseDecimal_toDigits (Nat.le_of_lt_succ (bytes d mem_cons_self))
    have tail := ih (fun e mem => bytes e (mem_cons_of_mem d mem))
    rw [map_cons, parseFields, first, tail]

def dotted (fields : List Nat) : List Char := ['.'].intercalate (fields.map (Nat.toDigits 10))

theorem toList_decimals (a : Nat) : (decimals a).toList = dotted (groups 4 256 a) := by
  unfold decimals dotted
  rw [String.toList_intercalate, map_map]
  congr 1
  refine map_congr_left ?_
  intro d _
  simp

theorem splitOn_dotted (some : fields ≠ []) : (dotted fields).splitOn '.' = fields.map (Nat.toDigits 10) := by
  apply splitOn_intercalate
  · intro cs mem dot
    obtain ⟨d, _, rfl⟩ := mem_map.mp mem
    exact absurd (isDigit_toDigits dot) (by decide)
  · simpa using some

theorem parseIPv4Fields_dotted (a : Nat) : parseIPv4Fields (dotted (groups 4 256 a)) = some (groups 4 256 a) := by
  have four : ((groups 4 256 a).length == 4) = true := by simp [length_groups]
  rw [parseIPv4Fields, splitOn_dotted (by simp [groups]), parseFields_toDigits (groups_lt (by decide)),
    Option.filter_some, if_pos four]

theorem addrOf_value (a : Addr) : addrOf a.family a.value = some a := by
  rw [addrOf, dif_pos a.inRange]

theorem mem_dotted (mem : c ∈ dotted fields) : c.isDigit = true ∨ c = '.' := by
  induction fields with
  | nil => cases mem
  | cons d rest ih =>
    cases rest with
    | nil =>
      have here : c ∈ Nat.toDigits 10 d := by simpa [dotted] using mem
      exact .inl (isDigit_toDigits here)
    | cons e rest =>
      have parts : c ∈ Nat.toDigits 10 d ∨ c = '.' ∨ c ∈ dotted (e :: rest) := by
        simpa [dotted] using mem
      rcases parts with here | dot | later
      · exact .inl (isDigit_toDigits here)
      · exact .inr dot
      · exact ih later

theorem find_first {p : Char → Bool} {cs : List Char} {d : Char} (only : ∀ c ∈ cs, p c = true → c = d)
    (mem : d ∈ cs) (found : p d = true) : cs.find? p = some d := by
  cases first : cs.find? p with
  | none => exact absurd found (find?_eq_none.mp first d mem)
  | some c => rw [only c (mem_of_find?_eq_some first) (find?_some first)]

theorem parseAddr_dotted (four : a.family = .v4) :
    parseAddr (String.ofList (dotted (groups 4 256 a.value))) = some ⟨a, ""⟩ := by
  have inRange := a.inRange
  rw [four] at inRange
  have dot : '.' ∈ dotted (groups 4 256 a.value) := by simp [dotted, groups, range_succ]
  have first : (dotted (groups 4 256 a.value)).find? (fun c => c == '.' || c == ':' || c == '%') = some '.' := by
    apply find_first _ dot (by decide)
    intro c mem kind
    rcases mem_dotted mem with digit | dot
    · simp only [Bool.or_eq_true, beq_iff_eq] at kind
      rcases kind with (dot | rfl) | rfl
      · exact dot
      · exact absurd digit (by decide)
      · exact absurd digit (by decide)
    · exact dot
  have same : value 256 (groups 4 256 a.value) = a.value := by
    rw [value_groups]
    exact Nat.mod_eq_of_lt inRange
  have whole := addrOf_value a
  rw [four] at whole
  unfold parseAddr
  rw [String.toList_ofList, first]
  simp [parseIPv4, parseIPv4Fields_dotted, same, whole]

theorem hexValue_digitChar : ∀ d < 16, hexValue d.digitChar = some d := by decide

theorem hexNumber_append (cs : List Char) (c : Char) :
    hexNumber (cs ++ [c]) = hexNumber cs * 16 + (hexValue c).getD 0 := by
  simp [hexNumber]

theorem hexNumber_toDigits (n : Nat) : hexNumber (Nat.toDigits 16 n) = n := by
  induction n using Nat.strongRecOn with
  | ind n ih =>
    by_cases small : n < 16
    · rw [Nat.toDigits_of_lt_base small]
      simp [hexNumber, hexValue_digitChar n small]
    have upper := ih (n / 16) (by omega)
    rw [Nat.toDigits_of_base_le (by decide) (by omega), hexNumber_append, upper,
      hexValue_digitChar _ (Nat.mod_lt n (by decide))]
    exact Nat.div_add_mod' n 16

theorem of_mem_toDigits {p : Char → Bool} (digit : ∀ d < 16, p d.digitChar = true)
    (mem : c ∈ Nat.toDigits 16 n) : p c = true := by
  induction n using Nat.strongRecOn with
  | ind n ih =>
    by_cases small : n < 16
    · rw [Nat.toDigits_of_lt_base small, mem_singleton] at mem
      rw [mem]
      exact digit n small
    rw [Nat.toDigits_of_base_le (by decide) (by omega)] at mem
    rcases mem_append.mp mem with upper | last
    · exact ih (n / 16) (by omega) upper
    · rw [mem_singleton.mp last]
      exact digit _ (Nat.mod_lt n (by decide))

theorem isHex_toDigits (mem : c ∈ Nat.toDigits 16 n) : isHex c = true :=
  of_mem_toDigits (by decide) mem

/-- What follows a group does not go on with it. -/
def Stops (rest : List Char) : Prop := ∀ c ∈ rest.head?, isHex c = false

theorem takeWhile_group (stops : Stops rest) : (Nat.toDigits 16 n ++ rest).takeWhile isHex = Nat.toDigits 16 n := by
  rw [takeWhile_append_of_pos (fun c mem => isHex_toDigits mem)]
  cases rest with
  | nil => simp
  | cons c rest => simp [stops c rfl]

theorem dropWhile_group (stops : Stops rest) : (Nat.toDigits 16 n ++ rest).dropWhile isHex = rest := by
  rw [dropWhile_append_of_pos (fun c mem => isHex_toDigits mem)]
  cases rest with
  | nil => rfl
  | cons c rest => simp [stops c rfl]

def coloned (gs : List Nat) : List Char := [':'].intercalate (gs.map (Nat.toDigits 16))

theorem coloned_cons_cons (g h : Nat) (gs : List Nat) :
    coloned (g :: h :: gs) = Nat.toDigits 16 g ++ ':' :: coloned (h :: gs) := by
  simp [coloned]

theorem coloned_single (g : Nat) : coloned [g] = Nat.toDigits 16 g := by
  simp [coloned]

theorem coloned_head (g : Nat) (gs : List Nat) (rest : List Char) :
    ∃ c cs, coloned (g :: gs) ++ rest = c :: cs ∧ isHex c = true := by
  have first : ∃ tail, coloned (g :: gs) = Nat.toDigits 16 g ++ tail := by
    cases gs with
    | nil => exact ⟨[], by simp [coloned_single]⟩
    | cons h gs => exact ⟨_, coloned_cons_cons g h gs⟩
  obtain ⟨tail, whole⟩ := first
  cases digits : Nat.toDigits 16 g with
  | nil => exact absurd digits Nat.toDigits_ne_nil
  | cons c cs =>
    refine ⟨c, cs ++ tail ++ rest, ?_, isHex_toDigits (n := g) ?_⟩
    · rw [whole, digits]
      simp
    · rw [digits]
      exact mem_cons_self

theorem short_group (fits : g < 65536) :
    ((Nat.toDigits 16 g).isEmpty || decide (4 < (Nat.toDigits 16 g).length)) = false := by
  have short : (Nat.toDigits 16 g).length ≤ 4 := (Nat.length_toDigits_le_iff (by decide) (by decide)).mpr fits
  simp [Nat.not_lt.mpr short]

theorem parseGroups_last (fits : g < 65536) (done : Groups) :
    parseGroups (room + 1) done (Nat.toDigits 16 g) = some (done.push g) := by
  have stops : Stops [] := by
    intro c mem
    cases mem
  have digits := takeWhile_group (n := g) stops
  have rest := dropWhile_group (n := g) stops
  rw [append_nil] at digits rest
  simp [parseGroups, digits, rest, short_group fits, hexNumber_toDigits]

theorem parseGroups_colon (fits : g < 65536) (done : Groups) (rest : List Char) (digit : isHex c = true) :
    parseGroups (room + 1) done (Nat.toDigits 16 g ++ ':' :: c :: rest) =
      parseGroups room (done.push g) (c :: rest) := by
  have stops : Stops (':' :: c :: rest) := by
    intro d mem
    cases mem
    decide
  have other : c ≠ ':' := by
    rintro rfl
    exact absurd digit (by decide)
  simp [parseGroups, takeWhile_group stops, dropWhile_group stops, short_group fits, hexNumber_toDigits]

theorem parseGroups_ellipsis (fits : g < 65536) {done : Groups} (none : done.ellipsis = none) (rest : List Char) :
    parseGroups (room + 1) done (Nat.toDigits 16 g ++ ':' :: ':' :: rest) =
      if rest.isEmpty then some ⟨done.groups ++ [g], some (done.groups.length + 1)⟩
      else parseGroups room ⟨done.groups ++ [g], some (done.groups.length + 1)⟩ rest := by
  have stops : Stops (':' :: ':' :: rest) := by
    intro d mem
    cases mem
    decide
  simp [parseGroups, takeWhile_group stops, dropWhile_group stops, short_group fits,
    hexNumber_toDigits, none, Groups.push]

section

variable {room : Nat} {done : Groups} {g : Nat} {gs : List Nat} (fit : ∀ h ∈ g :: gs, h < 65536)
  (space : gs.length < room)
include fit space

theorem parseGroups_coloned :
    parseGroups room done (coloned (g :: gs)) = some ⟨done.groups ++ g :: gs, done.ellipsis⟩ := by
  induction gs generalizing room done g with
  | nil =>
    obtain ⟨room, rfl⟩ := Nat.exists_eq_add_one.mpr space
    rw [coloned_single, parseGroups_last (fit g mem_cons_self)]
    rfl
  | cons h gs ih =>
    obtain ⟨room, rfl⟩ := Nat.exists_eq_add_one.mpr (Nat.lt_of_le_of_lt (Nat.zero_le _) space)
    obtain ⟨c, cs, next, digit⟩ := coloned_head h gs []
    rw [append_nil] at next
    have tail := @ih _ (done.push g) h (fun k mem => fit k (mem_cons_of_mem g mem)) (Nat.lt_of_succ_lt_succ space)
    rw [next] at tail
    rw [coloned_cons_cons, next, parseGroups_colon (fit g mem_cons_self) done cs digit, tail]
    simp [Groups.push]

theorem parseGroups_before (none : done.ellipsis = none) (rest : List Char) :
    parseGroups room done (coloned (g :: gs) ++ ':' :: ':' :: rest) =
      if rest.isEmpty then
        some ⟨done.groups ++ g :: gs, some (done.groups.length + (g :: gs).length)⟩
      else parseGroups (room - (g :: gs).length)
        ⟨done.groups ++ g :: gs, some (done.groups.length + (g :: gs).length)⟩ rest := by
  induction gs generalizing room done g with
  | nil =>
    obtain ⟨room, rfl⟩ := Nat.exists_eq_add_one.mpr space
    rw [coloned_single, parseGroups_ellipsis (fit g mem_cons_self) none]
    rfl
  | cons h gs ih =>
    obtain ⟨room, rfl⟩ := Nat.exists_eq_add_one.mpr (Nat.lt_of_le_of_lt (Nat.zero_le _) space)
    obtain ⟨c, cs, next, digit⟩ := coloned_head h gs (':' :: ':' :: rest)
    have tail := @ih _ (done.push g) h (fun k mem => fit k (mem_cons_of_mem g mem))
      (Nat.lt_of_succ_lt_succ space) none
    rw [next] at tail
    rw [coloned_cons_cons, append_assoc, cons_append, next,
      parseGroups_colon (fit g mem_cons_self) done cs digit, tail]
    have count : done.groups.length + 1 + (gs.length + 1) = done.groups.length + (gs.length + 1 + 1) := by
      omega
    simp [Groups.push, count]

end

def ZerosAt (gs : List Nat) (start run : Nat) : Prop :=
  gs = gs.take start ++ List.replicate run 0 ++ gs.drop (start + run) ∧ start + run ≤ gs.length

theorem zeroRun_zeros (gs : List Nat) : ZerosAt gs 0 (zeroRun gs) := by
  unfold ZerosAt
  induction gs with
  | nil => simp [zeroRun]
  | cons g gs ih =>
    cases g with
    | zero =>
      obtain ⟨zeros, fits⟩ := ih
      constructor
      · conv_lhs => rw [zeros]
        simp [zeroRun, replicate_succ]
      · simpa [zeroRun] using fits
    | succ g => simp [zeroRun]

theorem longestRun_zeros {gs rest : List Nat} {i : Nat} {best : Nat × Nat}
    (here : rest = gs.drop i) (inside : i + rest.length = gs.length)
    (good : best.2 = 0 ∨ 2 ≤ best.2 ∧ ZerosAt gs best.1 best.2) : let found := longestRun rest i best
    found.2 = 0 ∨ 2 ≤ found.2 ∧ ZerosAt gs found.1 found.2 := by
  induction rest generalizing i best with
  | nil => exact good
  | cons g rest ih =>
    have next : rest = gs.drop (i + 1) := by
      have tail := congrArg tail here
      rwa [tail_drop] at tail
    apply ih next (by simp only [length_cons] at inside; omega)
    split
    · rename_i better
      right
      refine ⟨better.1, ?_⟩
      obtain ⟨zeros, fits⟩ := zeroRun_zeros (g :: rest)
      simp only [Nat.zero_add] at zeros fits
      refine ⟨?_, by omega⟩
      have whole := take_append_drop i gs
      rw [← here, zeros, here, drop_drop] at whole
      rw [here, append_assoc]
      exact whole.symm
    · exact good

theorem groups_eight (v : Nat) : (groups 8 65536 v).length = 8 := length_groups 8 65536 v

theorem toList_colons (gs : List Nat) : (colons gs).toList = coloned gs := by
  unfold colons coloned
  rw [String.toList_intercalate, map_map]
  congr 1
  refine map_congr_left ?_
  intro g _
  simp [hex]

theorem expand_zeros {start run : Nat} (eight : gs.length = 8) (long : 2 ≤ run) (zeros : ZerosAt gs start run) :
    expand ⟨gs.take start ++ gs.drop (start + run), some start⟩ = some gs := by
  obtain ⟨whole, fits⟩ := zeros
  have front : (gs.take start).length = start := by
    rw [length_take]
    omega
  have back : (gs.drop (start + run)).length = 8 - (start + run) := by rw [length_drop, eight]
  have missing : 8 - (gs.take start ++ gs.drop (start + run)).length = run := by
    rw [length_append, front]
    omega
  have nonzero : run ≠ 0 := by omega
  have before : (gs.take start ++ gs.drop (start + run)).take start = gs.take start := by
    rw [take_append_of_le_length (by omega), take_of_length_le (by omega)]
  have after : (gs.take start ++ gs.drop (start + run)).drop start = gs.drop (start + run) := drop_left' front
  simp only [expand, missing, nonzero, if_false, before, after]
  rw [← whole]

theorem coloned_isEmpty (gs : List Nat) : (coloned gs).isEmpty = gs.isEmpty := by
  cases gs with
  | nil => rfl
  | cons g gs =>
    obtain ⟨c, cs, next, _⟩ := coloned_head g gs []
    rw [append_nil] at next
    rw [next]
    rfl

theorem parseHextets_digit (cs : List Char) (digit : isHex c = true) :
    parseHextets (c :: cs) = parseGroups 8 ⟨[], none⟩ (c :: cs) := by
  unfold parseHextets
  split
  · rename_i same
    cases same
    exact absurd digit (by decide)
  · rfl

theorem parseGroups_after {room : Nat} {done : Groups} {after : List Nat}
    (fit : ∀ g ∈ after, g < 65536) (space : after.length < room) :
    (if (coloned after).isEmpty then some done else parseGroups room done (coloned after)) =
      some ⟨done.groups ++ after, done.ellipsis⟩ := by
  rw [coloned_isEmpty]
  cases after with
  | nil => simp
  | cons g gs =>
    rw [parseGroups_coloned fit (Nat.lt_of_succ_lt space)]
    rfl

theorem parseHextets_ellipsis {before after : List Nat} (fitBefore : ∀ g ∈ before, g < 65536)
    (fitAfter : ∀ g ∈ after, g < 65536) (space : before.length + after.length < 8) :
    parseHextets (coloned before ++ ':' :: ':' :: coloned after) = some ⟨before ++ after, some before.length⟩ := by
  cases before with
  | nil =>
    exact @parseGroups_after 8 ⟨[], some 0⟩ after fitAfter (by simpa using space)
  | cons g gs =>
    obtain ⟨c, cs, next, digit⟩ := coloned_head g gs (':' :: ':' :: coloned after)
    have front := @parseGroups_before 8 ⟨[], none⟩ g gs fitBefore
      (by simp only [length_cons] at space; omega) rfl (coloned after)
    rw [next] at front
    rw [next, parseHextets_digit cs digit, front]
    have read := @parseGroups_after (8 - (g :: gs).length) ⟨g :: gs, some (g :: gs).length⟩ after
      fitAfter (by omega)
    simpa using read

theorem parseHextets_hextets (v : Nat) : (parseHextets (hextets v).toList).bind expand = some (groups 8 65536 v) := by
  have eight := groups_eight v
  have fit : ∀ g ∈ groups 8 65536 v, g < 65536 := groups_lt (by decide)
  generalize gsEq : groups 8 65536 v = gs at eight fit
  have found := @longestRun_zeros gs gs 0 (0, 0) rfl (by simp) (.inl rfl)
  unfold hextets
  rw [gsEq]
  dsimp only
  generalize longestRun gs 0 (0, 0) = best at found
  obtain ⟨start, run⟩ := best
  by_cases none : run = 0
  · rw [if_pos none, toList_colons]
    cases gs with
    | nil => cases eight
    | cons g gs =>
      obtain ⟨c, cs, next, digit⟩ := coloned_head g gs []
      rw [append_nil] at next
      have read := @parseGroups_coloned 8 ⟨[], .none⟩ _ _ fit (by simp only [length_cons] at eight; omega)
      have plain := parseHextets_digit cs digit
      rw [← next] at plain
      rw [plain, read]
      simp [expand, eight]
  · obtain ⟨long, zeros⟩ := found.resolve_left none
    have ellipsis : "::".toList = [':', ':'] := by decide
    have room := zeros.2
    have front : (gs.take start).length = start := by
      rw [length_take]
      omega
    have read := @parseHextets_ellipsis (gs.take start) (gs.drop (start + run))
      (fun g mem => fit g (mem_of_mem_take mem)) (fun g mem => fit g (mem_of_mem_drop mem))
      (by rw [length_drop]; omega)
    rw [if_neg none, String.toList_append, String.toList_append, toList_colons, toList_colons,
      ellipsis, append_assoc, cons_append, cons_append, nil_append, read, front]
    exact expand_zeros eight long zeros

theorem isHex_of_isDigit (digit : c.isDigit = true) : isHex c = true := by
  simp [isHex, hexValue, digit]

theorem parseHextets_mapped (v : Nat) {a b c d : Nat} (fields : groups 4 256 v = [a, b, c, d]) :
    (parseHextets (':' :: ':' :: (Nat.toDigits 16 0xffff ++ ':' :: dotted (groups 4 256 v)))).bind
      expand = some [0, 0, 0, 0, 0, 0xffff, a * 256 + b, c * 256 + d] := by
  have bytes : ∀ e ∈ groups 4 256 v, e < 256 := groups_lt (by decide)
  have read := parseIPv4Fields_dotted v
  rw [fields] at bytes read ⊢
  have small : a < 256 := bytes a mem_cons_self
  have firstHex : ∀ x ∈ Nat.toDigits 10 a, isHex x = true := fun x mem => isHex_of_isDigit (isDigit_toDigits mem)
  have whole : dotted [a, b, c, d] = Nat.toDigits 10 a ++ '.' :: dotted [b, c, d] := by
    simp [dotted]
  have digits : (dotted [a, b, c, d]).takeWhile isHex = Nat.toDigits 10 a := by
    rw [whole, takeWhile_append_of_pos firstHex]
    simp [show isHex '.' = false by decide]
  have rest : (dotted [a, b, c, d]).dropWhile isHex = '.' :: dotted [b, c, d] := by
    rw [whole, dropWhile_append_of_pos firstHex]
    simp [show isHex '.' = false by decide]
  have short : (Nat.toDigits 10 a).length ≤ 4 :=
    (Nat.length_toDigits_le_iff (by decide) (by decide)).mpr (Nat.lt_trans small (by decide))
  obtain ⟨x, xs, start, digit⟩ : ∃ x xs, dotted [a, b, c, d] = x :: xs ∧ isHex x = true := by
    cases first : Nat.toDigits 10 a with
    | nil => exact absurd first Nat.toDigits_ne_nil
    | cons x xs =>
      refine ⟨x, xs ++ '.' :: dotted [b, c, d], by rw [whole, first]; rfl, firstHex x ?_⟩
      rw [first]
      exact mem_cons_self
  have tail : parseGroups 7 ⟨[0xffff], some 0⟩ (dotted [a, b, c, d]) =
      some ⟨[0xffff, a * 256 + b, c * 256 + d], some 0⟩ := by
    simp [parseGroups, digits, rest, Nat.not_lt.mpr short, trailingIPv4, read, embed]
  have groups : parseGroups 8 ⟨[], some 0⟩ (Nat.toDigits 16 0xffff ++ ':' :: dotted [a, b, c, d]) =
      some ⟨[0xffff, a * 256 + b, c * 256 + d], some 0⟩ := by
    rw [start, parseGroups_colon (by decide) _ xs digit, ← start]
    exact tail
  have more : (Nat.toDigits 16 0xffff ++ ':' :: dotted [a, b, c, d]).isEmpty = false := by simp
  simp only [parseHextets, groups, Bool.false_eq_true]
  rfl

/- the text of a zone, with the sign before it -/
def zoneText (zone : String) : List Char := if zone = "" then [] else '%' :: zone.toList

theorem zoneText_free (free : '%' ∉ body) (zone : String) : (body ++ zoneText zone).takeWhile (· != '%') = body ∧
      ((body ++ zoneText zone).dropWhile (· != '%')).tail = zone.toList ∧
      ((body ++ zoneText zone).contains '%' && zone.toList.isEmpty) = false := by
  have before : ∀ c ∈ body, (c != '%') = true := by
    intro c mem
    rw [bne_iff_ne]
    rintro rfl
    exact free mem
  rw [takeWhile_append_of_pos before, dropWhile_append_of_pos before]
  unfold zoneText
  by_cases none : zone = ""
  · rw [none]
    simp [free]
  rw [if_neg none]
  have some : zone.toList.isEmpty = false := by
    simpa [String.toList_eq_nil_iff] using none
  simp [some]

theorem parseAddr_groups (six : a.family = .v6) (free : '%' ∉ body)
    (first : body.find? (fun c => c == '.' || c == ':' || c == '%') = some ':')
    (read : (parseHextets body).bind expand = some gs) (same : value 65536 gs = a.value) (zone : String) :
    parseAddr (String.ofList (body ++ zoneText zone)) = some ⟨a, zone⟩ := by
  obtain ⟨front, back, fine⟩ := zoneText_free free zone
  have whole := addrOf_value a
  rw [six] at whole
  unfold parseAddr
  rw [String.toList_ofList, find?_append, first]
  rw [parseIPv6, front, back, fine, read]
  simp [same, whole]

theorem value_mapped (a b c d : Nat) : value 65536 [0, 0, 0, 0, 0, 0xffff, a * 256 + b, c * 256 + d] =
      0xffff * 2 ^ 32 + value 256 [a, b, c, d] := by
  simp [value, Nat.ofDigits]
  omega

theorem of_mem_coloned {p : Char → Bool} (digit : ∀ d < 16, p d.digitChar = true) (colon : p ':' = true)
    (mem : c ∈ coloned gs) : p c = true := by
  induction gs with
  | nil => cases mem
  | cons g rest ih =>
    cases rest with
    | nil =>
      rw [coloned_single] at mem
      exact of_mem_toDigits digit mem
    | cons h rest =>
      rcases mem_append.mp mem with here | mem
      · exact of_mem_toDigits digit here
      rcases mem_cons.mp mem with rfl | later
      · exact colon
      · exact ih later

theorem of_mem_hextets {p : Char → Bool} (digit : ∀ d < 16, p d.digitChar = true) (colon : p ':' = true)
    {v : Nat} {c : Char} (mem : c ∈ (hextets v).toList) : p c = true := by
  unfold hextets at mem
  dsimp only at mem
  split at mem
  · rw [toList_colons] at mem
    exact of_mem_coloned digit colon mem
  rw [String.toList_append, String.toList_append, toList_colons, toList_colons] at mem
  rcases mem_append.mp mem with mem | after
  · rcases mem_append.mp mem with before | two
    · exact of_mem_coloned digit colon before
    · have same : c = ':' := by simpa using two
      exact same ▸ colon
  · exact of_mem_coloned digit colon after

theorem hextets_chars {v : Nat} (mem : c ∈ (hextets v).toList) : isHex c = true ∨ c = ':' := by
  have kinds : (isHex c || c == ':') = true :=
    @of_mem_hextets (fun c => isHex c || c == ':') (by decide) (by decide) v c mem
  simpa using kinds

theorem hextets_inj {v w : Nat} (same : hextets v = hextets w) : v % 2 ^ 128 = w % 2 ^ 128 := by
  have read := parseHextets_hextets v
  rw [same, parseHextets_hextets] at read
  have groups := congrArg (value 65536) (Option.some.inj read)
  rw [value_groups, value_groups] at groups
  exact groups.symm

theorem colon_mem_hextets (v : Nat) : ':' ∈ (hextets v).toList := by
  unfold hextets
  dsimp only
  split
  · rw [toList_colons]
    simp [coloned, groups, range_succ]
  · simp

theorem string_v4 (four : a.family = .v4) : a.string.toList = dotted (groups 4 256 a.value) := by
  have is4 : a.is4 = true := by simp [Addr.is4, four]
  rw [Addr.string, if_pos is4, toList_decimals]

theorem string_mapped (mapped : a.is4In6 = true) : a.string.toList =
    ':' :: ':' :: (Nat.toDigits 16 0xffff ++ ':' :: dotted (groups 4 256 (a.value % 2 ^ 32))) := by
  have six : a.is4 = false := by
    simp only [Addr.is4In6, Bool.and_eq_true, beq_iff_eq] at mapped
    simp [Addr.is4, mapped.1]
  have front : "::ffff:".toList = ':' :: ':' :: (Nat.toDigits 16 0xffff ++ [':']) := by decide
  simp only [Addr.string, six, mapped, Bool.false_eq_true, if_false, if_true]
  rw [String.toList_append, toList_decimals, front]
  simp

theorem string_v6 (six : a.family = .v6) : '%' ∉ a.string.toList ∧
      a.string.toList.find? (fun c => c == '.' || c == ':' || c == '%') = some ':' ∧
      ∃ gs, (parseHextets a.string.toList).bind expand = some gs ∧ value 65536 gs = a.value := by
  have inRange := a.inRange
  rw [six] at inRange
  by_cases mapped : a.is4In6 = true
  · have high : a.value / 2 ^ 32 = 0xffff := by
      simp only [Addr.is4In6, Bool.and_eq_true, beq_iff_eq] at mapped
      exact mapped.2
    rw [string_mapped mapped]
    refine ⟨?_, rfl, ?_⟩
    · intro percent
      have parts : '%' ∈ Nat.toDigits 16 0xffff ∨ '%' ∈ dotted (groups 4 256 (a.value % 2 ^ 32)) := by
        simpa using percent
      rcases parts with digit | field
      · exact absurd digit (by decide)
      rcases mem_dotted field with digit | dot
      · exact absurd digit (by decide)
      · exact absurd dot (by decide)
    · obtain ⟨b, c, d, e, fields⟩ : ∃ b c d e, groups 4 256 (a.value % 2 ^ 32) = [b, c, d, e] := ⟨_, _, _, _, rfl⟩
      refine ⟨_, parseHextets_mapped (a.value % 2 ^ 32) fields, ?_⟩
      have low : value 256 (groups 4 256 (a.value % 2 ^ 32)) = a.value % 2 ^ 32 := by
        rw [value_groups]
        exact Nat.mod_mod a.value (2 ^ 32)
      rw [value_mapped, ← fields, low, ← high, Nat.mul_comm, Nat.div_add_mod]
  · have is4 : a.is4 = false := by simp [Addr.is4, six]
    have plain : a.string = hextets a.value := by simp [Addr.string, is4, mapped]
    rw [plain]
    refine ⟨?_, ?_, groups 8 65536 a.value, parseHextets_hextets a.value, ?_⟩
    · intro percent
      rcases hextets_chars percent with digit | colon
      · exact absurd digit (by decide)
      · exact absurd colon (by decide)
    · apply find_first _ (colon_mem_hextets a.value) (by decide)
      intro c mem kind
      rcases hextets_chars mem with digit | colon
      · simp only [Bool.or_eq_true, beq_iff_eq] at kind
        rcases kind with (rfl | colon) | rfl
        · exact absurd digit (by decide)
        · exact colon
        · exact absurd digit (by decide)
      · exact colon
    · rw [value_groups]
      exact Nat.mod_eq_of_lt inRange

theorem ZonedAddr.string_eq (z : ZonedAddr) : z.string = String.ofList (z.addr.string.toList ++ zoneText z.zone) := by
  unfold ZonedAddr.string zoneText
  have sign : "%".toList = ['%'] := by decide
  by_cases none : z.zone = ""
  · rw [if_pos none, if_pos none, append_nil, String.ofList_toList]
  rw [if_neg none, if_neg none]
  apply String.toList_injective
  simp

variable {z : ZonedAddr}

theorem parseAddr_string (zoned : z.zone = "" ∨ z.addr.family = .v6) : parseAddr z.string = some z := by
  obtain ⟨a, zone⟩ := z
  rw [ZonedAddr.string_eq]
  cases family : a.family with
  | v6 =>
    obtain ⟨free, first, gs, read, same⟩ := string_v6 family
    exact parseAddr_groups family free first read same zone
  | v4 =>
    have none : zone = "" := by
      rcases zoned with none | six
      · exact none
      · rw [family] at six
        cases six
    subst none
    rw [zoneText, if_pos rfl, append_nil, string_v4 family]
    exact parseAddr_dotted family

theorem ZonedAddr.string_plain (a : Addr) : (ZonedAddr.mk a "").string = a.string := by
  rw [ZonedAddr.string, if_pos rfl]

theorem parseAddr_plain (a : Addr) : parseAddr a.string = some ⟨a, ""⟩ := by
  have read := parseAddr_string (z := ⟨a, ""⟩) (.inl rfl)
  rwa [ZonedAddr.string_plain] at read

theorem Addr.string_chars (mem : c ∈ a.string.toList) : isHex c = true ∨ c = ':' ∨ c = '.' := by
  cases family : a.family with
  | v4 =>
    rw [string_v4 family] at mem
    rcases mem_dotted mem with digit | dot
    · exact .inl (isHex_of_isDigit digit)
    · exact .inr (.inr dot)
  | v6 =>
    by_cases mapped : a.is4In6 = true
    · rw [string_mapped mapped] at mem
      have parts : c = ':' ∨ c ∈ Nat.toDigits 16 0xffff ∨ c ∈ dotted (groups 4 256 (a.value % 2 ^ 32)) := by
        simp only [mem_cons, mem_append] at mem
        tauto
      rcases parts with colon | digit | field
      · exact .inr (.inl colon)
      · exact .inl (isHex_toDigits digit)
      rcases mem_dotted field with digit | dot
      · exact .inl (isHex_of_isDigit digit)
      · exact .inr (.inr dot)
    · have is4 : a.is4 = false := by simp [Addr.is4, family]
      have plain : a.string = hextets a.value := by simp [Addr.string, is4, mapped]
      rw [plain] at mem
      rcases hextets_chars mem with digit | colon
      · exact .inl digit
      · exact .inr (.inl colon)

theorem last_slash {s : String} {front : List Char} (text : s.toList = front ++ '/' :: Nat.toDigits 10 n) :
    '/' ∈ s.toList ∧ (s.toList.reverse.takeWhile (· != '/')).reverse = Nat.toDigits 10 n ∧
      (s.toList.reverse.dropWhile (· != '/')).tail.reverse = front := by
  have digits : ∀ c ∈ (Nat.toDigits 10 n).reverse, (c != '/') = true := by
    intro c mem
    have digit := isDigit_toDigits (mem_reverse.mp mem)
    rw [bne_iff_ne]
    rintro rfl
    exact absurd digit (by decide)
  have reversed : s.toList.reverse = (Nat.toDigits 10 n).reverse ++ '/' :: front.reverse := by
    rw [text]
    simp
  refine ⟨?_, ?_, ?_⟩
  · rw [text]
    simp
  · rw [reversed, takeWhile_append_of_pos digits]
    simp
  · rw [reversed, dropWhile_append_of_pos digits]
    simp

theorem toList_slash (s : String) (n : Nat) :
    (s ++ "/" ++ toString n).toList = s.toList ++ '/' :: Nat.toDigits 10 n := by
  have slash : "/".toList = ['/'] := by decide
  simp

theorem parsePrefix_string (p : Prefix) : parsePrefix p.string = some p := by
  obtain ⟨there, bitsStr, addrStr⟩ := last_slash (toList_slash p.addr.string p.bits)
  have text : p.string = p.addr.string ++ "/" ++ toString p.bits := rfl
  rw [← text] at there bitsStr addrStr
  simp [parsePrefix, there, bitsStr, addrStr, parseAddr_plain, parseDecimal_toDigits p.inRange, p.inRange]

/- … and one of an address with a zone is refused -/
theorem parsePrefix_zone (six : z.addr.family = .v6) (zone : z.zone ≠ "") (n : Nat) :
    parsePrefix (z.string ++ "/" ++ toString n) = none := by
  obtain ⟨there, _, addrStr⟩ := last_slash (toList_slash z.string n)
  generalize z.string ++ "/" ++ toString n = s at there addrStr ⊢
  simp [parsePrefix, addrStr, parseAddr_string (.inr six), zone]

end HostingPlatform.Netip
