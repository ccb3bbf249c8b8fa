import HostingPlatform.Ascii
import HostingPlatform.Js.Number
import Mathlib.Data.List.Infix
import Mathlib.Data.List.TakeWhile

/-! JavaScript strings: `length` and `slice` count UTF-16 code units. Lone surrogates are
left out. -/
namespace HostingPlatform.Js

open List

def codeUnits (c : Char) : Nat := if 0x10000 ≤ c.toNat then 2 else 1

def length (s : String) : Nat := s.toList.foldr (fun c n => codeUnits c + n) 0

variable {s before after : String} {c : Char} {cs : List Char}

theorem length_pos (some : s ≠ "") : 0 < length s := by
  unfold length
  cases chars : s.toList with
  | nil => exact absurd (String.toList_eq_nil_iff.mp chars) some
  | cons c rest =>
    have units : 0 < codeUnits c := by
      unfold codeUnits
      split <;> exact Nat.zero_lt_succ _
    exact Nat.add_pos_left units _

/- a surrogate pair that the cut splits leaves a lone surrogate, which is written out as
U+FFFD -/
def takeUnits : Nat → List Char → List Char
  | 0, _ => []
  | _, [] => []
  | n + 1, c :: rest =>
    if codeUnits c ≤ n + 1 then c :: takeUnits (n + 1 - codeUnits c) rest else ['\uFFFD']

/- `s.slice(0, n)` -/
def slice (s : String) (n : Nat) : String := String.ofList (takeUnits n s.toList)

def startsWith (s start : String) : Bool := start.toList.isPrefixOf s.toList

def endsWith (s ending : String) : Bool := ending.toList.isSuffixOf s.toList

def includes (s part : String) : Bool := decide (part.toList <:+: s.toList)

def split (c : Char) (s : String) : List String := (s.toList.splitOn c).map String.ofList

/- what stands before the first such character and what after it -/
def cut (c : Char) (s : String) : Option (String × String) :=
  match s.toList.span (· ≠ c) with
  | (_, []) => none
  | (before, _ :: after) => some (String.ofList before, String.ofList after)

def cutLast (c : Char) (s : String) : Option (String × String) :=
  match s.toList.reverse.span (· ≠ c) with
  | (_, []) => none
  | (after, _ :: before) => some (String.ofList before.reverse, String.ofList after.reverse)

theorem span_at {before after : List Char} (free : c ∉ before) :
    (before ++ c :: after).span (· ≠ c) = (before, c :: after) := by
  have others : ∀ d ∈ before, decide (d ≠ c) = true := fun d mem => decide_eq_true (fun same => free (same ▸ mem))
  rw [span_eq_takeWhile_dropWhile, takeWhile_append_of_pos others, dropWhile_append_of_pos others]
  simp

theorem span_free (free : c ∉ cs) : cs.span (· ≠ c) = (cs, []) := by
  have others : ∀ d ∈ cs, decide (d ≠ c) = true := fun d mem => decide_eq_true (fun same => free (same ▸ mem))
  rw [span_eq_takeWhile_dropWhile, takeWhile_eq_self_iff.mpr others, dropWhile_eq_nil_iff.mpr others]

theorem cut_at (free : c ∉ before.toList) (chars : s.toList = before.toList ++ c :: after.toList) :
    cut c s = some (before, after) := by
  rw [cut, chars, span_at free]
  simp

theorem cut_free (free : c ∉ s.toList) : cut c s = none := by
  rw [cut, span_free free]

theorem chars_of_cut (found : cut c s = some (before, after)) :
    c ∉ before.toList ∧ s.toList = before.toList ++ c :: after.toList := by
  by_cases mem : c ∈ s.toList
  · obtain ⟨front, back, same, free⟩ := eq_append_cons_of_mem mem
    rw [cut, same, span_at free] at found
    cases found
    simpa using ⟨free, same⟩
  · rw [cut_free mem] at found
    contradiction

theorem cutLast_at (free : c ∉ after.toList) (chars : s.toList = before.toList ++ c :: after.toList) :
    cutLast c s = some (before, after) := by
  have reversed : s.toList.reverse = after.toList.reverse ++ c :: before.toList.reverse := by simp [chars]
  rw [cutLast, reversed, span_at (by simpa using free)]
  simp

theorem cutLast_free (free : c ∉ s.toList) : cutLast c s = none := by
  rw [cutLast, span_free (by simpa using free)]

theorem chars_of_cutLast (found : cutLast c s = some (before, after)) :
    c ∉ after.toList ∧ s.toList = before.toList ++ c :: after.toList := by
  by_cases mem : c ∈ s.toList
  · obtain ⟨front, back, same, free⟩ := eq_append_cons_of_mem (mem_reverse.mpr mem)
    have forward : s.toList = back.reverse ++ c :: front.reverse := by
      rw [← reverse_reverse s.toList, same]
      simp
    rw [cutLast, same, span_at free] at found
    cases found
    simpa using ⟨free, forward⟩
  · rw [cutLast_free mem] at found
    contradiction

theorem cut_eq_none : cut c s = none ↔ c ∉ s.toList := by
  refine ⟨fun none mem => ?_, cut_free⟩
  obtain ⟨front, back, same, free⟩ := eq_append_cons_of_mem mem
  rw [cut, same, span_at free] at none
  contradiction

theorem cutLast_eq_none : cutLast c s = none ↔ c ∉ s.toList := by
  refine ⟨fun none mem => ?_, cutLast_free⟩
  obtain ⟨front, back, same, free⟩ := eq_append_cons_of_mem (mem_reverse.mpr mem)
  rw [cutLast, same, span_at free] at none
  contradiction

def isWhite (c : Char) : Bool :=
  c ∈ ['\t', '\n', '\u000B', '\u000C', '\r', ' ', '\u00A0', '\u1680', '\u2028', '\u2029', '\u202F',
    '\u205F', '\u3000', '\uFEFF'] || 0x2000 ≤ c.toNat && c.toNat ≤ 0x200A

def trim (s : String) : String :=
  String.ofList ((s.toList.dropWhile isWhite).reverse.dropWhile isWhite).reverse

theorem trim_fixed (head : ∀ c ∈ s.toList.head?, isWhite c = false)
    (last : ∀ c ∈ s.toList.getLast?, isWhite c = false) : trim s = s := by
  have keep {cs : List Char} (first : ∀ c ∈ cs.head?, isWhite c = false) : cs.dropWhile isWhite = cs := by
    cases cs with
    | nil => rfl
    | cons c rest => simp [first c rfl]
  rw [trim, keep head, keep (by simpa using last), reverse_reverse, String.ofList_toList]

theorem trim_prefix (s : String) : (trim s).toList <+: s.toList.dropWhile isWhite := by
  rw [trim]
  have back := dropWhile_suffix isWhite (l := (s.toList.dropWhile isWhite).reverse)
  simpa using reverse_prefix.mpr back

theorem head_trim (head : (trim s).toList.head? = some c) : isWhite c = false := by
  obtain ⟨rest, whole⟩ := trim_prefix s
  have first : (s.toList.dropWhile isWhite).head? = some c := by
    rw [← whole, head?_append, head]
    rfl
  have black := head?_dropWhile_not isWhite s.toList
  rw [first] at black
  exact black

/- a carriage return goes with the line feed after it -/
def dropReturns : List (List Char) → List (List Char)
  | [] => []
  | [last] => [last]
  | line :: rest =>
    (if line.getLast? = some '\r' then line.dropLast else line) :: dropReturns rest

/- `s.split(/\r?\n/)` -/
def lines (s : String) : List String := (dropReturns (s.toList.splitOn '\n')).map String.ofList

def isAlnum (c : Char) : Bool := c.isLower || c.isDigit

theorem isAlnum_codes (alnum : isAlnum c = true) : 97 ≤ c.toNat ∧ c.toNat ≤ 122 ∨ 48 ≤ c.toNat ∧ c.toNat ≤ 57 :=
  (Bool.or_eq_true_iff.mp alnum).imp Ascii.isLower_iff.mp Ascii.isDigit_iff.mp

/-- Of the letters outside ASCII only those whose upper case has one inside are mapped. -/
def upperChar (c : Char) : List Char :=
  if c.isLower then [c.toUpper]
  else match c with
    | 'ı' => ['I']
    | 'ſ' => ['S']
    | 'ß' => ['S', 'S']
    | 'ŉ' => ['\u02BC', 'N']
    | 'ǰ' => ['J', '\u030C']
    | 'ẖ' => ['H', '\u0331']
    | 'ẗ' => ['T', '\u0308']
    | 'ẘ' => ['W', '\u030A']
    | 'ẙ' => ['Y', '\u030A']
    | 'ẚ' => ['A', '\u02BE']
    | 'ﬀ' => ['F', 'F']
    | 'ﬁ' => ['F', 'I']
    | 'ﬂ' => ['F', 'L']
    | 'ﬃ' => ['F', 'F', 'I']
    | 'ﬄ' => ['F', 'F', 'L']
    | 'ﬅ' => ['S', 'T']
    | 'ﬆ' => ['S', 'T']
    | c => [c]

def lowerChar (c : Char) : List Char :=
  if c.isUpper then [c.toLower]
  else match c with
    | '\u212A' => ['k']
    | 'İ' => ['i', '\u0307']
    | c => [c]

def toUpperCase (s : String) : String := String.ofList (s.toList.flatMap upperChar)

def toLowerCase (s : String) : String := String.ofList (s.toList.flatMap lowerChar)

theorem lowerChar_fixed (lower : c.isUpper = false) (kelvin : c ≠ '\u212A') (dotted : c ≠ 'İ') : lowerChar c = [c] := by
  simp [lowerChar, lower, Bool.false_eq_true]

theorem lowerChar_ascii (ascii : c.toNat < 127) (notUpper : c.isUpper = false) : lowerChar c = [c] := by
  apply lowerChar_fixed notUpper
  · rintro rfl
    exact absurd ascii (by decide)
  · rintro rfl
    exact absurd ascii (by decide)

theorem flatMap_lowerChar (fixed : ∀ c ∈ cs, lowerChar c = [c]) : cs.flatMap lowerChar = cs := by
  induction cs with
  | nil => rfl
  | cons c rest ih =>
    have later := ih (fun d mem => fixed d (mem_cons_of_mem c mem))
    rw [flatMap_cons, fixed c mem_cons_self, later, singleton_append]

theorem toLowerCase_fixed (fixed : ∀ c ∈ s.toList, lowerChar c = [c]) : toLowerCase s = s := by
  rw [toLowerCase, flatMap_lowerChar fixed, String.ofList_toList]

def decimal (ds : List Char) : Nat := ds.foldl (fun n d => 10 * n + (d.toNat - 48)) 0

/- `parseInt(s, 10)`: the digits at the head, after white space and a sign -/
def parseInt (s : String) : Number :=
  let body := s.toList.dropWhile isWhite
  let (negative, body) := match body with
    | '-' :: rest => (true, rest)
    | '+' :: rest => (false, rest)
    | _ => (false, body)
  match body.takeWhile Char.isDigit with
  | [] => .nan
  | ds => .nearest (if negative then -(decimal ds : ℚ) else decimal ds)

theorem parseInt_whole (s : String) : (parseInt s).isWhole = true := by
  have integer (negative : Bool) (n : Nat) :
      (if negative then -(n : ℚ) else n) = ((if negative then -(n : Int) else n : Int) : ℚ) := by
    cases negative <;> simp
  unfold parseInt
  dsimp only
  split
  · rfl
  · rw [integer]
    exact Number.nearest_whole _

/- `parseFloat` of digits with a fraction -/
def parseFloat (whole fraction : List Char) : Number :=
  .nearest (decimal (whole ++ fraction) / 10 ^ fraction.length)

/- `Buffer.byteLength(s, 'utf8')` -/
def byteLength (s : String) : Nat := s.toList.foldr (fun c n => c.utf8Size + n) 0

theorem codeUnits_le (c : Char) : codeUnits c ≤ c.utf8Size := by
  unfold codeUnits
  split
  · unfold Char.utf8Size
    simp only [UInt32.le_iff_toNat_le, UInt32.toNat_ofNatLT, Char.toNat] at *
    repeat' split
    all_goals omega
  · exact Char.utf8Size_pos c

theorem length_le_byteLength (s : String) : length s ≤ byteLength s := by
  unfold length byteLength
  induction s.toList with
  | nil => exact Nat.le_refl 0
  | cons c rest ih => exact Nat.add_le_add (codeUnits_le c) ih

/- `s.split(/\s+/)` -/
def blankSeparated : List Char → List (List Char)
  | [] => [[]]
  | c :: rest =>
    if isWhite c then if rest.head?.any isWhite then blankSeparated rest else [] :: blankSeparated rest
    else
      match blankSeparated rest with
      | [] => [[c]]
      | word :: more => (c :: word) :: more

theorem blankSeparated_one {word : List Char} (solid : ∀ c ∈ word, isWhite c = false) :
    blankSeparated word = [word] := by
  induction word with
  | nil => rfl
  | cons c rest ih =>
    have others := ih (fun d mem => solid d (mem_cons_of_mem c mem))
    simp [blankSeparated, solid c mem_cons_self, others]

def digitValue (c : Char) : Nat :=
  if c.isDigit then c.toNat - 48
  else if 'a' ≤ c ∧ c ≤ 'f' then c.toNat - 87
  else if 'A' ≤ c ∧ c ≤ 'F' then c.toNat - 55
  else 16

/- the digits after `0x`, `0o` or `0b` -/
def radixLiteral (base : Nat) (ds : List Char) : Number :=
  if ds = [] ∨ ds.any (fun d => base ≤ digitValue d) then .nan
  else .nearest (ds.foldl (fun n d => base * n + digitValue d) 0 : Nat)

/- what stands before the digits, and the digits -/
def signed (cs : List Char) : Bool × List Char :=
  match cs with
  | '-' :: rest => (true, rest)
  | '+' :: rest => (false, rest)
  | _ => (false, cs)

def exponentPart (cs : List Char) : Option Int :=
  match cs with
  | [] => some 0
  | e :: rest =>
    let (negative, ds) := signed rest
    if (e = 'e' ∨ e = 'E') ∧ ds ≠ [] ∧ ds.all Char.isDigit then
      some (if negative then -(decimal ds : Int) else decimal ds)
    else none

def unsignedLiteral (cs : List Char) : Number :=
  let whole := cs.takeWhile Char.isDigit
  let (fraction, rest) := match cs.dropWhile Char.isDigit with
    | '.' :: rest => (rest.takeWhile Char.isDigit, rest.dropWhile Char.isDigit)
    | rest => ([], rest)
  if whole = [] ∧ fraction = [] then .nan
  else
    match exponentPart rest with
    | none => .nan
    | some exponent =>
      .nearest ((decimal (whole ++ fraction) : ℚ) * 10 ^ (exponent - fraction.length))

def negate : Number → Number
  | .nan => .nan
  | .infinity negative => .infinity (!negative)
  | .finite q => .finite (-q)

def decimalLiteral (cs : List Char) : Number :=
  let (negative, body) := signed cs
  let size := if String.ofList body = "Infinity" then .infinity false else unsignedLiteral body
  if negative then negate size else size

def toNumber (s : String) : Number :=
  match (trim s).toList with
  | [] => 0
  | '0' :: 'x' :: ds | '0' :: 'X' :: ds => radixLiteral 16 ds
  | '0' :: 'o' :: ds | '0' :: 'O' :: ds => radixLiteral 8 ds
  | '0' :: 'b' :: ds | '0' :: 'B' :: ds => radixLiteral 2 ds
  | cs => decimalLiteral cs

/- `s.trim().split(/\s+/)` -/
def words (s : String) : List String :=
  if trim s = "" then [""]
  else (((trim s).toList.splitOnP isWhite).filter (fun word => word ≠ [])).map String.ofList

/- `Number.isInteger(x)`, with the integer -/
def toInteger : Number → Option Int
  | .finite q => if q.den = 1 then some q.num else none
  | _ => none

end HostingPlatform.Js
