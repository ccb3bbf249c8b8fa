import HostingPlatform.Quantity
import HostingPlatform.ResourceQuantities.Parsers

/-! What the readers see of the text of a quantity: where its number ends, and which double stands
for it. -/
namespace HostingPlatform.ResourceQuantities

open Option List Js CustomDeployments Quantity

/-- No white space, so that nothing is trimmed. -/
def Black (cs : List Char) : Prop := ∀ c ∈ cs, isWhite c = false

variable {cs rest : List Char}

theorem Black.of_all (all : cs.all (fun c => !isWhite c)) : Black cs := by
  intro c mem
  simpa using all_eq_true.mp all c mem

theorem digit_black {c : Char} (digit : c.isDigit = true) : isWhite c = false := by
  have range := Ascii.isDigit_iff.mp digit
  have other {d : Char} (white : d.isDigit = false) : c ≠ d := by
    rintro rfl
    rw [white] at digit
    contradiction
  have none : c ∉ ['\t', '\n', '\u000B', '\u000C', '\r', ' ', '\u00A0', '\u1680', '\u2028',
      '\u2029', '\u202F', '\u205F', '\u3000', '\uFEFF'] := by
    simp only [mem_cons, not_mem_nil, or_false, not_or]
    repeat' constructor
    all_goals exact other (by decide)
  have below : ¬ 0x2000 ≤ c.toNat := by omega
  simp [isWhite, none, below]

theorem trim_black (black : Black cs) : trim (String.ofList cs) = String.ofList cs := by
  have keep {l : List Char} (all : ∀ c ∈ l, isWhite c = false) : l.dropWhile isWhite = l := by
    cases l with
    | nil => rfl
    | cons c rest => simp [all c mem_cons_self]
  unfold trim
  rw [String.toList_ofList, keep black, keep, reverse_reverse]
  intro c mem
  exact black c (mem_reverse.mp mem)

def Stop (rest : List Char) : Prop := ∀ c ∈ rest.head?, c.isDigit = false

/-- What can stand after the number. -/
def Tail (rest : List Char) : Prop :=
  ∀ c ∈ rest.head?, c.isDigit = false ∧ c ∉ ['.', 'x', 'X', 'o', 'O', 'b', 'B']

theorem Tail.stop (tail : Tail rest) : Stop rest :=
  fun c head => (tail c head).1

theorem stop_point (cs : List Char) : Stop ('.' :: cs) := by
  intro c head
  cases head
  rfl

theorem Stop.span {ds : List Char} (stop : Stop rest) (digits : ds.all Char.isDigit) :
    (ds ++ rest).takeWhile Char.isDigit = ds ∧ (ds ++ rest).dropWhile Char.isDigit = rest := by
  have all : ∀ c ∈ ds, c.isDigit = true := all_eq_true.mp digits
  rw [takeWhile_append_of_pos all, dropWhile_append_of_pos all]
  cases rest with
  | nil => simp
  | cons c more => simp [stop c rfl]

theorem Stop.digits_eq {ds : List Char} (stop : Stop rest) (all : ds.all Char.isDigit) (some : ds ≠ []) :
    digits (ds ++ rest) = .some (ds, rest) := by
  unfold digits
  rw [(stop.span all).1, (stop.span all).2]
  cases ds with
  | nil => contradiction
  | cons c more => rfl

theorem Stop.digits_none (stop : Stop cs) : digits cs = none := by
  cases cs with
  | nil => rfl
  | cons c more => simp [digits, stop c rfl]

section Numerals

variable {n : Numeral} {rest : List Char}

/- the characters of an unsigned number -/
def body (n : Numeral) : List Char := n.whole ++ (n.point.map ('.' :: ·)).getD []

theorem text_eq (n : Numeral) : n.text = n.sign.text ++ body n := rfl

theorem body_char (numeric : (n.whole ++ n.fraction).all Char.isDigit) : ∀ c ∈ body n, c.isDigit = true ∨ c = '.' := by
  have all : ∀ c ∈ n.whole ++ n.fraction, c.isDigit = true := all_eq_true.mp numeric
  intro c mem
  rcases mem_append.mp mem with before | after
  · exact .inl (all c (mem_append_left _ before))
  cases point : n.point with
  | none => simp [point] at after
  | some ds =>
    simp only [point, map_some, getD_some, mem_cons] at after
    apply after.elim
    · exact .inr
    intro inside
    apply Or.inl
    apply all c
    apply mem_append_right
    simpa [Numeral.fraction, point] using inside

theorem body_ne_nil (nonempty : n.whole ++ n.fraction ≠ []) : body n ≠ [] := by
  intro empty
  obtain ⟨whole, point⟩ := append_eq_nil_iff.mp empty
  apply nonempty
  cases none : n.point with
  | none => simp [Numeral.fraction, whole, none]
  | some ds => simp [none] at point

theorem other_char {c d : Char} (kind : c.isDigit = true ∨ c = '.') (other : d.isDigit = false ∧ d ≠ '.') : c ≠ d := by
  rintro rfl
  apply kind.elim
  · rw [other.1]
    exact Bool.false_ne_true
  · exact other.2

theorem body_head (nonempty : n.whole ++ n.fraction ≠ []) (numeric : (n.whole ++ n.fraction).all Char.isDigit) :
    ∃ c more, body n = c :: more ∧ (c.isDigit = true ∨ c = '.') := by
  obtain ⟨c, more, same⟩ := exists_cons_of_ne_nil (body_ne_nil nonempty)
  refine ⟨c, more, same, body_char numeric c ?_⟩
  rw [same]
  exact mem_cons_self

theorem decimalAt_plain (plain : n.Plain) (numeric : (n.whole ++ n.fraction).all Char.isDigit)
    (tail : Tail rest) : decimalAt (n.text ++ rest) = some (n.whole, n.fraction, rest) := by
  obtain ⟨unsigned, whole, fraction⟩ := plain
  rw [all_append, Bool.and_eq_true] at numeric
  unfold decimalAt
  rw [text_eq, unsigned, Sign.text, nil_append, body, append_assoc]
  cases point : n.point with
  | none =>
    simp only [map_none, getD_none, nil_append]
    rw [tail.stop.digits_eq numeric.1 whole]
    cases rest with
    | nil => simp [Numeral.fraction, point]
    | cons c more =>
      have other : c ≠ '.' := by
        rintro rfl
        exact (tail '.' rfl).2 mem_cons_self
      simp [Numeral.fraction, point, other]
  | some ds =>
    have same : n.fraction = ds := by simp [Numeral.fraction, point]
    have nonempty : ds ≠ [] := by
      rintro rfl
      exact fraction point
    simp only [map_some, getD_some, cons_append]
    rw [(stop_point _).digits_eq numeric.1 whole]
    simp [tail.stop.digits_eq (same ▸ numeric.2) nonempty, same]

theorem decimalAt_not_plain (strange : ¬ n.Plain) (nonempty : n.whole ++ n.fraction ≠ [])
    (numeric : (n.whole ++ n.fraction).all Char.isDigit) (tail : Tail rest) : decimalAt (n.text ++ rest) = none ∨
      decimalAt (n.text ++ rest) = some (n.whole, [], '.' :: rest) := by
  rw [all_append, Bool.and_eq_true] at numeric
  by_cases unsigned : n.sign = .unsigned
  · by_cases whole : n.whole = []
    · left
      cases point : n.point with
      | none => simp [Numeral.fraction, whole, point] at nonempty
      | some ds =>
        have text : n.text ++ rest = '.' :: (ds ++ rest) := by
          simp [text_eq, body, unsigned, Sign.text, whole, point]
        rw [decimalAt, text, (stop_point _).digits_none]
    · right
      have point : n.point = some [] := by
        by_contra fraction
        exact strange ⟨unsigned, whole, fraction⟩
      have text : n.text ++ rest = n.whole ++ '.' :: rest := by
        simp [text_eq, body, unsigned, Sign.text, point]
      rw [decimalAt, text, (stop_point _).digits_eq numeric.1 whole]
      simp [tail.stop.digits_none]
  · left
    have signed : Stop (n.text ++ rest) := by
      intro c head
      cases sign : n.sign with
      | unsigned => exact absurd sign unsigned
      | plus | minus =>
        simp only [text_eq, sign, cons_append] at head
        cases head
        rfl
    rw [decimalAt, signed.digits_none]

/- the double for the digits with an exponent, or with something that is none after them -/
def scaled (n : Numeral) : Option Int → Number
  | none => .nan
  | some e => .nearest ((decimal (n.whole ++ n.fraction) : ℚ) * 10 ^ (e - n.fraction.length))

theorem unsignedLiteral_body (nonempty : n.whole ++ n.fraction ≠ [])
    (numeric : (n.whole ++ n.fraction).all Char.isDigit) (tail : Tail rest) :
    unsignedLiteral (body n ++ rest) = scaled n (exponentPart rest) := by
  rw [all_append, Bool.and_eq_true] at numeric
  have finish {fraction : List Char} (same : n.fraction = fraction) :
      (if n.whole = [] ∧ fraction = [] then .nan
      else match exponentPart rest with
        | none => .nan
        | some e => .nearest ((decimal (n.whole ++ fraction) : ℚ) * 10 ^ (e - fraction.length))) =
      scaled n (exponentPart rest) := by
    subst same
    rw [if_neg (fun none => nonempty (append_eq_nil_iff.mpr none))]
    cases exponentPart rest <;> rfl
  unfold unsignedLiteral body
  rw [append_assoc]
  cases point : n.point with
  | none =>
    simp only [map_none, getD_none, nil_append]
    rw [(tail.stop.span numeric.1).1, (tail.stop.span numeric.1).2]
    have other : ∀ more, rest ≠ '.' :: more := by
      rintro more rfl
      exact (tail '.' rfl).2 mem_cons_self
    split
    · exact absurd rfl (other _)
    · exact finish (by simp [Numeral.fraction, point])
  | some ds =>
    have same : n.fraction = ds := by simp [Numeral.fraction, point]
    have after := tail.stop.span (same ▸ numeric.2)
    simp only [map_some, getD_some, cons_append]
    rw [((stop_point _).span numeric.1).1, ((stop_point _).span numeric.1).2]
    simp only [after.1, after.2]
    exact finish same

def signedScaled (n : Numeral) (e : Option Int) : Number :=
  if n.sign = .minus then negate (scaled n e) else scaled n e

section

variable (nonempty : n.whole ++ n.fraction ≠ [])
include nonempty

theorem decimalLiteral_text (numeric : (n.whole ++ n.fraction).all Char.isDigit) (tail : Tail rest) :
    decimalLiteral (n.text ++ rest) = signedScaled n (exponentPart rest) := by
  obtain ⟨c, more, head, kind⟩ := body_head nonempty numeric
  have finite : String.ofList (body n ++ rest) ≠ "Infinity" := by
    intro same
    have chars := congrArg String.toList same
    rw [String.toList_ofList, head] at chars
    have first : c = 'I' := (cons.inj chars).1
    exact other_char kind (by decide) first
  have literal := unsignedLiteral_body nonempty numeric tail
  have bare : signed (body n ++ rest) = (false, body n ++ rest) := by
    rw [head]
    have minus : c ≠ '-' := other_char kind (by decide)
    have plus : c ≠ '+' := other_char kind (by decide)
    simp [signed, minus, plus]
  unfold decimalLiteral
  rw [text_eq, signedScaled, ← literal]
  cases sign : n.sign with
  | unsigned =>
    rw [Sign.text, nil_append, bare]
    simp [-String.ofList_append, finite]
  | plus | minus => simp [-String.ofList_append, Sign.text, signed, finite]

theorem second_char (numeric : (n.whole ++ n.fraction).all Char.isDigit) (tail : Tail rest) {d : Char}
    {more : List Char} (same : n.text ++ rest = '0' :: d :: more) : d ∉ ['x', 'X', 'o', 'O', 'b', 'B'] := by
  have chars := body_char numeric
  have some := body_ne_nil nonempty
  rw [text_eq] at same
  intro radix
  have letter : ¬ (d.isDigit = true ∨ d = '.') := by
    simp only [mem_cons, not_mem_nil, or_false] at radix
    rcases radix with rfl | rfl | rfl | rfl | rfl | rfl <;> decide
  cases sign : n.sign with
  | plus | minus => simp [sign, Sign.text] at same
  | unsigned =>
    rw [sign, Sign.text, nil_append] at same
    cases shape : body n with
    | nil => exact some shape
    | cons c after =>
      rw [shape, cons_append, cons.injEq] at same
      cases after with
      | nil =>
        have next : rest = d :: more := same.2
        have other := (tail d (by simp [next])).2
        exact other (mem_cons_of_mem _ radix)
      | cons e last =>
        rw [cons_append, cons.injEq] at same
        apply letter
        rw [← same.2.1]
        exact chars e (by simp [shape])

theorem text_ne_nil : n.text ++ rest ≠ [] := by
  intro empty
  have none := (append_eq_nil_iff.mp (append_eq_nil_iff.mp empty).1).2
  exact body_ne_nil nonempty none

theorem toNumber_text (numeric : (n.whole ++ n.fraction).all Char.isDigit) (tail : Tail rest)
    (black : Black (n.text ++ rest)) :
    toNumber (String.ofList (n.text ++ rest)) = signedScaled n (exponentPart rest) := by
  have second {d : Char} {more : List Char} := @second_char n rest nonempty numeric tail d more
  unfold toNumber
  rw [trim_black black, String.toList_ofList]
  split
  · rename_i empty
    exact absurd empty (text_ne_nil nonempty)
  · rename_i hex
    exact absurd (by simp) (second hex)
  · rename_i hex
    exact absurd (by simp) (second hex)
  · rename_i octal
    exact absurd (by simp) (second octal)
  · rename_i octal
    exact absurd (by simp) (second octal)
  · rename_i bits
    exact absurd (by simp) (second bits)
  · rename_i bits
    exact absurd (by simp) (second bits)
  · exact decimalLiteral_text nonempty numeric tail

end

theorem near_negate {e x : ℚ} {m : Number} (near : Number.Near e x m) : Number.Near e (-x) (negate m) := by
  obtain ⟨p, rfl, close⟩ := near
  apply Number.near_finite.mpr
  rw [neg_sub_neg, abs_sub_comm]
  exact close

theorem signedScaled_near (n : Numeral) (e : Int) (range : |n.value * 10 ^ e| ≤ Number.large) :
    Number.Near (|n.value * 10 ^ e| * Number.ulp + Number.tiny) (n.value * 10 ^ e) (signedScaled n (some e)) := by
  have size : n.value * 10 ^ e = n.sign.factor *
      ((decimal (n.whole ++ n.fraction) : ℚ) * 10 ^ (e - n.fraction.length)) := by
    rw [Numeral.value, zpow_sub₀ (by norm_num), zpow_natCast]
    ring
  have absolute : |n.value * 10 ^ e| =
      |(decimal (n.whole ++ n.fraction) : ℚ) * 10 ^ (e - n.fraction.length)| := by
    rw [size]
    cases n.sign <;> simp [Sign.factor]
  rw [absolute] at range ⊢
  have near := Number.nearest_near range
  rw [size, signedScaled]
  cases sign : n.sign with
  | minus =>
    rw [Sign.factor, neg_one_mul]
    exact near_negate near
  | _ =>
    rw [Sign.factor, one_mul]
    · exact near
    · exact Sign.noConfusion

end Numerals

section Suffixes

theorem tail_nil : Tail [] := by
  intro c head
  cases head

theorem tail_suffix (s : Suffix) : Tail s.text := by
  intro c head
  cases s with
  | none => cases head
  | exponent e =>
    have letter : c = 'e' ∨ c = 'E' := by
      cases upper : e.upper with
      | true => simpa [Suffix.text, Exponent.text, upper, eq_comm] using Or.inr head
      | false => simpa [Suffix.text, Exponent.text, upper, eq_comm] using Or.inl head
    rcases letter with rfl | rfl <;> decide
  | _ => cases head; decide

variable {ds : List Char}

theorem black_digits (numeric : ds.all Char.isDigit) : Black ds :=
  fun c mem => digit_black (all_eq_true.mp numeric c mem)

theorem black_append {cs : List Char} (first : Black cs) (second : Black ds) : Black (cs ++ ds) := by
  intro c mem
  apply (mem_append.mp mem).elim
  · exact first c
  · exact second c

theorem black_sign (s : Sign) : Black s.text := by
  apply Black.of_all
  cases s <;> decide

theorem black_suffix (s : Suffix) : Black s.text := by
  cases s with
  | exponent e =>
    have letter : Black [if e.upper then 'E' else 'e'] := by
      apply Black.of_all
      cases e.upper <;> decide
    exact black_append letter (black_append (black_sign e.sign) (black_digits e.numeric))
  | _ => exact Black.of_all (by decide)

theorem black_numeral {n : Numeral} (numeric : (n.whole ++ n.fraction).all Char.isDigit) : Black n.text := by
  apply black_append (black_sign n.sign)
  intro c mem
  apply (body_char numeric c mem).elim
  · exact digit_black
  · rintro rfl
    decide

/- the exponent that stands after the number, `none` when a unit does -/
def exponentOf : Suffix → Option Int
  | .none => some 0
  | .exponent e => some e.value
  | _ => none

theorem signed_digits (s : Sign) (nonempty : ds ≠ []) (numeric : ds.all Char.isDigit) :
    signed (s.text ++ ds) = (decide (s = .minus), ds) := by
  cases s with
  | unsigned =>
    obtain ⟨c, more, rfl⟩ := exists_cons_of_ne_nil nonempty
    have minus : c ≠ '-' := by
      rintro rfl
      contradiction
    have plus : c ≠ '+' := by
      rintro rfl
      contradiction
    simp [Sign.text, signed, minus, plus]
  | _ => rfl

theorem exponentPart_suffix (s : Suffix) : exponentPart s.text = exponentOf s := by
  cases s with
  | exponent e =>
    rw [Suffix.text, Exponent.text, exponentPart, signed_digits e.sign e.nonempty e.numeric]
    simp [e.nonempty, e.numeric, exponentOf, Exponent.value]
  | _ => rfl

theorem endsWith_last {cs ending : List Char} {c d : Char} (last : cs.getLast? = some c)
    (other : c ≠ d) : endsWith (String.ofList cs) (String.ofList (ending ++ [d])) = false := by
  rw [endsWith, String.toList_ofList, String.toList_ofList]
  apply Bool.eq_false_iff.mpr
  intro suffix
  obtain ⟨before, same⟩ := isSuffixOf_iff_suffix.mp suffix
  rw [← same, ← append_assoc, getLast?_concat] at last
  exact other (some.inj last).symm

theorem last_char {q : Quantity} (bare : exponentOf q.suffix ≠ none) :
    ∃ c, (q.numeral.text ++ q.suffix.text).getLast? = some c ∧ (c.isDigit = true ∨ c = '.') := by
  cases suffix : q.suffix with
  | none =>
    have some := body_ne_nil q.nonempty
    refine ⟨(body q.numeral).getLast some, ?_, ?_⟩
    · rw [Suffix.text, append_nil, text_eq, getLast?_append_of_ne_nil _ some]
      exact getLast?_eq_some_getLast some
    · exact body_char q.numeric _ (getLast_mem some)
  | exponent e =>
    refine ⟨e.digits.getLast e.nonempty, ?_, ?_⟩
    · rw [Suffix.text, Exponent.text, getLast?_append_of_ne_nil _ (cons_ne_nil _ _),
        ← cons_append, getLast?_append_of_ne_nil _ e.nonempty]
      exact getLast?_eq_some_getLast e.nonempty
    · exact .inl (all_eq_true.mp e.numeric _ (getLast_mem e.nonempty))
  | _ => simp [suffix, exponentOf] at bare

theorem endsWith_unit (q : Quantity) {u : Suffix} (unit : u ∈ [Suffix.nano, .milli, .gibi, .mebi, .kibi]) :
    endsWith q.text (String.ofList u.text) = decide (q.suffix = u) := by
  by_cases bare : exponentOf q.suffix = none
  · unfold endsWith Quantity.text
    rw [String.toList_ofList]
    simp only [mem_cons, not_mem_nil, or_false] at unit
    cases suffix : q.suffix with
    | none | exponent e => simp [suffix, exponentOf] at bare
    | _ =>
      rcases unit with rfl | rfl | rfl | rfl | rfl <;>
        simp [Suffix.text, isSuffixOf, isPrefixOf]
  · obtain ⟨c, last, kind⟩ := last_char bare
    have other : q.suffix ≠ u := by
      rintro rfl
      simp only [mem_cons, not_mem_nil, or_false] at unit
      rcases unit with same | same | same | same | same <;> simp [same, exponentOf] at bare
    rw [decide_eq_false other]
    simp only [mem_cons, not_mem_nil, or_false] at unit
    rcases unit with rfl | rfl | rfl | rfl | rfl
    · exact @endsWith_last _ [] _ _ last (other_char kind (by decide))
    · exact @endsWith_last _ [] _ _ last (other_char kind (by decide))
    · exact @endsWith_last _ ['G'] _ _ last (other_char kind (by decide))
    · exact @endsWith_last _ ['M'] _ _ last (other_char kind (by decide))
    · exact @endsWith_last _ ['K'] _ _ last (other_char kind (by decide))

theorem trim_text (q : Quantity) : trim q.text = q.text :=
  trim_black (black_append (black_numeral q.numeric) (black_suffix q.suffix))

theorem toNumber_quantity (q : Quantity) : toNumber q.text = signedScaled q.numeral (exponentOf q.suffix) := by
  rw [← exponentPart_suffix]
  exact toNumber_text q.nonempty q.numeric (tail_suffix q.suffix)
    (black_append (black_numeral q.numeric) (black_suffix q.suffix))

theorem toNumber_dropEnd (q : Quantity) :
    toNumber (dropEnd q.text q.suffix.text.length) = signedScaled q.numeral (some 0) := by
  have number := @toNumber_text q.numeral [] q.nonempty q.numeric tail_nil (by simpa using black_numeral q.numeric)
  rw [append_nil] at number
  rw [dropEnd, Quantity.text, String.toList_ofList, length_append, Nat.add_sub_cancel, take_left, number]
  rfl

end Suffixes

end HostingPlatform.ResourceQuantities
