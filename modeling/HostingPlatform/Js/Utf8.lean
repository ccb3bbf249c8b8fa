import HostingPlatform.Js.Text
import Mathlib.Data.List.Infix

/-! The bytes of a text, `Buffer.from(s)`, and the text of bytes, `buffer.toString()`. -/
namespace HostingPlatform.Js

open List

def encode (s : List Char) : List UInt8 := s.flatMap String.utf8EncodeChar

def isContinuation (b : UInt8) : Bool := 0x80 ≤ b && b ≤ 0xBF

/- whether a character of three or four bytes can go on like that -/
def goesOn (b c : UInt8) : Bool :=
  0xE0 ≤ b && b ≤ 0xF4 && (if b = 0xE0 then 0xA0 else if b = 0xF0 then 0x90 else 0x80) ≤ c &&
    c ≤ (if b = 0xED then 0x9F else if b = 0xF4 then 0x8F else 0xBF)

/- the bytes after the first one of a character that breaks off -/
def broken (b : UInt8) : List UInt8 → Nat
  | c :: rest => if goesOn b c then if 0xF0 ≤ b && rest.head?.any isContinuation then 2 else 1 else 0
  | [] => 0

/- the first bytes have been read; U+FFFD stands for a character that breaks off -/
def decodeFrom : Nat → List UInt8 → List Char
  | _, [] => []
  | n + 1, _ :: rest => decodeFrom n rest
  | 0, b :: rest =>
    match (b :: rest).toByteArray.utf8DecodeChar? 0 with
    | some c => c :: decodeFrom (c.utf8Size - 1) rest
    | none => '\uFFFD' :: decodeFrom (broken b rest) rest

def decode (bytes : List UInt8) : List Char := decodeFrom 0 bytes

/-- How a text was read from bytes. -/
inductive Decoded : List UInt8 → List Char → Prop
  | nil : Decoded [] []
  | char {l : List UInt8} {s : List Char} (c : Char) : Decoded l s → Decoded (String.utf8EncodeChar c ++ l) (c :: s)
  | broken {l : List UInt8} {s : List Char} (front : List UInt8) : front.length ≤ 3 → Decoded l s →
    Decoded (front ++ l) ('\uFFFD' :: s)

variable {l m : List UInt8} {s t : List Char} {c d : Char}

theorem decodeFrom_drop (n : Nat) (l : List UInt8) : decodeFrom n l = decode (l.drop n) := by
  induction l generalizing n with
  | nil => simp [decode, decodeFrom]
  | cons b rest ih =>
    cases n with
    | zero => rfl
    | succ n => exact ih n

theorem decodeChar_append (c : Char) (l : List UInt8) :
    (String.utf8EncodeChar c ++ l).toByteArray.utf8DecodeChar? 0 = some c := by
  rw [List.toByteArray_append]
  exact ByteArray.utf8DecodeChar?_utf8EncodeChar_append

theorem eq_append_of_decodeChar (read : l.toByteArray.utf8DecodeChar? 0 = some c) :
    ∃ rest, l = String.utf8EncodeChar c ++ rest := by
  obtain ⟨rest, same⟩ := ByteArray.exists_of_utf8DecodeChar?_eq_some read
  refine ⟨rest.data.toList, ?_⟩
  simpa using congrArg (fun b : ByteArray => b.data.toList) same

theorem utf8EncodeChar_ne_nil (c : Char) : String.utf8EncodeChar c ≠ [] := by
  rw [← length_pos_iff, String.length_utf8EncodeChar]
  exact c.utf8Size_pos

theorem decode_char_append (c : Char) (l : List UInt8) : decode (String.utf8EncodeChar c ++ l) = c :: decode l := by
  obtain ⟨b, rest, chars⟩ := exists_cons_of_ne_nil (utf8EncodeChar_ne_nil c)
  have size : rest.length = c.utf8Size - 1 := by
    rw [← String.length_utf8EncodeChar, chars]
    rfl
  have read := decodeChar_append c l
  rw [chars, cons_append] at read ⊢
  simp only [decode, decodeFrom, read]
  rw [decodeFrom_drop, ← size, drop_left]
  rfl

theorem broken_le (b : UInt8) (l : List UInt8) : broken b l ≤ 2 := by
  unfold broken
  split
  · split
    · split <;> decide
    · decide
  · decide

theorem decoded (l : List UInt8) : Decoded l (decode l) := by
  match l with
  | [] => exact .nil
  | b :: rest =>
    cases read : (b :: rest).toByteArray.utf8DecodeChar? 0 with
    | some c =>
      obtain ⟨tail, same⟩ := eq_append_of_decodeChar read
      have shorter : tail.length < (b :: rest).length := by
        have := length_pos_iff.mpr (utf8EncodeChar_ne_nil c)
        rw [same, length_append]
        omega
      rw [same, decode_char_append]
      exact .char c (decoded tail)
    | none =>
      have text : decode (b :: rest) = '\uFFFD' :: decode (rest.drop (broken b rest)) := by
        simp only [decode, decodeFrom, read]
        rw [decodeFrom_drop]
        rfl
      rw [text]
      have short := broken_le b rest
      have := Decoded.broken (b :: rest.take (broken b rest))
        (by simp only [length_cons, length_take]; omega) (decoded (rest.drop (broken b rest)))
      rwa [cons_append, take_append_drop] at this
termination_by l.length
decreasing_by all_goals simp_all; try omega

theorem Decoded.append (first : Decoded l s) (second : Decoded m t) : Decoded (l ++ m) (s ++ t) := by
  induction first with
  | nil => exact second
  | char c _ ih => simpa using ih.char c
  | broken front short _ ih => simpa using ih.broken front short

theorem Decoded.length_le (decoded : Decoded l s) : l.length ≤ (encode s).length := by
  induction decoded with
  | nil => exact le_rfl
  | char c _ ih => simpa [encode] using ih
  | broken front short _ ih =>
    have three : (String.utf8EncodeChar '\uFFFD').length = 3 := rfl
    simp only [encode, flatMap_cons, length_append, three] at ih ⊢
    omega

theorem Decoded.head (decoded : Decoded l (c :: s)) (read : c ≠ '\uFFFD') : String.utf8EncodeChar c <+: l := by
  cases decoded with
  | char => exact prefix_append _ _
  | broken => contradiction

theorem Decoded.eq_nil (decoded : Decoded l []) : l = [] := by
  cases decoded
  rfl

theorem Decoded.last (decoded : Decoded l (s ++ [c])) (read : c ≠ '\uFFFD') : String.utf8EncodeChar c <:+ l := by
  generalize whole : s ++ [c] = t at decoded
  induction decoded generalizing s with
  | nil => simp at whole
  | char d rest ih =>
    cases s with
    | nil =>
      obtain ⟨rfl, rfl⟩ := cons.inj whole
      rw [rest.eq_nil, append_nil]
    | cons e s => exact (ih (cons.inj whole).2).trans (suffix_append _ _)
  | broken front _ rest ih =>
    cases s with
    | nil => exact absurd (cons.inj whole).1 read
    | cons e s => exact (ih (cons.inj whole).2).trans (suffix_append _ _)

theorem eq_of_encode_prefix (first : String.utf8EncodeChar c <+: l) (second : String.utf8EncodeChar d <+: l) : c = d := by
  obtain ⟨rest, rfl⟩ := first
  obtain ⟨rest', same⟩ := second
  have read := decodeChar_append d rest'
  rw [same, decodeChar_append] at read
  exact Option.some.inj read

theorem eq_of_encode_suffix_encode (ends : String.utf8EncodeChar c <:+ String.utf8EncodeChar d) : c = d := by
  obtain ⟨front, whole⟩ := ends
  have inside : front.length < (String.utf8EncodeChar d).length := by
    rw [← whole, length_append]
    have := length_pos_iff.mpr (utf8EncodeChar_ne_nil c)
    omega
  have first : ((String.utf8EncodeChar d)[front.length]).IsUTF8FirstByte := by
    have nonempty : 0 < (String.utf8EncodeChar c).length := length_pos_iff.mpr (utf8EncodeChar_ne_nil c)
    have here : (String.utf8EncodeChar d)[front.length] = (String.utf8EncodeChar c)[0] := by
      simp [← whole]
    rw [here]
    exact UInt8.isUTF8FirstByte_getElem_zero_utf8EncodeChar
  have none : front = [] := length_eq_zero_iff.mp (UInt8.isUTF8FirstByte_getElem_utf8EncodeChar.mp first)
  rw [none, nil_append] at whole
  exact eq_of_encode_prefix (whole ▸ prefix_rfl) prefix_rfl

theorem eq_of_encode_suffix (first : String.utf8EncodeChar c <:+ l) (second : String.utf8EncodeChar d <:+ l) : c = d := by
  rcases suffix_or_suffix_of_suffix first second with shorter | shorter
  · exact eq_of_encode_suffix_encode shorter
  · exact (eq_of_encode_suffix_encode shorter).symm

theorem last_trim {s : String} (last : (trim s).toList.getLast? = some c) : isWhite c = false := by
  rw [trim, String.toList_ofList, getLast?_reverse] at last
  have black := head?_dropWhile_not isWhite (s.toList.dropWhile isWhite).reverse
  rw [last] at black
  exact black

theorem white_read (white : isWhite c = true) : c ≠ '\uFFFD' := by
  rintro rfl
  contradiction

theorem trim_of_decoded {s : String} (decoded : Decoded (encode (trim s).toList) s.toList) : trim s = s := by
  have left : ∀ c, String.utf8EncodeChar c <:+: encode (trim s).toList → (trim s).toList ≠ [] := by
    intro c inside none
    rw [none] at inside
    exact utf8EncodeChar_ne_nil c (infix_nil.mp inside)
  refine trim_fixed (fun c mem => ?_) (fun c mem => ?_)
  · by_contra white
    rw [Bool.not_eq_false] at white
    obtain ⟨rest, same⟩ := head?_eq_some_iff.mp (Option.mem_def.mp mem)
    rw [same] at decoded
    have starts := decoded.head (white_read white)
    obtain ⟨d, tail, trimmed⟩ := exists_cons_of_ne_nil (left c starts.isInfix)
    have first : String.utf8EncodeChar d <+: encode (trim s).toList := by
      rw [trimmed]
      exact prefix_append _ _
    have black := head_trim (congrArg List.head? trimmed)
    rw [← eq_of_encode_prefix starts first, white] at black
    cases black
  · by_contra white
    rw [Bool.not_eq_false] at white
    obtain ⟨front, same⟩ := getLast?_eq_some_iff.mp (Option.mem_def.mp mem)
    rw [same] at decoded
    have ends := decoded.last (white_read white)
    obtain ⟨front', d, trimmed⟩ := (eq_nil_or_concat _).resolve_left (left c ends.isInfix)
    rw [concat_eq_append] at trimmed
    have last : String.utf8EncodeChar d <:+ encode (trim s).toList := by
      rw [trimmed, encode, flatMap_append, flatMap_singleton]
      exact suffix_append _ _
    have black := last_trim ((congrArg List.getLast? trimmed).trans getLast?_concat)
    rw [← eq_of_encode_suffix ends last, white] at black
    cases black

end HostingPlatform.Js
