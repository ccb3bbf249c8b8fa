import HostingPlatform.Comparison
import HostingPlatform.Js.Rounding
import HostingPlatform.TenantLifecycle.HookOrder

/-! The comparison of two versions, by which the newest one is found. -/
namespace HostingPlatform.Deployments

open List Comparison Js SignType
open TenantLifecycle (Collates composedCompare composedCompare_collates)

def strip (v : String) : String :=
  match v.toList with
  | 'v' :: rest | 'V' :: rest => String.ofList rest
  | _ => v

def segments (v : String) : List String := split '.' (strip v)

/- /^\d+$/ -/
def isDigits (segment : String) : Bool := !segment.toList.isEmpty && segment.toList.all Char.isDigit

/- the double of some digits is an integer unless it is infinite -/
def integer (segment : String) : Option ℚ :=
  match isDigits segment, Number.nearest (decimal segment.toList) with
  | true, .finite num => some num
  | _, _ => none

section

variable (localeCompare : String → String → Int)

/- `none` is past the last segment. The difference of two doubles has the sign that it has here, where it is exact. -/
def compareSegments (a b : Option String) : ℚ :=
  let segA := a.getD "0"
  let segB := b.getD "0"
  match integer segA, integer segB with
  | some numA, some numB => numA - numB
  | _, _ => if a = none then 1 else if b = none then -1 else localeCompare segA segB

def compareVersions (a b : String) : ℚ := inAll (compareSegments localeCompare) (segments a) (segments b)

def latest (versions : List String) : Option String :=
  (versions.insertionSort (fun a b => compareVersions localeCompare b a ≤ 0)).head?

/- what some digits stand for, as numbers without a bound -/
def compareValues (a b : Option String) : ℚ :=
  decimal (a.getD "0").toList - decimal (b.getD "0").toList

def Release (v : String) : Prop := ∀ s ∈ segments v, isDigits s = true

variable (given : String → Prop)

def Made (v : String) : Prop := ∀ s ∈ segments v, given s

/-- What is asked of the comparison, of the versions that are made of given segments. -/
structure Orders : Prop where
  consistent : Consistent (compareVersions localeCompare) (Made given)
  numeric : ∀ a b, Made given a → Made given b → Release a → Release b →
    sign (compareVersions localeCompare a b) = sign (inAll compareValues (segments a) (segments b))
  prerelease : ∀ release suffix, Made given release → Release release → Made given (release ++ "-" ++ suffix) →
    compareVersions localeCompare (release ++ "-" ++ suffix) release < 0
  newest : ∀ versions versions', (∀ v ∈ versions, Made given v) → versions.Perm versions' →
    ∀ v ∈ latest localeCompare versions, ∀ v' ∈ latest localeCompare versions', compareVersions localeCompare v v' = 0

/-- The doubles tell the digits apart, and every text comes before all digits. -/
structure Ranked : Prop where
  finite : ∀ d, given d → isDigits d = true → ∃ num, integer d = some num
  exact : ∀ d e, given d → given e → isDigits d = true → isDigits e = true → integer d = integer e →
    decimal d.toList = decimal e.toList
  below : ∀ t d, given t → given d → isDigits t = false → isDigits d = true → localeCompare t d < 0

end

section proofs

variable {localeCompare : String → String → Int} {given : String → Prop} {a b c : Option String} {d t v x : String}
  {num : ℚ}

theorem integer_some : integer d = some num ↔ isDigits d = true ∧ Number.nearest (decimal d.toList) = .finite num := by
  unfold integer
  split
  · rename_i digits read
    simp [digits, read]
  · rename_i other
    refine ⟨nofun, fun ⟨digits, read⟩ => (other _ digits read).elim⟩

theorem integer_text (text : isDigits t = false) : integer t = none := by
  unfold integer
  rw [text]

theorem integer_zero : integer "0" = some 0 := integer_some.mpr ⟨by decide +kernel, by decide +kernel⟩

theorem decimal_zero : decimal ['0'] = 0 := rfl

theorem integer_one : integer "1" = some 1 := integer_some.mpr ⟨by decide +kernel, by decide +kernel⟩

theorem integer_mono {e : String} {num' : ℚ} (read : integer d = some num) (read' : integer e = some num')
    (le : decimal d.toList ≤ decimal e.toList) : num ≤ num' := by
  have order := Number.nearest_mono (Nat.cast_le (α := ℚ) |>.mpr le)
  rw [(integer_some.mp read).2, (integer_some.mp read').2] at order
  exact of_decide_eq_true order

theorem Collates.neg_iff (collates : Collates localeCompare) (s t : String) :
    localeCompare s t < 0 ↔ 0 < localeCompare t s := by
  rw [← Int.sign_eq_neg_one_iff_neg, collates.turned, ← Int.sign_eq_one_iff_pos]
  omega

theorem compare_numbers (number : integer (a.getD "0") = some num) {num' : ℚ}
    (number' : integer (b.getD "0") = some num') : compareSegments localeCompare a b = num - num' := by
  simp [compareSegments, number, number']

theorem compare_texts {s : String} (text : integer s = none ∨ integer t = none) :
    compareSegments localeCompare (some s) (some t) = localeCompare s t := by
  rcases text with text | text <;> simp [compareSegments, text]

/- the place past the last one may be met too -/
def Met (given : String → Prop) (a : Option String) : Prop := ∀ s ∈ a, given s

section ranked

variable (collates : Collates localeCompare) (ranked : Ranked localeCompare given)

include ranked in
theorem number_or_text (met : Met given a) :
    (∃ num, integer (a.getD "0") = some num) ∨ ∃ t, a = some t ∧ given t ∧ isDigits t = false := by
  match a with
  | none => exact Or.inl ⟨0, integer_zero⟩
  | some s =>
    cases digits : isDigits s with
    | true => exact Or.inl (ranked.finite s (met s rfl) digits)
    | false => exact Or.inr ⟨s, rfl, met s rfl, digits⟩

include collates ranked in
theorem text_number (madeT : given t) (text : isDigits t = false) (met : Met given b)
    (number : integer (b.getD "0") = some num) :
    compareSegments localeCompare (some t) b < 0 ∧ 0 < compareSegments localeCompare b (some t) := by
  have unread := integer_text text
  match b with
  | none => simp [compareSegments, unread, integer_zero]
  | some d =>
    have below := ranked.below t d madeT (met d rfl) text (integer_some.mp number).1
    rw [compare_texts (Or.inl unread), compare_texts (Or.inr unread)]
    exact ⟨Int.cast_lt_zero.mpr below, Int.cast_pos.mpr ((Collates.neg_iff collates t d).mp below)⟩

include collates ranked in
theorem consistent_segments : Consistent (compareSegments localeCompare) (Met given) where
  turned a b metA metB := by
    refine turned_of (fun a b metA metB => ?_) metA metB
    rcases number_or_text ranked metA with ⟨p, numberA⟩ | ⟨s, rfl, madeS, textS⟩ <;>
      rcases number_or_text ranked metB with ⟨q, numberB⟩ | ⟨t, rfl, madeT, textT⟩
    · rw [compare_numbers numberA numberB, compare_numbers numberB numberA, sub_neg, sub_pos]
    · have order := text_number collates ranked madeT textT metA numberA
      exact iff_of_false (not_lt.mpr order.2.le) (not_lt.mpr order.1.le)
    · have order := text_number collates ranked madeS textS metB numberB
      exact iff_of_true order.1 order.2
    rw [compare_texts (Or.inl (integer_text textS)), compare_texts (Or.inl (integer_text textT)),
      Int.cast_lt_zero, Int.cast_pos]
    exact Collates.neg_iff collates s t
  trans a b c metA metB metC := by
    intro le le'
    rcases number_or_text ranked metA with ⟨p, numberA⟩ | ⟨s, rfl, madeS, textS⟩ <;>
      rcases number_or_text ranked metB with ⟨q, numberB⟩ | ⟨t, rfl, madeT, textT⟩ <;>
        rcases number_or_text ranked metC with ⟨r, numberC⟩ | ⟨u, rfl, madeU, textU⟩
    · rw [compare_numbers numberA numberB] at le
      rw [compare_numbers numberB numberC] at le'
      rw [compare_numbers numberA numberC]
      linarith
    · exact absurd (text_number collates ranked madeU textU metB numberB).2 (not_lt.mpr le')
    · exact absurd (text_number collates ranked madeT textT metA numberA).2 (not_lt.mpr le)
    · exact absurd (text_number collates ranked madeT textT metA numberA).2 (not_lt.mpr le)
    · exact (text_number collates ranked madeS textS metC numberC).1.le
    · exact absurd (text_number collates ranked madeU textU metB numberB).2 (not_lt.mpr le')
    · exact (text_number collates ranked madeS textS metC numberC).1.le
    have texts := integer_text textS
    have texts' := integer_text textT
    rw [compare_texts (Or.inl texts), Int.cast_nonpos] at le ⊢
    rw [compare_texts (Or.inl texts'), Int.cast_nonpos] at le'
    exact collates.trans s t u le le'

include ranked in
theorem sign_numbers (metA : Met given a) (metB : Met given b) (digitsA : ∀ s ∈ a, isDigits s = true)
    (digitsB : ∀ s ∈ b, isDigits s = true) : sign (compareSegments localeCompare a b) = sign (compareValues a b) := by
  have read : ∀ a : Option String, Met given a → (∀ s ∈ a, isDigits s = true) →
      ∃ num, integer (a.getD "0") = some num := by
    intro a met digits
    rcases number_or_text ranked met with number | ⟨t, rfl, _, text⟩
    · exact number
    · exact absurd (digits t rfl) (by simp [text])
  have less : ∀ a b : Option String, Met given a → Met given b → (∀ s ∈ a, isDigits s = true) →
      (∀ s ∈ b, isDigits s = true) → ∀ p q, integer (a.getD "0") = some p → integer (b.getD "0") = some q →
      decimal (a.getD "0").toList < decimal (b.getD "0").toList → p < q := by
    intro a b metA metB digitsA digitsB p q readA readB lt
    refine (integer_mono readA readB lt.le).lt_of_ne ?_
    rintro rfl
    match a, b with
    | _, none => exact absurd lt (Nat.not_lt_zero _)
    | none, some e =>
      obtain rfl : 0 = p := Option.some.inj (integer_zero.symm.trans readA)
      exact absurd (integer_mono integer_one readB lt) (by norm_num)
    | some d, some e =>
      exact lt.ne (ranked.exact d e (metA d rfl) (metB e rfl) (digitsA d rfl) (digitsB e rfl)
        (readA.trans readB.symm))
  obtain ⟨p, readA⟩ := read a metA digitsA
  obtain ⟨q, readB⟩ := read b metB digitsB
  rw [compare_numbers readA readB, compareValues]
  rcases lt_trichotomy (decimal (a.getD "0").toList) (decimal (b.getD "0").toList) with lt | same | gt
  · rw [sign_neg (sub_neg.mpr (less a b metA metB digitsA digitsB p q readA readB lt)),
      sign_neg (sub_neg.mpr (Nat.cast_lt.mpr lt))]
  · have alike := (integer_mono readA readB same.le).antisymm (integer_mono readB readA same.ge)
    rw [alike, same, sub_self, sub_self]
  · rw [sign_pos (sub_pos.mpr (less b a metB metA digitsB digitsA q p readB readA gt)),
      sign_pos (sub_pos.mpr (Nat.cast_lt.mpr gt))]

end ranked

theorem strip_append {y : String} (some : x.toList ≠ []) : (strip (x ++ y)).toList = (strip x).toList ++ y.toList := by
  cases chars : x.toList with
  | nil => exact absurd chars some
  | cons c rest =>
    unfold strip
    rw [String.toList_append, chars]
    by_cases v : c = 'v' ∨ c = 'V'
    · rcases v with rfl | rfl <;> simp
    · obtain ⟨notV, notBigV⟩ := not_or.mp v
      simp [notV, notBigV]

theorem splitOn_suffix (cs ds : List Char) : ∃ front last u rest, cs.splitOn '.' = front ++ [last] ∧
    (cs ++ '-' :: ds).splitOn '.' = front ++ (last ++ '-' :: u) :: rest := by
  induction cs with
  | nil =>
    obtain ⟨u, rest, found⟩ := exists_cons_of_ne_nil (splitOn_ne_nil '.' ds)
    exact ⟨[], [], u, rest, rfl, by simp [splitOn_cons_eq_if_modifyHead, found]⟩
  | cons c cs ih =>
    obtain ⟨front, last, u, rest, before, after⟩ := ih
    rw [cons_append, splitOn_cons_eq_if_modifyHead, splitOn_cons_eq_if_modifyHead, before, after]
    split
    · exact ⟨[] :: front, last, u, rest, rfl, rfl⟩
    match front with
    | [] => exact ⟨[], c :: last, u, rest, rfl, rfl⟩
    | f :: front => exact ⟨(c :: f) :: front, last, u, rest, rfl, rfl⟩

theorem segments_suffix {release : String} (suffix : String) (some : release.toList ≠ []) : ∃ front last u rest,
    segments release = front ++ [last] ∧ segments (release ++ "-" ++ suffix) = front ++ u :: rest ∧
      isDigits u = false := by
  obtain ⟨front, last, u, rest, before, after⟩ := splitOn_suffix (strip release).toList suffix.toList
  have chars : (strip (release ++ "-" ++ suffix)).toList = (strip release).toList ++ '-' :: suffix.toList := by
    rw [String.append_assoc, strip_append some]
    simp
  refine ⟨front.map String.ofList, String.ofList last, String.ofList (last ++ '-' :: u), rest.map String.ofList,
    ?_, ?_, ?_⟩
  · simp [segments, split, before]
  · simp [segments, split, chars, after]
  · simp [isDigits]

theorem orders_of_ranked (collates : Collates localeCompare) (ranked : Ranked localeCompare given) :
    Orders localeCompare given := by
  have consistent := consistent_segments collates ranked
  have missing : Met given none := nofun
  have met : ∀ {v : String}, Made given v → ∀ s ∈ segments v, Met given (some s) := by
    rintro v made s mem _ ⟨⟩
    exact made s mem
  have versions : Consistent (compareVersions localeCompare) (Made given) :=
    ⟨fun a b madeA madeB => (consistent.inAll missing).turned _ _ (met madeA) (met madeB),
      fun a b c madeA madeB madeC => (consistent.inAll missing).trans _ _ _ (met madeA) (met madeB) (met madeC)⟩
  refine ⟨versions, fun a b madeA madeB releaseA releaseB => ?_, fun release suffix made digits made' => ?_,
    fun rows rows' made perm v first v' first' => versions.greatest made perm first first'⟩
  · refine sign_inPlaces (fun a => Met given a ∧ ∀ s ∈ a, isDigits s = true) ⟨missing, nofun⟩ ?_ ?_ ?_
    · exact fun a b metA metB => sign_numbers ranked metA.1 metB.1 metA.2 metB.2
    · exact fun s mem => ⟨met madeA s mem, by rintro _ ⟨⟩; exact releaseA s mem⟩
    · exact fun s mem => ⟨met madeB s mem, by rintro _ ⟨⟩; exact releaseB s mem⟩
  have some : release.toList ≠ [] := by
    intro empty
    have only : segments release = [""] := by simp [segments, strip, split, String.toList_eq_nil_iff.mp empty]
    exact absurd (digits "" (only ▸ mem_singleton_self _)) (by decide)
  obtain ⟨front, last, u, rest, before, after, text⟩ := segments_suffix suffix some
  have numbers : ∀ s ∈ front, compareSegments localeCompare (.some s) (.some s) = 0 := fun s mem =>
    consistent.self (met made s (before ▸ mem_append_left _ mem))
  have isLast : last ∈ segments release := before ▸ mem_append_right _ mem_cons_self
  obtain ⟨num, number⟩ := ranked.finite last (made last isLast) (digits last isLast)
  have madeU := made' u (after ▸ mem_append_right _ mem_cons_self)
  have lower := (text_number collates ranked madeU text (met made last isLast) number).1
  rw [compareVersions, before, after, inAll, show max (front ++ u :: rest).length (front ++ [last]).length =
    front.length + (rest.length + 1) by simp, inPlaces_append numbers, inPlaces]
  simpa [lower.ne] using lower

theorem strip_digits (digits : isDigits d = true) : d.toList ≠ [] ∧ strip d = d := by
  cases chars : d.toList with
  | nil => simp [isDigits, chars] at digits
  | cons c rest =>
    refine ⟨nofun, ?_⟩
    have digit : c.isDigit = true := by
      simp only [isDigits, chars, Bool.and_eq_true, all_cons] at digits
      exact digits.2.1
    unfold strip
    rw [chars]
    split <;> simp_all

theorem segments_one (digits : isDigits d = true) (free : '.' ∉ d.toList) : segments d = [d] := by
  rw [segments, (strip_digits digits).2, split, splitOn_eq_singleton free]
  simp

theorem segments_two (digits : isDigits d = true) (free : '.' ∉ d.toList) (free' : '.' ∉ t.toList) :
    segments (d ++ "." ++ t) = [d, t] := by
  have chars : (strip (d ++ "." ++ t)).toList = d.toList ++ '.' :: t.toList := by
    rw [String.append_assoc, strip_append (strip_digits digits).1, (strip_digits digits).2]
    simp
  rw [segments, split, chars, splitOn_append_cons_self, splitOn_eq_singleton free, splitOn_eq_singleton free']
  simp

theorem ranked_of_orders (collates : Collates localeCompare) (dotless : ∀ s, given s → '.' ∉ s.toList)
    (orders : Orders localeCompare given) : Ranked localeCompare given := by
  have one : ∀ {d}, given d → isDigits d = true → segments d = [d] :=
    fun made digits => segments_one digits (dotless _ made)
  have two : ∀ {d t}, given d → isDigits d = true → given t → segments (d ++ "." ++ t) = [d, t] :=
    fun made digits made' => segments_two digits (dotless _ made) (dotless _ made')
  have made₁ : ∀ {d}, given d → isDigits d = true → Made given d := by
    intro d made digits s mem
    rw [one made digits, mem_singleton] at mem
    exact mem ▸ made
  have made₂ : ∀ {d t}, given d → isDigits d = true → given t → Made given (d ++ "." ++ t) := by
    intro d t made digits made' s mem
    rw [two made digits made'] at mem
    rcases mem_pair.mp mem with rfl | rfl
    · exact made
    · exact made'
  have same : ∀ s, localeCompare s s = 0 := fun s => Int.sign_eq_zero_iff_zero.mp (by have := collates.turned s s; omega)
  have alike : ∀ {d num}, integer d = some num → compareSegments localeCompare (some d) (some d) = 0 := by
    intro d num number
    simp [compareSegments, number]
  have past : ∀ {d num}, integer d = some num → compareSegments localeCompare none (some d) = -num := by
    intro d num number
    simp [compareSegments, number, integer_zero]
  have finite : ∀ d, given d → isDigits d = true → ∃ num, integer d = some num := by
    intro d made digits
    by_contra infinite
    have none : integer d = none := Option.eq_none_iff_forall_ne_some.mpr (not_exists.mp infinite)
    have pos : 0 < decimal d.toList := by
      refine Nat.pos_of_ne_zero (fun zero => infinite ⟨0, integer_some.mpr ⟨digits, ?_⟩⟩)
      rw [zero]
      exact (integer_some.mp integer_zero).2
    have signs := orders.numeric d (d ++ "." ++ d) (made₁ made digits) (made₂ made digits made)
      (by simpa [Release, one made digits] using digits) (by simpa [Release, two made digits made] using digits)
    rw [compareVersions, one made digits, two made digits made, inAll_cons (by simp [compareSegments, none, same]),
      inAll_cons (by simp [compareValues]), inAll_one rfl, inAll_one rfl] at signs
    have below : sign (-(decimal d.toList : ℚ)) = -1 := sign_neg (neg_lt_zero.mpr (Nat.cast_pos.mpr pos))
    simp [compareSegments, none, compareValues, decimal_zero, below] at signs
  refine ⟨finite, fun d e madeD madeE digitsD digitsE equal => ?_, fun t d madeT madeD text digits => ?_⟩
  · obtain ⟨num, number⟩ := finite d madeD digitsD
    have signs := orders.numeric d e (made₁ madeD digitsD) (made₁ madeE digitsE)
      (by simpa [Release, one madeD digitsD] using digitsD) (by simpa [Release, one madeE digitsE] using digitsE)
    have level : compareSegments localeCompare (some d) (some e) = 0 := by simp [compareSegments, number, ← equal]
    simp only [compareVersions, one madeD digitsD, one madeE digitsE, inAll_one, length_singleton, max_self,
      head?_cons, level, compareValues] at signs
    rw [sign_zero, eq_comm, sign_eq_zero_iff] at signs
    exact Nat.cast_injective (sub_eq_zero.mp signs)
  · obtain ⟨num, number⟩ := finite d madeD digits
    have unread := integer_text text
    have first : compareVersions localeCompare (d ++ "." ++ t) d < 0 := by
      rw [compareVersions, two madeD digits madeT, one madeD digits, inAll_cons (alike number), inAll_one rfl]
      simp [compareSegments, unread]
    have second : compareVersions localeCompare d (d ++ "." ++ d) ≤ 0 := by
      rw [compareVersions, one madeD digits, two madeD digits madeD, inAll_cons (alike number), inAll_one rfl]
      exact (past number).trans_le (neg_nonpos.mpr (integer_mono integer_zero number (Nat.zero_le _)))
    have third := orders.consistent.neg_trans (made₂ madeD digits madeT) (made₁ madeD digits)
      (made₂ madeD digits madeD) first second
    rw [compareVersions, two madeD digits madeT, two madeD digits madeD, inAll_cons (alike number), inAll_one rfl]
      at third
    exact Int.cast_lt_zero.mp ((compare_texts (.inl unread)).symm.trans_lt third)

end proofs

/-- The versions made of given segments are ordered as they should be if and only if the doubles tell their digits
apart, none of them infinite, and every text among them comes before all digits. -/
theorem compareVersions_orders {localeCompare : String → String → Int} (collates : Collates localeCompare)
    {given : String → Prop} (dotless : ∀ s, given s → '.' ∉ s.toList) :
    Orders localeCompare given ↔ Ranked localeCompare given :=
  ⟨ranked_of_orders collates dotless, orders_of_ranked collates⟩

theorem releases_ordered : Orders composedCompare (fun s => isDigits s = true ∧ decimal s.toList < 9007199254740992) := by
  refine (compareVersions_orders composedCompare_collates (fun s made dot => ?_)).mpr ⟨?_, ?_, ?_⟩
  · have digits := (Bool.and_eq_true _ _ ▸ made.1 : _ ∧ _).2
    exact absurd (all_eq_true.mp digits '.' dot) (by decide)
  · exact fun d made digits => ⟨_, integer_some.mpr ⟨digits, Number.nearest_nat made.2⟩⟩
  · intro d e madeD madeE digitsD digitsE alike
    have read := (integer_some.mpr ⟨digitsD, Number.nearest_nat madeD.2⟩).symm.trans
      (alike.trans (integer_some.mpr ⟨digitsE, Number.nearest_nat madeE.2⟩))
    exact Nat.cast_injective (Option.some.inj read)
  · exact fun t d made _ text => absurd made.1 (by simp [text])

/-- A pre-release that is greater than its release, and three versions each of which is less than the next. -/
theorem prerelease_above : 0 < compareVersions composedCompare "1.0.0-rc1" "1.0.0" ∧
    compareVersions composedCompare "9" "10" < 0 ∧ compareVersions composedCompare "10" "1a" < 0 ∧
    compareVersions composedCompare "1a" "9" < 0 := by
  decide +kernel

end HostingPlatform.Deployments
