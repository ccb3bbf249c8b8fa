import HostingPlatform.ResourceQuantities.Reading

/-! When the readers agree with Kubernetes. A reader counts in units of its own: what it gives is
compared in cores or bytes, up to half of the step to which it rounds, to a billionth, below which
Kubernetes keeps nothing, and to what doubles lose. -/
namespace HostingPlatform.ResourceQuantities

open List Js Quantity Number

def nano : ℚ := 1 / 10 ^ 9

def tolerance (step x : ℚ) : ℚ := step / 2 + nano + |x| / 2 ^ 50

/-- So many units are the amount `x`. -/
def Agrees (unit step x : ℚ) (n : Number) : Prop := Near (tolerance step x / unit) (x / unit) n

/-- An amount for which zero stands as well. -/
def Negligible (step x : ℚ) : Prop := |x| ≤ tolerance step x

def milli : ℚ := 1 / 1000

def Mi : ℚ := 2 ^ 20

def Gi : ℚ := 2 ^ 30

/-- The readers of a field agree with Kubernetes about a quantity. -/
def Reads (q : Quantity) : Resource → Prop
  | .cpu => Agrees 1 0 q.value (parseResourceValue q.text .cpu) ∧
      Agrees milli milli q.value (parseCpuMillis q.text)
  | .memory => Agrees Gi 0 q.value (parseResourceValue q.text .memory) ∧
      -- whole Mi, at least one
      Agrees Mi Mi (Max.max Mi q.value) (parseMemMi q.text)
  | .storage => Agrees Gi 0 q.value (parseResourceValue q.text .storage) ∧
      Agrees 1 0 q.value (parseQuantityToBytes q.text)

/- the suffixes that `parseResourceValue` tells apart, besides a decimal exponent -/
def unitsOf : Resource → List Suffix
  | .cpu => [.none, .milli, .nano]
  | _ => [.none, .kibi, .mebi, .gibi]

def Known (r : Resource) (s : Suffix) : Prop := s ∈ unitsOf r ∨ ∃ e, s = .exponent e

/-- A plain number and a unit that both readers of the field have; or an amount that is as good as
zero, since zero is what is read where a number is not seen. -/
def Readable (q : Quantity) : Resource → Prop
  | .cpu => q.numeral.Plain ∧ q.suffix ∈ [Suffix.none, .milli] ∨
      Known .cpu q.suffix ∧ Negligible milli q.value
  | .memory => q.numeral.Plain ∧ q.suffix ∈ unitsOf .memory
  | .storage => q.numeral.Plain ∧ q.suffix ∈ unitsOf .storage ∨
      Known .storage q.suffix ∧ Negligible 0 q.value

theorem two_roundings {y : ℚ} (size : 0 ≤ y) :
    (y * ulp + tiny) + (y + (y * ulp + tiny)) * ulp + tiny ≤ nano / Gi + y / 2 ^ 50 := by
  have small : tiny ≤ 1 / 2 ^ 100 := tiny_le (by omega)
  unfold ulp nano Gi
  linarith

variable {x unit step : ℚ} {m : Number} {q : Quantity} {r : Resource} {qs : List Quantity}

theorem le_large (size : x ≤ 2 ^ 200) : x ≤ large := by
  apply size.trans
  unfold large
  exact pow_le_pow_right₀ one_le_two (by omega)

theorem agrees_near {v : ℚ} (positive : 0 < unit) (most : unit ≤ Gi)
    (near : Near (nano / Gi + |v / unit| / 2 ^ 50 + step / unit / 2) (v / unit) m) : Agrees unit step v m := by
  apply near.mono
  have kept : nano / Gi ≤ nano / unit := by
    apply div_le_div_of_nonneg_left _ positive most
    unfold nano
    norm_num
  have room : tolerance step v / unit = step / unit / 2 + nano / unit + |v / unit| / 2 ^ 50 := by
    rw [tolerance, abs_div, abs_of_pos positive]
    ring
  linarith

theorem divided_agrees {d v : ℚ} (near : Near (|x| * ulp + tiny) x m) (divisor : 1 ≤ d) (least : 1 ≤ unit)
    (most : unit ≤ Gi) (same : x / d = v / unit) (range : |x| ≤ 2 ^ 100) : Agrees unit 0 v (m.divide d) := by
  have positive : 0 < d := by linarith
  have small : (|x| * ulp + tiny) / d ≤ |x| / d * ulp + tiny := by
    rw [add_div, mul_div_right_comm]
    linarith [div_le_self tiny_pos.le divisor]
  have size : (|x| + (|x| * ulp + tiny)) / d ≤ |x| / d + (|x| / d * ulp + tiny) := by
    rw [add_div]
    linarith
  have room : |x| / d + (|x| / d * ulp + tiny) ≤ 2 ^ 200 := by
    have most : |x| / d ≤ |x| := div_le_self (abs_nonneg x) divisor
    have relative : |x| / d * ulp ≤ |x| / d := by
      apply mul_le_of_le_one_right _ ulp_le_one
      exact div_nonneg (abs_nonneg x) positive.le
    have bit := tiny_le_ulp.trans ulp_le_one
    linarith
  have result := near_divide near positive size (le_large room)
  have both := @two_roundings (|x| / d) (div_nonneg (abs_nonneg x) positive.le)
  apply agrees_near (by linarith) most
  rw [← same]
  rw [zero_div, abs_div, abs_of_pos positive]
  apply result.mono
  linarith

theorem near_read (near : Near (|x| * ulp + tiny) x m) : Near (nano / Gi + |x| / 2 ^ 50) x m := by
  have both := two_roundings (abs_nonneg x)
  have again : 0 ≤ (|x| + (|x| * ulp + tiny)) * ulp := by
    have := ulp_pos
    have := tiny_pos
    positivity
  apply near.mono
  linarith [tiny_pos]

theorem read_agrees {v : ℚ} (near : Near (|x| * ulp + tiny) x m) (positive : 0 < unit) (most : unit ≤ Gi)
    (same : x = v / unit) : Agrees unit 0 v m := by
  apply agrees_near positive most
  rw [← same, zero_div, zero_div, add_zero]
  exact near_read near

theorem value_le (q : Quantity) : |q.value| ≤ 2 ^ 64 := by
  have range := q.inRange
  unfold Quantity.value
  linarith

theorem numeral_le (least : 1 / 10 ^ 9 ≤ q.suffix.multiplier) : |q.numeral.value| ≤ 2 ^ 100 := by
  have range := value_le q
  rw [Quantity.value, abs_mul, abs_of_pos q.suffix.multiplier_pos] at range
  have scaled : |q.numeral.value| * (1 / 10 ^ 9) ≤ 2 ^ 64 := by
    apply le_trans _ range
    exact mul_le_mul_of_nonneg_left least (abs_nonneg _)
  linarith

theorem near_number (least : 1 / 10 ^ 9 ≤ q.suffix.multiplier) :
    Near (|q.numeral.value| * ulp + tiny) q.numeral.value (signedScaled q.numeral (some 0)) := by
  have size := numeral_le least
  have near := signedScaled_near q.numeral 0
  rw [zpow_zero, mul_one] at near
  apply near
  apply le_large
  apply size.trans
  norm_num

theorem near_bare {e : Int} (bare : exponentOf q.suffix = some e) :
    Near (|q.value| * ulp + tiny) q.value (signedScaled q.numeral (exponentOf q.suffix)) := by
  have scale : q.suffix.multiplier = 10 ^ e := by
    cases suffix : q.suffix with
    | none | exponent x =>
      simp only [suffix, exponentOf, Option.some.injEq] at bare
      simp [← bare, Suffix.multiplier]
    | _ => simp [suffix, exponentOf] at bare
  have near := signedScaled_near q.numeral e
  rw [← scale] at near
  rw [bare]
  apply near
  apply le_large
  apply (value_le q).trans
  norm_num

theorem parseResourceValue_cpu (q : Quantity) : parseResourceValue q.text .cpu =
    if q.suffix = .nano then (toNumber (dropEnd q.text 1)).divide 1000000000
    else if q.suffix = .milli then (toNumber (dropEnd q.text 1)).divide 1000 else toNumber q.text := by
  have nano := @endsWith_unit q .nano (by decide)
  rw [show String.ofList Suffix.nano.text = "n" from rfl] at nano
  have milli := @endsWith_unit q .milli (by decide)
  rw [show String.ofList Suffix.milli.text = "m" from rfl] at milli
  simp [parseResourceValue, trim_text, nano, milli, decide_eq_true_eq]

theorem parseResourceValue_bytes (q : Quantity) (bytes : r ≠ .cpu) : parseResourceValue q.text r =
      if q.suffix = .gibi then toNumber (dropEnd q.text 2)
      else if q.suffix = .mebi then (toNumber (dropEnd q.text 2)).divide 1024
      else if q.suffix = .kibi then (toNumber (dropEnd q.text 2)).divide (1024 * 1024)
      else (toNumber q.text).divide (1024 * 1024 * 1024) := by
  have gibi := @endsWith_unit q .gibi (by decide)
  rw [show String.ofList Suffix.gibi.text = "Gi" from rfl] at gibi
  have mebi := @endsWith_unit q .mebi (by decide)
  rw [show String.ofList Suffix.mebi.text = "Mi" from rfl] at mebi
  have kibi := @endsWith_unit q .kibi (by decide)
  rw [show String.ofList Suffix.kibi.text = "Ki" from rfl] at kibi
  simp [parseResourceValue, trim_text, gibi, mebi, kibi, bytes]

theorem unit_agrees {q : Quantity} {d unit : ℚ} (least : 1 / 10 ^ 9 ≤ q.suffix.multiplier)
    (divisor : 1 ≤ d) (one : 1 ≤ unit) (most : unit ≤ Gi) (scale : q.suffix.multiplier * d = unit) :
    Agrees unit 0 q.value ((toNumber (dropEnd q.text q.suffix.text.length)).divide d) := by
  rw [toNumber_dropEnd]
  apply divided_agrees (near_number least) divisor one most _ (numeral_le least)
  rw [Quantity.value, ← scale, mul_comm q.suffix.multiplier d, mul_div_mul_right _ _ q.suffix.multiplier_pos.ne']

theorem cpu_agrees (known : Known .cpu q.suffix) : Agrees 1 0 q.value (parseResourceValue q.text .cpu) := by
  have scaled {d : ℚ} := @unit_agrees q d 1
  have bare {e : Int} (some : exponentOf q.suffix = .some e) :
      Agrees 1 0 q.value (parseResourceValue q.text .cpu) := by
    have nano : q.suffix ≠ .nano := fun same => by simp [same, exponentOf] at some
    have milli : q.suffix ≠ .milli := fun same => by simp [same, exponentOf] at some
    rw [parseResourceValue_cpu, if_neg nano, if_neg milli, toNumber_quantity]
    exact read_agrees (near_bare some) one_pos (by norm_num [Gi]) (div_one _).symm
  cases suffix : q.suffix with
  | nano =>
    rw [suffix] at scaled
    rw [parseResourceValue_cpu, suffix, if_pos rfl]
    exact scaled (by norm_num [Suffix.multiplier]) (by norm_num) le_rfl (by norm_num [Gi])
      (by norm_num [Suffix.multiplier])
  | milli =>
    rw [suffix] at scaled
    rw [parseResourceValue_cpu, suffix, if_neg (by decide), if_pos rfl]
    exact scaled (by norm_num [Suffix.multiplier]) (by norm_num) le_rfl (by norm_num [Gi])
      (by norm_num [Suffix.multiplier])
  | none | exponent e => exact bare (by rw [suffix]; rfl)
  | _ => simp [suffix, Known, unitsOf] at known

theorem units_bytes (bytes : r ≠ .cpu) : unitsOf r = [.none, .kibi, .mebi, .gibi] := by
  cases r with
  | cpu => contradiction
  | _ => rfl

theorem bytes_agree (bytes : r ≠ .cpu) (known : Known r q.suffix) :
    Agrees Gi 0 q.value (parseResourceValue q.text r) := by
  have scaled {d : ℚ} := @unit_agrees q d Gi
  have bare {e : Int} (some : exponentOf q.suffix = .some e) :
      Agrees Gi 0 q.value (parseResourceValue q.text r) := by
    have gibi : q.suffix ≠ .gibi := fun same => by simp [same, exponentOf] at some
    have mebi : q.suffix ≠ .mebi := fun same => by simp [same, exponentOf] at some
    have kibi : q.suffix ≠ .kibi := fun same => by simp [same, exponentOf] at some
    rw [parseResourceValue_bytes q bytes, if_neg gibi, if_neg mebi, if_neg kibi, toNumber_quantity]
    apply divided_agrees (near_bare some) (by norm_num) (by norm_num [Gi]) le_rfl
    · norm_num [Gi]
    · apply (value_le q).trans
      norm_num
  rw [Known, units_bytes bytes] at known
  cases suffix : q.suffix with
  | gibi =>
    have dropped := toNumber_dropEnd q
    have least : 1 / 10 ^ 9 ≤ q.suffix.multiplier := by norm_num [suffix, Suffix.multiplier]
    rw [suffix] at dropped
    rw [parseResourceValue_bytes q bytes, suffix, show 2 = Suffix.gibi.text.length from rfl, dropped]
    apply read_agrees (near_number least) (by norm_num [Gi]) le_rfl
    rw [Quantity.value, suffix]
    norm_num [Suffix.multiplier, Gi]
  | mebi =>
    rw [suffix] at scaled
    rw [parseResourceValue_bytes q bytes, suffix, if_neg (by decide), if_pos rfl]
    exact scaled (by norm_num [Suffix.multiplier]) (by norm_num) (by norm_num [Gi]) le_rfl
      (by norm_num [Suffix.multiplier, Gi])
  | kibi =>
    rw [suffix] at scaled
    rw [parseResourceValue_bytes q bytes, suffix, if_neg (by decide), if_neg (by decide), if_pos rfl]
    exact scaled (by norm_num [Suffix.multiplier]) (by norm_num) (by norm_num [Gi]) le_rfl
      (by norm_num [Suffix.multiplier, Gi])
  | none | exponent e => exact bare (by rw [suffix]; rfl)
  | _ => simp [suffix] at known

theorem parseResourceValue_nan (unknown : ¬ Known r q.suffix) : parseResourceValue q.text r = .nan := by
  have apart {u : Suffix} (unit : u ∈ unitsOf r) : q.suffix ≠ u := by
    rintro rfl
    exact unknown (.inl unit)
  have number : toNumber q.text = .nan := by
    rw [toNumber_quantity]
    have none : exponentOf q.suffix = .none := by
      cases suffix : q.suffix with
      | none =>
        apply absurd suffix (apart _)
        cases r <;> decide
      | exponent e => exact absurd (.inr ⟨e, suffix⟩) unknown
      | _ => rfl
    rw [none, signedScaled]
    split <;> rfl
  by_cases cpu : r = .cpu
  · subst cpu
    rw [parseResourceValue_cpu, if_neg (apart (by decide)), if_neg (apart (by decide)), number]
  rw [parseResourceValue_bytes q cpu, number]
  rw [units_bytes cpu] at apart
  rw [if_neg (apart (by decide)), if_neg (apart (by decide)), if_neg (apart (by decide))]
  rfl

theorem product_roundings {f : ℚ} (positive : 0 < f) (most : f ≤ 2 ^ 50) :
    (|x| * ulp + tiny) * f + (|x| + (|x| * ulp + tiny)) * f * ulp + tiny ≤ nano / Gi + |x| * f / 2 ^ 50 := by
  have small : tiny ≤ 1 / 2 ^ 200 := tiny_le (by omega)
  have size : 0 ≤ |x| * f := mul_nonneg (abs_nonneg x) positive.le
  have bit : tiny * f ≤ 1 / 2 ^ 200 * 2 ^ 50 := mul_le_mul small most positive.le (by positivity)
  unfold ulp nano Gi
  linarith

theorem near_product {f : ℚ} (near : Near (|x| * ulp + tiny) x m) (positive : 0 < f) (most : f ≤ 2 ^ 50)
    (range : |x| ≤ 2 ^ 100) : Near (nano / Gi + |x| * f / 2 ^ 50) (x * f) (m.mul (.finite f)) := by
  have relative : |x| * ulp ≤ |x| := mul_le_of_le_one_right (abs_nonneg x) ulp_le_one
  have bit := tiny_le_ulp.trans ulp_le_one
  have room : (|x| + (|x| * ulp + tiny)) * f ≤ (2 ^ 100 + (2 ^ 100 + 1)) * 2 ^ 50 := by
    apply mul_le_mul _ most positive.le (by positivity)
    linarith
  have result := near_mul near positive le_rfl (le_large (room.trans (by norm_num)))
  exact result.mono (product_roundings positive most)

section Plain

variable {q : Quantity}

theorem plain_value (plain : q.numeral.Plain) : q.numeral.value =
    (decimal (q.numeral.whole ++ q.numeral.fraction) : ℚ) / 10 ^ q.numeral.fraction.length := by
  simp [Numeral.value, plain.1, Sign.factor]

theorem plain_nonneg (plain : q.numeral.Plain) : 0 ≤ q.numeral.value := by
  rw [plain_value plain]
  positivity

theorem near_parseFloat (plain : q.numeral.Plain) (least : 1 / 10 ^ 9 ≤ q.suffix.multiplier) :
    Near (|q.numeral.value| * ulp + tiny) q.numeral.value (parseFloat q.numeral.whole q.numeral.fraction) := by
  unfold parseFloat
  rw [← plain_value plain]
  apply nearest_near
  apply le_large
  apply (numeral_le least).trans
  norm_num

theorem decimalAt_text (plain : q.numeral.Plain) : CustomDeployments.decimalAt q.text.toList =
    some (q.numeral.whole, q.numeral.fraction, q.suffix.text) := by
  rw [Quantity.text, String.toList_ofList]
  exact decimalAt_plain plain q.numeric (tail_suffix q.suffix)

theorem decimalAt_strange (strange : ¬ q.numeral.Plain) : CustomDeployments.decimalAt q.text.toList = none ∨
      CustomDeployments.decimalAt q.text.toList = some (q.numeral.whole, [], '.' :: q.suffix.text) := by
  rw [Quantity.text, String.toList_ofList]
  exact decimalAt_not_plain strange q.nonempty q.numeric (tail_suffix q.suffix)

theorem parseCpuMillis_agrees (plain : q.numeral.Plain) (unit : q.suffix ∈ [Suffix.none, .milli]) :
    Agrees milli milli q.value (parseCpuMillis q.text) := by
  simp only [mem_cons, not_mem_nil, or_false] at unit
  have least : 1 / 10 ^ 9 ≤ q.suffix.multiplier := by
    rcases unit with same | same <;> norm_num [same, Suffix.multiplier]
  have near := near_parseFloat plain least
  have size := numeral_le least
  unfold parseCpuMillis
  rw [decimalAt_text plain]
  apply agrees_near (by norm_num [milli]) (by norm_num [milli, Gi])
  rcases unit with same | same
  · have product := near_product near (by norm_num : (0 : ℚ) < (1000 : Nat)) (by norm_num) size
    have scaled : q.value / milli = q.numeral.value * (1000 : Nat) := by
      rw [Quantity.value, same, milli, one_div, div_inv_eq_mul]
      norm_num [Suffix.multiplier]
    rw [same, scaled, abs_mul]
    apply product.round.mono
    norm_num [milli]
  · have scaled : q.value / milli = q.numeral.value := by
      rw [Quantity.value, same, milli]
      norm_num [Suffix.multiplier]
    rw [same, scaled]
    apply (near_read near).round.mono
    norm_num [milli]

theorem least_bytes (unit : q.suffix ∈ [Suffix.none, .kibi, .mebi, .gibi]) : 1 / 10 ^ 9 ≤ q.suffix.multiplier := by
  simp only [mem_cons, not_mem_nil, or_false] at unit
  rcases unit with same | same | same | same <;> norm_num [same, Suffix.multiplier]

variable {s : Suffix}

theorem factor_known (unit : s ∈ [Suffix.none, .kibi, .mebi, .gibi]) :
    factor (String.ofList s.text) = some (s.multiplier / Mi) ∧
      (String.ofList s.text = "" ∨ String.ofList s.text ∈ memUnits) := by
  simp only [mem_cons, not_mem_nil, or_false] at unit
  rcases unit with rfl | rfl | rfl | rfl <;> decide +kernel

theorem parseMemMi_agrees (plain : q.numeral.Plain) (unit : q.suffix ∈ [Suffix.none, .kibi, .mebi, .gibi]) :
    Agrees Mi Mi (Max.max Mi q.value) (parseMemMi q.text) := by
  have least := least_bytes unit
  obtain ⟨known, listed⟩ := factor_known unit
  have positive : (0 : ℚ) < Mi := by norm_num [Mi]
  have most : q.suffix.multiplier / Mi ≤ 2 ^ 50 := by
    simp only [mem_cons, not_mem_nil, or_false] at unit
    rcases unit with same | same | same | same <;> norm_num [same, Suffix.multiplier, Mi]
  have product := near_product (near_parseFloat plain least)
    (div_pos q.suffix.multiplier_pos positive) most (numeral_le least)
  have scaled : q.numeral.value * (q.suffix.multiplier / Mi) = q.value / Mi := (mul_div_assoc _ _ _).symm
  have size : |q.value / Mi| ≤ |Max.max 1 (q.value / Mi)| := by
    have nonneg : 0 ≤ q.value / Mi :=
      div_nonneg (mul_nonneg (plain_nonneg plain) q.suffix.multiplier_pos.le) positive.le
    have above := le_max_right 1 (q.value / Mi)
    rw [abs_of_nonneg nonneg, abs_of_nonneg (nonneg.trans above)]
    exact above
  unfold parseMemMi
  rw [decimalAt_text plain]
  dsimp only
  rw [if_pos listed, known]
  apply agrees_near positive (by norm_num [Mi, Gi])
  rw [← max_div_div_right positive.le, div_self positive.ne']
  rw [scaled] at product
  apply product.round.max.mono
  rw [abs_of_nonneg (plain_nonneg plain)]
  linarith [le_abs_self (q.value / Mi)]

theorem binary_known (unit : s ∈ [Suffix.kibi, .mebi, .gibi]) :
    binary (String.ofList s.text) = some s.multiplier ∧ String.ofList s.text ≠ "" ∧
      String.ofList s.text ∉ inherited := by
  simp only [mem_cons, not_mem_nil, or_false] at unit
  rcases unit with rfl | rfl | rfl <;> decide +kernel

theorem letters_known (unit : s ∈ [Suffix.none, .kibi, .mebi, .gibi]) :
    s.text.dropWhile isWhite = s.text ∧ s.text.all Char.isAlpha = true := by
  simp only [mem_cons, not_mem_nil, or_false] at unit
  rcases unit with rfl | rfl | rfl | rfl <;> decide

theorem parseQuantityToBytes_agrees (plain : q.numeral.Plain) (unit : q.suffix ∈ [Suffix.none, .kibi, .mebi, .gibi]) :
    Agrees 1 0 q.value (parseQuantityToBytes q.text) := by
  have least := least_bytes unit
  have near := near_parseFloat plain least
  obtain ⟨kept, letters⟩ := letters_known unit
  unfold parseQuantityToBytes
  rw [decimalAt_text plain]
  dsimp only
  rw [kept, if_pos letters]
  rcases mem_cons.mp unit with bare | scaled
  · have none : String.ofList q.suffix.text = "" := by
      rw [bare]
      rfl
    rw [if_pos none]
    apply read_agrees near one_pos (by norm_num [Gi])
    rw [Quantity.value, bare, Suffix.multiplier, mul_one, div_one]
  · obtain ⟨known, some, own⟩ := binary_known scaled
    have most : q.suffix.multiplier ≤ 2 ^ 50 := by
      simp only [mem_cons, not_mem_nil, or_false] at scaled
      rcases scaled with same | same | same <;> norm_num [same, Suffix.multiplier]
    have product := near_product near q.suffix.multiplier_pos most (numeral_le least)
    rw [if_neg some, if_neg own, known]
    apply agrees_near one_pos (by norm_num [Gi])
    rw [div_one, zero_div, zero_div, add_zero, Quantity.value, abs_mul, abs_of_pos q.suffix.multiplier_pos]
    exact product

end Plain

section Unseen

variable {q : Quantity}

variable {s : Suffix}

theorem text_bare (none : s.text = []) : s = .none := by
  cases s with
  | none => rfl
  | exponent e => simp [Suffix.text, Exponent.text] at none
  | _ => simp [Suffix.text] at none

theorem text_milli (same : s.text = ['m']) : s = .milli := by
  cases s with
  | milli => rfl
  | exponent e =>
    have digits := e.nonempty
    simp [Suffix.text, Exponent.text, digits] at same
  | _ => simp [Suffix.text] at same

theorem parseCpuMillis_unseen (unseen : ¬ (q.numeral.Plain ∧ q.suffix ∈ [Suffix.none, .milli])) :
    parseCpuMillis q.text = 0 := by
  unfold parseCpuMillis
  by_cases plain : q.numeral.Plain
  · rw [decimalAt_text plain]
    split
    · rename_i same
      have none := text_bare (Prod.mk.inj (Prod.mk.inj (Option.some.inj same)).2).2
      exact absurd ⟨plain, by simp [none]⟩ unseen
    · rename_i same
      have unit := text_milli (Prod.mk.inj (Prod.mk.inj (Option.some.inj same)).2).2
      exact absurd ⟨plain, by simp [unit]⟩ unseen
    · rfl
  · rcases decimalAt_strange plain with none | point
    · rw [none]
    · simp [point]

theorem digit_not_alpha {c : Char} (digit : c.isDigit = true) : c.isAlpha = false := by
  have range := Ascii.isDigit_iff.mp digit
  apply Bool.eq_false_iff.mpr
  intro alpha
  have codes := (Bool.or_eq_true_iff.mp alpha).imp Ascii.isUpper_iff.mp Ascii.isLower_iff.mp
  omega

section

variable (unseen : ¬ q.numeral.Plain ∨ ∃ e, q.suffix = .exponent e)
include unseen

theorem left_over : CustomDeployments.decimalAt q.text.toList = none ∨
      ∃ whole fraction c rest, CustomDeployments.decimalAt q.text.toList =
        some (whole, fraction, c :: rest) ∧ c ∈ ['.', 'e', 'E'] ∧
        (c :: rest).all Char.isAlpha = false := by
  by_cases plain : q.numeral.Plain
  · obtain ⟨e, suffix⟩ := unseen.resolve_left (not_not_intro plain)
    have seen := decimalAt_text plain
    rw [suffix, Suffix.text] at seen
    have letter : (if e.upper then 'E' else 'e') ∈ ['.', 'e', 'E'] := by cases e.upper <;> decide
    have digit : (e.sign.text ++ e.digits).all Char.isAlpha = false := by
      obtain ⟨d, rest, digits⟩ := exists_cons_of_ne_nil e.nonempty
      have numeric := e.numeric
      rw [digits, all_cons, Bool.and_eq_true] at numeric
      simp [digits, digit_not_alpha numeric.1]
    exact .inr ⟨_, _, _, _, seen, letter, by rw [all_cons, digit, Bool.and_false]⟩
  · rcases decimalAt_strange plain with none | point
    · exact .inl none
    · exact .inr ⟨_, _, _, _, point, by decide, by simp⟩

theorem parseMemMi_unseen : parseMemMi q.text = 0 := by
  unfold parseMemMi
  rcases left_over unseen with none | ⟨whole, fraction, c, rest, seen, mark, _⟩
  · rw [none]
  have unknown : ¬ (String.ofList (c :: rest) = "" ∨ String.ofList (c :: rest) ∈ memUnits) := by
    intro listed
    have same : ∃ unit ∈ "" :: memUnits, c :: rest = unit.toList := by
      apply Exists.intro (String.ofList (c :: rest))
      exact ⟨by simpa using listed, String.toList_ofList.symm⟩
    obtain ⟨unit, mem, same⟩ := same
    have heads : ∀ unit ∈ "" :: memUnits, unit.toList.head? ∉ ['.', 'e', 'E'].map some := by
      decide
    apply heads unit mem
    rw [← same]
    exact mem_map_of_mem mark
  rw [seen]
  exact if_neg unknown

theorem parseQuantityToBytes_unseen : parseQuantityToBytes q.text = 0 := by
  unfold parseQuantityToBytes
  rcases left_over unseen with none | ⟨whole, fraction, c, rest, seen, mark, other⟩
  · rw [none]
  have black : isWhite c = false := by
    simp only [mem_cons, not_mem_nil, or_false] at mark
    rcases mark with rfl | rfl | rfl <;> decide
  rw [seen]
  dsimp only
  rw [dropWhile_cons_of_neg (by simp [black]), other]
  rfl

end

end Unseen

theorem zero_agrees {v : ℚ} (positive : 0 < unit) : Agrees unit step v 0 ↔ Negligible step v := by
  have zero : (0 : Number) = .finite 0 := rfl
  rw [Agrees, Negligible, zero, near_finite, zero_sub, abs_neg, abs_div, abs_of_pos positive,
    div_le_div_iff_of_pos_right positive]

theorem not_zero_memory (v : ℚ) : ¬ Negligible Mi (Max.max Mi v) := by
  intro zero
  have least : Mi ≤ |Max.max Mi v| := (le_max_left Mi v).trans (le_abs_self _)
  unfold Negligible tolerance nano at zero
  unfold Mi at least zero
  norm_num at least zero
  linarith

theorem known_of_reads (reads : Reads q r) : Known r q.suffix := by
  by_contra unknown
  have none := parseResourceValue_nan unknown
  cases r with
  | cpu | memory | storage => exact not_near_nan _ _ (none ▸ reads.1)

theorem reads_iff (q : Quantity) (r : Resource) : Reads q r ↔ Readable q r := by
  have least : (0 : ℚ) < milli := by norm_num [milli]
  constructor
  · intro reads
    have known := known_of_reads reads
    cases r with
    | cpu =>
      by_cases seen : q.numeral.Plain ∧ q.suffix ∈ [.none, .milli]
      · exact .inl seen
      have zero := reads.2
      rw [parseCpuMillis_unseen seen, zero_agrees least] at zero
      exact .inr ⟨known, zero⟩
    | memory =>
      by_cases seen : ¬ q.numeral.Plain ∨ ∃ e, q.suffix = .exponent e
      · have zero := reads.2
        rw [parseMemMi_unseen seen, zero_agrees (by norm_num [Mi])] at zero
        exact absurd zero (not_zero_memory _)
      · obtain ⟨plain, noExponent⟩ := not_or.mp seen
        exact ⟨not_not.mp plain, known.resolve_right noExponent⟩
    | storage =>
      by_cases seen : ¬ q.numeral.Plain ∨ ∃ e, q.suffix = .exponent e
      · have zero := reads.2
        rw [parseQuantityToBytes_unseen seen, zero_agrees one_pos] at zero
        exact .inr ⟨known, zero⟩
      · obtain ⟨plain, noExponent⟩ := not_or.mp seen
        exact .inl ⟨not_not.mp plain, known.resolve_right noExponent⟩
  · intro readable
    cases r with
    | cpu =>
      by_cases seen : q.numeral.Plain ∧ q.suffix ∈ [.none, .milli]
      · have shared : [.none, .milli] ⊆ unitsOf .cpu := by simp [unitsOf]
        have known : q.suffix ∈ unitsOf .cpu := shared seen.2
        exact ⟨cpu_agrees (.inl known), parseCpuMillis_agrees seen.1 seen.2⟩
      · obtain ⟨known, zero⟩ := readable.resolve_left seen
        refine ⟨cpu_agrees known, ?_⟩
        rw [parseCpuMillis_unseen seen]
        exact (zero_agrees least).mpr zero
    | memory =>
      obtain ⟨plain, unit⟩ := readable
      exact ⟨bytes_agree (by decide) (.inl unit), parseMemMi_agrees plain unit⟩
    | storage =>
      by_cases seen : q.numeral.Plain ∧ q.suffix ∈ unitsOf .storage
      · exact ⟨bytes_agree (by decide) (.inl seen.2), parseQuantityToBytes_agrees seen.1 seen.2⟩
      obtain ⟨known, zero⟩ := readable.resolve_left seen
      refine ⟨bytes_agree (by decide) known, ?_⟩
      have unseen : ¬ q.numeral.Plain ∨ ∃ e, q.suffix = .exponent e := by
        by_cases plain : q.numeral.Plain
        · exact .inr (known.resolve_left (fun unit => seen ⟨plain, unit⟩))
        · exact .inl plain
      rw [parseQuantityToBytes_unseen unseen]
      exact (zero_agrees one_pos).mpr zero

/-- So many units are the amounts together: each has its own tolerance, and each addition rounds. -/
def TotalAgrees (unit step : ℚ) (amounts : List ℚ) (n : Number) : Prop :=
  let tolerances := amounts.map (fun x => tolerance step x / unit)
  Near (tolerances.sum + amounts.length *
    (4 * ulp * extent (· / unit) (fun x => tolerance step x / unit) amounts))
    (amounts.map (· / unit)).sum n

/-- What the readers of a field add up. -/
def Adds (qs : List Quantity) (r : Resource) : Prop :=
  let texts := qs.map Quantity.text
  let values := qs.map Quantity.value
  match r with
  | .cpu => TotalAgrees 1 0 values (total (parseResourceValue · .cpu) texts) ∧
      TotalAgrees milli milli values (total parseCpuMillis texts)
  | .memory => TotalAgrees Gi 0 values (total (parseResourceValue · .memory) texts) ∧
      TotalAgrees Mi Mi (values.map (Max.max Mi)) (total parseMemMi texts)
  | .storage => TotalAgrees Gi 0 values (total (parseResourceValue · .storage) texts) ∧
      TotalAgrees 1 0 values (total parseQuantityToBytes texts)

/-- What `sumResources` writes for services is the total of their requests, or its default when that
is zero. -/
def SumsServices (services : List (Quantity × Quantity)) : Prop :=
  ∃ cpuMillis memMi,
    sumResources (services.map (fun s => ⟨s.1.text, s.2.text⟩)) =
      ⟨(orElse cpuMillis 100).string ++ "m", (orElse memMi 128).string ++ "Mi"⟩ ∧
    TotalAgrees milli milli (services.map (·.1.value)) cpuMillis ∧
    TotalAgrees Mi Mi (services.map (fun s => Max.max Mi s.2.value)) memMi

theorem tolerance_ge (positive : 0 < unit) (most : unit ≤ Gi) (up : 0 ≤ step) :
    nano / Gi ≤ tolerance step x / unit := by
  have billionth : 0 ≤ nano := by norm_num [nano]
  have more : nano ≤ tolerance step x := by
    unfold tolerance
    have := abs_nonneg x
    linarith [div_nonneg this (by norm_num : (0 : ℚ) ≤ 2 ^ 50)]
  exact (div_le_div_of_nonneg_left billionth positive most).trans (div_le_div_of_nonneg_right more positive.le)

theorem amount_le (least : milli ≤ unit) (most : step ≤ Mi) (size : |x| ≤ 2 ^ 64) :
    |x / unit| + tolerance step x / unit ≤ 2 ^ 100 := by
  have positive : 0 < unit := lt_of_lt_of_le (by norm_num [milli]) least
  rw [abs_div, abs_of_pos positive, ← add_div, div_le_iff₀ positive]
  have room : (2 : ℚ) ^ 100 * milli ≤ 2 ^ 100 * unit := mul_le_mul_of_nonneg_left least (by positivity)
  unfold tolerance nano
  unfold milli at room
  unfold Mi at most
  linarith

theorem total_agrees {parse : String → Number} {amount : Quantity → ℚ} (least : milli ≤ unit)
    (unitMost : unit ≤ Gi) (up : 0 ≤ step) (most : step ≤ Mi)
    (agree : ∀ q ∈ qs, Agrees unit step (amount q) (parse q.text)) (small : ∀ q ∈ qs, |amount q| ≤ 2 ^ 64)
    (few : qs.length < 2 ^ 32) : TotalAgrees unit step (qs.map amount) (total parse (qs.map Quantity.text)) := by
  have positive : 0 < unit := lt_of_lt_of_le (by norm_num [milli]) least
  have count : (qs.length : ℚ) ≤ 2 ^ 32 := by exact_mod_cast few.le
  have size : extent (fun q => amount q / unit) (fun q => tolerance step (amount q) / unit) qs ≤
      2 ^ 32 * 2 ^ 100 := by
    apply (sum_le_card_nsmul _ (2 ^ 100) _).trans
    · rw [length_map]
      exact mul_le_mul_of_nonneg_right count (by positivity)
    intro x mem
    obtain ⟨q, item, rfl⟩ := mem_map.mp mem
    exact amount_le least most (small q item)
  have noticed : ∀ q ∈ qs, tiny ≤ tolerance step (amount q) / unit * ulp := by
    intro q mem
    have bit : tiny ≤ nano / Gi * ulp := by
      apply (tiny_le (show 200 ≤ 1074 by omega)).trans
      norm_num [nano, Gi, ulp]
    apply bit.trans
    exact mul_le_mul_of_nonneg_right (tolerance_ge positive unitMost up) ulp_pos.le
  have result := sum_near qs agree noticed (by unfold ulp; linarith) (le_large (by linarith))
  simpa [TotalAgrees, total, extent, Function.comp_def] using result

theorem readable_adds (readable : ∀ q ∈ qs, Readable q r) (few : qs.length < 2 ^ 32) : Adds qs r := by
  have reads : ∀ q ∈ qs, Reads q r := fun q mem => (reads_iff q r).mpr (readable q mem)
  have size : ∀ q ∈ qs, |q.value| ≤ 2 ^ 64 := fun q _ => value_le q
  have none : (0 : ℚ) ≤ Mi := by norm_num [Mi]
  have one : milli ≤ 1 := by norm_num [milli]
  have gi : milli ≤ Gi := by norm_num [milli, Gi]
  cases r with
  | cpu =>
    constructor
    · exact total_agrees one (by norm_num [Gi]) le_rfl none (fun q mem => (reads q mem).1) size few
    · exact total_agrees le_rfl gi (by norm_num [milli]) (by norm_num [milli, Mi])
        (fun q mem => (reads q mem).2) size few
  | memory =>
    constructor
    · exact total_agrees gi le_rfl le_rfl none (fun q mem => (reads q mem).1) size few
    have least : ∀ q ∈ qs, |Max.max Mi q.value| ≤ 2 ^ 64 := by
      intro q mem
      apply abs_max_le_max_abs_abs.trans
      exact max_le (by norm_num [Mi]) (size q mem)
    rw [map_map]
    exact total_agrees (by norm_num [milli, Mi]) (by norm_num [Mi, Gi]) none le_rfl
      (fun q mem => (reads q mem).2) least few
  | storage =>
    constructor
    · exact total_agrees gi le_rfl le_rfl none (fun q mem => (reads q mem).1) size few
    · exact total_agrees one (by norm_num [Gi]) le_rfl none (fun q mem => (reads q mem).2) size few

theorem readable_sums {services : List (Quantity × Quantity)}
    (readable : ∀ s ∈ services, Readable s.1 .cpu ∧ Readable s.2 .memory)
    (few : services.length < 2 ^ 32) : SumsServices services := by
  have cpu : Adds (services.map Prod.fst) .cpu := by
    apply readable_adds _ (by rwa [length_map])
    intro q mem
    obtain ⟨s, item, rfl⟩ := mem_map.mp mem
    exact (readable s item).1
  have memory : Adds (services.map Prod.snd) .memory := by
    apply readable_adds _ (by rwa [length_map])
    intro q mem
    obtain ⟨s, item, rfl⟩ := mem_map.mp mem
    exact (readable s item).2
  have millis := cpu.2
  have mebis := memory.2
  simp only [map_map] at millis mebis
  refine ⟨_, _, ?_, millis, mebis⟩
  simp only [sumResources, map_map]
  rfl

/-- The readers of a field agree with Kubernetes about a quantity exactly when it is readable, and
then about totals, which are no NaN. -/
theorem quantities_agree (r : Resource) : (∀ q, Reads q r ↔ Readable q r) ∧
      (∀ qs, (∀ q ∈ qs, Readable q r) → qs.length < 2 ^ 32 → Adds qs r) ∧
      ∀ services : List (Quantity × Quantity),
        (∀ s ∈ services, Readable s.1 .cpu ∧ Readable s.2 .memory) → services.length < 2 ^ 32 →
          SumsServices services :=
  ⟨fun q => reads_iff q r, fun _ => readable_adds, fun _ => readable_sums⟩

def quarter : Quantity :=
  ⟨⟨.unsigned, ['2', '5', '0'], none⟩, .milli, by decide, by decide, by decide +kernel⟩

def gibibytes : Quantity :=
  ⟨⟨.unsigned, ['1'], some ['5']⟩, .gibi, by decide, by decide, by decide +kernel⟩

theorem quarter_adds : Adds [quarter, quarter] .cpu ∧ SumsServices [(quarter, gibibytes)] := by
  have cpu : Readable quarter .cpu := .inl (by decide)
  have memory : Readable gibibytes .memory := by
    unfold Readable
    decide
  constructor
  · apply (quantities_agree .cpu).2.1
    · intro q mem
      rcases mem_pair.mp mem with rfl | rfl <;> exact cpu
    · decide
  apply (quantities_agree .cpu).2.2
  · intro s mem
    rw [mem_singleton.mp mem]
    exact ⟨cpu, memory⟩
  · decide

def tebibyte : Quantity := ⟨⟨.unsigned, ['1'], none⟩, .tebi, by decide, by decide, by decide +kernel⟩

def terabyte : Quantity := ⟨⟨.unsigned, ['1'], none⟩, .tera, by decide, by decide, by decide +kernel⟩

/-- The schema of custom deployments admits both, and they are no number; and the table of factors
has no entry for the latter, which counts as one Mi. -/
theorem tebibyte_nan : ¬ (∀ q r, CustomDeployments.resourceQtyRe q.text = true → Reads q r) ∧
    parseResourceValue tebibyte.text .memory = .nan ∧ parseMemMi terabyte.text = 1 := by
  have read : parseResourceValue tebibyte.text .memory = .nan := by decide +kernel
  refine ⟨?_, read, by decide +kernel⟩
  intro all
  have reads := (all tebibyte .memory (by decide +kernel)).1
  rw [read] at reads
  exact not_near_nan _ _ reads

end HostingPlatform.ResourceQuantities
