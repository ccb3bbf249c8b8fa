import Mathlib.Algebra.Order.Group.MinMax
import Mathlib.Tactic.Positivity
import HostingPlatform.Js.Text

/-! What a double loses: an operation gives the exact result but for a relative error of half a
unit in the last of 53 bits, or for half of the smallest subnormal number. Sums that are formed one
summand after another lose that much with each of them. -/
namespace HostingPlatform.Js.Number

open List

/- the relative error of one rounding -/
@[irreducible] def ulp : ℚ := 1 / 2 ^ 53

/- the smallest positive double -/
@[irreducible] def tiny : ℚ := 1 / 2 ^ 1074

/- results up to here are finite -/
@[irreducible] def large : ℚ := 2 ^ 1000

theorem ulp_pos : 0 < ulp := by
  unfold ulp
  positivity

theorem tiny_pos : 0 < tiny := by
  unfold tiny
  positivity

theorem tiny_le {k : Nat} (le : k ≤ 1074) : tiny ≤ 1 / 2 ^ k := by
  unfold tiny
  apply one_div_le_one_div_of_le
  · positivity
  · exact pow_le_pow_right₀ one_le_two le

theorem tiny_le_ulp : tiny ≤ ulp := by
  unfold ulp
  exact tiny_le (by omega)

theorem one_le_large : 1 ≤ large := by
  unfold large
  exact one_le_pow₀ one_le_two

theorem large_lt : 2 * large + 1 < (2 : ℚ) ^ (1024 : Int) := by
  have whole : (2 : ℚ) ^ (1024 : Int) = large * 2 ^ 24 := by
    rw [show (1024 : Int) = ((1000 + 24 : Nat) : Int) from rfl, zpow_natCast, pow_add]
    unfold large
    rfl
  rw [whole]
  linarith only [one_le_large]

theorem ulp_le_one : ulp ≤ 1 := by
  unfold ulp
  norm_num

/- `p` stands for `x`, but for an error -/
def Near (error x : ℚ) (n : Number) : Prop := ∃ p, n = .finite p ∧ |p - x| ≤ error

variable {e x q r : ℚ} {n : Number}

theorem Near.mono {f : ℚ} (near : Near e x n) (le : e ≤ f) : Near f x n := by
  obtain ⟨p, same, close⟩ := near
  exact ⟨p, same, close.trans le⟩

theorem Near.not_nan (near : Near e x n) : n ≠ .nan := by
  obtain ⟨p, rfl, _⟩ := near
  simp

theorem not_near_nan (e x : ℚ) : ¬ Near e x .nan := fun near => near.not_nan rfl

theorem near_finite {p : ℚ} : Near e x (.finite p) ↔ |p - x| ≤ e := by
  constructor
  · rintro ⟨_, same, close⟩
    cases same
    exact close
  · intro close
    exact ⟨p, rfl, close⟩

theorem roundHalfEven_error (q : ℚ) : |(roundHalfEven q : ℚ) - q| ≤ 1 / 2 := by
  have low : (q.floor : ℚ) ≤ q := Rat.floor_le q
  have high : q < q.floor + 1 := by exact_mod_cast Rat.lt_floor_add_one q
  unfold roundHalfEven
  dsimp only
  split
  · rename_i down
    have half : q - q.floor ≤ 1 / 2 := by
      apply down.elim
      · exact fun below => below.le
      · exact fun tie => tie.1.le
    rw [abs_sub_comm, abs_of_nonneg (by linarith)]
    exact half
  · rename_i up
    have half : 1 / 2 ≤ q - q.floor := by
      apply le_of_not_gt
      exact fun below => up (.inl below)
    push_cast
    rw [abs_of_nonneg (by linarith)]
    linarith

theorem round_error (q : ℚ) : |((q + 1 / 2).floor : ℚ) - q| ≤ 1 / 2 := by
  have low : ((q + 1 / 2).floor : ℚ) ≤ q + 1 / 2 := Rat.floor_le _
  have high : q + 1 / 2 < (q + 1 / 2).floor + 1 := by exact_mod_cast Rat.lt_floor_add_one _
  apply abs_le.mpr
  constructor <;> linarith

theorem Near.round (near : Near e x n) : Near (e + 1 / 2) x n.round := by
  obtain ⟨p, rfl, close⟩ := near
  apply near_finite.mpr
  have rounded := round_error p
  have through := abs_sub_le ((p + 1 / 2).floor : ℚ) p x
  linarith

theorem log_le (some : q ≠ 0) : (2 : ℚ) ^ ((q.num.natAbs.log2 : Int) - q.den.log2 - 1) ≤ |q| := by
  have size : |q| = (q.num.natAbs : ℚ) / q.den := by
    rw [Nat.cast_natAbs, Int.cast_abs, ← Nat.abs_cast q.den, ← abs_div, Rat.num_div_den]
  have least : (2 : ℚ) ^ q.num.natAbs.log2 ≤ q.num.natAbs := by
    exact_mod_cast Nat.log2_self_le (Int.natAbs_ne_zero.mpr (Rat.num_ne_zero.mpr some))
  have under : (q.den : ℚ) ≤ 2 ^ (q.den.log2 + 1) := by
    exact_mod_cast Nat.lt_log2_self.le
  have denominator : (0 : ℚ) < q.den := by exact_mod_cast q.den_pos
  have split : (q.num.natAbs.log2 : Int) - q.den.log2 - 1 =
      (q.num.natAbs.log2 : Int) - (q.den.log2 + 1 : Nat) := by
    omega
  rw [split, zpow_sub₀ two_ne_zero, size]
  exact div_le_div₀ (Nat.cast_nonneg _) least denominator under

theorem Near.max {c : ℚ} (near : Near e x n) : Near e (Max.max c x) (Number.max (.finite c) n) := by
  obtain ⟨p, rfl, close⟩ := near
  have greater : Number.max (.finite c) (.finite p) = .finite (Max.max c p) := by
    by_cases less : c < p
    · simp [Number.max, lt, less, less.le]
    · simp [Number.max, lt, le_of_not_gt less]
  rw [greater, near_finite]
  apply le_trans _ close
  rw [max_comm c p, max_comm c x]
  exact abs_max_sub_max_le_abs p x c

theorem unit_le (some : q ≠ 0) : (2 : ℚ) ^ exponent q ≤ |q| / 2 ^ 52 + tiny := by
  have least : (2 : ℚ) ^ (-1074 : Int) = tiny := by
    rw [zpow_neg, tiny, one_div]
    norm_cast
  have last {e : Int} (le : (2 : ℚ) ^ (e + 52) ≤ |q|) : (2 : ℚ) ^ e ≤ |q| / 2 ^ 52 := by
    rw [zpow_add₀ two_ne_zero] at le
    rw [le_div_iff₀ (by positivity)]
    exact_mod_cast le
  have either {e : Int} (le : (2 : ℚ) ^ e ≤ |q| / 2 ^ 52) :
      (2 : ℚ) ^ (Max.max e (-1074)) ≤ |q| / 2 ^ 52 + tiny := by
    have first : (0 : ℚ) ≤ |q| / 2 ^ 52 := by positivity
    obtain ⟨normal, _⟩ | ⟨subnormal, _⟩ := max_cases e (-1074)
    · rw [normal]
      exact le.trans (le_add_of_nonneg_right tiny_pos.le)
    · rw [subnormal, least]
      exact le_add_of_nonneg_left first
  unfold exponent
  dsimp only
  split
  · apply either
    apply last
    have magnitude := log_le some
    rw [show (q.num.natAbs.log2 : Int) - q.den.log2 - 52 - 1 + 52 =
      (q.num.natAbs.log2 : Int) - q.den.log2 - 1 by omega]
    exact magnitude
  · rename_i above
    apply either
    apply last
    exact le_of_not_gt above

theorem nearest_zero : nearest 0 = .finite 0 := by decide +kernel

theorem nearest_near (range : |q| ≤ large) : Near (|q| * ulp + tiny) q (nearest q) := by
  by_cases none : q = 0
  · subst none
    rw [nearest_zero, near_finite]
    have := tiny_pos
    simpa using this.le
  have unit := unit_le none
  have positive : (0 : ℚ) < 2 ^ exponent q := zpow_pos two_pos _
  have half := roundHalfEven_error (q / 2 ^ exponent q)
  have error : |(roundHalfEven (q / 2 ^ exponent q) : ℚ) * 2 ^ exponent q - q| ≤
      |q| * ulp + tiny := by
    have scaled : (roundHalfEven (q / 2 ^ exponent q) : ℚ) * 2 ^ exponent q - q =
        (roundHalfEven (q / 2 ^ exponent q) - q / 2 ^ exponent q) * 2 ^ exponent q := by
      rw [sub_mul, div_mul_cancel₀ _ positive.ne']
    rw [scaled, abs_mul, abs_of_pos positive]
    calc _ ≤ 1 / 2 * (|q| / 2 ^ 52 + tiny) :=
          mul_le_mul half unit positive.le (by norm_num)
      _ = |q| * ulp + tiny / 2 := by
          unfold ulp
          ring
      _ ≤ |q| * ulp + tiny := by linarith [tiny_pos]
  have below : |(roundHalfEven (q / 2 ^ exponent q) : ℚ) * 2 ^ exponent q| < (2 : ℚ) ^ (1024 : Int) := by
    have relative : |q| * ulp ≤ |q| := mul_le_of_le_one_right (abs_nonneg q) ulp_le_one
    have through := abs_sub_abs_le_abs_sub ((roundHalfEven (q / 2 ^ exponent q) : ℚ) * 2 ^ exponent q) q
    linarith [tiny_le_ulp, ulp_le_one, large_lt]
  unfold nearest
  rw [if_neg (not_le.mpr below), near_finite]
  exact error

/- `x / d` by a constant other than zero -/
def divide : Number → ℚ → Number
  | .finite p, d => nearest (p / d)
  | .infinity negative, d => .infinity (negative != decide (d < 0))
  | .nan, _ => .nan

theorem near_mul {f bound : ℚ} (near : Near e x n) (positive : 0 < f) (size : (|x| + e) * f ≤ bound)
    (range : bound ≤ large) : Near (e * f + bound * ulp + tiny) (x * f) (n.mul (.finite f)) := by
  obtain ⟨p, rfl, close⟩ := near
  have through := abs_sub_abs_le_abs_sub p x
  have product : |p * f| ≤ bound := by
    rw [abs_mul, abs_of_pos positive]
    apply le_trans _ size
    exact mul_le_mul_of_nonneg_right (by linarith) positive.le
  obtain ⟨r, same, rounded⟩ := nearest_near (product.trans range)
  apply Exists.intro r
  constructor
  · exact same
  have exactly : |p * f - x * f| ≤ e * f := by
    rw [← sub_mul, abs_mul, abs_of_pos positive]
    exact mul_le_mul_of_nonneg_right close positive.le
  have relative : |p * f| * ulp ≤ bound * ulp := mul_le_mul_of_nonneg_right product ulp_pos.le
  have both := abs_sub_le r (p * f) (x * f)
  linarith

theorem near_divide {d bound : ℚ} (near : Near e x n) (positive : 0 < d) (size : (|x| + e) / d ≤ bound)
    (range : bound ≤ large) : Near (e / d + bound * ulp + tiny) (x / d) (n.divide d) := by
  have product := near_mul near (inv_pos.mpr positive) (by rwa [← div_eq_mul_inv]) range
  obtain ⟨p, rfl, _⟩ := near
  exact product

theorem near_add {f y bound : ℚ} {m : Number} (first : Near e x m) (second : Near f y n)
    (size : |x| + e + (|y| + f) ≤ bound) (range : bound ≤ large) :
    Near (e + f + bound * ulp + tiny) (x + y) (m.add n) := by
  obtain ⟨p, rfl, closeX⟩ := first
  obtain ⟨q, rfl, closeY⟩ := second
  have apart : |p + q - (x + y)| ≤ e + f := by
    rw [add_sub_add_comm]
    exact (abs_add_le _ _).trans (add_le_add closeX closeY)
  have result : |p + q| ≤ bound := by
    have through := abs_sub_abs_le_abs_sub (p + q) (x + y)
    have both := abs_add_le x y
    linarith
  obtain ⟨r, same, rounded⟩ := nearest_near (result.trans range)
  apply Exists.intro r
  constructor
  · exact same
  have relative : |p + q| * ulp ≤ bound * ulp := mul_le_mul_of_nonneg_right result ulp_pos.le
  have both := abs_sub_le r (p + q) (x + y)
  linarith

/- `total += n` for each of them -/
def sum (ns : List Number) : Number := ns.foldl add 0

section Sums

variable {α : Type} (x t : α → ℚ) (n : α → Number)

/- the greatest size that the summands can have together -/
def extent (items : List α) : ℚ := (items.map (fun a => |x a| + t a)).sum

theorem abs_sum_le (items : List α) :
    |(items.map x).sum| + (items.map t).sum ≤ extent x t items := by
  induction items with
  | nil => simp [extent]
  | cons a rest ih =>
    unfold extent at ih ⊢
    simp only [map_cons, sum_cons]
    have both := abs_add_le (x a) (rest.map x).sum
    linarith

variable {x t n}

theorem extent_nonneg {items : List α} (near : ∀ a ∈ items, Near (t a) (x a) (n a)) : 0 ≤ extent x t items := by
  apply sum_nonneg
  intro size mem
  obtain ⟨a, item, rfl⟩ := mem_map.mp mem
  have tolerance : 0 ≤ t a := (abs_nonneg _).trans (near a item).choose_spec.2
  exact add_nonneg (abs_nonneg _) tolerance

theorem sum_near (items : List α) (near : ∀ a ∈ items, Near (t a) (x a) (n a))
    (least : ∀ a ∈ items, tiny ≤ t a * ulp) (few : (items.length : ℚ) * (4 * ulp) ≤ 1)
    (range : 2 * extent x t items ≤ large) :
    Near ((items.map t).sum + items.length * (4 * ulp * extent x t items)) (items.map x).sum
      (sum (items.map n)) := by
  induction items using reverseRecOn with
  | nil =>
    apply near_finite.mpr
    simp
  | append_singleton before a ih =>
    have old : ∀ b ∈ before, b ∈ before ++ [a] := fun b mem => mem_append_left _ mem
    have last : a ∈ before ++ [a] := by simp
    have positive : 0 ≤ extent x t before := extent_nonneg (fun b mem => near b (old b mem))
    have own : 0 ≤ t a := (abs_nonneg _).trans (near a last).choose_spec.2
    have size := abs_nonneg (x a)
    have whole : extent x t (before ++ [a]) = extent x t before + (|x a| + t a) := by simp [extent]
    have count : ((before ++ [a]).length : ℚ) = before.length + 1 := by simp
    rw [whole] at range ⊢
    rw [count] at few ⊢
    have fewer : (before.length : ℚ) * (4 * ulp) ≤ 1 := by linarith [ulp_pos]
    have earlier := ih (fun b mem => near b (old b mem)) (fun b mem => least b (old b mem)) fewer (by linarith)
    have lost : before.length * (4 * ulp * extent x t before) ≤ extent x t before := by
      rw [← mul_assoc]
      exact mul_le_of_le_one_left positive fewer
    have room : |(before.map x).sum| +
        ((before.map t).sum + before.length * (4 * ulp * extent x t before)) + (|x a| + t a) ≤
        2 * (extent x t before + (|x a| + t a)) := by
      linarith [abs_sum_le x t before]
    have together := near_add earlier (near a last) room range
    simp only [map_append, map_singleton, sum_append, sum_singleton, sum, foldl_append, foldl_cons] at together ⊢
    apply together.mono
    have subnormal := least a last
    have more : before.length * (4 * ulp * extent x t before) ≤
        before.length * (4 * ulp * (extent x t before + (|x a| + t a))) := by
      apply mul_le_mul_of_nonneg_left _ (Nat.cast_nonneg _)
      apply mul_le_mul_of_nonneg_left _ (by linarith [ulp_pos])
      linarith
    have rounding : t a * ulp ≤ (extent x t before + (|x a| + t a)) * ulp := by
      apply mul_le_mul_of_nonneg_right _ ulp_pos.le
      linarith
    have some : 0 ≤ (extent x t before + (|x a| + t a)) * ulp := by
      apply mul_nonneg _ ulp_pos.le
      linarith
    linarith

end Sums

theorem roundHalfEven_mono {y : ℚ} (le : x ≤ y) : roundHalfEven x ≤ roundHalfEven y := by
  have floors : x.floor ≤ y.floor := Rat.floor_monotone le
  unfold roundHalfEven
  dsimp only
  rcases floors.lt_or_eq with less | same
  · split <;> split <;> omega
  rw [same]
  have rest : x - y.floor ≤ y - y.floor := by linarith
  split
  · split <;> omega
  rename_i up
  rw [if_neg]
  intro down
  refine up ?_
  rcases down with under | ⟨half, even⟩
  · exact .inl (lt_of_le_of_lt rest under)
  rcases rest.lt_or_eq with less | tie
  · exact .inl (by rw [half] at less; exact less)
  · exact .inr ⟨tie.trans half, even⟩

theorem roundHalfEven_neg (x : ℚ) : roundHalfEven (-x) = -roundHalfEven x := by
  have low : (x.floor : ℚ) ≤ x := Rat.floor_le x
  have high : x < x.floor + 1 := by exact_mod_cast Rat.lt_floor_add_one x
  by_cases whole : x = x.floor
  · rw [whole, ← Int.cast_neg, roundHalfEven_int, roundHalfEven_int]
  have above : (x.floor : ℚ) < x := lt_of_le_of_ne low (Ne.symm whole)
  have floor : (-x).floor = -x.floor - 1 := by
    apply le_antisymm
    · have under : (-x).floor < -x.floor := by
        rw [Rat.floor_lt_iff]
        push_cast
        linarith
      omega
    · rw [Rat.le_floor_iff]
      push_cast
      linarith
  have rest : -x - (-x).floor = 1 - (x - x.floor) := by
    rw [floor]
    push_cast
    ring
  unfold roundHalfEven
  dsimp only
  rw [rest, floor]
  generalize x - x.floor = r
  rcases lt_trichotomy r (1 / 2) with less | tie | more
  · rw [if_pos (Or.inl less), if_neg]
    · omega
    · rintro (under | ⟨half, _⟩) <;> linarith
  · by_cases even : x.floor % 2 = 0
    · have down : r < 1 / 2 ∨ r = 1 / 2 ∧ x.floor % 2 = 0 := .inr ⟨tie, even⟩
      rw [if_pos down, if_neg]
      · omega
      rintro (under | ⟨_, odd⟩)
      · linarith
      · omega
    · have down : 1 - r < 1 / 2 ∨ 1 - r = 1 / 2 ∧ (-x.floor - 1) % 2 = 0 := .inr ⟨by linarith, by omega⟩
      rw [if_pos down, if_neg]
      · omega
      rintro (under | ⟨_, odd⟩)
      · linarith
      · exact even odd
  · have down : 1 - r < 1 / 2 ∨ 1 - r = 1 / 2 ∧ (-x.floor - 1) % 2 = 0 := .inl (by linarith)
    rw [if_pos down, if_neg]
    · omega
    · rintro (under | ⟨half, _⟩) <;> linarith

theorem abs_lt_log (q : ℚ) : |q| < (2 : ℚ) ^ ((q.num.natAbs.log2 : Int) - q.den.log2 + 1) := by
  have size : |q| = (q.num.natAbs : ℚ) / q.den := by
    rw [Nat.cast_natAbs, Int.cast_abs, ← Nat.abs_cast q.den, ← abs_div, Rat.num_div_den]
  have above : (q.num.natAbs : ℚ) < 2 ^ (q.num.natAbs.log2 + 1) := by exact_mod_cast Nat.lt_log2_self
  have least : (2 : ℚ) ^ q.den.log2 ≤ q.den := by exact_mod_cast Nat.log2_self_le q.den_ne_zero
  have split : (q.num.natAbs.log2 : Int) - q.den.log2 + 1 = (q.num.natAbs.log2 + 1 : Nat) - q.den.log2 := by
    omega
  rw [split, zpow_sub₀ two_ne_zero, zpow_natCast, size]
  have positive : (0 : ℚ) < 2 ^ q.den.log2 := by positivity
  exact div_lt_div₀ above least (by positivity) positive

theorem exponent_least (q : ℚ) : -1074 ≤ exponent q := le_max_right _ _

theorem lt_exponent (q : ℚ) : |q| < (2 : ℚ) ^ (exponent q + 53) := by
  have size := abs_lt_log q
  have wider {e : Int} (below : |q| < (2 : ℚ) ^ (e + 53)) : |q| < (2 : ℚ) ^ (Max.max e (-1074) + 53) := by
    refine lt_of_lt_of_le below (zpow_le_zpow_right₀ one_le_two ?_)
    omega
  unfold exponent
  dsimp only
  split
  · rename_i below
    refine wider (lt_of_lt_of_eq below ?_)
    congr 1
    omega
  · refine wider (lt_of_lt_of_eq size ?_)
    congr 1
    omega

theorem exponent_le (some : q ≠ 0) (normal : -1074 < exponent q) : (2 : ℚ) ^ (exponent q + 52) ≤ |q| := by
  have magnitude := log_le some
  unfold exponent at normal ⊢
  dsimp only at normal ⊢
  split at normal
  · rename_i below
    rw [if_pos below]
    refine le_of_eq_of_le ?_ magnitude
    congr 1
    omega
  · rename_i above
    rw [if_neg above, max_eq_left (by omega)]
    exact le_of_not_gt above

theorem exponent_mono (some : q ≠ 0) (le : |q| ≤ |r|) : exponent q ≤ exponent r := by
  apply le_of_not_gt
  intro less
  have normal : -1074 < exponent q := lt_of_le_of_lt (exponent_least r) less
  have least := exponent_le some normal
  have most := lt_exponent r
  have step : (2 : ℚ) ^ (exponent r + 53) ≤ 2 ^ (exponent q + 52) := zpow_le_zpow_right₀ one_le_two (by omega)
  linarith

theorem exponent_neg (q : ℚ) : exponent (-q) = exponent q := by
  unfold exponent
  rw [abs_neg, Rat.num_neg_eq_neg_num, Int.natAbs_neg, Rat.den_neg_eq_den]

def rounded (q : ℚ) : ℚ := roundHalfEven (q / 2 ^ exponent q) * 2 ^ exponent q

theorem rounded_neg (q : ℚ) : rounded (-q) = -rounded q := by
  unfold rounded
  rw [exponent_neg, neg_div, roundHalfEven_neg]
  push_cast
  ring

theorem rounded_zero : rounded 0 = 0 := by
  have none : roundHalfEven 0 = 0 := roundHalfEven_int 0
  rw [rounded, zero_div, none, Int.cast_zero, zero_mul]

theorem rounded_nonneg (size : 0 ≤ q) : 0 ≤ rounded q := by
  have positive : (0 : ℚ) < 2 ^ exponent q := zpow_pos two_pos _
  have up : roundHalfEven 0 ≤ roundHalfEven (q / 2 ^ exponent q) := roundHalfEven_mono (div_nonneg size positive.le)
  have none : roundHalfEven 0 = 0 := roundHalfEven_int 0
  rw [none] at up
  exact mul_nonneg (by exact_mod_cast up) positive.le

theorem rounded_mono_nonneg (size : 0 ≤ q) (le : q ≤ r) : rounded q ≤ rounded r := by
  by_cases none : q = 0
  · rw [none, rounded_zero]
    exact rounded_nonneg (size.trans le)
  have sizes : |q| ≤ |r| := by rwa [abs_of_nonneg size, abs_of_nonneg (size.trans le)]
  have unit : (0 : ℚ) < 2 ^ exponent q := zpow_pos two_pos _
  have unit' : (0 : ℚ) < 2 ^ exponent r := zpow_pos two_pos _
  rcases (exponent_mono none sizes).lt_or_eq with less | same
  · -- the greater one has another binade, whose first number is between them
    have below : rounded q ≤ 2 ^ (exponent q + 53) := by
      have fraction : q / 2 ^ exponent q ≤ ((2 ^ 53 : Int) : ℚ) := by
        rw [div_le_iff₀ unit]
        have most := lt_exponent q
        rw [abs_of_nonneg size, zpow_add₀ two_ne_zero, mul_comm] at most
        exact_mod_cast most.le
      have whole : roundHalfEven (q / 2 ^ exponent q) ≤ 2 ^ 53 := by
        rw [← roundHalfEven_int (2 ^ 53)]
        exact roundHalfEven_mono fraction
      rw [zpow_add₀ two_ne_zero, mul_comm]
      refine mul_le_mul_of_nonneg_right ?_ unit.le
      exact_mod_cast whole
    have above : (2 : ℚ) ^ (exponent r + 52) ≤ rounded r := by
      have fraction : ((2 ^ 52 : Int) : ℚ) ≤ r / 2 ^ exponent r := by
        rw [le_div_iff₀ unit']
        push_cast
        have some : r ≠ 0 := by
          rintro rfl
          exact none (le_antisymm le size)
        have least := exponent_le some (lt_of_le_of_lt (exponent_least q) less)
        rw [abs_of_nonneg (size.trans le), zpow_add₀ two_ne_zero, mul_comm] at least
        exact_mod_cast least
      have whole : (2 ^ 52 : Int) ≤ roundHalfEven (r / 2 ^ exponent r) := by
        rw [← roundHalfEven_int (2 ^ 52)]
        exact roundHalfEven_mono fraction
      rw [zpow_add₀ two_ne_zero, mul_comm]
      refine mul_le_mul_of_nonneg_right ?_ unit'.le
      exact_mod_cast whole
    have step : (2 : ℚ) ^ (exponent q + 53) ≤ 2 ^ (exponent r + 52) := zpow_le_zpow_right₀ one_le_two (by omega)
    exact below.trans (step.trans above)
  · unfold rounded
    rw [same] at unit ⊢
    refine mul_le_mul_of_nonneg_right ?_ unit.le
    exact_mod_cast roundHalfEven_mono (div_le_div_of_nonneg_right le unit.le)

theorem rounded_mono (le : q ≤ r) : rounded q ≤ rounded r := by
  by_cases size : 0 ≤ q
  · exact rounded_mono_nonneg size le
  by_cases size' : 0 ≤ r
  · have down := rounded_nonneg (neg_nonneg.mpr (le_of_not_ge size))
    rw [rounded_neg] at down
    have up := rounded_nonneg size'
    linarith
  · have turned := rounded_mono_nonneg (neg_nonneg.mpr (le_of_not_ge size')) (neg_le_neg le)
    rw [rounded_neg, rounded_neg] at turned
    linarith

theorem nearest_eq (q : ℚ) : nearest q =
    if (2 : ℚ) ^ (1024 : Int) ≤ |rounded q| then .infinity (q < 0) else .finite (rounded q) := rfl

theorem rounded_nonpos {q : ℚ} (size : q ≤ 0) : rounded q ≤ 0 := rounded_zero ▸ rounded_mono size

theorem nearest_mono (le : q ≤ r) : Number.le (nearest q) (nearest r) = true := by
  have order := rounded_mono le
  rw [nearest_eq, nearest_eq]
  by_cases far : (2 : ℚ) ^ (1024 : Int) ≤ |rounded q| <;> by_cases far' : (2 : ℚ) ^ (1024 : Int) ≤ |rounded r|
  · rw [if_pos far, if_pos far']
    by_cases size : r < 0
    · simp [Number.le, lt_of_le_of_lt le size]
    · simp [Number.le, size]
  · rw [if_pos far, if_neg far']
    by_cases size : q < 0
    · simp [Number.le, size]
    have up := rounded_nonneg (le_of_not_gt size)
    rw [abs_of_nonneg up] at far
    rw [abs_of_nonneg (up.trans order)] at far'
    linarith
  · rw [if_neg far, if_pos far']
    by_cases size : r < 0
    · have down := rounded_nonpos size.le
      rw [abs_of_nonpos down] at far'
      rw [abs_of_nonpos (order.trans down)] at far
      linarith
    · simp [Number.le, size]
  · rw [if_neg far, if_neg far']
    simpa [Number.le] using order

theorem le_trans {x y z : Number} (first : Number.le x y = true) (second : Number.le y z = true) :
    Number.le x z = true := by
  cases x with
  | nan => cases first
  | infinity negative =>
    cases negative with
    | true =>
      cases z with
      | nan => cases y <;> simp [Number.le] at second
      | infinity negative => rfl
      | finite q => rfl
    | false =>
      cases y with
      | nan | finite q => cases first
      | infinity negative =>
        cases negative with
        | true => cases first
        | false => exact second
  | finite p =>
    cases y with
    | nan => cases first
    | infinity negative =>
      cases negative with
      | true => cases first
      | false =>
        cases z with
        | nan | finite q => cases second
        | infinity negative => cases negative <;> simp_all [Number.le]
    | finite q =>
      cases z with
      | nan => cases second
      | infinity negative => cases negative <;> simp_all [Number.le]
      | finite r =>
        simp only [Number.le, decide_eq_true_eq] at first second ⊢
        exact first.trans second

theorem add_mono {s h : Number} {p : ℚ} (less : p ≤ q) (under : Number.le (add s (.finite q)) h = true) :
    Number.le (add s (.finite p)) h = true := by
  cases s with
  | nan => cases under
  | infinity negative => exact under
  | finite r => exact le_trans (nearest_mono (add_le_add_right less r)) under

theorem nearest_le_infinity (q : ℚ) : Number.le (nearest q) (.infinity false) = true := by
  rw [nearest_eq]
  split
  · simp [Number.le]
  · rfl

theorem add_le {s x y h : Number} (less : Number.le x y = true) (under : Number.le (add s y) h = true)
    (bounded : x ≠ .infinity true ∨ h ≠ .infinity false) : Number.le (add s x) h = true := by
  cases s with
  | nan => cases under
  | infinity negative =>
    rcases x with _ | (_ | _) | p <;> rcases y with _ | (_ | _) | q <;> rcases h with _ | (_ | _) | z <;>
      cases negative <;> simp_all [Number.le, add]
  | finite r =>
    cases x with
    | nan => cases less
    | infinity negative =>
      rcases y with _ | (_ | _) | q <;> rcases h with _ | (_ | _) | z <;>
        cases negative <;> simp_all [Number.le, add]
    | finite p =>
      cases y with
      | nan => cases less
      | finite q => exact add_mono (of_decide_eq_true less) under
      | infinity negative =>
        rcases h with _ | (_ | _) | z <;> cases negative <;> simp_all [Number.le, add]
        exact nearest_le_infinity _

/- `x - y` -/
def sub (x y : Number) : Number := add x (negate y)

def OnGrid : Number → Prop
  | .finite q => ∃ k : Int, q = k * 2 ^ (-1074 : Int)
  | _ => True

theorem nearest_onGrid (q : ℚ) : OnGrid (nearest q) := by
  rw [nearest_eq]
  split
  · trivial
  obtain ⟨n, least⟩ := Int.eq_ofNat_of_zero_le (sub_nonneg.mpr (exponent_least q))
  refine ⟨roundHalfEven (q / 2 ^ exponent q) * 2 ^ n, ?_⟩
  have unit : exponent q = (n : Int) + (-1074) := by omega
  rw [rounded]
  have parts : (2 : ℚ) ^ ((n : Int) + -1074) = 2 ^ n * 2 ^ (-1074 : Int) := by
    simp [zpow_add₀ (two_ne_zero : (2 : ℚ) ≠ 0)]
  simp [unit, parts, mul_assoc]

theorem add_onGrid (x y : Number) : OnGrid (add x y) := by
  cases x with
  | nan => cases y <;> trivial
  | infinity n =>
    cases y with
    | infinity m =>
      simp only [add]
      split <;> trivial
    | nan | finite q => trivial
  | finite p =>
    cases y with
    | finite q => exact nearest_onGrid (p + q)
    | nan | infinity n => trivial

theorem max_onGrid {x y : Number} (first : OnGrid x) (second : OnGrid y) : OnGrid (Number.max x y) := by
  unfold Number.max
  split
  · trivial
  split
  · exact second
  · exact first

theorem zero_onGrid : OnGrid 0 := ⟨0, by simp⟩

theorem rounded_pos {d : ℚ} (least : (2 : ℚ) ^ (-1074 : Int) ≤ d) : 0 < rounded d := by
  have unit : (0 : ℚ) < 2 ^ exponent d := zpow_pos two_pos _
  have positive : 0 < d := lt_of_lt_of_le (zpow_pos two_pos _) least
  have fraction : ((1 : Int) : ℚ) ≤ d / 2 ^ exponent d := by
    rw [le_div_iff₀ unit, Int.cast_one, one_mul]
    rcases (exponent_least d).lt_or_eq with normal | same
    · have size := exponent_le positive.ne' normal
      rw [abs_of_pos positive] at size
      exact (zpow_le_zpow_right₀ one_le_two (by omega)).trans size
    · rw [← same]
      exact least
  have whole : (1 : Int) ≤ roundHalfEven (d / 2 ^ exponent d) := by
    rw [← roundHalfEven_int 1]
    exact roundHalfEven_mono fraction
  refine mul_pos ?_ unit
  exact_mod_cast whole

theorem zero_eq : (0 : Number) = .finite 0 := congrArg Number.finite Nat.cast_zero

theorem sub_pos_iff {p h : ℚ} (grid : OnGrid (.finite p)) (grid' : OnGrid (.finite h)) :
    0 < rounded (p + -h) ↔ h < p := by
  constructor
  · intro up
    by_contra under
    have down := @rounded_nonpos (p + -h) (by linarith)
    linarith
  intro more
  refine rounded_pos ?_
  obtain ⟨k, rfl⟩ := grid
  obtain ⟨j, rfl⟩ := grid'
  have unit : (0 : ℚ) < 2 ^ (-1074 : Int) := zpow_pos two_pos _
  have less : j < k := by exact_mod_cast lt_of_mul_lt_mul_right more unit.le
  have step : (1 : ℚ) ≤ k - j := by
    have : (j : ℚ) + 1 ≤ k := by exact_mod_cast less
    linarith
  calc (2 : ℚ) ^ (-1074 : Int) = 1 * 2 ^ (-1074 : Int) := (one_mul _).symm
    _ ≤ (k - j) * 2 ^ (-1074 : Int) := mul_le_mul_of_nonneg_right step unit.le
    _ = k * 2 ^ (-1074 : Int) + -(j * 2 ^ (-1074 : Int)) := by ring

theorem max_zero_nearest (d : ℚ) : Number.max 0 (nearest d) = 0 ↔ rounded d ≤ 0 := by
  rw [nearest_eq, zero_eq]
  by_cases far : (2 : ℚ) ^ (1024 : Int) ≤ |rounded d|
  · have positive : (0 : ℚ) < 2 ^ (1024 : Int) := zpow_pos two_pos _
    rw [if_pos far]
    by_cases size : d < 0
    · simp [Number.max, lt, size, rounded_nonpos size.le]
    have up := rounded_nonneg (le_of_not_gt size)
    rw [abs_of_nonneg up] at far
    have more : 0 < rounded d := lt_of_lt_of_le positive far
    simp [Number.max, lt, size, more]
  · rw [if_neg far]
    by_cases more : 0 < rounded d
    · simp [Number.max, lt, more.ne']
    · simp [Number.max, lt, le_of_not_gt more]

theorem le_of_over {x h : Number} (grid : OnGrid x) (grid' : OnGrid h) (none : Number.max 0 (sub x h) = 0) :
    Number.le x h = true := by
  rw [sub] at none
  cases x with
  | nan => cases h <;> simp [add, Number.max] at none
  | infinity negative =>
    cases h with
    | nan => cases none
    | infinity other => cases negative <;> cases other <;> simp_all [negate, add, Number.max, lt, Number.le]
    | finite q => cases negative <;> simp_all [negate, add, Number.max, lt, Number.le]
  | finite p =>
    cases h with
    | nan => cases none
    | infinity other => cases other <;> simp_all [negate, add, Number.max, lt, Number.le]
    | finite q =>
      have down := (max_zero_nearest (p + -q)).mp none
      have order : p ≤ q := le_of_not_gt (fun more => absurd ((sub_pos_iff grid grid').mpr more) (not_lt_of_ge down))
      simpa [Number.le] using order

theorem over_of_le {x : Number} {h : ℚ} (grid : OnGrid x) (grid' : OnGrid (.finite h))
    (under : Number.le x (.finite h) = true) : Number.max 0 (sub x (.finite h)) = 0 := by
  cases x with
  | nan => cases under
  | infinity negative =>
    cases negative with
    | true => simp [sub, negate, add, Number.max, lt]
    | false => cases under
  | finite p =>
    have order : p ≤ h := of_decide_eq_true under
    refine (max_zero_nearest (p + -h)).mpr ?_
    exact le_of_not_gt (fun more => absurd ((sub_pos_iff grid grid').mp more) (not_lt_of_ge order))

end HostingPlatform.Js.Number
