import Mathlib.Data.Rat.Floor
import Mathlib.Data.Nat.Log

/-! JavaScript numbers: IEEE doubles, the finite ones as the rationals that they are, so that
the two zeros are one. -/
namespace HostingPlatform.Js

inductive Number where
  | nan
  | infinity (negative : Bool)
  | finite (q : ℚ)
  deriving DecidableEq

namespace Number

instance (n : Nat) : OfNat Number n := ⟨.finite n⟩

def roundHalfEven (q : ℚ) : Int :=
  let low := q.floor
  let rest := q - low
  if rest < 1 / 2 ∨ rest = 1 / 2 ∧ low % 2 = 0 then low else low + 1

/- the weight of the last of 53 bits, or of the last bit of the subnormal numbers -/
def exponent (q : ℚ) : Int :=
  let near : Int := (q.num.natAbs.log2 : Int) - q.den.log2 - 52
  max (if |q| < 2 ^ (near + 52) then near - 1 else near) (-1074)

def nearest (q : ℚ) : Number :=
  let unit : ℚ := 2 ^ exponent q
  let rounded := roundHalfEven (q / unit) * unit
  if (2 : ℚ) ^ (1024 : Int) ≤ |rounded| then .infinity (q < 0) else .finite rounded

def isFinite : Number → Bool
  | .finite _ => true
  | _ => false

/- an integer, or no finite number -/
def isWhole : Number → Bool
  | .finite q => q.den == 1
  | _ => true

def floor : Number → Number
  | .finite q => .finite q.floor
  | x => x

def round : Number → Number
  | .finite q => .finite (q + 1 / 2).floor
  | x => x

/- `x < y`, which no NaN satisfies -/
def lt : Number → Number → Bool
  | .finite p, .finite q => p < q
  | .infinity true, .finite _ => true
  | .finite _, .infinity false => true
  | .infinity true, .infinity false => true
  | _, _ => false

/- `x <= y`, which no NaN satisfies -/
def le : Number → Number → Bool
  | .finite p, .finite q => p ≤ q
  | .infinity true, .finite _ => true
  | .finite _, .infinity false => true
  | .infinity n, .infinity n' => n || !n'
  | _, _ => false

def min (x y : Number) : Number := if x = .nan ∨ y = .nan then .nan else if lt x y then x else y

def max (x y : Number) : Number := if x = .nan ∨ y = .nan then .nan else if lt x y then y else x

def add : Number → Number → Number
  | .finite p, .finite q => nearest (p + q)
  | .infinity n, .infinity n' => if n = n' then .infinity n else .nan
  | .infinity n, .finite _ => .infinity n
  | .finite _, .infinity n => .infinity n
  | _, _ => .nan

def mul : Number → Number → Number
  | .finite p, .finite q => nearest (p * q)
  | .infinity n, .infinity n' => .infinity (n != n')
  | .infinity n, .finite q => if q = 0 then .nan else .infinity (n != decide (q < 0))
  | .finite q, .infinity n => if q = 0 then .nan else .infinity (n != decide (q < 0))
  | _, _ => .nan

/- the place of the first digit before the point, for a positive number -/
def magnitude (q : ℚ) : Int :=
  if 1 ≤ q then Nat.log 10 q.floor.toNat + 1
  else
    let m := Nat.log 10 (1 / q).floor.toNat
    if q * 10 ^ m = 1 then 1 - m else -m

/- the fewest digits that are read back as the number, and the place of the first of them -/
def shortest (q : ℚ) : Nat → Nat → Nat × Int
  | 0, digits => ((q / 10 ^ (magnitude q - digits)).floor.toNat, magnitude q)
  | fuel + 1, digits =>
    let unit : ℚ := 10 ^ (magnitude q - digits)
    let low := (q / unit).floor.toNat
    let first := if q / unit - low ≤ 1 / 2 then low else low + 1
    let second := if q / unit - low ≤ 1 / 2 then low + 1 else low
    if nearest (first * unit) = .finite q then
      (first, magnitude q + if first = 10 ^ digits then 1 else 0)
    else if nearest (second * unit) = .finite q then
      (second, magnitude q + if second = 10 ^ digits then 1 else 0)
    else shortest q fuel (digits + 1)

def zeros (n : Nat) : String := String.ofList (List.replicate n '0')

/- the digits without the zeros at their end -/
def significant (s : Nat) : List Char :=
  ((Nat.toDigits 10 s).reverse.dropWhile (· == '0')).reverse

def positiveString (q : ℚ) : String :=
  let (s, place) := shortest q 16 1
  let ds := significant s
  let k : Int := ds.length
  if k ≤ place ∧ place ≤ 21 then String.ofList ds ++ zeros (place - k).toNat
  else if 0 < place ∧ place ≤ 21 then
    String.ofList (ds.take place.toNat) ++ "." ++ String.ofList (ds.drop place.toNat)
  else if -6 < place ∧ place ≤ 0 then "0." ++ zeros (-place).toNat ++ String.ofList ds
  else
    let sign := if 0 ≤ place - 1 then "+" else "-"
    let fraction := if ds.length = 1 then "" else "." ++ String.ofList (ds.drop 1)
    String.ofList (ds.take 1) ++ fraction ++ "e" ++ sign ++ toString (place - 1).natAbs

/- `String(x)`; the safe integers are written out in full -/
def string : Number → String
  | .nan => "NaN"
  | .infinity negative => if negative then "-Infinity" else "Infinity"
  | .finite q =>
    if q.den = 1 ∧ q.num.natAbs ≤ 9007199254740992 then
      (if q < 0 then "-" else "") ++ toString q.num.natAbs
    else if q < 0 then "-" ++ positiveString (-q)
    else positiveString q

theorem string_nat {n : Nat} (safe : n ≤ 9007199254740992) : (Number.finite n).string = toString n := by
  have positive : ¬ (n : ℚ) < 0 := not_lt.mpr (Nat.cast_nonneg n)
  simp [string, safe]

theorem isWhole_iff {x : Number} : x.isWhole = true ↔ ∀ q, x = .finite q → ∃ z : Int, q = z := by
  cases x with
  | finite q =>
    simp only [isWhole, beq_iff_eq, Number.finite.injEq, forall_eq']
    constructor
    · intro den
      exact ⟨q.num, (Rat.coe_int_num_of_den_eq_one den).symm⟩
    · rintro ⟨z, rfl⟩
      exact Rat.den_intCast z
  | nan | infinity n => simp [isWhole]

theorem roundHalfEven_int (z : Int) : roundHalfEven z = z := by
  simp [roundHalfEven]

theorem rounded_int {z : Int} (down : exponent z ≤ 0) :
    roundHalfEven (z / 2 ^ exponent z) * (2 : ℚ) ^ exponent z = z := by
  obtain ⟨n, same⟩ := Int.exists_eq_neg_ofNat down
  have multiple : (z : ℚ) / 2 ^ exponent z = (z * 2 ^ n : Int) := by
    rw [same, zpow_neg, div_inv_eq_mul]
    push_cast
    rfl
  rw [multiple, roundHalfEven_int, ← multiple]
  exact div_mul_cancel₀ _ (zpow_ne_zero _ two_ne_zero)

theorem nearest_whole (z : Int) : (nearest z).isWhole = true := by
  rw [isWhole_iff]
  intro q rounded
  unfold nearest at rounded
  dsimp only at rounded
  split at rounded
  · contradiction
  cases rounded
  rcases Int.le_total 0 (exponent z) with up | down
  · -- the unit is an integer
    obtain ⟨n, same⟩ := Int.eq_ofNat_of_zero_le up
    refine ⟨roundHalfEven (z / 2 ^ exponent z) * 2 ^ n, ?_⟩
    rw [same]
    push_cast
    rw [zpow_natCast]
  · exact ⟨z, rounded_int down⟩

theorem nearest_nat {n : Nat} (safe : n < 9007199254740992) : nearest n = .finite n := by
  have bits : n.log2 ≤ 52 := by
    rcases Nat.eq_zero_or_pos n with rfl | positive
    · decide
    · exact Nat.le_of_lt_succ ((Nat.log2_lt (by omega)).mpr safe)
  have down : exponent (n : ℚ) ≤ 0 := by
    have one : Nat.log2 1 = 0 := by decide
    simp only [exponent, Rat.num_natCast, Int.natAbs_natCast, Rat.den_natCast, one]
    refine max_le ?_ (by decide)
    split <;> omega
  have kept := rounded_int (z := n) (by simpa using down)
  have below : ¬ (2 : ℚ) ^ (1024 : Int) ≤ |(n : ℚ)| := by
    have less : (n : ℚ) < 2 ^ 53 := by exact_mod_cast safe
    have grows : (2 : ℚ) ^ 53 ≤ 2 ^ 1024 := pow_le_pow_right₀ (by norm_num) (by norm_num)
    rw [not_le]
    exact_mod_cast less.trans_le grows
  rw [Int.cast_natCast] at kept
  simp only [nearest, kept, if_neg below]

theorem floor_whole (x : Number) : x.floor.isWhole = true := by
  cases x with
  | finite q => exact isWhole_iff.mpr (fun p same => ⟨q.floor, (Number.finite.inj same).symm⟩)
  | nan => rfl
  | infinity n => rfl

theorem min_whole {x y : Number} (wholeX : x.isWhole = true) (wholeY : y.isWhole = true) :
    (min x y).isWhole = true := by
  unfold min
  repeat' split
  all_goals first | assumption | rfl

theorem mul_whole {x : Number} {z : Int} (whole : x.isWhole = true) : (mul x (.finite z)).isWhole = true := by
  cases x with
  | finite q =>
    obtain ⟨w, rfl⟩ := isWhole_iff.mp whole q rfl
    have product : (w : ℚ) * z = (w * z : Int) := by push_cast; rfl
    rw [mul, product]
    exact nearest_whole (w * z)
  | nan => rfl
  | infinity n =>
    simp only [mul]
    split <;> rfl

end Number

end HostingPlatform.Js
