import HostingPlatform.Js.Text

/-! Kubernetes quantities: a decimal number, signed or not, and a suffix that scales it. Of the
suffixes those up to `T` and `Ti` are here. No quantity is beyond 2^63 - 1. -/
namespace HostingPlatform

namespace Quantity

inductive Sign where
  | unsigned
  | plus
  | minus
  deriving DecidableEq

namespace Sign

def text : Sign → List Char
  | unsigned => []
  | plus => ['+']
  | minus => ['-']

def factor : Sign → ℚ
  | minus => -1
  | _ => 1

end Sign

/- `e` or `E`, and a whole number -/
structure Exponent where
  upper : Bool
  sign : Sign
  digits : List Char
  nonempty : digits ≠ []
  numeric : digits.all Char.isDigit
  deriving DecidableEq

namespace Exponent

def text (e : Exponent) : List Char := (if e.upper then 'E' else 'e') :: (e.sign.text ++ e.digits)

def value (e : Exponent) : Int :=
  if e.sign = .minus then -(Js.decimal e.digits : Int) else Js.decimal e.digits

end Exponent

inductive Suffix where
  | none
  | nano
  | micro
  | milli
  | kilo
  | mega
  | giga
  | tera
  | kibi
  | mebi
  | gibi
  | tebi
  | exponent (e : Exponent)
  deriving DecidableEq

namespace Suffix

def text : Suffix → List Char
  | none => []
  | nano => ['n']
  | micro => ['u']
  | milli => ['m']
  | kilo => ['k']
  | mega => ['M']
  | giga => ['G']
  | tera => ['T']
  | kibi => ['K', 'i']
  | mebi => ['M', 'i']
  | gibi => ['G', 'i']
  | tebi => ['T', 'i']
  | exponent e => e.text

def multiplier : Suffix → ℚ
  | none => 1
  | nano => 1 / 10 ^ 9
  | micro => 1 / 10 ^ 6
  | milli => 1 / 10 ^ 3
  | kilo => 10 ^ 3
  | mega => 10 ^ 6
  | giga => 10 ^ 9
  | tera => 10 ^ 12
  | kibi => 2 ^ 10
  | mebi => 2 ^ 20
  | gibi => 2 ^ 30
  | tebi => 2 ^ 40
  | exponent e => 10 ^ e.value

theorem multiplier_pos (s : Suffix) : 0 < s.multiplier := by
  cases s with
  | exponent e => exact zpow_pos (by norm_num) e.value
  | _ => norm_num [multiplier]

end Suffix

/- a sign, the digits before the point, and, when there is a point, those after it -/
structure Numeral where
  sign : Sign
  whole : List Char
  point : Option (List Char)

namespace Numeral

def fraction (n : Numeral) : List Char := n.point.getD []

def text (n : Numeral) : List Char :=
  n.sign.text ++ (n.whole ++ (n.point.map ('.' :: ·)).getD [])

def value (n : Numeral) : ℚ :=
  n.sign.factor * (Js.decimal (n.whole ++ n.fraction) / 10 ^ n.fraction.length)

/-- Without a sign, and with digits on both sides of a point. -/
def Plain (n : Numeral) : Prop := n.sign = .unsigned ∧ n.whole ≠ [] ∧ n.point ≠ some []

instance (n : Numeral) : Decidable n.Plain := inferInstanceAs (Decidable (_ ∧ _ ∧ _))

end Numeral

end Quantity

structure Quantity where
  numeral : Quantity.Numeral
  suffix : Quantity.Suffix
  nonempty : numeral.whole ++ numeral.fraction ≠ []
  numeric : (numeral.whole ++ numeral.fraction).all Char.isDigit
  inRange : |numeral.value * suffix.multiplier| ≤ 2 ^ 63 - 1

namespace Quantity

def text (q : Quantity) : String := String.ofList (q.numeral.text ++ q.suffix.text)

/- in cores or bytes -/
def value (q : Quantity) : ℚ := q.numeral.value * q.suffix.multiplier

end Quantity

end HostingPlatform
