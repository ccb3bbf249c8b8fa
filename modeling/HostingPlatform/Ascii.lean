import Mathlib.Data.Bool.Basic

/-! The letters and digits of ASCII by their codes. -/
namespace HostingPlatform.Ascii

theorem isUpper_iff {c : Char} : c.isUpper = true ↔ 65 ≤ c.toNat ∧ c.toNat ≤ 90 :=
  decide_eq_true_iff.trans (and_congr UInt32.le_iff_toNat_le UInt32.le_iff_toNat_le)

theorem isLower_iff {c : Char} : c.isLower = true ↔ 97 ≤ c.toNat ∧ c.toNat ≤ 122 :=
  Bool.and_eq_true_iff.trans (and_congr (decide_eq_true_iff.trans UInt32.le_iff_toNat_le)
    (decide_eq_true_iff.trans UInt32.le_iff_toNat_le))

theorem isDigit_iff {c : Char} : c.isDigit = true ↔ 48 ≤ c.toNat ∧ c.toNat ≤ 57 :=
  Bool.and_eq_true_iff.trans (and_congr (decide_eq_true_iff.trans UInt32.le_iff_toNat_le)
    (decide_eq_true_iff.trans UInt32.le_iff_toNat_le))

end HostingPlatform.Ascii
