import Mathlib.Data.Nat.Digits.Lemmas

/-! Numbers written with a fixed count of digits, the most significant first, and the
addition of a carry into such a number, which wraps around at its width. -/
namespace HostingPlatform.Digits

open List

def groups (count base value : Nat) : List Nat :=
  (List.range count).map (fun i => value / base ^ (count - 1 - i) % base)

def value (base : Nat) (ds : List Nat) : Nat := Nat.ofDigits base ds.reverse

/- into the least significant digit first; a carry of zero ends the loop -/
def addCarry (base : Nat) : List Nat → Nat → List Nat
  | [], _ => []
  | d :: rest, carry =>
    (d + carry) % base ::
      (if (d + carry) / base = 0 then rest else addCarry base rest ((d + carry) / base))

theorem length_groups (count base v : Nat) : (groups count base v).length = count := by
  simp [groups]

theorem groups_lt {count base v : Nat} (positive : 0 < base) : ∀ d ∈ groups count base v, d < base := by
  intro d mem
  obtain ⟨i, _, rfl⟩ := mem_map.mp mem
  exact Nat.mod_lt _ positive

theorem groups_succ (count base v : Nat) : groups (count + 1) base v = groups count base (v / base) ++ [v % base] := by
  unfold groups
  rw [range_succ, map_append]
  congr 1
  · refine map_congr_left ?_
    intro i mem
    have below : i < count := mem_range.mp mem
    have exponent : count + 1 - 1 - i = count - 1 - i + 1 := by omega
    rw [exponent, Nat.pow_succ, Nat.mul_comm, Nat.div_div_eq_div_mul]
  · simp

theorem value_groups (count base v : Nat) : value base (groups count base v) = v % base ^ count := by
  induction count generalizing v with
  | zero => simp [value, groups, Nat.mod_one]
  | succ count ih =>
    have lower := ih (v / base)
    unfold value at lower ⊢
    rw [groups_succ, reverse_append, reverse_singleton, singleton_append,
      Nat.ofDigits_cons, lower, Nat.pow_succ, Nat.mul_comm (base ^ count), Nat.mod_mul]

theorem ofDigits_addCarry {base : Nat} (large : 1 < base) {ds : List Nat} (digits : ∀ d ∈ ds, d < base) (carry : Nat) :
    Nat.ofDigits base (addCarry base ds carry) = (Nat.ofDigits base ds + carry) % base ^ ds.length := by
  induction ds generalizing carry with
  | nil => simp [addCarry, Nat.mod_one]
  | cons d rest ih =>
    have digitsRest : ∀ e ∈ rest, e < base := fun e mem => digits e (mem_cons_of_mem d mem)
    have upper : Nat.ofDigits base
        (if (d + carry) / base = 0 then rest else addCarry base rest ((d + carry) / base)) =
        (Nat.ofDigits base rest + (d + carry) / base) % base ^ rest.length := by
      split
      · rename_i none
        rw [none, Nat.add_zero, Nat.mod_eq_of_lt (Nat.ofDigits_lt_base_pow_length large digitsRest)]
      · exact ih digitsRest ((d + carry) / base)
    have whole : d + base * Nat.ofDigits base rest + carry = d + carry + base * Nat.ofDigits base rest := by ring
    rw [addCarry, Nat.ofDigits_cons, Nat.ofDigits_cons, upper, length_cons, Nat.pow_succ,
      Nat.mul_comm (base ^ rest.length), Nat.mod_mul, whole, Nat.add_mul_mod_self_left,
      Nat.add_mul_div_left _ _ (Nat.lt_trans Nat.zero_lt_one large),
      Nat.add_comm ((d + carry) / base)]

theorem ofDigits_add_at {base : Nat} (large : 1 < base) {ds : List Nat}
    (digits : ∀ d ∈ ds, d < base) {low : Nat} (fits : low ≤ ds.length) (carry : Nat) :
    Nat.ofDigits base (ds.take low ++ addCarry base (ds.drop low) carry) =
      (Nat.ofDigits base ds + base ^ low * carry) % base ^ ds.length := by
  have split : Nat.ofDigits base ds =
      Nat.ofDigits base (ds.take low) + base ^ low * Nat.ofDigits base (ds.drop low) := by
    conv_lhs => rw [← take_append_drop low ds, Nat.ofDigits_append, length_take_of_le fits]
  have lowest : Nat.ofDigits base (ds.take low) < base ^ low := by
    have bound := Nat.ofDigits_lt_base_pow_length large
      (fun d mem => digits d (mem_of_mem_take mem) : ∀ d ∈ ds.take low, d < base)
    rwa [length_take_of_le fits] at bound
  have width : base ^ ds.length = base ^ low * base ^ (ds.drop low).length := by
    rw [length_drop, ← Nat.pow_add, Nat.add_sub_cancel' fits]
  have regroup : Nat.ofDigits base (ds.take low) + base ^ low * Nat.ofDigits base (ds.drop low) +
      base ^ low * carry = Nat.ofDigits base (ds.take low) +
        base ^ low * (Nat.ofDigits base (ds.drop low) + carry) := by ring
  rw [Nat.ofDigits_append, length_take_of_le fits,
    ofDigits_addCarry large (fun d mem => digits d (mem_of_mem_drop mem)), split, regroup, width,
    Nat.mod_mul, Nat.add_mul_mod_self_left, Nat.mod_eq_of_lt lowest,
    Nat.add_mul_div_left _ _ (Nat.pow_pos (Nat.lt_trans Nat.zero_lt_one large)),
    Nat.div_eq_of_lt lowest, Nat.zero_add]

end HostingPlatform.Digits
