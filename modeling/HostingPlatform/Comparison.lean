import Mathlib.Algebra.Order.Ring.Rat
import Mathlib.Data.Sign.Basic

/-! Comparisons by a number that is negative, zero or positive, and lists compared by them place by place. -/
namespace HostingPlatform.Comparison

open List SignType

variable {α : Type*} {compare : α → α → ℚ} {among : α → Prop} {a b c : α}

/-- The sign of a comparison turns around with the two that are compared, and it is transitive. -/
structure Consistent (compare : α → α → ℚ) (among : α → Prop) : Prop where
  turned : ∀ a b, among a → among b → sign (compare a b) = -sign (compare b a)
  trans : ∀ a b c, among a → among b → among c → compare a b ≤ 0 → compare b c ≤ 0 → compare a c ≤ 0

theorem turned_of (neg : ∀ a b, among a → among b → (compare a b < 0 ↔ 0 < compare b a)) (ha : among a) (hb : among b) :
    sign (compare a b) = -sign (compare b a) := by
  rcases lt_trichotomy (compare a b) 0 with lt | same | gt
  · rw [sign_neg lt, sign_pos ((neg a b ha hb).mp lt)]
  · have above := (neg a b ha hb).not.mp (same ▸ lt_irrefl _)
    have below := (neg b a hb ha).not.mpr (same ▸ lt_irrefl _)
    rw [same, le_antisymm (not_lt.mp above) (not_lt.mp below), sign_zero, neg_zero]
  · rw [sign_pos gt, sign_neg ((neg b a hb ha).mpr gt), neg_neg]

namespace Consistent

open List

variable (consistent : Consistent compare among)
include consistent

theorem neg_iff (ha : among a) (hb : among b) : compare a b < 0 ↔ 0 < compare b a := by
  rw [← sign_eq_neg_one_iff, consistent.turned a b ha hb, neg_eq_iff_eq_neg, neg_neg, sign_eq_one_iff]

theorem nonpos_iff (ha : among a) (hb : among b) : compare a b ≤ 0 ↔ 0 ≤ compare b a := by
  rw [← not_lt, ← not_lt, consistent.neg_iff hb ha]

theorem self (ha : among a) : compare a a = 0 :=
  have nonpos : compare a a ≤ 0 := not_lt.mp (fun pos => lt_asymm pos ((consistent.neg_iff ha ha).mpr pos))
  le_antisymm nonpos ((consistent.nonpos_iff ha ha).mp nonpos)

theorem neg_trans (ha : among a) (hb : among b) (hc : among c) (lt : compare a b < 0) (le : compare b c ≤ 0) :
    compare a c < 0 := by
  refine (consistent.neg_iff ha hc).mpr (not_le.mp (fun back => ?_))
  exact absurd (consistent.trans b c a hb hc ha le back) (not_le.mpr ((consistent.neg_iff ha hb).mp lt))

theorem trans_neg (ha : among a) (hb : among b) (hc : among c) (le : compare a b ≤ 0) (lt : compare b c < 0) :
    compare a c < 0 := by
  refine (consistent.neg_iff ha hc).mpr (not_le.mp (fun back => ?_))
  exact absurd (consistent.trans c a b hc ha hb back le) (not_le.mpr ((consistent.neg_iff hb hc).mp lt))

end Consistent

def inPlaces (compare : Option α → Option α → ℚ) : Nat → List α → List α → ℚ
  | 0, _, _ => 0
  | n + 1, as, bs =>
    let first := compare as.head? bs.head?
    if first ≠ 0 then first else inPlaces compare n as.tail bs.tail

section places

variable {compare compare' : Option α → Option α → ℚ} {among : Option α → Prop} {n : Nat} {as bs cs : List α}

theorem inPlaces_enough (missing : compare none none = 0) (enoughA : as.length ≤ n) (enoughB : bs.length ≤ n) :
    inPlaces compare (max as.length bs.length) as bs = inPlaces compare n as bs := by
  induction n generalizing as bs with
  | zero =>
    obtain rfl := length_eq_zero_iff.mp (Nat.le_zero.mp enoughA)
    obtain rfl := length_eq_zero_iff.mp (Nat.le_zero.mp enoughB)
    rfl
  | succ n ih =>
    have tails := @ih as.tail bs.tail (by simp; omega) (by simp; omega)
    match as, bs with
    | [], [] => simpa [inPlaces, missing] using tails
    | [], b :: bs => simpa [inPlaces] using congrArg (ite _ _) tails
    | a :: as, [] => simpa [inPlaces] using congrArg (ite _ _) tails
    | a :: as, b :: bs => simpa [inPlaces] using congrArg (ite _ _) tails

theorem inPlaces_append (same : ∀ a ∈ cs, compare (some a) (some a) = 0) :
    inPlaces compare (cs.length + n) (cs ++ as) (cs ++ bs) = inPlaces compare n as bs := by
  induction cs with
  | nil => simp
  | cons c cs ih =>
    obtain ⟨here, later⟩ := forall_mem_cons.mp same
    rw [length_cons, Nat.succ_add, inPlaces]
    simpa [here] using ih later

theorem heads_among (missing : among none) (all : ∀ a ∈ as, among (some a)) :
    among as.head? ∧ ∀ a ∈ as.tail, among (some a) := by
  cases as with
  | nil => exact ⟨missing, nofun⟩
  | cons a as => exact ⟨all a mem_cons_self, fun b mem => all b (mem_cons_of_mem a mem)⟩

variable (among) in
theorem sign_inPlaces (missing : among none)
    (same : ∀ a b, among a → among b → sign (compare a b) = sign (compare' a b))
    (allA : ∀ a ∈ as, among (some a)) (allB : ∀ b ∈ bs, among (some b)) :
    sign (inPlaces compare n as bs) = sign (inPlaces compare' n as bs) := by
  induction n generalizing as bs with
  | zero => rfl
  | succ n ih =>
    obtain ⟨headA, tailA⟩ := heads_among missing allA
    obtain ⟨headB, tailB⟩ := heads_among missing allB
    have first := same _ _ headA headB
    have zero : compare as.head? bs.head? = 0 ↔ compare' as.head? bs.head? = 0 := by
      rw [← sign_eq_zero_iff, first, sign_eq_zero_iff]
    simp only [inPlaces, ne_eq, ite_not, zero]
    split
    · exact ih tailA tailB
    · exact first

theorem Consistent.inPlaces (consistent : Consistent compare among) (missing : among none) (n : Nat) :
    Consistent (inPlaces compare n) (fun as => ∀ a ∈ as, among (some a)) where
  turned as bs allA allB := by
    induction n generalizing as bs with
    | zero => simp [Comparison.inPlaces]
    | succ n ih =>
      obtain ⟨headA, tailA⟩ := heads_among missing allA
      obtain ⟨headB, tailB⟩ := heads_among missing allB
      have first := consistent.turned _ _ headA headB
      have zero : compare as.head? bs.head? = 0 ↔ compare bs.head? as.head? = 0 := by
        rw [← sign_eq_zero_iff, first, neg_eq_zero_iff, sign_eq_zero_iff]
      simp only [Comparison.inPlaces, ite_not, zero]
      split
      · exact ih _ _ tailA tailB
      · exact first
  trans as bs cs allA allB allC := by
    induction n generalizing as bs cs with
    | zero => exact fun _ _ => le_rfl
    | succ n ih =>
      obtain ⟨headA, tailA⟩ := heads_among missing allA
      obtain ⟨headB, tailB⟩ := heads_among missing allB
      obtain ⟨headC, tailC⟩ := heads_among missing allC
      have unfolded : ∀ as bs : List α, Comparison.inPlaces compare (n + 1) as bs ≤ 0 ↔
          compare as.head? bs.head? < 0 ∨
            compare as.head? bs.head? = 0 ∧ Comparison.inPlaces compare n as.tail bs.tail ≤ 0 := by
        intro as bs
        simp only [Comparison.inPlaces, ite_not]
        split
        · rename_i zero
          simp [zero]
        · rename_i apart
          simp [apart, le_iff_lt_or_eq]
      rw [unfolded, unfolded, unfolded]
      rintro (lt | ⟨same, rest⟩) (lt' | ⟨same', rest'⟩)
      · exact .inl (consistent.neg_trans headA headB headC lt lt'.le)
      · exact .inl (consistent.neg_trans headA headB headC lt same'.le)
      · exact .inl (consistent.trans_neg headA headB headC same.le lt')
      rcases (consistent.trans _ _ _ headA headB headC same.le same'.le).lt_or_eq with lt | equal
      · exact .inl lt
      · exact .inr ⟨equal, ih _ _ _ tailA tailB tailC rest rest'⟩

/- all places, where a place that is missing in one of them is compared too -/
def inAll (compare : Option α → Option α → ℚ) (as bs : List α) : ℚ :=
  inPlaces compare (max as.length bs.length) as bs

theorem inAll_one (one : max as.length bs.length = 1) : inAll compare as bs = compare as.head? bs.head? := by
  rw [inAll, one]
  simp [inPlaces, eq_comm]

theorem inAll_cons {a b : α} (same : compare (some a) (some b) = 0) :
    inAll compare (a :: as) (b :: bs) = inAll compare as bs := by
  rw [inAll, length_cons, length_cons, Nat.add_max_add_right, inPlaces]
  simp [same, inAll]

theorem Consistent.inAll (consistent : Consistent compare among) (missing : among none) :
    Consistent (inAll compare) (fun as => ∀ a ∈ as, among (some a)) where
  turned as bs allA allB := by
    rw [Comparison.inAll, max_comm]
    exact (consistent.inPlaces missing _).turned as bs allA allB
  trans as bs cs allA allB allC := by
    obtain ⟨n, size⟩ : ∃ n, n = as.length + bs.length + cs.length := ⟨_, rfl⟩
    have enough : ∀ as bs : List α, as.length ≤ n → bs.length ≤ n →
        Comparison.inAll compare as bs = Comparison.inPlaces compare n as bs :=
      fun as bs => inPlaces_enough (consistent.self missing)
    rw [enough as bs (by omega) (by omega), enough bs cs (by omega) (by omega), enough as cs (by omega) (by omega)]
    exact (consistent.inPlaces missing n).trans as bs cs allA allB allC

end places

theorem Consistent.greatest (consistent : Consistent compare among)
    {rows rows' : List α} (all : ∀ a ∈ rows, among a) (perm : rows.Perm rows')
    (first : a ∈ (rows.insertionSort (fun a b => compare b a ≤ 0)).head?)
    (first' : b ∈ (rows'.insertionSort (fun a b => compare b a ≤ 0)).head?) : compare a b = 0 := by
  have upto : ∀ {rows : List α} {a : α}, (∀ a ∈ rows, among a) →
      a ∈ (rows.insertionSort (fun a b => compare b a ≤ 0)).head? → ∀ b ∈ rows, compare b a ≤ 0 := by
    intro rows a all first b mem
    lift rows to List {a // among a} using all
    let r : {a // among a} → {a // among a} → Prop := fun a b => compare b.1 a.1 ≤ 0
    have total : Std.Total r := ⟨fun a b => by
      rw [show r b a ↔ 0 ≤ compare b.1 a.1 from consistent.nonpos_iff a.2 b.2]
      exact le_total _ _⟩
    have trans : IsTrans _ r := ⟨fun a b c le le' => consistent.trans c.1 b.1 a.1 c.2 b.2 a.2 le' le⟩
    have sorted := pairwise_insertionSort r rows
    rw [← map_insertionSort r _ Subtype.val rows (fun _ _ _ _ => Iff.rfl)] at first
    obtain ⟨b, here, rfl⟩ := mem_map.mp mem
    have mem' := (mem_insertionSort r).mpr here
    cases listed : rows.insertionSort r with
    | nil => simp [listed] at mem'
    | cons d rest =>
      obtain rfl : d.1 = a := by simpa [listed] using first
      rw [listed] at mem' sorted
      rcases mem_cons.mp mem' with rfl | later
      · exact (consistent.self b.2).le
      · exact rel_of_pairwise_cons sorted later
  have all' : ∀ b ∈ rows', among b := fun b mem => all b (perm.mem_iff.mpr mem)
  have memA := (mem_insertionSort _).mp (mem_of_head? first)
  have memB := (mem_insertionSort _).mp (mem_of_head? first')
  exact le_antisymm (upto all' first' a (perm.mem_iff.mp memA))
    ((consistent.nonpos_iff (all' b memB) (all a memA)).mp (upto all first b (perm.mem_iff.mpr memB)))

end HostingPlatform.Comparison
