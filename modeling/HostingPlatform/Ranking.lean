import Mathlib.Data.List.Sort

/-! Which elements stand among the first ones of a sorted list, where the sort may place
elements of equal rank in any order. -/
namespace HostingPlatform.Ranking

open List

variable {A K : Type} [LinearOrder K]

def smaller (rank : A → K) (l : List A) (a : A) : List A :=
  l.filter (fun b => decide (rank b < rank a))

variable {rank : A → K} {l : List A} {a : A} {n : Nat}

theorem smaller_perm {l' : List A} (perm : l.Perm l') (a : A) :
    (smaller rank l a).length = (smaller rank l' a).length :=
  (perm.filter _).length_eq

theorem smaller_lt_of_mem_take (sorted : l.Pairwise (fun b c => ¬ rank c < rank b)) (mem : a ∈ l.take n) :
    (smaller rank l a).length < n := by
  induction l generalizing n with
  | nil => simp at mem
  | cons b rest ih =>
    obtain ⟨first, tail⟩ := pairwise_cons.mp sorted
    cases n with
    | zero => simp at mem
    | succ n =>
      rcases mem_cons.mp mem with rfl | later
      · have none : smaller rank (a :: rest) a = [] := by
          refine filter_eq_nil_iff.mpr ?_
          intro c memC
          rcases mem_cons.mp memC with rfl | memRest
          · simp
          · simpa using first c memRest
        rw [none]
        exact Nat.zero_lt_succ n
      · have lower := ih tail later
        unfold smaller at lower ⊢
        rw [filter_cons]
        split
        · rw [length_cons]
          omega
        · omega

/-- The order by rank in which one element comes before its equals. -/
def Favors (rank : A → K) (a b c : A) : Prop := rank b < rank c ∨ rank b = rank c ∧ (b = a ∨ c ≠ a)

instance decFavors [DecidableEq A] (rank : A → K) (a : A) : DecidableRel (Favors rank a) :=
  fun b c =>
    inferInstanceAs (Decidable (rank b < rank c ∨ rank b = rank c ∧ (b = a ∨ c ≠ a)))

theorem favors_total (rank : A → K) (a b c : A) : Favors rank a b c ∨ Favors rank a c b := by
  rcases lt_trichotomy (rank b) (rank c) with less | same | less
  · exact .inl (.inl less)
  · by_cases favored : c = a
    · exact .inr (.inr ⟨same.symm, .inl favored⟩)
    · exact .inl (.inr ⟨same, .inr favored⟩)
  · exact .inr (.inl less)

theorem favors_trans {b c d : A} (first : Favors rank a b c) (second : Favors rank a c d) : Favors rank a b d := by
  rcases first with less | ⟨same, favored⟩
  · rcases second with less' | ⟨same', _⟩
    · exact .inl (lt_trans less less')
    · exact .inl (same' ▸ less)
  rcases second with less' | ⟨same', favored'⟩
  · exact .inl (same ▸ less')
  refine .inr ⟨same.trans same', ?_⟩
  rcases favored with rfl | other
  · exact .inl rfl
  · exact .inr (fun last => favored'.elim other (fun differs => differs last))

instance (rank : A → K) (a : A) : Std.Total (Favors rank a) := ⟨favors_total rank a⟩

instance (rank : A → K) (a : A) : IsTrans A (Favors rank a) := ⟨fun _ _ _ => favors_trans⟩

theorem not_less_of_favors {b c : A} (favors : Favors rank a b c) : ¬ rank c < rank b := by
  rcases favors with less | ⟨same, _⟩
  · exact lt_asymm less
  · rw [same]
    exact lt_irrefl (rank c)

theorem mem_take_of_favored (sorted : l.Pairwise (Favors rank a)) (mem : a ∈ l)
    (few : (smaller rank l a).length < n) : a ∈ l.take n := by
  induction l generalizing n with
  | nil => contradiction
  | cons b rest ih =>
    obtain ⟨first, tail⟩ := pairwise_cons.mp sorted
    cases n with
    | zero => exact absurd few (Nat.not_lt_zero _)
    | succ n =>
      by_cases here : a = b
      · exact mem_cons.mpr (.inl here)
      have later := (mem_cons.mp mem).resolve_left here
      refine mem_cons.mpr (.inr (ih tail later ?_))
      have less : rank b < rank a := by
        rcases first a later with less | ⟨_, favored | other⟩
        · exact less
        · exact absurd favored.symm here
        · exact absurd rfl other
      unfold smaller at few ⊢
      rw [filter_cons_of_pos (by simpa using less), length_cons] at few
      omega

theorem before_of_not_mem_take {R : A → A → Prop} (sorted : l.Pairwise R) (mem : a ∈ l) (out : a ∉ l.take n) :
    (l.take n).length = n ∧ ∀ b ∈ l.take n, R b a := by
  rw [← take_append_drop n l] at mem sorted
  have rest := (mem_append.mp mem).resolve_left out
  refine ⟨?_, fun b there => (pairwise_append.mp sorted).2.2 b there a rest⟩
  have longer := length_pos_of_mem rest
  rw [length_drop] at longer
  rw [length_take]
  omega

theorem smaller_two_le {b c : A} (sorted : l.Pairwise (fun b c => ¬ rank c < rank b))
    (both : Sublist [b, c] (l.take n)) (equal : rank b = rank c) : (smaller rank l c).length + 2 ≤ n := by
  induction l generalizing n with
  | nil =>
    rw [take_nil] at both
    cases both
  | cons a rest ih =>
    obtain ⟨first, tail⟩ := pairwise_cons.mp sorted
    cases n with
    | zero =>
      cases both
    | succ n =>
      cases both with
      | cons _ later =>
        have fewer := ih tail later
        unfold smaller at fewer ⊢
        rw [filter_cons]
        split
        · rw [length_cons]
          omega
        · omega
      | cons_cons _ last =>
        have mem : c ∈ rest.take n := singleton_sublist.mp last
        have room := length_pos_of_mem mem
        rw [length_take] at room
        have none : smaller rank (b :: rest) c = [] := by
          refine filter_eq_nil_iff.mpr ?_
          intro d memD
          rcases mem_cons.mp memD with rfl | memRest
          · simp [equal]
          · simpa [← equal] using first d memRest
        rw [none, length_nil]
        omega

theorem exists_sorted_before (rank : A → K) {b c : A} {rest : List A} (order : ¬ rank c < rank b) :
    ∃ front back, (front ++ c :: back).Perm (b :: c :: rest) ∧ b ∈ front ∧
      front.length = (smaller rank rest c).length + 1 ∧
      (front ++ c :: back).Pairwise (fun b c => ¬ rank c < rank b) := by
  classical
  let R : A → A → Prop := fun x y => rank x ≤ rank y
  let low := b :: smaller rank rest c
  let high := rest.filter (fun d => !decide (rank d < rank c))
  have permLow := perm_insertionSort R low
  have permHigh := perm_insertionSort R high
  have lows : ∀ d ∈ low.insertionSort R, rank d ≤ rank c := by
    intro d mem
    rcases mem_cons.mp (permLow.mem_iff.mp mem) with rfl | less
    · exact not_lt.mp order
    · exact le_of_lt (of_decide_eq_true (mem_filter.mp less).2)
  have highs : ∀ d ∈ high.insertionSort R, rank c ≤ rank d := by
    intro d mem
    have kept := (mem_filter.mp (permHigh.mem_iff.mp mem)).2
    simpa using kept
  refine ⟨low.insertionSort R, high.insertionSort R, ?_, ?_, ?_, ?_⟩
  · have split : (smaller rank rest c ++ high).Perm rest :=
      filter_append_perm (fun d => decide (rank d < rank c)) rest
    have whole := permLow.append (permHigh.cons c)
    refine whole.trans ?_
    exact (perm_middle.trans (split.cons c)).cons b
  · exact permLow.mem_iff.mpr mem_cons_self
  · rw [permLow.length_eq, length_cons]
  have inside : ∀ l : List A, (l.insertionSort R).Pairwise (fun b c => ¬ rank c < rank b) :=
    fun l => (pairwise_insertionSort R l).imp (fun le => not_lt.mpr le)
  refine pairwise_append.mpr ⟨inside low, ?_, ?_⟩
  · exact pairwise_cons.mpr ⟨fun d mem => not_lt.mpr (highs d mem), inside high⟩
  intro d mem e memE
  have below := lows d mem
  rcases mem_cons.mp memE with rfl | above
  · exact not_lt.mpr below
  · exact not_lt.mpr (le_trans below (highs e above))

theorem pairwise_take_iff {rank : A → K} {R : A → A → Prop} {l : List A} {n : Nat} :
    (∀ sorted : List A, sorted.Perm l → sorted.Pairwise (fun b c => ¬ rank c < rank b) →
        (sorted.take n).Pairwise R) ↔
      ∀ b c rest, l.Perm (b :: c :: rest) → ¬ rank c < rank b → (smaller rank rest c).length + 2 ≤ n → R b c := by
  constructor
  · intro all b c rest perm order room
    obtain ⟨front, back, same, mem, length, sorted⟩ :
        ∃ front back, (front ++ c :: back).Perm (b :: c :: rest) ∧ _ := exists_sorted_before rank order
    have pairs := all (front ++ c :: back) (same.trans perm.symm) sorted
    obtain ⟨k, rfl⟩ := Nat.exists_eq_add_of_le room
    have first : (front ++ c :: back).take ((smaller rank rest c).length + 2 + k) = front ++ c :: back.take k := by
      rw [take_append, take_of_length_le (by omega), length]
      have left : (smaller rank rest c).length + 2 + k - ((smaller rank rest c).length + 1) = k + 1 := by omega
      rw [left, take_succ_cons]
    rw [first] at pairs
    exact (pairwise_append.mp pairs).2.2 b mem c mem_cons_self
  · intro all sorted perm ordered
    rw [pairwise_iff_forall_sublist]
    intro b c both
    obtain ⟨rest, split⟩ := (both.trans (take_sublist n sorted)).exists_perm_append
    have order : ¬ rank c < rank b := pairwise_iff_forall_sublist.mp ordered (both.trans (take_sublist n sorted))
    refine all b c rest (perm.symm.trans split) order ?_
    have count : (smaller rank sorted c).length = (smaller rank (b :: c :: rest) c).length := smaller_perm split c
    rcases lt_or_eq_of_le (not_lt.mp order) with less | equal
    · have few := smaller_lt_of_mem_take ordered (both.subset (mem_cons_of_mem b mem_cons_self))
      simp [smaller, less] at count
      unfold smaller at few
      unfold smaller
      omega
    have room := smaller_two_le ordered both equal
    simp [smaller, equal] at count
    unfold smaller at room
    unfold smaller
    omega

end HostingPlatform.Ranking
