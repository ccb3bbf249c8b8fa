import Mathlib.Data.List.Basic

/-! Names that are made of a base and, if there is one, a tail behind a separator. A base or a tail
may hold the separator as well, so that one name may be made in several ways. -/
namespace HostingPlatform.JoinedNames

open List

variable {A : Type} {sep : A}

def behind (sep : A) : Option (List A) → List A
  | none => []
  | some tail => sep :: tail

def join (sep : A) (base : List A) (tail : Option (List A)) : List A := base ++ behind sep tail

@[simp] theorem join_none (sep : A) (base : List A) : join sep base none = base := append_nil base

@[simp] theorem join_some (sep : A) (base tail : List A) :
    join sep base (some tail) = base ++ sep :: tail := rfl

theorem join_longer {base tail : List A} {s t : Option (List A)} (more : tail ≠ []) :
    join sep base s = join sep (base ++ tail) t ↔ ∃ rest, tail = sep :: rest ∧ s = some (join sep rest t) := by
  simp only [join, append_assoc, append_cancel_left_eq]
  constructor
  · intro same
    cases s with
    | none =>
      have empty : tail ++ behind sep t = [] := same.symm
      exact absurd (append_eq_nil_iff.mp empty).1 more
    | some s =>
      obtain ⟨c, rest, rfl⟩ := exists_cons_of_ne_nil more
      have cons : sep :: s = c :: (rest ++ behind sep t) := same
      obtain ⟨rfl, whole⟩ := List.cons.inj cons
      exact ⟨rest, rfl, congrArg some whole⟩
  · rintro ⟨rest, rfl, rfl⟩
    rfl

variable {a b : List A} {tails others : List (Option (List A))}

theorem join_eq_iff {s t : Option (List A)} (differ : a ≠ b) : join sep a s = join sep b t ↔
      (∃ rest, b = a ++ sep :: rest ∧ s = some (join sep rest t)) ∨
        ∃ rest, a = b ++ sep :: rest ∧ t = some (join sep rest s) := by
  constructor
  · intro same
    have longer := same
    rcases append_eq_append_iff.mp longer with ⟨tail, rfl, _⟩ | ⟨tail, rfl, _⟩
    · have more : tail ≠ [] := by
        rintro rfl
        exact differ (append_nil a).symm
      obtain ⟨rest, rfl, its⟩ := (join_longer more).mp same
      exact .inl ⟨rest, rfl, its⟩
    have more : tail ≠ [] := by
      rintro rfl
      exact differ (append_nil b)
    obtain ⟨rest, rfl, its⟩ := (join_longer more).mp same.symm
    exact .inr ⟨rest, rfl, its⟩
  · rintro (⟨rest, rfl, rfl⟩ | ⟨rest, rfl, rfl⟩)
    · exact (join_longer (cons_ne_nil sep rest)).mpr ⟨rest, rfl, rfl⟩
    · exact ((join_longer (cons_ne_nil sep rest)).mpr ⟨rest, rfl, rfl⟩).symm

/- what `b` adds to the name `a`, with any of its tails, is none of the tails of `a` -/
def Spares (sep : A) (a : List A) (tails : List (Option (List A))) (b : List A)
    (others : List (Option (List A))) : Prop :=
  ∀ rest, b = a ++ sep :: rest → ∀ t ∈ others, some (join sep rest t) ∉ tails

theorem spares_of_unlike (apart : ¬ (a ++ [sep]) <+: b) : Spares sep a tails b others := by
  rintro rest rfl
  exact absurd ⟨rest, append_assoc a [sep] rest⟩ apart

theorem disjoint_iff (differ : a ≠ b) : (tails.map (join sep a)).Disjoint (others.map (join sep b)) ↔
      Spares sep a tails b others ∧ Spares sep b others a tails := by
  constructor
  · intro disjoint
    constructor
    · rintro rest rfl t memT memS
      refine disjoint (mem_map_of_mem memS) (mem_map.mpr ⟨t, memT, ?_⟩)
      exact ((join_eq_iff differ).mpr (.inl ⟨rest, rfl, rfl⟩)).symm
    · rintro rest rfl s memS memT
      refine disjoint (mem_map.mpr ⟨s, memS, ?_⟩) (mem_map_of_mem memT)
      exact (join_eq_iff differ).mpr (.inr ⟨rest, rfl, rfl⟩)
  · rintro ⟨spares, spared⟩ name memS memT
    obtain ⟨s, inTails, rfl⟩ := mem_map.mp memS
    obtain ⟨t, inOthers, same⟩ := mem_map.mp memT
    rcases (join_eq_iff differ).mp same.symm with ⟨rest, longer, rfl⟩ | ⟨rest, longer, rfl⟩
    · exact spares rest longer t inOthers inTails
    · exact spared rest longer s inTails inOthers

theorem join_inj {a : List A} {s t : Option (List A)} (same : join sep a s = join sep a t) : s = t := by
  have tails := append_cancel_left same
  cases s with
  | none =>
    cases t with
    | none => rfl
    | some t => cases tails
  | some s =>
    cases t with
    | none => cases tails
    | some t => exact congrArg some (cons.inj tails).2

end HostingPlatform.JoinedNames
