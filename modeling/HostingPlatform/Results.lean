import Mathlib.Data.List.Forall2

/-! Computations that may end with an error. -/
namespace HostingPlatform.Results

open Option List

variable {E A B : Type}

variable {x : Except E A} {f : A → Except E B} {l : List A} {ys : List B}

theorem bind_ok {b : B} (ok : x.bind f = .ok b) : ∃ a, x = .ok a ∧ f a = .ok b := by
  cases x with
  | error e => contradiction
  | ok a => exact ⟨a, rfl, ok⟩

theorem map_ok {f : A → B} {b : B} (ok : x.map f = .ok b) : ∃ a, x = .ok a ∧ f a = b := by
  cases x with
  | error e => contradiction
  | ok a => exact ⟨a, rfl, Except.ok.inj ok⟩

theorem mapM_ok (ok : l.mapM f = .ok ys) : Forall₂ (fun a b => f a = .ok b) l ys := by
  induction l generalizing ys with
  | nil =>
    cases ok
    exact .nil
  | cons a rest ih =>
    rw [mapM_cons] at ok
    obtain ⟨b, head, ok⟩ := bind_ok ok
    obtain ⟨bs, later, ok⟩ := bind_ok ok
    cases ok
    exact .cons head (ih later)

theorem mapM_each (ok : l.mapM f = .ok ys) : ∀ a ∈ l, ∃ b, f a = .ok b := by
  intro a mem
  have each := mapM_ok ok
  clear ok
  induction each with
  | nil => exact absurd mem not_mem_nil
  | cons head later ih =>
    rcases mem_cons.mp mem with rfl | mem
    · exact ⟨_, head⟩
    · exact ih mem

theorem mapM_of_ok (all : ∀ a ∈ l, ∃ b, f a = .ok b) : ∃ ys, l.mapM f = .ok ys := by
  induction l with
  | nil => exact ⟨[], rfl⟩
  | cons a rest ih =>
    obtain ⟨b, head⟩ := all a mem_cons_self
    obtain ⟨bs, later⟩ := ih (fun a mem => all a (mem_cons_of_mem _ mem))
    refine ⟨b :: bs, ?_⟩
    rw [mapM_cons, head, later]
    rfl

theorem mapM_congr {g : A → Except E B} (same : ∀ a ∈ l, f a = g a) : l.mapM f = l.mapM g := by
  induction l with
  | nil => rfl
  | cons a rest ih =>
    rw [mapM_cons, mapM_cons, same a mem_cons_self, ih (fun a mem => same a (mem_cons_of_mem _ mem))]

theorem forall₂_both {R S : A → B → Prop} (first : Forall₂ R l ys) (second : Forall₂ S l ys) :
    ∀ a ∈ l, ∃ y ∈ ys, R a y ∧ S a y := by
  induction first with
  | nil => exact fun _ mem => absurd mem not_mem_nil
  | cons head _ ih =>
    cases second with
    | cons head' later =>
      intro a mem
      rcases mem_cons.mp mem with rfl | mem
      · exact ⟨_, mem_cons_self, head, head'⟩
      · obtain ⟨y, there, both⟩ := ih later a mem
        exact ⟨y, mem_cons_of_mem _ there, both⟩

theorem forall₂_forall {R : A → B → Prop} {P : A → Prop} {Q : B → Prop} (each : Forall₂ R l ys)
    (same : ∀ a b, R a b → (P a ↔ Q b)) : (∀ a ∈ l, P a) ↔ ∀ b ∈ ys, Q b := by
  induction each with
  | nil => exact iff_of_true (fun _ mem => absurd mem not_mem_nil) (fun _ mem => absurd mem not_mem_nil)
  | cons head _ ih => rw [forall_mem_cons, forall_mem_cons, same _ _ head, ih]

theorem mem_mapM_some {f : A → Option B} (done : l.mapM f = some ys) (y : B) : y ∈ ys ↔ ∃ a ∈ l, f a = some y := by
  induction l generalizing ys with
  | nil =>
    cases done
    simp
  | cons a rest ih =>
    rw [mapM_cons] at done
    obtain ⟨b, head, done⟩ := bind_eq_some_iff.mp done
    obtain ⟨bs, later, done⟩ := bind_eq_some_iff.mp done
    cases done
    rw [mem_cons, ih later, exists_mem_cons_iff, head, some.injEq, eq_comm]

theorem mapM_some_each {f : A → Option B} (done : l.mapM f = some ys) : ∀ a ∈ l, ∃ b, f a = some b := by
  induction l generalizing ys with
  | nil => exact fun _ mem => absurd mem not_mem_nil
  | cons a rest ih =>
    rw [mapM_cons] at done
    obtain ⟨b, head, done⟩ := bind_eq_some_iff.mp done
    obtain ⟨bs, later, _⟩ := bind_eq_some_iff.mp done
    rw [forall_mem_cons]
    exact ⟨⟨b, head⟩, ih later⟩

end HostingPlatform.Results
