import Mathlib.Logic.Basic

/-! Runs of a partial step function over a list of actions, and the induction
that carries an invariant along them. A run may be guarded: every action then
has to meet a condition on the state in which it is taken. -/
namespace HostingPlatform.Transition

def exec {S A : Type} (step : S → A → Option S) : S → List A → Option S
  | s, [] => some s
  | s, a :: rest => (step s a).bind (fun t => exec step t rest)

def Guarded {S A : Type} (step : S → A → Option S) (ok : S → A → Prop) :
    S → List A → Prop
  | _, [] => True
  | s, a :: rest => ok s a ∧ (step s a).elim True (fun t => Guarded step ok t rest)

instance decGuarded {S A : Type} (step : S → A → Option S) (ok : S → A → Prop)
    [∀ s a, Decidable (ok s a)] : ∀ s as, Decidable (Guarded step ok s as)
  | _, [] => isTrue trivial
  | s, a :: rest =>
    have _ : Decidable ((step s a).elim True (fun t => Guarded step ok t rest)) :=
      match step s a with
      | none => isTrue trivial
      | some t => decGuarded step ok t rest
    inferInstanceAs (Decidable (_ ∧ _))

section

variable {S A : Type} {step : S → A → Option S}

theorem exec_cons {s u : S} {a : A} {rest : List A} (run : exec step s (a :: rest) = some u) :
    ∃ t, step s a = some t ∧ exec step t rest = some u :=
  Option.bind_eq_some_iff.mp run

theorem Guarded.tail {ok : S → A → Prop} {s t : S} {a : A} {rest : List A} (guarded : Guarded step ok s (a :: rest))
    (taken : step s a = some t) : Guarded step ok t rest := by
  have tail := guarded.2
  rw [taken] at tail
  exact tail

theorem Guarded.and {ok ok' : S → A → Prop} {s : S} {actions : List A} (guarded : Guarded step ok s actions)
    (guarded' : Guarded step ok' s actions) : Guarded step (fun s a => ok s a ∧ ok' s a) s actions := by
  induction actions generalizing s with
  | nil => trivial
  | cons a rest ih =>
    refine ⟨⟨guarded.1, guarded'.1⟩, ?_⟩
    cases taken : step s a with
    | none => trivial
    | some t => exact ih (guarded.tail taken) (guarded'.tail taken)

theorem guarded_congr {ok ok' : S → A → Prop} {actions : List A} (same : ∀ a ∈ actions, ∀ s, ok s a ↔ ok' s a) (s : S) :
    Guarded step ok s actions ↔ Guarded step ok' s actions := by
  induction actions generalizing s with
  | nil => exact Iff.rfl
  | cons a rest ih =>
    refine and_congr (same a List.mem_cons_self s) ?_
    cases step s a with
    | none => exact Iff.rfl
    | some t => exact ih (fun a' mem => same a' (List.mem_cons_of_mem _ mem)) t

theorem guarded_invariant {ok : S → A → Prop} {Inv : S → Prop}
    (preserves : ∀ s a t, Inv s → ok s a → step s a = some t → Inv t) {s t : S} {actions : List A} (initial : Inv s)
    (guarded : Guarded step ok s actions) (run : exec step s actions = some t) : Inv t := by
  induction actions generalizing s with
  | nil =>
    cases run
    exact initial
  | cons a rest ih =>
    obtain ⟨u, taken, tail⟩ := exec_cons run
    exact ih (preserves s a u initial guarded.1 taken) (guarded.tail taken) tail

theorem guarded_of_forall {ok : S → A → Prop}
    (always : ∀ s a, ok s a) (s : S) (actions : List A) : Guarded step ok s actions := by
  induction actions generalizing s with
  | nil => trivial
  | cons a rest ih =>
    refine ⟨always s a, ?_⟩
    cases step s a with
    | none => trivial
    | some t => exact ih t

end

/-- In every state that a run passes through, the first and the last among them. -/
def Always {S A : Type} (step : S → A → Option S) (P : S → Prop) (s : S) (actions : List A) : Prop :=
  ∀ front back u, actions = front ++ back → exec step s front = some u → P u

section

variable {S A : Type} {step : S → A → Option S} {ok : S → A → Prop}

theorem Guarded.front {s : S}
    {front back : List A} (guarded : Guarded step ok s (front ++ back)) : Guarded step ok s front := by
  induction front generalizing s with
  | nil => trivial
  | cons a rest ih =>
    refine ⟨guarded.1, ?_⟩
    cases taken : step s a with
    | none => trivial
    | some t => exact ih (guarded.tail taken)

theorem Guarded.back {s t : S} {front back : List A} (guarded : Guarded step ok s (front ++ back))
    (run : exec step s front = some t) : Guarded step ok t back := by
  induction front generalizing s with
  | nil =>
    cases run
    exact guarded
  | cons a rest ih =>
    obtain ⟨u, taken, tail⟩ := exec_cons run
    exact ih (guarded.tail taken) tail

theorem guarded_iff_always {Inv P : S → Prop}
    (preserves : ∀ s a t, Inv s → ok s a → step s a = some t → Inv t) (holds : ∀ s, Inv s → P s)
    (breaks : ∀ s a t, Inv s → ¬ ok s a → step s a = some t → ¬ P t)
    {s t : S} {actions : List A} (initial : Inv s) (run : exec step s actions = some t) :
    Guarded step ok s actions ↔ Always step P s actions := by
  constructor
  · rintro guarded front back u rfl reached
    exact holds u (guarded_invariant preserves initial guarded.front reached)
  intro always
  induction actions generalizing s with
  | nil => trivial
  | cons a rest ih =>
    obtain ⟨u, taken, tail⟩ := exec_cons run
    have here : ok s a := by
      refine Classical.byContradiction fun against => ?_
      refine breaks s a u initial against taken (always [a] rest u rfl ?_)
      simp [exec, taken]
    refine ⟨here, ?_⟩
    rw [taken]
    refine ih (preserves s a u initial here taken) tail ?_
    rintro front back v rfl reached
    refine always (a :: front) back v rfl ?_
    simp [exec, taken, reached]

end

/-- In every state of a run up to an action that ends what the property is about. -/
def Unless {S A : Type} (step : S → A → Option S) (P : S → Prop) (ends : S → A → Prop) : S → List A → Prop
  | s, [] => P s
  | s, a :: rest => P s ∧ (ends s a ∨ (step s a).elim True (fun t => Unless step P ends t rest))

/-- A guard on the actions up to one that ends what it is about. -/
def GuardedUnless {S A : Type} (step : S → A → Option S) (ok ends : S → A → Prop) : S → List A → Prop
  | _, [] => True
  | s, a :: rest => ends s a ∨ ok s a ∧ (step s a).elim True (fun t => GuardedUnless step ok ends t rest)

theorem guarded_iff_unless {S A : Type} {step : S → A → Option S} {ok ends : S → A → Prop} {P : S → Prop}
    (survives : ∀ s a t, P s → ¬ ends s a → step s a = some t → (P t ↔ ok s a))
    {s t : S} {actions : List A} (initial : P s) (run : exec step s actions = some t) :
    GuardedUnless step ok ends s actions ↔ Unless step P ends s actions := by
  induction actions generalizing s with
  | nil => simp [GuardedUnless, Unless, initial]
  | cons a rest ih =>
    obtain ⟨u, taken, tail⟩ := exec_cons run
    simp only [GuardedUnless, Unless, taken, initial, true_and]
    by_cases stops : ends s a
    · simp [stops]
    have here := survives s a u initial stops taken
    simp only [stops, false_or]
    constructor
    · rintro ⟨allowed, guarded⟩
      exact (ih (here.mpr allowed) tail).mp guarded
    intro held
    have kept : P u := by
      cases rest with
      | nil => exact held
      | cons b rest => exact held.1
    exact ⟨here.mp kept, (ih kept tail).mpr held⟩

end HostingPlatform.Transition
