import Mathlib.Data.List.Forall2

/-! Computations that may throw and that report issues on their way. One `Checks` a condition
when it reports a grave issue unless the condition holds, and when, if it holds, the value has
a property. -/
namespace HostingPlatform.Diagnosis

open Option List

variable {E I A B C : Type}

/- an error thrown, or a value with the issues reported on the way to it -/
def Diagnosed (E I A : Type) := Except E (A × List I)

namespace Diagnosed
open Option

open List

instance : Monad (Diagnosed E I) where
  pure a := Except.ok (a, [])
  bind m f :=
    match m with
    | .error e => .error e
    | .ok (a, is) =>
      match f a with
      | .error e => .error e
      | .ok (b, js) => .ok (b, is ++ js)

def report (i : I) : Diagnosed E I Unit := Except.ok ((), [i])

def lift : Except E A → Diagnosed E I A
  | .error e => Except.error e
  | .ok a => Except.ok (a, [])

/- a loop that collects what its turns yield; a turn is told its index and may yield nothing -/
def collect (f : Nat → A → Diagnosed E I (Option B)) (i : Nat) : List A → Diagnosed E I (List B)
  | [] => pure []
  | a :: rest => do
    let b ← f i a
    let bs ← collect f (i + 1) rest
    pure (b.toList ++ bs)

variable {is : List I}

theorem pure_eq_ok {a b : A} : (pure a : Diagnosed E I A) = .ok (b, is) ↔ a = b ∧ [] = is := by
  constructor
  · intro same
    cases same
    exact ⟨rfl, rfl⟩
  · rintro ⟨rfl, rfl⟩
    rfl

theorem bind_eq_ok {m : Diagnosed E I A} {f : A → Diagnosed E I B} {b : B} : m >>= f = .ok (b, is) ↔
      ∃ a first second, m = .ok (a, first) ∧ f a = .ok (b, second) ∧ is = first ++ second := by
  constructor
  · intro runs
    cases m with
    | error e => contradiction
    | ok result =>
      obtain ⟨a, first⟩ := result
      cases next : f a with
      | error e =>
        simp only [bind, next] at runs
        contradiction
      | ok last =>
        obtain ⟨b', second⟩ := last
        simp only [bind, next] at runs
        cases runs
        exact ⟨a, first, second, rfl, next, rfl⟩
  · rintro ⟨a, first, second, rfl, next, rfl⟩
    simp only [bind, next]
    rfl

end Diagnosed

open Diagnosed

section checks

variable (grave : I → Bool)

def clean (is : List I) : Bool := is.all (fun i => !grave i)

def Checks (m : Diagnosed E I A) (ok : Bool) (post : A → Prop) : Prop :=
  ∀ a is, m = .ok (a, is) → clean grave is = ok ∧ (ok = true → post a)

theorem clean_append (is js : List I) : clean grave (is ++ js) = (clean grave is && clean grave js) := all_append

variable {grave} {ok ok' : Bool} {post : A → Prop} {post' : B → Prop}

theorem Checks.pure {a : A} (holds : post a) : Checks grave (Pure.pure a : Diagnosed E I A) true post := by
  intro b is runs
  obtain ⟨rfl, rfl⟩ := pure_eq_ok.mp runs
  exact ⟨rfl, fun _ => holds⟩

variable {m : Diagnosed E I A} {f : A → Diagnosed E I B}

theorem Checks.bind (first : Checks grave m ok post) (second : ok = true → ∀ a, post a → Checks grave (f a) ok' post') :
    Checks grave (m >>= f) (ok && ok') post' := by
  intro b is runs
  obtain ⟨a, js, ks, runsFirst, runsSecond, rfl⟩ := bind_eq_ok.mp runs
  obtain ⟨cleanFirst, postFirst⟩ := first a js runsFirst
  rw [clean_append, cleanFirst]
  cases ok with
  | false => exact ⟨rfl, fun never => absurd never Bool.false_ne_true⟩
  | true =>
    obtain ⟨cleanSecond, postSecond⟩ := second rfl a (postFirst rfl) b ks runsSecond
    rw [cleanSecond]
    exact ⟨rfl, postSecond⟩

variable {i : I}

theorem Checks.report (is : grave i = true) {post : Unit → Prop} :
    Checks grave (Diagnosed.report i : Diagnosed E I Unit) false post := by
  intro _ js runs
  cases runs
  exact ⟨by simp [clean, is], fun never => absurd never Bool.false_ne_true⟩

variable {next : Diagnosed E I A}

theorem Checks.fails (is : grave i = true) : Checks grave (Diagnosed.report i >>= fun _ => next) false post := by
  have first : Checks grave (Diagnosed.report i : Diagnosed E I Unit) false (fun _ => True) := Checks.report is
  rw [← Bool.false_and true]
  exact Checks.bind first nofun

theorem Checks.warns (not : grave i = false) (checks : Checks grave next ok post) :
    Checks grave (Diagnosed.report i >>= fun _ => next) ok post := by
  intro a js runs
  obtain ⟨_, first, second, runsFirst, runsNext, rfl⟩ := bind_eq_ok.mp runs
  cases runsFirst
  obtain ⟨cleanNext, postNext⟩ := checks a second runsNext
  exact ⟨by rw [clean_append, cleanNext]; simp [clean, not], postNext⟩

theorem Checks.lift {m : Except E A} (holds : ∀ a, m = .ok a → post a) :
    Checks grave (Diagnosed.lift m : Diagnosed E I A) true post := by
  intro a is runs
  cases m with
  | error e => contradiction
  | ok b =>
    cases runs
    exact ⟨rfl, fun _ => holds a rfl⟩

theorem Checks.weaken {post₁ : A → Prop} (checks : Checks grave m ok post)
    (implied : ok = true → ∀ a, post a → post₁ a) : Checks grave m ok post₁ := by
  intro a is runs
  obtain ⟨cleanIs, postA⟩ := checks a is runs
  exact ⟨cleanIs, fun holds => implied holds a (postA holds)⟩

theorem Checks.map {f : A → B} (checks : Checks grave m ok post) (holds : ∀ a, post a → post' (f a)) :
    Checks grave (m >>= fun a => Pure.pure (f a)) ok post' := by
  rw [← Bool.and_true ok]
  exact Checks.bind checks (fun _ a postA => Checks.pure (holds a postA))

theorem Checks.sure (first : Checks grave m true post) (second : ∀ a, post a → Checks grave (f a) ok' post') :
    Checks grave (m >>= f) ok' post' := by
  exact Checks.bind first (fun _ => second)

theorem Checks.lifted {m : Except E A} (checks : ∀ a, m = .ok a → Checks grave (f a) ok' post') :
    Checks grave (Diagnosed.lift m >>= f) ok' post' :=
  Checks.sure (Checks.lift (fun _ same => same)) checks

theorem Checks.collect {f : Nat → A → Diagnosed E I (Option B)} {l : List A} {okTurn : A → Bool}
    {turn : A → Option B → Prop} (turns : ∀ i, ∀ a ∈ l, Checks grave (f i a) (okTurn a) (turn a)) (i : Nat) :
    Checks grave (Diagnosed.collect f i l) (l.all okTurn)
      (fun bs => ∃ os, Forall₂ turn l os ∧ bs = os.flatMap toList) := by
  induction l generalizing i with
  | nil => exact Checks.pure ⟨[], .nil, rfl⟩
  | cons a rest ih =>
    have tail := ih (fun j b mem => turns j b (mem_cons_of_mem a mem)) (i + 1)
    refine Checks.bind (turns i a mem_cons_self) ?_
    intro _ b first
    refine Checks.map tail ?_
    rintro bs ⟨os, later, rfl⟩
    exact ⟨b :: os, .cons first later, rfl⟩

end checks

variable {l : List A} {os : List (Option B)}

variable {r : A → B → Prop} {bs : List B} {p : B → Bool} {q : A → Bool}

theorem collected (turns : Forall₂ (fun a o => ∃ b, o = some b ∧ r a b) l os) :
    Forall₂ r l (os.flatMap toList) := by
  induction turns with
  | nil => exact .nil
  | @cons a o _ _ first _ ih =>
    obtain ⟨b, rfl, related⟩ := first
    exact .cons related ih

theorem forall₂_mem (related : Forall₂ r l bs) {b : B} (mem : b ∈ bs) : ∃ a ∈ l, r a b := by
  induction related with
  | nil => contradiction
  | cons first _ ih =>
    rcases mem_cons.mp mem with rfl | later
    · exact ⟨_, mem_cons_self, first⟩
    · obtain ⟨a, memA, related⟩ := ih later
      exact ⟨a, mem_cons_of_mem _ memA, related⟩

theorem all_of_forall₂ (related : Forall₂ (fun a b => p b = q a) l bs) : bs.all p = l.all q := by
  induction related with
  | nil => rfl
  | cons same _ ih => rw [all_cons, all_cons, same, ih]

theorem collected_some (turns : Forall₂ (fun a o => ∃ b, o = some b ∧ p b = q a) l os) :
    (os.flatMap toList).length = l.length ∧ (os.flatMap toList).all p = l.all q :=
  ⟨(collected turns).length_eq.symm, all_of_forall₂ (collected turns)⟩

theorem collected_eq {g : A → Option B}
    (turns : Forall₂ (fun a o => o = g a) l os) : os.flatMap toList = l.filterMap g := by
  induction turns with
  | nil => rfl
  | @cons a o _ _ first _ ih =>
    rw [flatMap_cons, filterMap_cons, ih, first]
    cases g a <;> rfl

section returns

def Returns (m : Diagnosed E I A) : Prop := ∃ a is, m = .ok (a, is)

theorem returns_pure (a : A) : Returns (pure a : Diagnosed E I A) := ⟨a, [], rfl⟩

theorem returns_report (i : I) : Returns (Diagnosed.report i : Diagnosed E I Unit) := ⟨(), [i], rfl⟩

variable {x : Except E A} {p : Prop}

theorem returns_lift : Returns (Diagnosed.lift x : Diagnosed E I A) ↔ ∃ a, x = .ok a := by
  cases x with
  | error e => exact iff_of_false nofun nofun
  | ok a => exact iff_of_true ⟨a, [], rfl⟩ ⟨a, rfl⟩

variable {m : Diagnosed E I A} {f : A → Diagnosed E I B}

theorem returns_bind (next : ∀ a is, m = .ok (a, is) → (Returns (f a) ↔ p)) : Returns (m >>= f) ↔ Returns m ∧ p := by
  constructor
  · rintro ⟨b, is, runs⟩
    obtain ⟨a, first, second, runsFirst, runsSecond, rfl⟩ := bind_eq_ok.mp runs
    exact ⟨⟨a, first, runsFirst⟩, (next a first runsFirst).mp ⟨b, second, runsSecond⟩⟩
  · rintro ⟨⟨a, first, runsFirst⟩, holds⟩
    obtain ⟨b, second, runsSecond⟩ := (next a first runsFirst).mpr holds
    exact ⟨b, first ++ second, bind_eq_ok.mpr ⟨a, first, second, runsFirst, runsSecond, rfl⟩⟩

theorem returns_then (next : ∀ a, Returns (f a)) : Returns (m >>= f) ↔ Returns m := by
  rw [returns_bind (fun a _ _ => iff_of_true (next a) trivial)]
  exact and_iff_left trivial

theorem returns_after (first : Returns m) (next : ∀ a is, m = .ok (a, is) → (Returns (f a) ↔ p)) :
    Returns (m >>= f) ↔ p := by
  rw [returns_bind next]
  exact and_iff_right first

theorem returns_lifted (next : ∀ a, Returns (f a)) : Returns (Diagnosed.lift x >>= f) ↔ ∃ a, x = .ok a := by
  rw [returns_then next, returns_lift]

theorem returns_collect {f : Nat → A → Diagnosed E I (Option B)} {l : List A} {p : A → Prop}
    (turns : ∀ i a, Returns (f i a) ↔ p a) (i : Nat) : Returns (Diagnosed.collect f i l) ↔ ∀ a ∈ l, p a := by
  induction l generalizing i with
  | nil => exact iff_of_true (returns_pure []) nofun
  | cons a rest ih =>
    unfold Diagnosed.collect
    rw [returns_bind (fun _ _ _ => (returns_then (fun _ => returns_pure _)).trans (ih (i + 1))),
      turns, forall_mem_cons]

end returns

end HostingPlatform.Diagnosis
