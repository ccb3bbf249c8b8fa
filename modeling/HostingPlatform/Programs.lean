import Mathlib.Data.List.Basic

/-! Programs that are a list of statements with a handler. A statement that throws goes on
with the handler; one that throws there ends the program. An outline writes an assertion
before each statement, and is valid when every statement leads from its assertion to the
next one, or where it throws to the handler's first. -/
namespace HostingPlatform.Programs

open List

/- what statements do, each under an outcome that the world chooses -/
structure Language (S C O : Type) where
  perform : S → C → O → S
  throws : S → C → O → Bool

/- what is left of a running program; the handler has no handler of its own -/
structure Program (C : Type) where
  steps : List C
  handler : Option (List C)

def remaining {C : Type} (steps : List C) (handler : Option (List C)) : Option (Program C) :=
  match steps with
  | [] => none
  | c :: rest => some ⟨c :: rest, handler⟩

def Language.next {S C O : Type} (lang : Language S C O) (s : S) (p : Program C) (o : O) :
    S × Option (Program C) :=
  match p.steps with
  | [] => (s, none)
  | c :: rest =>
    (lang.perform s c o,
      if lang.throws s c o then p.handler.bind (fun handler => remaining handler none)
      else remaining rest p.handler)

theorem position {A : Type} {x y : A} {before after front back : List A}
    (same : front ++ x :: back = before ++ y :: after) :
    (∃ more, front = before ++ y :: more) ∨ before = front ∧ y = x ∧ after = back ∨
      ∃ more, before = front ++ x :: more ∧ back = more ++ y :: after := by
  rcases append_eq_append_iff.mp same with ⟨more, rfl, tail⟩ | ⟨more, rfl, tail⟩
  · cases more with
    | nil =>
      obtain ⟨rfl, rfl⟩ := cons.inj tail
      exact .inr (.inl ⟨append_nil front, rfl, rfl⟩)
    | cons z more =>
      obtain ⟨rfl, rest⟩ := cons.inj tail
      exact .inr (.inr ⟨more, rfl, rest⟩)
  · cases more with
    | nil =>
      obtain ⟨rfl, rfl⟩ := cons.inj tail
      exact .inr (.inl ⟨(append_nil before).symm, rfl, rfl⟩)
    | cons z more =>
      obtain ⟨rfl, _⟩ := cons.inj tail
      exact .inl ⟨more, rfl⟩

/- the states that a program passes through, under one outcome for each statement -/
def Language.trace {S C O : Type} (lang : Language S C O) (s : S) (p : Option (Program C)) :
    List O → List S
  | [] => []
  | o :: rest => p.elim [] (fun p =>
    (lang.next s p o).1 :: lang.trace (lang.next s p o).1 (lang.next s p o).2 rest)

/- statements that all turn out the same, `o`: the states they pass through, the last of
them, and that none of them throws -/
def Language.run {S C O : Type} (lang : Language S C O) (o : O) : S → List C → List S
  | _, [] => []
  | s, c :: rest => lang.perform s c o :: lang.run o (lang.perform s c o) rest

def Language.after {S C O : Type} (lang : Language S C O) (o : O) : S → List C → S
  | s, [] => s
  | s, c :: rest => lang.after o (lang.perform s c o) rest

def Language.Calm {S C O : Type} (lang : Language S C O) (o : O) : S → List C → Prop
  | _, [] => True
  | s, c :: rest => lang.throws s c o = false ∧ lang.Calm o (lang.perform s c o) rest

variable {S C O : Type} {lang : Language S C O} {steps : List C}

variable {o : O} {s : S} {a : S → Prop} {ok : S → C → O → Prop} {p : Program C}

theorem Language.trace_calm (rest : List C) (handler : Option (List C)) (later : List O) (calm : lang.Calm o s steps) :
    lang.trace s (remaining (steps ++ rest) handler) (replicate steps.length o ++ later) =
      lang.run o s steps ++ lang.trace (lang.after o s steps) (remaining rest handler) later := by
  induction steps generalizing s with
  | nil => rfl
  | cons c steps ih =>
    obtain ⟨quiet, tail⟩ := calm
    have goesOn : (lang.next s ⟨c :: (steps ++ rest), handler⟩ o).2 = remaining (steps ++ rest) handler := by
      simp [Language.next, quiet]
    simp only [cons_append, length_cons, replicate_succ, remaining, Language.trace,
      Option.elim_some, Language.run]
    rw [goesOn]
    exact congrArg (lang.perform s c o :: ·) (ih tail)

theorem Language.trace_throw {c : C} {rest handler : List C} {later : List O} (thrown : lang.throws s c o = true) :
    lang.trace s (remaining (c :: rest) (some handler)) (o :: later) =
      lang.perform s c o :: lang.trace (lang.perform s c o) (remaining handler none) later := by
  simp [remaining, Language.trace, Language.next, thrown]

theorem Language.run_invariant {Inv : S → Prop} (initial : Inv s)
    (preserves : ∀ c ∈ steps, ∀ s, Inv s → Inv (lang.perform s c o)) :
    (∀ s' ∈ lang.run o s steps, Inv s') ∧ Inv (lang.after o s steps) := by
  induction steps generalizing s with
  | nil => exact ⟨fun _ mem => absurd mem not_mem_nil, initial⟩
  | cons c steps ih =>
    have first := preserves c mem_cons_self s initial
    obtain ⟨run, after⟩ := ih first (fun c mem => preserves c (mem_cons_of_mem _ mem))
    refine ⟨?_, after⟩
    intro s' mem
    rcases mem_cons.mp mem with rfl | later
    · exact first
    · exact run s' later

abbrev Annotation (S C : Type) := List ((S → Prop) × C)

namespace Annotation

open List

def program {S C : Type} (l : Annotation S C) : List C := l.map Prod.snd

def pre {S C : Type} (post : S → Prop) : Annotation S C → S → Prop
  | [] => post
  | (a, _) :: _ => a

/- a statement leads from one assertion to another, and where it throws to `caught` -/
def Leads {S C O : Type} (lang : Language S C O) (ok : S → C → O → Prop) (caught a : S → Prop)
    (c : C) (b : S → Prop) : Prop :=
  ∀ s o, a s → ok s c o →
    if lang.throws s c o then caught (lang.perform s c o) else b (lang.perform s c o)

variable {S C O : Type} {lang : Language S C O} {caught : S → Prop}

variable {ok : S → C → O → Prop} {a : S → Prop} {c : C} {rest done : Annotation S C} {s : S}

theorem Leads.weaken {b b' : S → Prop} (leads : Leads lang ok caught a c b) (next : ∀ s, b s → b' s) :
    Leads lang ok caught a c b' := by
  intro s o holds allowed
  have led := leads s o holds allowed
  by_cases thrown : lang.throws s c o = true
  · rw [if_pos thrown] at led ⊢
    exact led
  · rw [if_neg thrown] at led ⊢
    exact next _ led

def Valid {S C O : Type} (lang : Language S C O) (ok : S → C → O → Prop)
    (post caught : S → Prop) : Annotation S C → Prop
  | [] => True
  | (a, c) :: rest => Leads lang ok caught a c (pre post rest) ∧ Valid lang ok post caught rest

/- statements in a row with one assertion before each of them -/
def segment {S C : Type} (a : S → Prop) (steps : List C) : Annotation S C := steps.map (a, ·)

variable {post : S → Prop}

theorem valid_segment (steps : List C) (last : C) (kept : ∀ c ∈ steps, Leads lang ok caught a c a)
    (leads : Leads lang ok caught a last (pre post rest)) (valid : Valid lang ok post caught rest) :
    Valid lang ok post caught (segment a (steps ++ [last]) ++ rest) := by
  induction steps with
  | nil => exact ⟨leads, valid⟩
  | cons c steps ih =>
    refine ⟨?_, ih (fun c mem => kept c (mem_cons_of_mem _ mem))⟩
    have first := kept c mem_cons_self
    cases steps with
    | nil | cons d steps => exact first

theorem valid_last_segment (steps : List C) (last : C) (kept : ∀ c ∈ steps, Leads lang ok caught a c a)
    (leads : Leads lang ok caught a last post) : Valid lang ok post caught (segment a (steps ++ [last])) := by
  rw [← append_nil (segment a (steps ++ [last]))]
  exact valid_segment steps last kept leads trivial

variable {steps : List C}

theorem mem_segment {b : S → Prop} : (b, c) ∈ segment a steps ↔ b = a ∧ c ∈ steps := by
  simp only [segment, mem_map, Prod.mk.injEq]
  constructor
  · rintro ⟨d, mem, rfl, rfl⟩
    exact ⟨rfl, mem⟩
  · rintro ⟨rfl, mem⟩
    exact ⟨c, mem, rfl, rfl⟩

variable {l : Annotation S C}

theorem program_append {l' : Annotation S C} : program (l ++ l') = program l ++ program l' := map_append

/-- These statements are what is left of the outline, and the assertion before them holds. -/
def Stands {S C : Type} (l : Annotation S C) (steps : List C) (s : S) : Prop :=
  ∃ done a c rest, l = done ++ (a, c) :: rest ∧ steps = c :: program rest ∧ a s

/-- What a running program satisfies: where it stands, or the assertion after its end. -/
def Reaches {S C : Type} (l : Annotation S C) (post : S → Prop) (steps : List C) (s : S) : Prop :=
  Stands l steps s ∨ steps = [] ∧ post s

theorem reaches_start (begin : pre post l s) : Reaches l post (program l) s := by
  cases l with
  | nil => exact .inr ⟨rfl, begin⟩
  | cons first rest => exact .inl ⟨[], first.1, first.2, rest, rfl, rfl, begin⟩

theorem Stands.assertion (stands : Stands l steps s) : ∃ a c, (a, c) ∈ l ∧ steps.head? = some c ∧ a s := by
  obtain ⟨done, a, c, rest, rfl, rfl, holds⟩ := stands
  exact ⟨a, c, by simp, rfl, holds⟩

theorem Stands.suffix (stands : Stands l steps s) : steps <:+ program l := by
  obtain ⟨done, a, c, rest, rfl, rfl, _⟩ := stands
  exact ⟨program done, by simp [program]⟩

theorem valid_at (valid : Valid lang ok post caught l) (split : l = done ++ (a, c) :: rest) :
    Valid lang ok post caught ((a, c) :: rest) := by
  induction done generalizing l with
  | nil =>
    rw [split] at valid
    exact valid
  | cons first done ih =>
    rw [split] at valid
    exact ih valid.2 rfl

theorem Stands.next {o : O} (valid : Valid lang ok post caught l) (stands : Stands l (c :: steps) s)
    (allowed : ok s c o) : if lang.throws s c o then caught (lang.perform s c o)
    else Reaches l post steps (lang.perform s c o) := by
  obtain ⟨done, a, d, rest, split, same, holds⟩ := stands
  cases same
  have here := (valid_at valid split).1 s o holds allowed
  by_cases thrown : lang.throws s c o = true
  · rw [if_pos thrown] at here ⊢
    exact here
  rw [if_neg thrown] at here ⊢
  cases rest with
  | nil => exact .inr ⟨rfl, here⟩
  | cons second rest =>
    refine .inl ⟨done ++ [(a, c)], second.1, second.2, rest, ?_, rfl, here⟩
    rw [split, append_assoc]
    rfl

theorem Valid.calm {o : O} (Inv : S → Prop)
    (valid : Valid lang (fun _ _ o' => o' = o) post (fun _ => False) (done ++ rest))
    (begin : pre post (done ++ rest) s) (holds : ∀ a c, (a, c) ∈ done ++ rest → ∀ s, a s → Inv s)
    (ends : ∀ s, post s → Inv s) : lang.Calm o s (program done) ∧ pre post rest (lang.after o s (program done)) ∧
      ∀ s' ∈ lang.run o s (program done), Inv s' := by
  induction done generalizing s with
  | nil => exact ⟨trivial, begin, fun _ mem => absurd mem not_mem_nil⟩
  | cons first done ih =>
    have here := valid.1 s o begin rfl
    have quiet : lang.throws s first.2 o = false := by
      by_contra thrown
      rw [if_pos (by simpa using thrown)] at here
      exact here
    rw [quiet] at here
    have next : pre post (done ++ rest) (lang.perform s first.2 o) := here
    obtain ⟨calm, after, run⟩ := ih valid.2 next (fun a c mem => holds a c (mem_cons_of_mem _ mem))
    refine ⟨⟨quiet, calm⟩, after, ?_⟩
    intro s' mem
    rcases mem_cons.mp mem with rfl | later
    · cases tail : done ++ rest with
      | nil =>
        rw [tail] at next
        exact ends _ next
      | cons second more =>
        rw [tail] at next
        refine holds second.1 second.2 ?_ _ next
        rw [cons_append, tail]
        exact mem_cons_of_mem _ mem_cons_self
    · exact run s' later

theorem Stands.mono {s' : S} (stable : ∀ a c, (a, c) ∈ l → a s → a s') (stands : Stands l steps s) :
    Stands l steps s' := by
  obtain ⟨done, a, c, rest, split, same, holds⟩ := stands
  exact ⟨done, a, c, rest, split, same, stable a c (by simp [split]) holds⟩

end Annotation

/- a body and its handler, what holds after the body, and what holds where the handler ends
or throws -/
structure Outline (S C : Type) where
  (body handler : Annotation S C)
  (done failed : S → Prop)

structure Outline.Valid {S C O : Type} (lang : Language S C O) (ok : S → C → O → Prop)
    (l : Outline S C) : Prop where
  body : l.body.Valid lang ok l.done (l.handler.pre l.failed)
  handler : l.handler.Valid lang ok l.failed l.failed

def Outline.Covers {S C : Type} (l : Outline S C) (p : Program C) (s : S) : Prop :=
  p.handler = some l.handler.program ∧ l.body.Stands p.steps s ∨
    p.handler = none ∧ l.handler.Stands p.steps s

/-- A program that is covered, or has ended. -/
def Outline.After {S C : Type} (l : Outline S C) (p : Option (Program C)) (s : S) : Prop :=
  p.elim (l.done s ∨ l.failed s) (l.Covers · s)

variable {l : Outline S C}

theorem Outline.goes_on {a : Annotation S C} {post : S → Prop} {handler : Option (List C)}
    (reaches : a.Reaches post steps s) (standing : a.Stands steps s → l.Covers ⟨steps, handler⟩ s)
    (ended : post s → l.done s ∨ l.failed s) : l.After (remaining steps handler) s := by
  rcases reaches with stands | ⟨none, holds⟩
  · obtain ⟨_, _, c, rest, _, same, _⟩ := id stands
    rw [same] at stands standing ⊢
    exact standing stands
  · rw [none]
    exact ended holds

theorem Outline.begin (begin : l.body.pre l.done s) :
    l.After (remaining l.body.program (some l.handler.program)) s := by
  have started := Annotation.reaches_start begin
  exact goes_on started (fun stands => .inl ⟨rfl, stands⟩) .inl

def Outline.throughout {S C : Type} (a : S → Prop) (body handler : List C) : Outline S C where
  body := Annotation.segment a body
  handler := Annotation.segment a handler
  done := a
  failed := a

def Preserves {S C O : Type} (lang : Language S C O) (ok : S → C → O → Prop) (a : S → Prop)
    (c : C) : Prop := ∀ s o, a s → ok s c o → a (lang.perform s c o)

theorem Preserves.leads {c : C} (kept : Preserves lang ok a c) : Annotation.Leads lang ok a a c a := by
  intro s o holds allowed
  split
  all_goals exact kept s o holds allowed

theorem Annotation.valid_throughout {caught : S → Prop} (leads : ∀ c ∈ steps, Leads lang ok caught a c a) :
    Valid lang ok a caught (segment a steps) := by
  induction steps with
  | nil => trivial
  | cons c steps ih =>
    have first := leads c mem_cons_self
    refine ⟨?_, ih (fun c mem => leads c (mem_cons_of_mem _ mem))⟩
    cases steps with
    | nil | cons d steps => exact first

theorem Annotation.pre_segment : pre a (segment a steps) = a := by
  cases steps <;> rfl

theorem Outline.throughout_valid {body handler : List C} (kept : ∀ c ∈ body ++ handler, Preserves lang ok a c) :
    (throughout a body handler).Valid lang ok where
  body := by
    refine Annotation.valid_throughout ?_
    intro c mem
    rw [throughout, Annotation.pre_segment]
    exact (kept c (mem_append_left _ mem)).leads
  handler := Annotation.valid_throughout (fun c mem => (kept c (mem_append_right _ mem)).leads)

theorem Outline.next (valid : l.Valid lang ok) (covers : l.Covers p s)
    (allowed : ∀ c ∈ p.steps.head?, ok s c o) : l.After (lang.next s p o).2 (lang.next s p o).1 := by
  obtain ⟨steps, handler⟩ := p
  rcases covers with ⟨own, stands⟩ | ⟨own, stands⟩
  all_goals
    obtain ⟨_, _, c, rest, _, same, _⟩ := id stands
    cases same
    cases own
    simp [Language.next]
  · have after := stands.next valid.body (allowed c rfl)
    by_cases thrown : lang.throws s c o = true
    · rw [if_pos thrown] at after ⊢
      have started := Annotation.reaches_start after
      exact goes_on started (fun stands => .inr ⟨rfl, stands⟩) .inr
    · rw [if_neg thrown] at after ⊢
      exact goes_on after (fun stands => .inl ⟨rfl, stands⟩) .inl
  · have after := stands.next valid.handler (allowed c rfl)
    by_cases thrown : lang.throws s c o = true
    · rw [if_pos thrown] at after ⊢
      exact .inr after
    · rw [if_neg thrown] at after ⊢
      exact goes_on after (fun stands => .inr ⟨rfl, stands⟩) .inr

theorem Outline.Covers.assertion (covers : l.Covers p s) :
    ∃ a c, (a, c) ∈ l.body ++ l.handler ∧ p.steps.head? = some c ∧ a s := by
  rcases covers with ⟨_, stands⟩ | ⟨_, stands⟩
  · obtain ⟨a, c, mem, same, holds⟩ := stands.assertion
    exact ⟨a, c, mem_append_left _ mem, same, holds⟩
  · obtain ⟨a, c, mem, same, holds⟩ := stands.assertion
    exact ⟨a, c, mem_append_right _ mem, same, holds⟩

theorem Outline.Covers.mono {s' : S} (body : ∀ a c, (a, c) ∈ l.body → a s → a s')
    (handler : ∀ a c, (a, c) ∈ l.handler → a s → a s') (covers : l.Covers p s) : l.Covers p s' := by
  rcases covers with ⟨own, stands⟩ | ⟨own, stands⟩
  · exact .inl ⟨own, stands.mono body⟩
  · exact .inr ⟨own, stands.mono handler⟩

end HostingPlatform.Programs
