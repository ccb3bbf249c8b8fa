import Mathlib.Data.List.Basic

/-! Command lines as option parsers read them. A grammar says what a word is when an option may
stand there; a word that does not begin with a dash is an operand for every grammar. -/
namespace HostingPlatform.Options

open List

abbrev Word := List Char

inductive Kind where
  | operand
  | flag
  /- the next word is its value -/
  | takesValue (names : Bool)
  /- its value is part of the word -/
  | hasValue (names : Bool) (value : Word)
  /- no option comes after it -/
  | endOfOptions
  deriving DecidableEq

def dashed (w : Word) : Bool := w.head? == some '-'

/- `names`: the value is the name of a file or a directory; `permutes`: options may follow operands -/
structure Grammar where
  kind : Word → Kind
  permutes : Bool
  operand : ∀ w, dashed w = false → kind w = .operand

inductive Role where
  | operand | value | attached
  deriving DecidableEq

/- a file or directory that a command line names -/
structure Named where
  text : Word
  role : Role
  deriving DecidableEq

inductive State where
  | options
  | value (names : Bool)
  | operands
  deriving DecidableEq

def next (g : Grammar) (s : State) (w : Word) : State :=
  match s with
  | .operands => .operands
  | .value _ => .options
  | .options =>
    match g.kind w with
    | .operand => if g.permutes then .options else .operands
    | .flag | .hasValue .. => .options
    | .takesValue names => .value names
    | .endOfOptions => .operands

def named (g : Grammar) (s : State) (w : Word) : List Named :=
  match s with
  | .operands => [⟨w, .operand⟩]
  | .value names => if names then [⟨w, .value⟩] else []
  | .options =>
    match g.kind w with
    | .operand => [⟨w, .operand⟩]
    | .hasValue true value => [⟨value, .attached⟩]
    | .hasValue false _ | .flag | .takesValue _ | .endOfOptions => []

def scan (g : Grammar) : State → List Word → List Named
  | _, [] => []
  | s, w :: rest => named g s w ++ scan g (next g s w) rest

def after (g : Grammar) (s : State) (ws : List Word) : State := ws.foldl (next g) s

theorem scan_append (g : Grammar) (s : State) (ws vs : List Word) :
    scan g s (ws ++ vs) = scan g s ws ++ scan g (after g s ws) vs := by
  induction ws generalizing s with
  | nil => rfl
  | cons w rest ih =>
    rw [cons_append, scan, scan, ih, append_assoc]
    rfl

variable {g : Grammar} {ws : List Word} {f : Word → Word} {w : Word}

theorem mem_scan_operand {s : State} {text : Word} (mem : ⟨text, .operand⟩ ∈ scan g s ws) : text ∈ ws := by
  induction ws generalizing s with
  | nil => exact absurd mem not_mem_nil
  | cons w rest ih =>
    rcases mem_append.mp mem with first | later
    · have same : text = w := by
        cases s with
        | operands => simpa [named] using first
        | value names => cases names <;> simp [named] at first
        | options =>
          simp only [named] at first
          split at first <;> simp_all
      rw [same]
      exact mem_cons_self
    · exact mem_cons_of_mem w (ih later)

/- a rewriting of words that leaves those with a dash alone and makes no new ones -/
structure Rewrites (f : Word → Word) : Prop where
  same : ∀ w, dashed w = true → f w = w
  plain : ∀ w, dashed w = false → dashed (f w) = false

def Named.rewrite (f : Word → Word) (n : Named) : Named :=
  match n.role with
  | .attached => n
  | .operand | .value => { n with text := f n.text }

theorem kind_rewrite (rewrites : Rewrites f) (g : Grammar) (w : Word) : g.kind (f w) = g.kind w := by
  cases dash : dashed w with
  | true => rw [rewrites.same w dash]
  | false => rw [g.operand w dash, g.operand (f w) (rewrites.plain w dash)]

theorem next_rewrite (rewrites : Rewrites f) (g : Grammar) (s : State) (w : Word) : next g s (f w) = next g s w := by
  cases s <;> simp [next, kind_rewrite rewrites]

theorem scan_map (rewrites : Rewrites f) (s : State) (ws : List Word) :
    scan g s (ws.map f) = (scan g s ws).map (Named.rewrite f) := by
  induction ws generalizing s with
  | nil => rfl
  | cons w rest ih =>
    have names : named g s (f w) = (named g s w).map (Named.rewrite f) := by
      cases s with
      | operands => rfl
      | value names => cases names <;> rfl
      | options =>
        cases dash : dashed w with
        | false => simp [named, g.operand w dash, g.operand (f w) (rewrites.plain w dash), Named.rewrite]
        | true =>
          rw [rewrites.same w dash]
          simp only [named]
          split
          · simp [Named.rewrite, rewrites.same w dash]
          · rfl
          · rfl
          · rfl
          · rfl
          · rfl
    rw [map_cons, scan, scan, ih, next_rewrite rewrites, names, map_append]

theorem scan_plain {g : Grammar} {ws : List Word} (plain : ∀ w ∈ ws, dashed w = false) {s : State}
    (free : ∀ names, s ≠ .value names) : scan g s ws = ws.map (⟨·, .operand⟩) := by
  induction ws generalizing s with
  | nil => rfl
  | cons w rest ih =>
    have first := g.operand w (plain w mem_cons_self)
    have later := fun v mem => plain v (mem_cons_of_mem w mem)
    cases s with
    | value names => exact absurd rfl (free names)
    | operands =>
      have tail := @ih later .operands nofun
      rw [scan, next, tail]
      rfl
    | options =>
      have goesOn : next g .options w = if g.permutes then .options else .operands := by
        simp [next, first]
      have tail : scan g (next g .options w) rest = rest.map (⟨·, .operand⟩) := by
        refine ih later ?_
        intro names
        rw [goesOn]
        split <;> exact nofun
      rw [scan, tail, named, first]
      rfl

theorem scan_flag (isFlag : g.kind w = .flag) (ws : List Word) : scan g .options (w :: ws) = scan g .options ws := by
  rw [scan, named, next, isFlag]
  rfl

theorem scan_value {names : Bool} (takes : g.kind w = .takesValue names) (v : Word) (ws : List Word) :
    scan g .options (w :: v :: ws) = (if names then [⟨v, .value⟩] else []) ++ scan g .options ws := by
  rw [scan, named, next, takes]
  rfl

def optionWords (g : Grammar) : State → List Word → List Word
  | _, [] => []
  | s, w :: rest =>
    (if s = .options ∧ g.kind w ≠ .operand then [w] else []) ++ optionWords g (next g s w) rest

theorem optionWords_append (g : Grammar) (s : State) (ws vs : List Word) :
    optionWords g s (ws ++ vs) = optionWords g s ws ++ optionWords g (after g s ws) vs := by
  induction ws generalizing s with
  | nil => rfl
  | cons w rest ih =>
    rw [cons_append, optionWords, optionWords, ih, append_assoc]
    rfl

theorem optionWords_plain (plain : ∀ w ∈ ws, dashed w = false) (s : State) : optionWords g s ws = [] := by
  induction ws generalizing s with
  | nil => rfl
  | cons w rest ih =>
    have first := g.operand w (plain w mem_cons_self)
    rw [optionWords, ih (fun v mem => plain v (mem_cons_of_mem w mem)), first]
    simp

theorem optionWords_map (rewrites : Rewrites f) (s : State) (ws : List Word) :
    optionWords g s (ws.map f) = optionWords g s ws := by
  induction ws generalizing s with
  | nil => rfl
  | cons w rest ih =>
    rw [map_cons, optionWords, optionWords, next_rewrite rewrites, kind_rewrite rewrites, ih]
    cases dash : dashed w with
    | true => rw [rewrites.same w dash]
    | false =>
      rw [g.operand w dash]
      simp

/- the first letter of a cluster that takes a value, and what stands after it -/
def firstValue (takes : Char → Option Bool) : List Char → Option (Bool × Word)
  | [] => none
  | c :: rest =>
    match takes c with
    | some names => some (names, rest)
    | none => firstValue takes rest

def clusterKind (takes : Char → Option Bool) (letters : List Char) : Kind :=
  match firstValue takes letters with
  | none => .flag
  | some (names, []) => .takesValue names
  | some (names, value) => .hasValue names value

/- `--name` and `--name=value` -/
def longKind (takes : Word → Option Bool) (body : List Char) : Kind :=
  match body.span (· ≠ '=') with
  | (_, []) =>
    match takes body with
    | some names => .takesValue names
    | none => .flag
  | (name, _ :: value) =>
    match takes name with
    | some names => .hasValue names value
    | none => .flag

/- options are letters; where long options are none a second dash is a letter -/
def optionKind (short : Char → Option Bool) (long : Option (Word → Option Bool)) (w : Word) : Kind :=
  match w with
  | '-' :: '-' :: [] => .endOfOptions
  | '-' :: '-' :: body =>
    match long with
    | some long => longKind long body
    | none => clusterKind short ('-' :: body)
  | '-' :: c :: letters => clusterKind short (c :: letters)
  | _ => .operand

theorem optionKind_plain (short : Char → Option Bool) (long : Option (Word → Option Bool)) (w : Word)
    (plain : dashed w = false) : optionKind short long w = .operand := by
  cases w with
  | nil => rfl
  | cons c rest =>
    have other : c ≠ '-' := by simpa [dashed] using plain
    unfold optionKind
    split
    · rename_i same
      cases same
      exact absurd rfl other
    · rename_i same
      cases same
      exact absurd rfl other
    · rename_i same
      cases same
      exact absurd rfl other
    · rfl

def grammar (short : Char → Option Bool) (long : Option (Word → Option Bool)) (permutes : Bool) :
    Grammar :=
  ⟨optionKind short long, permutes, optionKind_plain short long⟩

end HostingPlatform.Options
