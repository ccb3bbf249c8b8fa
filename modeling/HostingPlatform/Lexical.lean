import Mathlib.Data.List.DropRight
import Mathlib.Data.List.Infix

/-! Slash-separated paths without a file system: the names of a path, what is left of them when `..`
takes back the name before it, and when one path lies below another. `clean` is the shortest path
that is lexically the same. -/
namespace HostingPlatform.Lexical

open List

abbrev Path := List Char

def up : Path := ['.', '.']

/- empty names and `.` stand for nothing -/
def names (p : Path) : List Path := (p.splitOn '/').filter (fun n => n ≠ [] ∧ n ≠ ['.'])

/- a path from the root; above the root is the root -/
def step (stack : List Path) (n : Path) : List Path := if n = up then stack.dropLast else stack ++ [n]

def walk (stack : List Path) (ns : List Path) : List Path := ns.foldl step stack

/- some `..` has no name before it to take back -/
def climbs : List Path → List Path → Bool
  | _, [] => false
  | stack, n :: rest => n = up && stack.isEmpty || climbs (step stack n) rest

/- a path that does not begin at the root keeps such a `..` -/
def relativeStep (stack : List Path) (n : Path) : List Path :=
  if n = up ∧ stack ≠ [] ∧ stack.getLast? ≠ some up then stack.dropLast else stack ++ [n]

def rooted (p : Path) : Bool := p.head? == some '/'

def root (ns : List Path) : Path := if ns = [] then ['/'] else ns.flatMap ('/' :: ·)

def relative (ns : List Path) : Path := if ns = [] then ['.'] else ['/'].intercalate ns

def clean (p : Path) : Path :=
  if rooted p then root (walk [] (names p)) else relative ((names p).foldl relativeStep [])

def Within (d p : Path) : Prop := clean p = d ∨ d ++ ['/'] <+: clean p

instance (d p : Path) : Decidable (Within d p) := inferInstanceAs (Decidable (_ ∨ _))

structure Plain (n : Path) : Prop where
  nonempty : n ≠ []
  noDot : n ≠ ['.']
  noUp : n ≠ up
  noSlash : '/' ∉ n

theorem names_append (p q : Path) : names (p ++ '/' :: q) = names p ++ names q := by
  rw [names, splitOn_append_cons_self, filter_append]
  rfl

theorem names_nil : names [] = [] := rfl

theorem names_slash (q : Path) : names ('/' :: q) = names q := names_append [] q

def isSlash (c : Char) : Bool := c == '/'

theorem names_dropWhile (p : Path) : names (p.dropWhile isSlash) = names p := by
  induction p with
  | nil => rfl
  | cons c rest ih =>
    by_cases slash : c = '/'
    · rw [slash, names_slash, ← ih]
      rfl
    · rw [dropWhile_cons_of_neg]
      simpa [isSlash] using slash

theorem names_rdropWhile (p : Path) : names (p.rdropWhile isSlash) = names p := by
  induction p using reverseRecOn with
  | nil => rfl
  | append_singleton rest c ih =>
    by_cases slash : c = '/'
    · rw [slash, rdropWhile_concat_pos _ _ _ rfl, ih, names_append, names_nil, append_nil]
    · rw [rdropWhile_concat_neg]
      simpa [isSlash] using slash

theorem names_single {n : Path} (plain : Plain n) : names n = [n] := by
  rw [names, splitOn_eq_singleton plain.noSlash]
  simp [plain.nonempty, plain.noDot]

theorem splitOn_noSlash (p : Path) : ∀ n ∈ p.splitOn '/', '/' ∉ n := by
  induction p with
  | nil => simp
  | cons c rest ih =>
    intro n mem
    rw [splitOn_cons_eq_if_modifyHead] at mem
    split at mem
    · rcases mem_cons.mp mem with rfl | later
      · exact not_mem_nil
      · exact ih n later
    rename_i other
    obtain ⟨first, more, split⟩ := exists_cons_of_ne_nil (splitOn_ne_nil '/' rest)
    rw [split] at mem ih
    rcases mem_cons.mp mem with rfl | later
    · intro slash
      rcases mem_cons.mp slash with rfl | inside
      · exact other (beq_self_eq_true '/')
      · exact ih first mem_cons_self inside
    · exact ih n (mem_cons_of_mem first later)

variable {p : Path} {ns : List Path}

theorem mem_names {n : Path} (mem : n ∈ names p) : n = up ∨ Plain n := by
  obtain ⟨part, kept⟩ := mem_filter.mp mem
  simp only [decide_eq_true_eq] at kept
  by_cases goesUp : n = up
  · exact .inl goesUp
  · exact .inr ⟨kept.1, kept.2, goesUp, splitOn_noSlash p n part⟩

theorem walk_append (stack ns ms : List Path) : walk stack (ns ++ ms) = walk (walk stack ns) ms :=
  foldl_append

theorem walk_noUp (noUp : ∀ n ∈ ns, n ≠ up) (stack : List Path) : walk stack ns = stack ++ ns := by
  induction ns generalizing stack with
  | nil => exact (append_nil stack).symm
  | cons n rest ih =>
    have first : step stack n = stack ++ [n] := if_neg (noUp n mem_cons_self)
    rw [walk, foldl_cons, first]
    rw [show rest.foldl step (stack ++ [n]) = walk (stack ++ [n]) rest from rfl]
    rw [ih (fun m mem => noUp m (mem_cons_of_mem n mem)), append_assoc]
    rfl

theorem walk_plain (plain : ∀ n ∈ ns, Plain n) (stack : List Path) : walk stack ns = stack ++ ns :=
  walk_noUp (fun n mem => (plain n mem).noUp) stack

theorem plain_walk {stack : List Path} (some : ∀ n ∈ ns, n = up ∨ Plain n) (plain : ∀ n ∈ stack, Plain n) :
    ∀ n ∈ walk stack ns, Plain n := by
  induction ns generalizing stack with
  | nil => exact plain
  | cons n rest ih =>
    refine ih (fun m mem => some m (mem_cons_of_mem n mem)) ?_
    intro m mem
    unfold step at mem
    split at mem
    · exact plain m (mem_of_mem_dropLast mem)
    rename_i other
    rcases mem_append.mp mem with old | new
    · exact plain m old
    · rw [mem_singleton.mp new]
      exact (some n mem_cons_self).resolve_left other

theorem plain_names (p : Path) : ∀ n ∈ walk [] (names p), Plain n :=
  plain_walk (fun _ mem => mem_names mem) (fun _ mem => absurd mem not_mem_nil)

theorem names_flatMap (plain : ∀ n ∈ ns, Plain n) : names (ns.flatMap ('/' :: ·)) = ns := by
  induction ns with
  | nil => exact names_nil
  | cons n rest ih =>
    have tail := ih (fun m mem => plain m (mem_cons_of_mem n mem))
    have single := names_single (plain n mem_cons_self)
    rw [flatMap_cons, cons_append, names_slash]
    cases rest with
    | nil => simpa using single
    | cons m more =>
      rw [flatMap_cons, cons_append] at tail ⊢
      rw [names_append, single]
      rw [names_slash] at tail
      rw [tail]
      rfl

theorem names_root (plain : ∀ n ∈ ns, Plain n) : names (root ns) = ns := by
  unfold root
  split
  · rename_i none
    rw [none]
    rfl
  · exact names_flatMap plain

theorem rooted_root (ns : List Path) : rooted (root ns) = true := by
  cases ns <;> rfl

theorem rooted_slash (p : Path) : rooted ('/' :: p) = true := rfl

theorem clean_rooted (isRooted : rooted p = true) : clean p = root (walk [] (names p)) :=
  if_pos isRooted

theorem root_append {ds es : List Path} (some : ds ≠ []) : root (ds ++ es) = root ds ++ es.flatMap ('/' :: ·) := by
  rw [root, root, if_neg some, if_neg (append_ne_nil_of_left_ne_nil some es), flatMap_append]

theorem rooted_relative (plain : ∀ n ∈ ns, n = up ∨ Plain n) : rooted (relative ns) = false := by
  cases ns with
  | nil => rfl
  | cons n rest =>
    have head : n.head? ≠ some '/' ∧ n ≠ [] := by
      rcases plain n mem_cons_self with rfl | plain
      · exact ⟨by decide, by decide⟩
      refine ⟨?_, plain.nonempty⟩
      intro slash
      exact plain.noSlash (mem_of_mem_head? slash)
    obtain ⟨c, n, rfl⟩ := exists_cons_of_ne_nil head.2
    have other : c ≠ '/' := fun same => head.1 (congrArg some same)
    cases rest <;> simp [relative, rooted, other]

theorem relativeStep_names {stack : List Path} (some : ∀ n ∈ ns, n = up ∨ Plain n)
    (before : ∀ n ∈ stack, n = up ∨ Plain n) : ∀ n ∈ ns.foldl relativeStep stack, n = up ∨ Plain n := by
  induction ns generalizing stack with
  | nil => exact before
  | cons n rest ih =>
    refine ih (fun m mem => some m (mem_cons_of_mem n mem)) ?_
    intro m mem
    unfold relativeStep at mem
    split at mem
    · exact before m (mem_of_mem_dropLast mem)
    rcases mem_append.mp mem with old | new
    · exact before m old
    · rw [mem_singleton.mp new]
      exact some n mem_cons_self

theorem within_iff {ds : List Path} (some : ds ≠ []) (plain : ∀ n ∈ ds, Plain n) :
    Within (root ds) p ↔ rooted p = true ∧ ds <+: walk [] (names p) := by
  by_cases isRooted : rooted p = true
  · have plain' := plain_names p
    rw [Within, clean_rooted isRooted]
    constructor
    · rintro (same | ⟨rest, same⟩)
      · refine ⟨isRooted, ?_⟩
        rw [← names_root plain', same, names_root plain]
      · refine ⟨isRooted, names rest, ?_⟩
        rw [← names_root plain', ← same, append_assoc, singleton_append, names_append, names_root plain]
    rintro ⟨_, es, same⟩
    rw [← same, root_append some]
    cases es with
    | nil => exact .inl (append_nil _)
    | cons e es =>
      refine .inr ⟨e ++ es.flatMap ('/' :: ·), ?_⟩
      simp
  · refine iff_of_false ?_ (fun both => isRooted both.1)
    have outside : rooted (clean p) = false := by
      rw [clean, if_neg isRooted]
      exact rooted_relative (relativeStep_names (fun _ mem => mem_names mem) (fun _ mem => absurd mem not_mem_nil))
    have head : ∀ rest, rooted (root ds ++ rest) = true := by
      intro rest
      obtain ⟨d, ds, rfl⟩ := exists_cons_of_ne_nil some
      rfl
    rintro (same | ⟨rest, same⟩)
    · rw [same, ← append_nil (root ds), head] at outside
      contradiction
    · rw [← same, append_assoc, head] at outside
      contradiction

theorem walk_cons (first : Path) (stack ns : List Path) :
    walk (first :: stack) ns = if climbs stack ns then walk stack ns else first :: walk stack ns := by
  induction ns generalizing stack with
  | nil => rfl
  | cons n rest ih =>
    by_cases goesUp : n = up
    · cases stack with
      | nil => simp [climbs, walk, step, goesUp]
      | cons s stack =>
        have here : step (first :: s :: stack) n = first :: step (s :: stack) n := by simp [step, goesUp]
        have next := ih (step (s :: stack) n)
        simp only [walk, foldl_cons] at next ⊢
        rw [here, next]
        simp [climbs]
    · have here : step (first :: stack) n = first :: step stack n := by simp [step, goesUp]
      have next := ih (step stack n)
      simp only [walk, foldl_cons] at next ⊢
      rw [here, next]
      simp [climbs, goesUp]

end HostingPlatform.Lexical

namespace HostingPlatform.Mounts

open List Lexical

section

variable {A B : Type} (target : A → List Path) (p : List Path)

def deeper (best : Option A) (x : A) : Option A :=
  if target x <+: p ∧ ∀ b ∈ best, (target b).length ≤ (target x).length then some x else best

def deepest (xs : List A) : Option A := xs.foldl (deeper target p) none

theorem deepest_concat (xs : List A) (x : A) :
    deepest target p (xs ++ [x]) = deeper target p (deepest target p xs) x := by
  simp [deepest, foldl_cons]

variable {target p}

theorem deepest_covers {xs : List A} {x : A} (found : deepest target p xs = some x) : x ∈ xs ∧ target x <+: p := by
  induction xs using reverseRecOn with
  | nil => cases found
  | append_singleton xs y ih =>
    rw [deepest_concat, deeper] at found
    split at found
    · rename_i covers
      cases found
      exact ⟨mem_append_right _ mem_cons_self, covers.1⟩
    · obtain ⟨mem, covers⟩ := ih found
      exact ⟨mem_append_left _ mem, covers⟩

theorem deeper_map {target : B → List Path} (f : A → B) (best : Option A) (x : A) :
    deeper target p (best.map f) (f x) = (deeper (target ∘ f) p best x).map f := by
  unfold deeper
  rw [apply_ite (Option.map f)]
  cases best <;> simp

theorem deepest_map {target : B → List Path} (f : A → B) (xs : List A) :
    deepest target p (xs.map f) = (deepest (target ∘ f) p xs).map f := by
  induction xs using reverseRecOn with
  | nil => rfl
  | append_singleton xs y ih => rw [map_append, map_singleton, deepest_concat, deepest_concat, ih, deeper_map]

end

structure Mount where
  (target source : List Path)

def under (mounts : List Mount) (p : List Path) : Option (List Path) :=
  (deepest Mount.target p mounts).map (fun m => m.source ++ p.drop m.target.length)

theorem under_whole (target p dir : List Path) : under [⟨target, []⟩] p = some dir ↔ p = target ++ dir := by
  simp only [under, deepest, foldl_cons, deeper, Option.not_mem_none, false_imp_iff, implies_true,
    and_true]
  by_cases covers : target <+: p
  · obtain ⟨rest, rfl⟩ := covers
    simp
  rw [if_neg covers]
  refine iff_of_false (by simp) ?_
  rintro rfl
  exact covers (prefix_append target dir)

end HostingPlatform.Mounts
