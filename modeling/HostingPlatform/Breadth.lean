import Mathlib.Data.List.Nodup

/-! A search that takes the nodes in the order in which it has found them, and keeps with each the
path that it was found by. The path to the goal is as short as any. -/
namespace HostingPlatform.Breadth

open List

/- the nodes after the first one -/
inductive Walk {A : Type} (R : A → A → Prop) (start : A) : List A → A → Prop where
  | start : Walk R start [] start
  | step {path : List A} {a b : A} : Walk R start path a → R a b → Walk R start (path ++ [b]) b

structure Reached (A : Type) where
  node : A
  path : List A

section queue

variable {A : Type} [DecidableEq A]

/- what is found of the nodes that a path leads to, or the path to the goal -/
def expand (goal : A) (path : List A) : List A → List (Reached A) → List A →
    Except (List A) (List (Reached A) × List A)
  | [], queue, visited => .ok (queue, visited)
  | n :: rest, queue, visited =>
    if n ∈ visited then expand goal path rest queue visited
    else if n = goal then .error (path ++ [n])
    else expand goal path rest (queue ++ [⟨n, path ++ [n]⟩]) (n :: visited)

/- no result where the fuel is used up, and an empty path where the queue is -/
def search (next : A → List A) (goal : A) : Nat → List (Reached A) → List A → Option (List A)
  | 0, _, _ => none
  | _ + 1, [], _ => some []
  | fuel + 1, r :: queue, visited =>
    match expand goal r.path (next r.node) queue visited with
    | .error path => some path
    | .ok (queue, visited) => search next goal fuel queue visited

theorem expand_found (goal : A) (path ns : List A) (queue : List (Reached A)) (visited : List A) :
    (goal ∈ ns ∧ expand goal path ns queue visited = .error (path ++ [goal])) ∨
    ∃ fresh, expand goal path ns queue visited =
        .ok (queue ++ fresh.map (fun n => ⟨n, path ++ [n]⟩), fresh.reverse ++ visited) ∧
      fresh ⊆ ns ∧ fresh.Disjoint visited ∧ fresh.Nodup ∧ goal ∉ fresh ∧ ∀ n ∈ ns, n ∈ fresh ∨ n ∈ visited := by
  induction ns generalizing queue visited with
  | nil => exact .inr ⟨[], by simp [expand]⟩
  | cons n rest ih =>
    by_cases known : n ∈ visited
    · simp only [expand, known]
      rcases ih queue visited with ⟨mem, found⟩ | ⟨fresh, found, within, apart, nodup, unmet, all⟩
      · exact .inl ⟨mem_cons_of_mem n mem, found⟩
      refine .inr ⟨fresh, found, subset_cons_of_subset n within, apart, nodup, unmet, ?_⟩
      intro m mem
      rcases mem_cons.mp mem with rfl | mem
      · exact .inr known
      · exact all m mem
    · by_cases met : n = goal
      · left
        simp [expand, met ▸ known, met]
      simp only [expand, known, met]
      rcases ih (queue ++ [⟨n, path ++ [n]⟩]) (n :: visited) with
        ⟨mem, found⟩ | ⟨fresh, found, within, apart, nodup, unmet, all⟩
      · exact .inl ⟨mem_cons_of_mem n mem, found⟩
      right
      refine ⟨n :: fresh, by simpa using found, cons_subset_cons n within, ?_, ?_, ?_, ?_⟩
      · exact disjoint_cons_left.mpr ⟨known, (disjoint_cons_right.mp apart).2⟩
      · exact nodup_cons.mpr ⟨(disjoint_cons_right.mp apart).1, nodup⟩
      · exact fun mem => (mem_cons.mp mem).elim (fun same => met same.symm) unmet
      intro m mem
      rcases mem_cons.mp mem with rfl | mem
      · exact .inl mem_cons_self
      rcases all m mem with there | there
      · exact .inl (mem_cons_of_mem n there)
      rcases mem_cons.mp there with rfl | there
      · exact .inl mem_cons_self
      · exact .inr there

end queue

section levels

variable {A : Type} {R : A → A → Prop} {next : A → List A} {start goal : A}

/- reached by a walk of at most so many steps -/
def Near (R : A → A → Prop) (start : A) (d : Nat) (a : A) : Prop :=
  ∃ path, Walk R start path a ∧ path.length ≤ d

/-- The nodes at one distance that are still to be expanded, and those found one step further on. -/
structure Level (next : A → List A) (R : A → A → Prop) (start goal : A) (d : Nat) (now later : List (Reached A))
    (visited : List A) : Prop where
  unmet : goal ∉ visited
  now_at : ∀ r ∈ now, Walk R start r.path r.node ∧ r.path.length = d
  later_at : ∀ r ∈ later, Walk R start r.path r.node ∧ r.path.length = d + 1 ∧ ¬ Near R start d r.node
  near : ∀ a, Near R start d a → a ∈ visited
  known : ∀ a ∈ visited, (∃ r ∈ now ++ later, r.node = a) ∨ next a ⊆ visited

theorem Level.deeper (edges : ∀ a b, b ∈ next a ↔ R a b) {d : Nat} {later : List (Reached A)} {visited : List A}
    (level : Level next R start goal d [] later visited) : Level next R start goal (d + 1) later [] visited where
  unmet := level.unmet
  now_at := fun r mem => ⟨(level.later_at r mem).1, (level.later_at r mem).2.1⟩
  later_at := fun r mem => absurd mem not_mem_nil
  near := by
    rintro b ⟨path, walk, short⟩
    cases walk with
    | start => exact level.near start ⟨[], .start, Nat.zero_le d⟩
    | @step path a _ walk edge =>
      have close : Near R start d a := ⟨path, walk, by simpa using short⟩
      rcases level.known a (level.near a close) with ⟨r, mem, rfl⟩ | all
      · exact absurd close (level.later_at r mem).2.2
      · exact all ((edges a b).mpr edge)
  known := by simpa using level.known

theorem Level.expanded (edges : ∀ a b, b ∈ next a ↔ R a b) {d : Nat} {r : Reached A} {now later : List (Reached A)}
    {visited fresh : List A} (level : Level next R start goal d (r :: now) later visited)
    (within : fresh ⊆ next r.node) (apart : fresh.Disjoint visited) (unmet : goal ∉ fresh)
    (all : ∀ n ∈ next r.node, n ∈ fresh ∨ n ∈ visited) :
    Level next R start goal d now (later ++ fresh.map (fun n => ⟨n, r.path ++ [n]⟩)) (fresh.reverse ++ visited) where
  unmet := by simp [unmet, level.unmet]
  now_at := fun s mem => level.now_at s (mem_cons_of_mem r mem)
  later_at := by
    intro s mem
    rcases mem_append.mp mem with mem | mem
    · exact level.later_at s mem
    obtain ⟨n, new, rfl⟩ := mem_map.mp mem
    obtain ⟨walk, length⟩ := level.now_at r mem_cons_self
    exact ⟨walk.step ((edges r.node n).mp (within new)), by simp [length],
      fun close => apart new (level.near n close)⟩
  near := fun a close => mem_append_right _ (level.near a close)
  known := by
    intro a mem
    simp only [mem_append, mem_reverse] at mem
    rcases mem with mem | mem
    · exact .inl ⟨⟨a, r.path ++ [a]⟩, by simp [mem], rfl⟩
    rcases level.known a mem with ⟨s, there, rfl⟩ | closed
    · rcases mem_cons.mp there with rfl | there
      · exact .inr (fun n edge => by simpa using all n edge)
      · exact .inl ⟨s, by simpa [or_assoc] using Or.inl (mem_append.mp there), rfl⟩
    · exact .inr (fun n edge => mem_append_right _ (closed edge))

/-- A shortest walk to the goal, or the empty path where no walk leads there. -/
def Shortest (R : A → A → Prop) (start goal : A) (found : List A) : Prop :=
  if found = [] then ∀ path, ¬ Walk R start path goal
  else Walk R start found goal ∧ ∀ path, Walk R start path goal → found.length ≤ path.length

theorem Level.unreached (edges : ∀ a b, b ∈ next a ↔ R a b) {d : Nat} {visited : List A}
    (level : Level next R start goal d [] [] visited) {path : List A} {a : A} (walk : Walk R start path a) :
    a ∈ visited := by
  induction walk with
  | start => exact level.near start ⟨[], .start, Nat.zero_le d⟩
  | @step _ a b _ edge ih =>
    rcases level.known a ih with ⟨_, mem, _⟩ | all
    · exact absurd mem not_mem_nil
    · exact all ((edges a b).mpr edge)

theorem search_shortest [DecidableEq A] (edges : ∀ a b, b ∈ next a ↔ R a b) {nodes : List A} (closed : ∀ a, next a ⊆ nodes)
    (fuel : Nat) {d : Nat} {now later : List (Reached A)} {visited : List A}
    (level : Level next R start goal d now later visited) (nodup : visited.Nodup) (within : visited ⊆ nodes)
    (enough : nodes.length + (now ++ later).length < fuel + visited.length) :
    ∃ found, search next goal fuel (now ++ later) visited = some found ∧ Shortest R start goal found := by
  induction fuel generalizing d now later visited with
  | zero =>
    have fits := nodup.length_le_of_subset within
    omega
  | succ fuel ih =>
    -- the next distance is begun where the present one is through
    have head : ∀ {d : Nat} {r : Reached A} {now later : List (Reached A)},
        Level next R start goal d (r :: now) later visited →
        nodes.length + (r :: now ++ later).length < fuel + 1 + visited.length →
        ∃ found, search next goal (fuel + 1) (r :: now ++ later) visited = some found ∧
          Shortest R start goal found := by
      intro d r now later level enough
      obtain ⟨walk, length⟩ := level.now_at r mem_cons_self
      rcases expand_found goal r.path (next r.node) (now ++ later) visited with
        ⟨mem, found⟩ | ⟨fresh, found, sub, apart, distinct, unmet, all⟩
      · refine ⟨r.path ++ [goal], by simp [search, found], ?_⟩
        rw [Shortest, if_neg (by simp)]
        refine ⟨walk.step ((edges _ _).mp mem), fun path other => ?_⟩
        by_contra shorter
        simp only [length_append, length_singleton] at shorter
        exact level.unmet (level.near goal ⟨path, other, by omega⟩)
      · have further := ih (level.expanded edges sub apart unmet all)
          (by simpa using nodup_append'.mpr ⟨nodup_reverse.mpr distinct, nodup, by simpa using apart⟩)
          (by simpa using ⟨fun n mem => closed r.node (sub mem), within⟩) (by simp at enough ⊢; omega)
        simpa [search, found] using further
    cases now with
    | cons r now => exact head level enough
    | nil =>
      cases later with
      | cons r later => simpa using head (level.deeper edges) (by simpa using enough)
      | nil =>
        refine ⟨[], rfl, ?_⟩
        exact fun path walk => level.unmet (level.unreached edges walk)

end levels

end HostingPlatform.Breadth
