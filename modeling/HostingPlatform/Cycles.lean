import Mathlib.Data.List.Chain
import Mathlib.Data.List.Nodup

/-! The search for a cycle along the paths from a node, with no memory of the nodes it has
left. It goes on for as long as the path can grow, and finds a cycle exactly when one can be
reached. A search that keeps its path in a state, which its branches share, finds the same. -/
namespace HostingPlatform.Cycles

open List

section walks

variable {A : Type} {R : A → A → Prop}

theorem transGen_of_chain {walk : List A} {a b : A}
    (chain : (a :: (walk ++ [b])).IsChain R) : Relation.TransGen R a b := by
  induction walk generalizing a with
  | nil => exact .single (isChain_pair.mp chain)
  | cons c rest ih =>
    obtain ⟨step, tail⟩ := isChain_cons_cons.mp chain
    exact Relation.TransGen.head step (ih tail)

theorem chain_of_transGen {a b : A} (reaches : Relation.TransGen R a b) : ∃ walk, (a :: (walk ++ [b])).IsChain R := by
  induction reaches using Relation.TransGen.head_induction_on with
  | single step => exact ⟨[], isChain_pair.mpr step⟩
  | @head a c step _ ih =>
    obtain ⟨walk, chain⟩ := ih
    exact ⟨c :: walk, isChain_cons_cons.mpr ⟨step, chain⟩⟩

theorem nodup_extended {path : List A} {a : A} (nodup : path.Nodup) (fresh : a ∉ path) : (path ++ [a]).Nodup :=
  nodup_append'.mpr ⟨nodup, nodup_singleton a, disjoint_singleton.mpr fresh⟩

end walks

theorem findSome?_congr {A B : Type} {f g : A → Option B} {l : List A} (same : ∀ a ∈ l, f a = g a) :
    l.findSome? f = l.findSome? g := by
  induction l with
  | nil => rfl
  | cons a rest ih =>
    rw [findSome?_cons, findSome?_cons, same a mem_cons_self, ih (fun b mem => same b (mem_cons_of_mem a mem))]

variable {A : Type} [DecidableEq A]

/- the path up to the node that is met again -/
def findCycle (next : A → List A) : Nat → List A → A → Option (List A)
  | 0, _, _ => none
  | fuel + 1, path, current =>
    if current ∈ path then some path
    else (next current).findSome? (findCycle next fuel (path ++ [current]))

def Edge (next : A → List A) (a b : A) : Prop := b ∈ next a

variable {next : A → List A} {fuel : Nat} {path found nodes : List A} {current : A}

theorem cycle_of_findCycle (walk : (path ++ [current]).IsChain (Edge next))
    (cycle : findCycle next fuel path current = some found) : ∃ a, Relation.TransGen (Edge next) a a := by
  induction fuel generalizing path current with
  | zero => contradiction
  | succ fuel ih =>
    unfold findCycle at cycle
    split at cycle
    · rename_i again
      obtain ⟨before, after, rfl⟩ := append_of_mem again
      rw [append_assoc] at walk
      exact ⟨current, transGen_of_chain (walk.right_of_append)⟩
    · obtain ⟨b, edge, cycle⟩ := exists_of_findSome?_eq_some cycle
      refine ih ?_ cycle
      rw [append_assoc]
      exact isChain_split.mpr ⟨walk, isChain_pair.mpr edge⟩

theorem fails_of_none (within : path ⊆ nodes) (nodup : path.Nodup)
    (enough : nodes.length < path.length + fuel) (none : findCycle next fuel path current = none) :
    ∃ less, fuel = less + 1 ∧ current ∉ path ∧
      ∀ b ∈ next current, findCycle next less (path ++ [current]) b = .none := by
  cases fuel with
  | zero =>
    have fits := nodup.length_le_of_subset within
    omega
  | succ less =>
    unfold findCycle at none
    split at none
    · contradiction
    · rename_i fresh
      exact ⟨less, rfl, fresh, findSome?_eq_none_iff.mp none⟩

theorem nodup_of_findCycle (closed : ∀ a, ∀ b ∈ next a, b ∈ nodes) {walk : List A} (known : current ∈ nodes)
    (within : path ⊆ nodes) (nodup : path.Nodup) (enough : nodes.length < path.length + fuel)
    (chain : (current :: walk).IsChain (Edge next)) (none : findCycle next fuel path current = none) :
    (path ++ current :: walk).Nodup := by
  induction walk generalizing fuel path current with
  | nil =>
    obtain ⟨_, _, fresh, _⟩ := fails_of_none within nodup enough none
    exact nodup_extended nodup fresh
  | cons b rest ih =>
    obtain ⟨edge, tail⟩ := isChain_cons_cons.mp chain
    obtain ⟨less, rfl, fresh, fails⟩ := fails_of_none within nodup enough none
    have within' : path ++ [current] ⊆ nodes :=
      append_subset.mpr ⟨within, cons_subset.mpr ⟨known, nil_subset nodes⟩⟩
    have enough' : nodes.length < (path ++ [current]).length + less := by
      rw [length_append, length_singleton]
      omega
    have whole := ih (closed current b edge) within' (nodup_extended nodup fresh) enough' tail (fails b edge)
    rwa [append_assoc] at whole

theorem exists_findCycle_iff (closed : ∀ a, ∀ b ∈ next a, b ∈ nodes) :
    (∀ a ∈ nodes, findCycle next (nodes.length + 1) [] a = none) ↔ ∀ a, ¬ Relation.TransGen (Edge next) a a := by
  constructor
  · intro none a cycle
    obtain ⟨b, _, edge⟩ := Relation.TransGen.tail'_iff.mp cycle
    obtain ⟨walk, chain⟩ := chain_of_transGen cycle
    have known : a ∈ nodes := closed b a edge
    have nodup : (a :: (walk ++ [a])).Nodup :=
      nodup_of_findCycle closed known (nil_subset _) nodup_nil (by simp) chain (none a known)
    exact (nodup_cons.mp nodup).1 (mem_append_right _ (mem_singleton_self a))
  · intro acyclic a _
    cases found : findCycle next (nodes.length + 1) [] a with
    | none => rfl
    | some path =>
      obtain ⟨b, cycle⟩ := cycle_of_findCycle (isChain_singleton a) found
      exact absurd cycle (acyclic b)

theorem findCycle_extra {next : A → List A} {nodes : List A}
    (closed : ∀ a, ∀ b ∈ next a, b ∈ nodes) (extra : Nat) {fuel : Nat} {path : List A} {current : A}
    (known : current ∈ nodes) (within : path ⊆ nodes) (nodup : path.Nodup)
    (enough : nodes.length < path.length + fuel) :
    findCycle next (fuel + extra) path current = findCycle next fuel path current := by
  induction fuel generalizing path current with
  | zero =>
    have fits := nodup.length_le_of_subset within
    omega
  | succ fuel ih =>
    rw [Nat.add_right_comm]
    unfold findCycle
    by_cases again : current ∈ path
    · rw [if_pos again, if_pos again]
    have within' : path ++ [current] ⊆ nodes :=
      append_subset.mpr ⟨within, cons_subset.mpr ⟨known, nil_subset nodes⟩⟩
    have longer : (path ++ [current]).length = path.length + 1 := by simp
    rw [if_neg again, if_neg again]
    apply findSome?_congr
    intro b mem
    exact ih (closed current b mem) within' (nodup_extended nodup again) (by omega)

theorem prefix_of_findCycle (cycle : findCycle next fuel path current = some found) : path <+: found := by
  induction fuel generalizing path current with
  | zero => contradiction
  | succ fuel ih =>
    unfold findCycle at cycle
    split at cycle
    · exact Option.some.inj cycle ▸ prefix_refl path
    · obtain ⟨b, _, cycle⟩ := exists_of_findSome?_eq_some cycle
      exact (prefix_append path [current]).trans (ih cycle)

theorem found_from {start : A} (cycle : findCycle next fuel [] start = some found) : ∃ rest, found = start :: rest := by
  cases fuel with
  | zero => contradiction
  | succ fuel =>
    obtain ⟨b, _, cycle⟩ := exists_of_findSome?_eq_some cycle
    obtain ⟨rest, rfl⟩ := prefix_of_findCycle cycle
    exact ⟨rest, rfl⟩

/- the nodes that are being visited, as a set and in their order -/
structure Trail (A : Type) where
  (visiting path : List A)

def Trail.enter (s : Trail A) (a : A) : Trail A := ⟨s.visiting ++ [a], s.path ++ [a]⟩

def Trail.leave (s : Trail A) (a : A) : Trail A := ⟨s.visiting.filter (fun b => b ≠ a), s.path.dropLast⟩

/- each in turn, up to one that succeeds -/
def tryEach (visit : A → Trail A → Option (Bool × Trail A)) :
    List A → Trail A → Option (Bool × Trail A)
  | [], s => some (false, s)
  | a :: rest, s =>
    match visit a s with
    | some (false, s) => tryEach visit rest s
    | result => result

def search (next : A → List A) (enters : A → Bool) : Nat → A → Trail A → Option (Bool × Trail A)
  | 0, _, _ => none
  | fuel + 1, current, s =>
    if current ∈ s.visiting then some (true, s)
    else
      let visit b s := if enters b then search next enters fuel b s else some (false, s)
      match tryEach visit (next current) (s.enter current) with
      | some (false, s) => some (false, s.leave current)
      | result => result

/-- A search that fails is back where it was; one that succeeds stands on the path it has found. -/
def outcome (path : List A) : Option (List A) → Bool × Trail A
  | none => (false, ⟨path, path⟩)
  | some found => (true, ⟨found, found⟩)

theorem leave_enter {a : A} (fresh : a ∉ path) : Trail.leave ⟨path ++ [a], path ++ [a]⟩ a = ⟨path, path⟩ := by
  have others : ∀ b ∈ path, b ≠ a := fun b mem same => fresh (same ▸ mem)
  simpa [Trail.leave] using others

section shared

variable {next : A → List A} {enters : A → Bool} {nodes : List A}

theorem tryEach_outcome {visit : A → Trail A → Option (Bool × Trail A)} {along : A → Option (List A)}
    {path : List A} {bs : List A} (node : ∀ b ∈ nodes, visit b ⟨path, path⟩ = some (outcome path (along b)))
    (leaf : ∀ b, b ∉ nodes → visit b ⟨path, path⟩ = some (false, ⟨path, path⟩)) : tryEach visit bs ⟨path, path⟩ =
      some (outcome path ((bs.filter nodes.contains).findSome? along)) := by
  induction bs with
  | nil => rfl
  | cons b rest ih =>
    unfold tryEach
    by_cases known : b ∈ nodes
    · rw [node b known, filter_cons_of_pos (contains_iff_mem.mpr known), findSome?_cons]
      cases along b with
      | none => exact ih
      | some found => rfl
    · rw [leaf b known, filter_cons_of_neg (fun here => known (contains_iff_mem.mp here))]
      exact ih

theorem search_outcome (known : ∀ a ∈ nodes, enters a = true)
    (leaf : ∀ a, a ∉ nodes → next a = []) {fuel : Nat} {path : List A} {current : A}
    (node : current ∈ nodes) (within : path ⊆ nodes) (nodup : path.Nodup) (enough : nodes.length < path.length + fuel) :
    search next enters fuel current ⟨path, path⟩ =
      some (outcome path (findCycle (fun a => (next a).filter nodes.contains) fuel path current)) := by
  induction fuel generalizing path current with
  | zero =>
    have fits := nodup.length_le_of_subset within
    omega
  | succ fuel ih =>
    unfold search findCycle
    by_cases again : current ∈ path
    · rw [if_pos again, if_pos again]
      rfl
    have within' : path ++ [current] ⊆ nodes :=
      append_subset.mpr ⟨within, cons_subset.mpr ⟨node, nil_subset nodes⟩⟩
    have nodup' := nodup_extended nodup again
    have longer : (path ++ [current]).length = path.length + 1 := by simp
    have fits := nodup'.length_le_of_subset within'
    have branches := @tryEach_outcome _ _ nodes
      (fun b s => if enters b then search next enters fuel b s else some (false, s))
      (findCycle (fun a => (next a).filter nodes.contains) fuel (path ++ [current]))
      (path ++ [current]) (next current)
      (by
        intro b mem
        rw [if_pos (known b mem)]
        exact ih mem within' nodup' (by omega))
      (by
        intro b other
        obtain ⟨less, rfl⟩ : ∃ less, fuel = less + 1 := ⟨fuel - 1, by omega⟩
        have fresh : b ∉ path ++ [current] := fun mem => other (within' mem)
        split
        · rw [search, if_neg fresh, leaf b other]
          exact congrArg some (congrArg (Prod.mk false) (leave_enter fresh))
        · rfl)
    rw [if_neg again, if_neg again]
    dsimp only [Trail.enter]
    rw [branches]
    cases ((next current).filter nodes.contains).findSome?
        (findCycle (fun a => (next a).filter nodes.contains) fuel (path ++ [current])) with
    | none => exact congrArg some (congrArg (Prod.mk false) (leave_enter again))
    | some found => rfl

end shared

end HostingPlatform.Cycles
