import HostingPlatform.Kahn
import HostingPlatform.TenantLifecycle.Cascades
import Mathlib.Algebra.Order.Ring.Rat
import Mathlib.Data.String.Basic

/-! The order in which the hooks of a transition run. -/
namespace HostingPlatform.TenantLifecycle

open List Kahn
open Cascades (Transition)

/- what is read of a hook for its place; its order is a finite number -/
structure RegisteredHook where
  name : String
  order : Rat
  transitions : List Transition
  after : Option (List String)
  deriving DecidableEq

inductive RegistryErrorCode where
  | cyclicAfter | unknownAfter
  deriving DecidableEq

structure LifecycleRegistryError where
  code : RegistryErrorCode
  message : String
  deriving DecidableEq

def transitionText : Transition → String
  | .active => "active"
  | .suspended => "suspended"
  | .archived => "archived"
  | .restored => "restored"
  | .deleted => "deleted"

def unknownAfter (transition : Transition) (h : RegisteredHook) (dep : String) : LifecycleRegistryError :=
  ⟨.unknownAfter, s!"hook '{h.name}' declares after '{dep}' but '{dep}' isn't registered for transition '{transitionText transition}'"⟩

def cyclicAfter (transition : Transition) (remaining : List String) : LifecycleRegistryError :=
  let names := ", ".intercalate remaining
  ⟨.cyclicAfter, s!"cycle in lifecycle hook 'after' graph for transition '{transitionText transition}': {names}"⟩

def RegisteredHook.dependencies (h : RegisteredHook) : List String := h.after.getD []

/-- What the comparison of two texts promises: its sign turns around with them, and it is transitive. -/
structure Collates (localeCompare : String → String → Int) : Prop where
  turned : ∀ a b, (localeCompare a b).sign = -(localeCompare b a).sign
  trans : ∀ a b c, localeCompare a b ≤ 0 → localeCompare b c ≤ 0 → localeCompare a c ≤ 0

variable (localeCompare : String → String → Int)

/- whether the comparison of two hooks is not positive -/
def Upto (a b : RegisteredHook) : Prop :=
  a.order < b.order ∨ a.order = b.order ∧ localeCompare a.name b.name ≤ 0

instance : DecidableRel (Upto localeCompare) := fun a b =>
  inferInstanceAs (Decidable (a.order < b.order ∨ a.order = b.order ∧ localeCompare a.name b.name ≤ 0))

def subscribed (transition : Transition) (all : List RegisteredHook) : List RegisteredHook :=
  all.filter (transition ∈ ·.transitions)

/-- The hooks stand for their names in the list of those that are ready. No result where the fuel does not last. -/
def topoSortForTransition (fuel : Nat) (transition : Transition) (all : List RegisteredHook) :
    Option (Except LifecycleRegistryError (List RegisteredHook)) :=
  let byOrder := (subscribed transition all).insertionSort (Upto localeCompare)
  match byOrder.findSome? (fun h =>
      (h.dependencies.find? (· ∉ byOrder.map (·.name))).map (unknownAfter transition h)) with
  | some unknown => some (.error unknown)
  | none =>
    (run (·.name) (·.dependencies) (Upto localeCompare) byOrder fuel (initial (·.name) (·.dependencies) byOrder)
        (inDegree (·.name) (·.dependencies) byOrder) []).map (fun out =>
      if out.length ≠ byOrder.length then
        .error (cyclicAfter transition ((byOrder.map (·.name)).filter (fun n => ¬ out.any (·.name = n))))
      else .ok out)

variable {localeCompare}

theorem Collates.total (collates : Collates localeCompare) : Std.Total (Upto localeCompare) where
  total a b := by
    rcases lt_trichotomy a.order b.order with lower | same | higher
    · exact .inl (.inl lower)
    · have turned := collates.turned a.name b.name
      rcases le_or_gt (localeCompare a.name b.name) 0 with upto | above
      · exact .inl (.inr ⟨same, upto⟩)
      · rw [Int.sign_eq_one_of_pos above] at turned
        exact .inr (.inr ⟨same.symm, le_of_lt (Int.sign_eq_neg_one_iff_neg.mp (by omega))⟩)
    · exact .inr (.inl higher)

theorem Collates.isTrans (collates : Collates localeCompare) : IsTrans RegisteredHook (Upto localeCompare) where
  trans a b c := by
    rintro (lower | ⟨same, upto⟩) (lower' | ⟨same', upto'⟩)
    · exact .inl (lower.trans lower')
    · exact .inl (same' ▸ lower)
    · exact .inl (same ▸ lower')
    · exact .inr ⟨same.trans same', collates.trans _ _ _ upto upto'⟩

def Separates (localeCompare : String → String → Int) (hooks : List RegisteredHook) : Prop :=
  ∀ g ∈ hooks, ∀ h ∈ hooks, g.order = h.order → localeCompare g.name h.name = 0 → g.name = h.name

theorem sorted_perm (collates : Collates localeCompare) {hooks hooks' : List RegisteredHook}
    (unique : (hooks.map (·.name)).Nodup) (separates : Separates localeCompare hooks) (perm : hooks'.Perm hooks) :
    hooks'.insertionSort (Upto localeCompare) = hooks.insertionSort (Upto localeCompare) := by
  have := collates.total
  have := collates.isTrans
  have sorted := perm_insertionSort (Upto localeCompare)
  refine Perm.eq_of_pairwise ?_ (pairwise_insertionSort _ hooks') (pairwise_insertionSort _ hooks)
    ((sorted hooks').trans (perm.trans (sorted hooks).symm))
  intro a b memA memB upto back
  have inA : a ∈ hooks := perm.mem_iff.mp ((mem_insertionSort _).mp memA)
  have inB : b ∈ hooks := (mem_insertionSort _).mp memB
  refine inj_on_of_nodup_map unique inA inB ?_
  rcases upto with lower | ⟨same, upto⟩ <;> rcases back with lower' | ⟨same', back⟩
  · exact absurd lower' (not_lt_of_gt lower)
  · exact absurd same' (ne_of_gt lower)
  · exact absurd same (ne_of_gt lower')
  refine separates a inA b inB same ?_
  have turned := collates.turned a.name b.name
  rcases upto.lt_or_eq with below | zero
  · rw [Int.sign_eq_neg_one_of_neg below] at turned
    have above := Int.sign_eq_one_iff_pos.mp (show (localeCompare b.name a.name).sign = 1 by omega)
    omega
  · exact zero

theorem topoSort_perm (collates : Collates localeCompare) (fuel : Nat) (transition : Transition)
    {all all' : List RegisteredHook} (unique : (all.map (·.name)).Nodup)
    (separates : Separates localeCompare (subscribed transition all)) (perm : all'.Perm all) :
    topoSortForTransition localeCompare fuel transition all' =
      topoSortForTransition localeCompare fuel transition all := by
  have sorted := sorted_perm collates ((filter_sublist.map _).nodup unique) separates
    (perm.filter (transition ∈ ·.transitions))
  rw [topoSortForTransition, topoSortForTransition, subscribed, sorted, ← subscribed]

/-- Each of the hooks stands at its place as the least one of those whose dependencies all stand before it, and
there is an error exactly where some hook names one that is not among them, or comes after itself. -/
def Sorts (localeCompare : String → String → Int) (hooks : List RegisteredHook)
    (result : Except LifecycleRegistryError (List RegisteredHook)) : Prop :=
  (∀ out, result = .ok out → out.Perm hooks ∧
    Scheduled (·.name) (·.dependencies) (Upto localeCompare) hooks out) ∧
  ((∃ error, result = .error error) ↔
    (∃ h ∈ hooks, ∃ dep ∈ h.dependencies, dep ∉ hooks.map (·.name)) ∨
      ∃ a, Relation.TransGen (After (·.name) (·.dependencies) hooks) a a)

theorem topoSort_sorts (collates : Collates localeCompare) (transition : Transition)
    {all : List RegisteredHook} (unique : (all.map (·.name)).Nodup) (extra : Nat) :
    ∃ result, topoSortForTransition localeCompare (all.length + 1 + extra) transition all = some result ∧
      Sorts localeCompare (subscribed transition all) result := by
  have := collates.total
  have := collates.isTrans
  have perm := perm_insertionSort (Upto localeCompare) (subscribed transition all)
  have distinct : (((subscribed transition all).insertionSort (Upto localeCompare)).map (·.name)).Nodup :=
    ((perm.map _).nodup_iff).mpr ((filter_sublist.map _).nodup unique)
  have fits : (subscribed transition all).length ≤ all.length := length_filter_le _ all
  unfold topoSortForTransition
  generalize (subscribed transition all).insertionSort (Upto localeCompare) = byOrder at perm distinct
  have same : ∀ h, h ∈ byOrder ↔ h ∈ subscribed transition all := fun h => perm.mem_iff
  have names : ∀ k, k ∈ byOrder.map (·.name) ↔ k ∈ (subscribed transition all).map (·.name) := fun k =>
    (perm.map _).mem_iff
  simp only
  cases found : byOrder.findSome? (fun h =>
      (h.dependencies.find? (· ∉ byOrder.map (·.name))).map (unknownAfter transition h)) with
  | some e =>
    refine ⟨_, rfl, fun out ok => (by cases ok), iff_of_true ⟨e, rfl⟩ (.inl ?_)⟩
    obtain ⟨h, mem, found⟩ := exists_of_findSome?_eq_some found
    obtain ⟨dep, found, _⟩ := Option.map_eq_some_iff.mp found
    have absent := find?_some found
    exact ⟨h, (same h).mp mem, dep, mem_of_find?_eq_some found, by simpa only [← names] using of_decide_eq_true absent⟩
  | none =>
    have closed : ∀ h ∈ byOrder, ∀ k ∈ h.dependencies, k ∈ byOrder.map (·.name) := by
      intro h mem k dep
      have known := findSome?_eq_none_iff.mp found h mem
      rw [Option.map_eq_none_iff, find?_eq_none] at known
      simpa only [decide_eq_true_eq, not_not] using known k dep
    have known : ¬ ∃ h ∈ subscribed transition all, ∃ dep ∈ h.dependencies,
        dep ∉ (subscribed transition all).map (·.name) := by
      rintro ⟨h, mem, dep, edge, absent⟩
      exact absent ((names dep).mp (closed h ((same h).mpr mem) dep edge))
    obtain ⟨out, ended, nodup, scheduled, stuck⟩ := run_schedules (Upto localeCompare) distinct
      (all.length - byOrder.length + extra)
    have fuel : byOrder.length + 1 + (all.length - byOrder.length + extra) = all.length + 1 + extra := by
      have := perm.length_eq
      omega
    rw [fuel] at ended
    have after : After (·.name) (·.dependencies) byOrder = After (·.name) (·.dependencies) (subscribed transition all) := by
      funext a b
      simp [After, same]
    have placed := placed_iff distinct closed scheduled stuck
    rw [after] at placed
    have within : out ⊆ byOrder := fun _ mem => (scheduled.mem mem).1
    refine ⟨_, by rw [ended]; rfl, ?_⟩
    beta_reduce
    split
    · rename_i short
      refine ⟨fun out ok => (by cases ok), iff_of_true ⟨_, rfl⟩ (.inr ?_)⟩
      by_contra acyclic
      exact short (Nat.le_antisymm (nodup.length_le_of_subset within)
        (distinct.of_map.length_le_of_subset (placed.mpr (not_exists.mp acyclic))))
    · have all' : out.Perm byOrder := (subperm_of_subset nodup within).perm_of_length_le (by omega)
      refine ⟨fun _ ok => (by cases ok; exact ⟨all'.trans perm, scheduled.of_mem_iff same⟩),
        iff_of_false (by rintro ⟨_, error⟩; cases error) (not_or.mpr ⟨known, not_exists.mpr ?_⟩)⟩
      exact placed.mp all'.symm.subset

/-- For hooks with different names the sort ends, and sorts those of the transition; and hooks that are registered
in another order are sorted in the same one, as far as the names are told apart. -/
theorem topoSort_schedules (collates : Collates localeCompare) (transition : Transition)
    {all : List RegisteredHook} (unique : (all.map (·.name)).Nodup) (extra : Nat) :
    ∃ result, topoSortForTransition localeCompare (all.length + 1 + extra) transition all = some result ∧
      Sorts localeCompare (subscribed transition all) result ∧
      (Separates localeCompare (subscribed transition all) → ∀ all', all'.Perm all →
        topoSortForTransition localeCompare (all.length + 1 + extra) transition all' = some result) := by
  obtain ⟨result, done, sorts⟩ := topoSort_sorts collates transition unique extra
  exact ⟨result, done, sorts, fun separates all' perm =>
    (topoSort_perm collates _ transition unique separates perm).trans done⟩

def composed (text : String) : String := if text = "e\u0301" then "\u00e9" else text

def composedCompare (a b : String) : Int :=
  if composed a = composed b then 0 else if composed a < composed b then -1 else 1

theorem composedCompare_collates : Collates composedCompare where
  turned a b := by
    unfold composedCompare
    rcases lt_trichotomy (composed a) (composed b) with lt | same | gt
    · simp [lt, lt.ne, lt.ne', not_lt_of_gt lt]
    · simp [same]
    · simp [gt, gt.ne, gt.ne', not_lt_of_gt gt]
  trans a b c := by
    have upto : ∀ a b, composedCompare a b ≤ 0 ↔ composed a ≤ composed b := by
      intro a b
      unfold composedCompare
      rcases lt_trichotomy (composed a) (composed b) with lt | same | gt
      · simp [lt, lt.ne, le_of_lt lt]
      · simp [same]
      · simp [gt.ne', not_lt_of_gt gt, not_le_of_gt gt]
    rw [upto, upto, upto]
    exact le_trans

def hookCalled (name : String) (after : List String) : RegisteredHook := ⟨name, 1, [.active], some after⟩

theorem registration_order_kept : hookCalled "e\u0301" [] ≠ hookCalled "\u00e9" [] ∧ Collates composedCompare ∧
    topoSortForTransition composedCompare 3 .active [hookCalled "e\u0301" [], hookCalled "\u00e9" []] =
      some (.ok [hookCalled "e\u0301" [], hookCalled "\u00e9" []]) ∧
    topoSortForTransition composedCompare 3 .active [hookCalled "\u00e9" [], hookCalled "e\u0301" []] =
      some (.ok [hookCalled "\u00e9" [], hookCalled "e\u0301" []]) :=
  ⟨by decide +kernel, composedCompare_collates, by decide +kernel, by decide +kernel⟩

theorem topoSort_cycle : ∃ error,
    topoSortForTransition composedCompare 3 .active [hookCalled "a" ["b"], hookCalled "b" ["a", "a"]] =
      some (.error error) := by
  obtain ⟨result, done, sorts, _⟩ := @topoSort_schedules _ composedCompare_collates .active
    [hookCalled "a" ["b"], hookCalled "b" ["a", "a"]] (by decide) 0
  have forth : After RegisteredHook.name RegisteredHook.dependencies
      (subscribed .active [hookCalled "a" ["b"], hookCalled "b" ["a", "a"]]) "a" "b" :=
    ⟨hookCalled "a" ["b"], by decide +kernel⟩
  have back : After RegisteredHook.name RegisteredHook.dependencies
      (subscribed .active [hookCalled "a" ["b"], hookCalled "b" ["a", "a"]]) "b" "a" :=
    ⟨hookCalled "b" ["a", "a"], by decide +kernel⟩
  obtain ⟨error, rfl⟩ := sorts.2.mpr (.inr ⟨"a", .tail (.single forth) back⟩)
  exact ⟨error, done⟩

end HostingPlatform.TenantLifecycle
