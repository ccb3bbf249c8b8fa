import Mathlib.Data.Set.Finite.List

/-! Kahn's ordering of nodes that name the nodes they come after: those ready are sorted again for
each place, and a node is ready once no name that it comes after is left. -/
namespace HostingPlatform.Kahn

section places

variable {A K : Type}

section definitions

variable (name : A → K) (after : A → List K) (le : A → A → Prop) (all : List A)

/-- A node that has no place yet and comes after nodes with places only. -/
def Available (out : List A) (h : A) : Prop := h ∈ all ∧ h ∉ out ∧ ∀ k ∈ after h, k ∈ out.map name

/-- Each place is a least one of the nodes that are available for it. -/
inductive Scheduled : List A → Prop where
  | nil : Scheduled []
  | snoc {out : List A} {h : A} : Scheduled out → Available name after all out h →
      (∀ g, Available name after all out g → le h g) → Scheduled (out ++ [h])

def After (a b : K) : Prop := ∃ h ∈ all, name h = a ∧ b ∈ after h

end definitions

section scheduled

variable {name : A → K} {after : A → List K} {le : A → A → Prop} {all out : List A} {h : A}

theorem Scheduled.mem (scheduled : Scheduled name after le all out) (mem : h ∈ out) :
    h ∈ all ∧ ∀ k ∈ after h, k ∈ out.map name := by
  induction scheduled with
  | nil => exact absurd mem List.not_mem_nil
  | snoc _ available _ ih =>
    simp only [List.map_append, List.mem_append]
    rcases List.mem_append.mp mem with mem | mem
    · exact ⟨(ih mem).1, fun k edge => .inl ((ih mem).2 k edge)⟩
    · obtain rfl := List.mem_singleton.mp mem
      exact ⟨available.1, fun k edge => .inl (available.2.2 k edge)⟩

theorem Scheduled.of_mem_iff {all' : List A} (same : ∀ h, h ∈ all ↔ h ∈ all')
    (scheduled : Scheduled name after le all out) : Scheduled name after le all' out := by
  have available : ∀ out h, Available name after all' out h ↔ Available name after all out h := by
    simp [Available, same]
  induction scheduled with
  | nil => exact .nil
  | snoc _ waits least ih =>
    exact .snoc ih ((available _ _).mpr waits) (fun g waits => least g ((available _ g).mp waits))

theorem Scheduled.unplaced (unique : (all.map name).Nodup) (scheduled : Scheduled name after le all out)
    (mem : h ∈ all) (left : h ∉ out) : name h ∉ out.map name := by
  intro found
  obtain ⟨g, there, named⟩ := List.mem_map.mp found
  exact left (List.inj_on_of_nodup_map unique (scheduled.mem there).1 mem named ▸ there)

theorem cycle_of_left (unique : (all.map name).Nodup) (closed : ∀ h ∈ all, ∀ k ∈ after h, k ∈ all.map name)
    (scheduled : Scheduled name after le all out) (stuck : ∀ h, ¬ Available name after all out h) (mem : h ∈ all)
    (left : h ∉ out) : ∃ a, Relation.TransGen (After name after all) a a := by
  by_contra acyclic
  rw [not_exists] at acyclic
  let Left := {k // k ∈ all.map name ∧ k ∉ out.map name}
  have finite : Finite Left := ((List.finite_toSet (all.map name)).subset (fun _ is => is.1)).to_subtype
  let behind : Left → Left → Prop := fun a b => Relation.TransGen (After name after all) b.1 a.1
  have : Std.Irrefl behind := ⟨fun a cycle => acyclic a.1 cycle⟩
  obtain ⟨⟨_, here, out'⟩, _, least⟩ := (Finite.wellFounded_of_trans_of_irrefl behind).has_min Set.univ
    ⟨⟨name h, List.mem_map_of_mem mem, scheduled.unplaced unique mem left⟩, trivial⟩
  obtain ⟨g, there, rfl⟩ := List.mem_map.mp here
  have waits := stuck g
  simp only [Available, not_and, not_forall] at waits
  obtain ⟨k, edge, early⟩ := waits there (fun placed => out' (List.mem_map_of_mem placed))
  exact least ⟨k, closed g there k edge, early⟩ trivial (.single ⟨g, there, rfl, edge⟩)

end scheduled

end places

section algorithm

variable {A K : Type} [DecidableEq K] (name : A → K) (after : A → List K) (le : A → A → Prop) [DecidableRel le]

/- the nodes that come after a name, once for each time that they say so -/
def successors (all : List A) (k : K) : List A :=
  all.flatMap (fun h => ((after h).filter (· = k)).map (fun _ => h))

/- those whose in-degree falls to zero become ready -/
def release : List A → (K → Int) → List A → (K → Int) × List A
  | [], degree, ready => (degree, ready)
  | s :: rest, degree, ready =>
    let degree := Function.update degree (name s) (degree (name s) - 1)
    release rest degree (if degree (name s) = 0 then ready ++ [s] else ready)

/- no result where the fuel does not last -/
def run (all : List A) : Nat → List A → (K → Int) → List A → Option (List A)
  | 0, _, _, _ => none
  | fuel + 1, ready, degree, out =>
    match ready.insertionSort le with
    | [] => some out
    | next :: rest =>
      let (degree, ready) := release name (successors after all (name next)) degree rest
      run all fuel ready degree (out ++ [next])

/- how often the nodes of a name say that they come after one -/
def inDegree (all : List A) (k : K) : Int := (all.flatMap (fun h => (after h).map (fun _ => name h))).count k

def initial (all : List A) : List A := all.filter (fun h => inDegree name after all (name h) = 0)

end algorithm

section proofs

variable {A K : Type} [DecidableEq K] {name : A → K} {after : A → List K} {le : A → A → Prop} [DecidableRel le]
  {all out ready ss : List A} {degree : K → Int} {h : A}

theorem count_own {B : Type} (f : A → List B) (unique : (all.map name).Nodup) (mem : h ∈ all) :
    (all.flatMap (fun g => (f g).map (fun _ => name g))).count (name h) = (f h).length := by
  induction all with
  | nil => exact absurd mem List.not_mem_nil
  | cons g rest ih =>
    obtain ⟨fresh, unique⟩ := List.nodup_cons.mp unique
    simp only [List.flatMap_cons, List.count_append]
    rcases List.mem_cons.mp mem with rfl | mem
    · have others : name h ∉ rest.flatMap (fun g => (f g).map (fun _ => name g)) := by
        intro found
        obtain ⟨g, there, same⟩ := List.mem_flatMap.mp found
        obtain ⟨_, _, same⟩ := List.mem_map.mp same
        exact fresh (same ▸ List.mem_map_of_mem there)
      rw [List.count_eq_zero.mpr others, List.map_const', List.count_replicate_self, Nat.add_zero]
    · have other : name g ≠ name h := fun same => fresh (same ▸ List.mem_map_of_mem mem)
      rw [ih unique mem, List.map_const', List.count_replicate]
      simp [other]

theorem count_successors (unique : (all.map name).Nodup) (mem : h ∈ all) (k : K) :
    ((successors after all k).map name).count (name h) = (after h).count k := by
  have own := count_own (fun g => (after g).filter (· = k)) unique mem
  simpa [successors, List.map_flatMap, List.count_eq_length_filter, beq_eq_decide] using own

theorem release_spec (enough : ∀ k ∈ ss.map name, ((ss.map name).count k : Int) ≤ degree k) :
    ∃ new, release name ss degree ready = (fun k => degree k - (ss.map name).count k, ready ++ new) ∧
      new ⊆ ss ∧ (new.map name).Nodup ∧
      ∀ k, k ∈ new.map name ↔ k ∈ ss.map name ∧ degree k = (ss.map name).count k := by
  induction ss generalizing degree ready with
  | nil => exact ⟨[], by simp [release]⟩
  | cons s rest ih =>
    have less : ∀ k, Function.update degree (name s) (degree (name s) - 1) k - ((rest.map name).count k : Int) =
        degree k - (((s :: rest).map name).count k : Int) := by
      intro k
      by_cases same : name s = k
      · subst same
        simp
        omega
      · simp [Function.update_of_ne (Ne.symm same), same]
    have left : ∀ k ∈ rest.map name, ((rest.map name).count k : Int) ≤
        Function.update degree (name s) (degree (name s) - 1) k := by
      intro k mem
      have bound := enough k (List.mem_cons_of_mem _ mem)
      have same := less k
      omega
    obtain ⟨new, found, within, nodup, falls⟩ :=
      @ih (if degree (name s) - 1 = 0 then ready ++ [s] else ready) _ left
    have step : release name (s :: rest) degree ready =
        (fun k => degree k - (((s :: rest).map name).count k : Int),
          (if degree (name s) - 1 = 0 then ready ++ [s] else ready) ++ new) := by
      simp [release, found, less]
    by_cases last : degree (name s) - 1 = 0
    · have gone : name s ∉ rest.map name := by
        intro mem
        have some := List.count_pos_iff.mpr mem
        have bound := left _ mem
        simp only [Function.update_self] at bound
        omega
      refine ⟨s :: new, by simp [step, last], List.cons_subset_cons s within, ?_, ?_⟩
      · exact List.nodup_cons.mpr ⟨fun mem => gone ((falls _).mp mem).1, nodup⟩
      intro k
      have same := less k
      rw [List.map_cons] at same
      by_cases first : k = name s
      · subst first
        simp [List.count_eq_zero.mpr gone]
        omega
      · simp only [List.map_cons, List.mem_cons, first, false_or, falls]
        exact and_congr_right (fun _ => by omega)
    · refine ⟨new, by simp [step, last], List.subset_cons_of_subset s within, nodup, ?_⟩
      intro k
      have same := less k
      rw [falls]
      constructor
      · exact fun ⟨mem, falls⟩ => ⟨List.mem_cons_of_mem _ mem, by omega⟩
      rintro ⟨mem, falls⟩
      refine ⟨?_, by omega⟩
      by_contra none
      obtain rfl : k = name s := (List.mem_cons.mp mem).resolve_right none
      simp [List.count_eq_zero.mpr none] at falls
      omega

theorem countP_left {names : List K} {k : K} (fresh : k ∉ names) (l : List K) :
    l.countP (· ∉ names ++ [k]) + l.count k = l.countP (· ∉ names) := by
  induction l with
  | nil => rfl
  | cons a rest ih =>
    by_cases same : a = k
    · subst same
      simp [fresh] at ih ⊢
      omega
    · simp only [List.countP_cons, List.count_cons_of_ne same, List.mem_append, List.mem_singleton, same, or_false]
        at ih ⊢
      omega

/-- What holds each time that the nodes that are ready are sorted. -/
structure Inv (name : A → K) (after : A → List K) (le : A → A → Prop) (all ready : List A) (degree : K → Int)
    (out : List A) : Prop where
  degree_eq : ∀ h ∈ all, degree (name h) = (after h).countP (· ∉ out.map name)
  ready_iff : ∀ h, h ∈ ready ↔ Available name after all out h
  distinct : ready.Nodup
  nodup : out.Nodup
  scheduled : Scheduled name after le all out

section

variable [Std.Total le] [IsTrans A le] (unique : (all.map name).Nodup)
include unique

theorem Inv.step (inv : Inv name after le all ready degree out)
    {next : A} {rest : List A} (sorted : ready.insertionSort le = next :: rest) :
    Inv name after le all (release name (successors after all (name next)) degree rest).2
      (release name (successors after all (name next)) degree rest).1 (out ++ [next]) := by
  have perm : (next :: rest).Perm ready := sorted ▸ List.perm_insertionSort le ready
  obtain ⟨notRest, distinct⟩ := List.nodup_cons.mp (perm.nodup_iff.mpr inv.distinct)
  have available : Available name after all out next := (inv.ready_iff next).mp (perm.mem_iff.mp List.mem_cons_self)
  have same : ∀ g ∈ all, ∀ h ∈ all, name g = name h → g = h := fun g memG h memH =>
    List.inj_on_of_nodup_map unique memG memH
  have fresh : name next ∉ out.map name := inv.scheduled.unplaced unique available.1 available.2.1
  have successor : ∀ h, h ∈ successors after all (name next) ↔ h ∈ all ∧ name next ∈ after h := by
    intro h
    simp [successors]
  have counted : ∀ h ∈ all, degree (name h) - ((successors after all (name next)).map name).count (name h) =
      (after h).countP (· ∉ (out ++ [next]).map name) := by
    intro h mem
    have split := countP_left fresh (after h)
    rw [inv.degree_eq h mem, count_successors unique mem, List.map_append, List.map_singleton]
    omega
  obtain ⟨new, released, within, nodup, falls⟩ := @release_spec _ _ _ name rest
    (successors after all (name next)) degree (by
      intro k mem
      obtain ⟨h, found, rfl⟩ := List.mem_map.mp mem
      have left := counted h ((successor h).mp found).1
      omega)
  have ended : ∀ h ∈ all, degree (name h) = ((successors after all (name next)).map name).count (name h) ↔
      ∀ k ∈ after h, k ∈ (out ++ [next]).map name := by
    intro h mem
    have left := counted h mem
    have zero := List.countP_eq_zero (p := fun k => decide (k ∉ (out ++ [next]).map name)) (l := after h)
    simp only [decide_eq_true_eq, not_not] at zero
    rw [← zero]
    omega
  have notNew : ∀ h ∈ new, h ∈ all ∧ name next ∈ after h := fun h mem => (successor h).mp (within mem)
  rw [released]
  refine ⟨counted, ?_, ?_, ?_, inv.scheduled.snoc available ?_⟩
  · intro h
    have early : h ∈ rest ↔ Available name after all out h ∧ h ≠ next := by
      rw [← inv.ready_iff, ← perm.mem_iff, List.mem_cons]
      exact ⟨fun mem => ⟨.inr mem, fun is => notRest (is ▸ mem)⟩, fun ⟨mem, not⟩ => mem.resolve_left not⟩
    rw [List.mem_append, early]
    constructor
    · rintro (⟨⟨mem, out', all'⟩, other⟩ | mem)
      · exact ⟨mem, by simp [out', other], fun k edge => by simpa using .inl (by simpa using all' k edge)⟩
      obtain ⟨inAll, edge⟩ := notNew h mem
      refine ⟨inAll, ?_, (ended h inAll).mp ((falls _).mp (List.mem_map_of_mem mem)).2⟩
      intro placed
      rcases List.mem_append.mp placed with placed | placed
      · exact fresh ((inv.scheduled.mem placed).2 _ edge)
      · exact fresh (available.2.2 _ (List.mem_singleton.mp placed ▸ edge))
    · rintro ⟨mem, placed, all'⟩
      simp only [List.mem_append, List.mem_singleton, not_or] at placed
      by_cases edge : name next ∈ after h
      · right
        have there := (falls (name h)).mpr
          ⟨List.mem_map_of_mem ((successor h).mpr ⟨mem, edge⟩), (ended h mem).mpr all'⟩
        obtain ⟨g, found, named⟩ := List.mem_map.mp there
        exact same g (notNew g found).1 h mem named ▸ found
      · refine .inl ⟨⟨mem, placed.1, fun k is => ?_⟩, placed.2⟩
        have named := all' k is
        rw [List.map_append, List.mem_append, List.map_singleton, List.mem_singleton] at named
        exact named.resolve_right (fun found => edge (found ▸ is))
  · refine List.nodup_append'.mpr ⟨distinct, nodup.of_map name, fun h early late => fresh ?_⟩
    have ready := (inv.ready_iff h).mp (perm.mem_iff.mp (List.mem_cons_of_mem next early))
    exact ready.2.2 _ (notNew h late).2
  · exact List.nodup_append'.mpr ⟨inv.nodup, List.nodup_singleton next, List.disjoint_singleton.mpr available.2.1⟩
  intro g waits
  have least := List.pairwise_insertionSort le ready
  rw [sorted] at least
  rcases List.mem_cons.mp (perm.mem_iff.mpr ((inv.ready_iff g).mpr waits)) with rfl | mem
  · exact (Std.Total.total g g).elim id id
  · exact (List.pairwise_cons.mp least).1 g mem

theorem Inv.run (fuel : Nat) (inv : Inv name after le all ready degree out) (enough : all.length < fuel + out.length) :
    ∃ final, run name after le all fuel ready degree out = some final ∧ final.Nodup ∧
      Scheduled name after le all final ∧ ∀ h, ¬ Available name after all final h := by
  induction fuel generalizing ready degree out with
  | zero =>
    have fits := inv.nodup.length_le_of_subset (fun _ mem => (inv.scheduled.mem mem).1)
    omega
  | succ fuel ih =>
    cases sorted : ready.insertionSort le with
    | nil =>
      refine ⟨out, by simp [Kahn.run, sorted], inv.nodup, inv.scheduled, fun h available => ?_⟩
      have mem := (List.mem_insertionSort le).mpr ((inv.ready_iff h).mpr available)
      exact absurd (sorted ▸ mem) List.not_mem_nil
    | cons next rest =>
      obtain ⟨final, ended, placed⟩ := ih (inv.step unique sorted) (by simp; omega)
      exact ⟨final, by simpa [Kahn.run, sorted] using ended, placed⟩

variable (le) in
theorem run_schedules (extra : Nat) :
    ∃ final, run name after le all (all.length + 1 + extra) (initial name after all) (inDegree name after all) [] =
        some final ∧ final.Nodup ∧
      Scheduled name after le all final ∧ ∀ h, ¬ Available name after all final h := by
  have own : ∀ h ∈ all, inDegree name after all (name h) = (after h).length := fun h mem =>
    congrArg Nat.cast (count_own after unique mem)
  refine Inv.run unique _ ⟨?_, ?_, unique.of_map.filter _, List.nodup_nil, .nil⟩ (by omega)
  · intro h mem
    simp [own h mem]
  intro h
  simp only [initial, List.mem_filter, decide_eq_true_eq, Available, List.not_mem_nil, not_false_eq_true, true_and,
    List.map_nil]
  refine and_congr_right (fun mem => ?_)
  rw [own h mem, Int.natCast_eq_zero, List.length_eq_zero_iff, List.eq_nil_iff_forall_not_mem]

end

omit [DecidableRel le] in
theorem Scheduled.idxOf_lt (unique : (all.map name).Nodup) (scheduled : Scheduled name after le all out)
    (mem : h ∈ out) : ∀ k ∈ after h, (out.map name).idxOf k < (out.map name).idxOf (name h) := by
  induction scheduled with
  | nil => exact absurd mem List.not_mem_nil
  | @snoc out next before available _ ih =>
    intro k edge
    rw [List.map_append]
    rcases List.mem_append.mp mem with mem | mem
    · rw [List.idxOf_append_of_mem ((before.mem mem).2 k edge), List.idxOf_append_of_mem (List.mem_map_of_mem mem)]
      exact ih mem k edge
    obtain rfl := List.mem_singleton.mp mem
    have fresh := before.unplaced unique available.1 available.2.1
    have placed := available.2.2 k edge
    rw [List.idxOf_append_of_mem placed, List.idxOf_append_of_notMem fresh]
    exact Nat.lt_add_right _ (List.idxOf_lt_length_of_mem placed)

omit [DecidableRel le] in
theorem placed_iff (unique : (all.map name).Nodup) (closed : ∀ h ∈ all, ∀ k ∈ after h, k ∈ all.map name)
    (scheduled : Scheduled name after le all out) (stuck : ∀ h, ¬ Available name after all out h) :
    all ⊆ out ↔ ∀ a, ¬ Relation.TransGen (After name after all) a a := by
  constructor
  · intro placed a cycle
    have behind : ∀ a b, Relation.TransGen (After name after all) a b →
        (out.map name).idxOf b < (out.map name).idxOf a := by
      intro a b chain
      induction chain with
      | single edge =>
        obtain ⟨h, mem, rfl, edge⟩ := edge
        exact scheduled.idxOf_lt unique (placed mem) _ edge
      | tail _ edge ih =>
        obtain ⟨h, mem, rfl, edge⟩ := edge
        exact (scheduled.idxOf_lt unique (placed mem) _ edge).trans ih
    exact absurd (behind a a cycle) (Nat.lt_irrefl _)
  · intro acyclic h mem
    by_contra left
    obtain ⟨a, cycle⟩ := cycle_of_left unique closed scheduled stuck mem left
    exact acyclic a cycle

end proofs

end HostingPlatform.Kahn
