import HostingPlatform.CustomDeployments.Validator
import HostingPlatform.Js.Value

/-! The search for cycles as the validator makes it, from each service in turn, and the rule that it
checks. -/
namespace HostingPlatform.CustomDeployments.Search

open List Js Cycles Diagnosis

/- `services[current]?.dependsOn ?? []`; what an object inherits has none -/
def dependsOn (services : Record Service) (current : String) : List String :=
  ((services.get current).map Service.dependsOn).getD []

/- `services[dep]` is there: a service, or what the object inherits -/
def present (services : Record Service) (dep : String) : Bool :=
  (services.get dep).isSome || inherited.contains dep

def hasCycle (services : Record Service) (fuel : Nat) (current : String) (s : Trail String) :
    Option (Bool × Trail String) :=
  search (dependsOn services) (present services) fuel current s

def cycleIssue (start : String) (path : List String) : Issue :=
  let first := path.headD start
  let nodes := " → ".intercalate path
  let again := path.headD "undefined"
  errorIssue "DEPENDS_ON_CYCLE" s!"services.{first}.dependsOn"
    s!"dependsOn forms a cycle: {nodes} → {again}"

def cycleLoop (services : Record Service) (fuel : Nat) : List String → Option (List Issue)
  | [] => some []
  | start :: rest =>
    match hasCycle services fuel start ⟨[], []⟩ with
    | none => none
    | some (true, s) => some [cycleIssue start s.path]
    | some (false, _) => cycleLoop services fuel rest

/-- A declared service depends on another one. -/
def DependsOn (spec : Spec) (name dep : String) : Prop :=
  (∃ svc, spec.services.get name = some svc ∧ dep ∈ svc.dependsOn) ∧ dep ∈ spec.services.keys

theorem get_isSome {V : Type} (r : Record V) (key : String) : (r.get key).isSome = true ↔ key ∈ r.keys := by
  constructor
  · intro some
    obtain ⟨v, found⟩ := Option.isSome_iff_exists.mp some
    obtain ⟨before, after, split, _⟩ := lookup_eq_some_iff.mp found
    simp [Record.keys, split]
  · intro mem
    obtain ⟨entry, here, rfl⟩ := mem_map.mp mem
    rw [Record.get_of_mem here]
    rfl

theorem edge_iff (spec : Spec) (name dep : String) : Edge (dependencies spec) name dep ↔ DependsOn spec name dep := by
  unfold Edge dependencies DependsOn
  cases spec.services.get name <;> simp

theorem hasCycle_outcome (spec : Spec) (extra : Nat) {start : String} (declared : start ∈ spec.services.keys) :
    hasCycle spec.services (spec.services.keys.length + 1 + extra) start ⟨[], []⟩ = some (outcome []
      (findCycle (dependencies spec) (spec.services.keys.length + 1 + extra) [] start)) := by
  refine search_outcome ?_ ?_ declared (nil_subset _) nodup_nil (by omega)
  · intro name mem
    rw [present, (get_isSome _ _).mpr mem]
    rfl
  intro name other
  have none : spec.services.get name = none := by
    rw [← Option.not_isSome_iff_eq_none, get_isSome]
    exact other
  simp [dependsOn, none]

theorem clean_flatMap_of {A : Type} {grave : Issue → Bool} {f : A → List Issue} {l : List A}
    (each : ∀ a ∈ l, clean grave (f a) = true) : clean grave (l.flatMap f) = true := by
  unfold clean at each ⊢
  rw [all_flatMap]
  exact all_eq_true.mpr each

theorem cycleLoop_findSome (spec : Spec) (extra : Nat) {names : List String} (declared : names ⊆ spec.services.keys) :
    cycleLoop spec.services (spec.services.keys.length + 1 + extra) names =
      some (match names.findSome? (CustomDeployments.hasCycle spec) with
        | none => []
        | some path => [cycleIssue "" path]) := by
  have closed : ∀ a, ∀ b ∈ dependencies spec a, b ∈ spec.services.keys := by
    intro a b mem
    exact contains_iff_mem.mp (mem_filter.mp mem).2
  induction names with
  | nil => rfl
  | cons start rest ih =>
    have here : start ∈ spec.services.keys := declared mem_cons_self
    have more := @findCycle_extra _ _ _ _ closed extra (spec.services.keys.length + 1) [] start here
      (nil_subset _) nodup_nil (by simp)
    rw [cycleLoop, hasCycle_outcome spec extra here, more, findSome?_cons]
    cases cycle : CustomDeployments.hasCycle spec start with
    | none =>
      unfold CustomDeployments.hasCycle at cycle
      rw [cycle]
      exact ih (subset_of_cons_subset declared)
    | some path =>
      obtain ⟨more, rfl⟩ := found_from cycle
      unfold CustomDeployments.hasCycle at cycle
      rw [cycle]
      rfl

theorem cycleLoop_eq (spec : Spec) (extra : Nat) :
    cycleLoop spec.services (spec.services.keys.length + 1 + extra) spec.services.keys =
      some (cycleIssues spec) := by
  rw [cycleLoop_findSome spec extra (Subset.refl _)]
  unfold cycleIssues
  cases report : spec.services.keys.findSome? (CustomDeployments.hasCycle spec) with
  | none => rfl
  | some path =>
    obtain ⟨start, _, cycle⟩ := exists_of_findSome?_eq_some report
    obtain ⟨rest, rfl⟩ := found_from cycle
    rfl

def onCycle (issue : Issue) : Bool := issue.code == "DEPENDS_ON_CYCLE"

theorem other_require {rule : Bool} {issue : Issue} (other : onCycle issue = false) :
    clean onCycle (require rule issue) = true := by
  cases rule <;> simp [require, clean, other]

theorem other_duplicates {issue : String → Issue} (other : ∀ n, onCycle (issue n) = false)
    (names seen : List String) : clean onCycle (duplicateIssues issue seen names) = true := by
  induction names generalizing seen with
  | nil => rfl
  | cons n rest ih => rw [duplicateIssues, clean_append, other_require (other n), ih]; rfl

theorem other_service (spec : Spec) (ctx : ValidatorContext) (entry : String × Service) :
    clean onCycle (serviceIssues spec ctx entry) = true := by
  have mounts : clean onCycle (entry.2.volumeMounts.flatMap (mountIssues spec entry.1)) = true := by
    apply clean_flatMap_of
    intro vm _
    unfold mountIssues
    cases vm.kind <;> exact other_require rfl
  have env : clean onCycle (entry.2.env.flatMap (envIssues spec entry.1)) = true := by
    apply clean_flatMap_of
    intro e _
    rw [envIssues, clean_append, other_require rfl, other_require rfl]
    rfl
  have deps : clean onCycle (entry.2.dependsOn.flatMap (dependsOnIssues spec entry.1)) = true := by
    apply clean_flatMap_of
    intro dep _
    rw [dependsOnIssues, clean_append, other_require rfl, other_require rfl]
    rfl
  have ports : clean onCycle (portNameIssues entry.1 entry.2) = true := other_duplicates (fun _ => rfl) _ _
  have resources : clean onCycle (resourceIssues entry.1 entry.2.resources) = true := by
    rw [resourceIssues, clean_append, other_require rfl, other_require rfl]
    rfl
  have tag : clean onCycle (tagIssues ctx entry.1 entry.2) = true := other_require rfl
  simp [serviceIssues, clean_append, mounts, env, deps, ports, resources, tag]

theorem other_names (spec : Spec) (ctx : ValidatorContext) : clean onCycle (nameIssues spec ctx) = true := by
  unfold nameIssues
  split
  · rfl
  split
  · split
    · exact other_require rfl
    · exact clean_flatMap_of (fun _ _ => other_require rfl)
  · rfl

theorem clean_onCycle (spec : Spec) (ctx : ValidatorContext) :
    clean onCycle (validationIssues spec ctx) = clean onCycle (cycleIssues spec) := by
  have roots : clean onCycle (spec.services.entries.flatMap (rootIssues spec)) = true :=
    clean_flatMap_of (fun _ _ => other_require rfl)
  have services : clean onCycle (spec.services.entries.flatMap (serviceIssues spec ctx)) = true :=
    clean_flatMap_of (fun entry _ => other_service spec ctx entry)
  have version : clean onCycle (versionIssues spec) = true := other_require rfl
  have count : clean onCycle (countIssues spec ctx) = true := other_require rfl
  have root : clean onCycle (allowRootIssues spec ctx) = true := other_require rfl
  have ingress : clean onCycle (ingressIssues spec) = true := other_require rfl
  have unique (names : List String) (path code : String) (other : (code == "DEPENDS_ON_CYCLE") = false) :
      clean onCycle (assertUniqueNames names path code) = true := by
    apply other_duplicates
    intro n
    exact other
  simp [validationIssues, clean_append, version, count, roots, root, services, other_names, ingress,
    unique _ _ "CONFIGMAP_NAME_DUPLICATE" (by decide), unique _ _ "SECRET_NAME_DUPLICATE" (by decide),
    Bool.true_and]

theorem clean_cycleIssues (spec : Spec) : clean onCycle (cycleIssues spec) = clean isError (cycleIssues spec) := by
  unfold cycleIssues
  split <;> rfl

theorem transGen_dependsOn (spec : Spec) (a b : String) :
    Relation.TransGen (Edge (dependencies spec)) a b ↔ Relation.TransGen (DependsOn spec) a b := by
  have same : Edge (dependencies spec) = DependsOn spec := by
    funext name dep
    exact propext (edge_iff spec name dep)
  rw [same]

/-- The search ends whatever the services are, and the validator reports a cycle exactly when the
declared services depend on each other in one. -/
theorem cycle_reported_iff (spec : Spec) (ctx : ValidatorContext) :
    (∀ extra, cycleLoop spec.services (spec.services.keys.length + 1 + extra) spec.services.keys =
      some (cycleIssues spec)) ∧ ((∃ issue ∈ (validateCustomSpec spec ctx).issues, issue.code = "DEPENDS_ON_CYCLE") ↔
      ∃ name, Relation.TransGen (DependsOn spec) name name) := by
  refine ⟨cycleLoop_eq spec, ?_⟩
  have reported : (∃ issue ∈ (validateCustomSpec spec ctx).issues, issue.code = "DEPENDS_ON_CYCLE") ↔
      ¬ clean onCycle (validationIssues spec ctx) = true := by
    simp [validateCustomSpec, clean, onCycle]
  rw [reported, clean_onCycle, clean_cycleIssues, clean_cycles]
  simp [transGen_dependsOn]

end HostingPlatform.CustomDeployments.Search
