import HostingPlatform.CustomDeployments.Deployer
import HostingPlatform.Deployments.K8sDeployer
import HostingPlatform.JoinedNames
import HostingPlatform.Results

/-! The names of the Deployments and Services of a namespace, which two deployers give. -/
namespace HostingPlatform.Deployments

open List Js JoinedNames Results

/- a deployment of either source, as its deployer is given it -/
inductive Stack where
  | catalog (input : DeployCatalogEntryInput)
  | custom (input : CustomDeployments.DeployCustomInput)

inductive Workload where
  | catalog (object : KubeObject)
  | custom (resource : CustomDeployments.Resource)

namespace Stack

open List

def name : Stack → String
  | .catalog input => input.deploymentName
  | .custom input => input.deploymentName

def render (localeBefore : String → String → Bool) : Stack → Except String (List Workload)
  | .catalog input => (deployCatalogEntry localeBefore input).map (List.map .catalog)
  | .custom input => (CustomDeployments.deployCustomDeployment input).map (List.map .custom)

end Stack

def KubeObject.deploymentName? : KubeObject → Option String
  | .deployment name .. => some name
  | _ => none

def KubeObject.serviceName? : KubeObject → Option String
  | .service name .. => some name
  | _ => none

namespace Workload

open List

def deploymentName? : Workload → Option String
  | .catalog object => object.deploymentName?
  | .custom resource => resource.deploymentName?

def serviceName? : Workload → Option String
  | .catalog object => object.serviceName?
  | .custom resource => resource.serviceName?

end Workload

def deploymentNames (objects : List Workload) : List String := objects.filterMap Workload.deploymentName?

def serviceNames (objects : List Workload) : List String := objects.filterMap Workload.serviceName?

/- the Deployments and the Services of a namespace -/
structure Namespace where
  (deployments services : String → Option Workload)

section

/- what the API server makes of an object and a patch -/
variable (patch : Workload → Workload → Workload)

/- the catalog's deployer replaces what is there, the other one patches it -/
def onConflict (old new : Workload) : Workload :=
  match new with
  | .catalog _ => new
  | .custom _ => patch old new

def putAt (name : String) (new : Workload) (store : String → Option Workload) :
    String → Option Workload :=
  fun n => if n = name then some ((store n).elim new (fun old => onConflict patch old new)) else store n

def applyObject (ns : Namespace) (object : Workload) : Namespace where
  deployments := object.deploymentName?.elim ns.deployments (fun name => putAt patch name object ns.deployments)
  services := object.serviceName?.elim ns.services (fun name => putAt patch name object ns.services)

def applyAll (ns : Namespace) (objects : List Workload) : Namespace := objects.foldl (applyObject patch) ns

theorem applyAll_other {objects : List Workload} {name : String} (ns : Namespace) :
    (name ∉ deploymentNames objects → (applyAll patch ns objects).deployments name = ns.deployments name) ∧
      (name ∉ serviceNames objects → (applyAll patch ns objects).services name = ns.services name) := by
  induction objects generalizing ns with
  | nil => exact ⟨fun _ => rfl, fun _ => rfl⟩
  | cons object rest ih =>
    have tail := ih (applyObject patch ns object)
    constructor
    · intro absent
      cases its : object.deploymentName? with
      | none =>
        have later : name ∉ deploymentNames rest := by
          simpa [deploymentNames, its] using absent
        refine (tail.1 later).trans ?_
        simp [applyObject, its]
      | some own =>
        have both : name ≠ own ∧ name ∉ deploymentNames rest := by
          simpa [deploymentNames, its] using absent
        refine (tail.1 both.2).trans ?_
        simp [applyObject, its, putAt, both.1]
    · intro absent
      cases its : object.serviceName? with
      | none =>
        have later : name ∉ serviceNames rest := by
          simpa [serviceNames, its] using absent
        refine (tail.2 later).trans ?_
        simp [applyObject, its]
      | some own =>
        have both : name ≠ own ∧ name ∉ serviceNames rest := by
          simpa [serviceNames, its] using absent
        refine (tail.2 both.2).trans ?_
        simp [applyObject, its, putAt, both.1]

end

def tail (count : Nat) (part : String) : Option (List Char) :=
  if count ≤ 1 then none else some part.toList

def servesPorts (c : DeployComponentInput) : Bool := runs c && !c.ports.isEmpty

def exposed (svc : CustomDeployments.Service) : List String :=
  (svc.ports.filter CustomDeployments.Port.exposeAsService).map CustomDeployments.Port.name

def portTails (svc : CustomDeployments.Service) : List (Option (List Char)) :=
  (exposed svc).map (fun port => some port.toList)

def serviceTail (count : Nat) (svc port : String) : Option (List Char) :=
  some ((tail count svc).elim port.toList (fun svc => join '-' svc (some port.toList)))

namespace Stack

open List

def deploymentTails : Stack → List (Option (List Char))
  | .catalog input => (input.components.filter runs).map (fun c => tail input.components.length c.name)
  | .custom input => input.spec.services.keys.map (tail input.spec.services.keys.length)

def serviceTails : Stack → List (Option (List Char))
  | .catalog input =>
    (input.components.filter servesPorts).map (fun c => tail input.components.length c.name)
  | .custom input => input.spec.services.entries.flatMap (fun entry =>
      (exposed entry.2).map (serviceTail input.spec.services.keys.length entry.1))

end Stack

theorem toList_joined (base part : String) (count : Nat) :
    (if count ≤ 1 then base else base ++ "-" ++ part).toList = join '-' base.toList (tail count part) := by
  unfold tail
  split
  · exact (join_none '-' base.toList).symm
  · rw [String.toList_append, String.toList_append, append_assoc]
    rfl

theorem toList_service (base svc port : String) (count : Nat) :
    ((if count ≤ 1 then base else base ++ "-" ++ svc) ++ "-" ++ port).toList =
      join '-' base.toList (serviceTail count svc port) := by
  rw [String.toList_append, String.toList_append, toList_joined, append_assoc]
  unfold serviceTail tail
  split
  · rw [join_none]
    rfl
  · simp only [join_some, append_assoc]
    rfl

variable {input : DeployCatalogEntryInput} {env : List (String × String)}
  {allocations : Record AllocationResult} {objects : List KubeObject} {localeBefore : String → String → Bool}

theorem renderComponent_names {c : DeployComponentInput} (ok : renderComponent input env allocations c = .ok objects) :
    objects.filterMap KubeObject.deploymentName? =
        (if runs c then [k8sResourceName input.deploymentName c.name input.components.length] else []) ∧
      objects.filterMap KubeObject.serviceName? =
        (if servesPorts c then [k8sResourceName input.deploymentName c.name input.components.length]
        else []) := by
  obtain ⟨mounts, _, ok⟩ := bind_ok ok
  cases ok
  cases type : c.type <;> cases ports : c.ports <;>
    simp [renderWorkload, type, ports, runs, servesPorts, KubeObject.deploymentName?,
      KubeObject.serviceName?, filterMap_cons]

theorem renderComponents_names {components : List DeployComponentInput} {objects : List (List KubeObject)}
    (ok : Forall₂ (fun c o => renderComponent input env allocations c = .ok o) components objects) :
    objects.flatten.filterMap KubeObject.deploymentName? =
        (components.filter runs).map (fun c =>
          k8sResourceName input.deploymentName c.name input.components.length) ∧
      objects.flatten.filterMap KubeObject.serviceName? =
        (components.filter servesPorts).map (fun c =>
          k8sResourceName input.deploymentName c.name input.components.length) := by
  induction ok with
  | nil => exact ⟨rfl, rfl⟩
  | cons head _ ih =>
    obtain ⟨deployments, services⟩ := renderComponent_names head
    simp only [flatten_cons, filterMap_append, deployments, services, ih, filter_cons]
    constructor <;> split <;> rfl

theorem deployCatalogEntry_names (ok : deployCatalogEntry localeBefore input = .ok objects) :
    objects.filterMap KubeObject.deploymentName? =
        (input.components.filter runs).map (fun c =>
          k8sResourceName input.deploymentName c.name input.components.length) ∧
      objects.filterMap KubeObject.serviceName? =
        (input.components.filter servesPorts).map (fun c =>
          k8sResourceName input.deploymentName c.name input.components.length) := by
  obtain ⟨env, _, ok⟩ := bind_ok ok
  obtain ⟨allocations, _, ok⟩ := bind_ok ok
  obtain ⟨parts, rendered, ok⟩ := bind_ok ok
  cases ok
  have names := renderComponents_names (mapM_ok rendered)
  have policy : (deployFirewallNetworkPolicy input).filterMap KubeObject.deploymentName? = [] ∧
      (deployFirewallNetworkPolicy input).filterMap KubeObject.serviceName? = [] := by
    unfold deployFirewallNetworkPolicy
    split <;> exact ⟨rfl, rfl⟩
  simp [policy, names, append_nil]

theorem toList_names {names : List String} {base : List Char} {tails : List (Option (List Char))}
    (same : names.map String.toList = tails.map (join '-' base)) : names.Nodup ↔ tails.Nodup := by
  have strings : (names.map String.toList).Nodup ↔ names.Nodup :=
    nodup_map_iff (fun _ _ => String.toList_inj.mp)
  rw [← strings, same]
  exact nodup_map_iff (fun _ _ => join_inj)

theorem disjoint_toList {l m : List String} : (l.map String.toList).Disjoint (m.map String.toList) ↔ l.Disjoint m := by
  constructor
  · intro disjoint s inL inM
    exact disjoint (mem_map_of_mem inL) (mem_map_of_mem inM)
  intro disjoint cs inL inM
  obtain ⟨s, memL, rfl⟩ := mem_map.mp inL
  obtain ⟨t, memM, same⟩ := mem_map.mp inM
  exact disjoint memL (String.toList_inj.mp same ▸ memM)

namespace Stack

open List

theorem render_names {localeBefore : String → String → Bool} {stack : Stack} {objects : List Workload}
    (rendered : stack.render localeBefore = .ok objects) :
    (deploymentNames objects).map String.toList = stack.deploymentTails.map (join '-' stack.name.toList) ∧
      (serviceNames objects).map String.toList =
        stack.serviceTails.map (join '-' stack.name.toList) := by
  cases stack with
  | catalog input =>
    obtain ⟨inner, ok, rfl⟩ := map_ok rendered
    obtain ⟨deployments, services⟩ := deployCatalogEntry_names ok
    have asDeployments : deploymentNames (inner.map .catalog) = inner.filterMap KubeObject.deploymentName? :=
      filterMap_map
    have asServices : serviceNames (inner.map .catalog) = inner.filterMap KubeObject.serviceName? :=
      filterMap_map
    rw [asDeployments, asServices, deployments, services]
    simp [deploymentTails, serviceTails, k8sResourceName,
      toList_joined, name]
  | custom input =>
    obtain ⟨inner, ok, rfl⟩ := map_ok rendered
    obtain ⟨deployments, services⟩ := CustomDeployments.deployCustomDeployment_names ok
    have asDeployments : deploymentNames (inner.map .custom) =
        inner.filterMap CustomDeployments.Resource.deploymentName? := filterMap_map
    have asServices : serviceNames (inner.map .custom) =
        inner.filterMap CustomDeployments.Resource.serviceName? := filterMap_map
    rw [asDeployments, asServices, deployments, services]
    constructor
    · simp [CustomDeployments.deploymentNames, deploymentTails, CustomDeployments.serviceResourceName, toList_joined, name]
    · simp only [CustomDeployments.serviceNames, map_flatMap, map_map, serviceTails, exposed,
        Function.comp_def, CustomDeployments.serviceResourceName, toList_service, name]

/- what the schema of a catalog deployment or the validator of a custom one has accepted -/
def Accepted : Stack → Prop
  | .catalog input => CustomDeployments.customNameRe input.deploymentName = true
  | .custom input => CustomDeployments.customNameRe input.deploymentName = true ∧
      ∃ ctx, (CustomDeployments.validateCustomSpec input.spec ctx).ok = true

/- no two components with ports are called the same; no service is called like another one and the
beginning of a port of that -/
def OwnServicesApart : Stack → Prop
  | .catalog input => ((input.components.filter servesPorts).map DeployComponentInput.name).Nodup
  | .custom input => ∀ e ∈ input.spec.services.entries, ∀ other ∈ input.spec.services.entries,
      e.1 ≠ other.1 → Spares '-' e.1.toList (portTails e.2) other.1.toList (portTails other.2)

end Stack

/-- Neither name goes on with one of the other's tails. -/
def NamesApart (tails : Stack → List (Option (List Char))) (a b : Stack) : Prop :=
  Spares '-' a.name.toList (tails a) b.name.toList (tails b) ∧
    Spares '-' b.name.toList (tails b) a.name.toList (tails a)

/-- What is applied for the second leaves what there is under the names of the first. -/
def LeavesAlone (x y : List Workload) : Prop :=
  ∀ patch ns, (∀ name ∈ deploymentNames x, (applyAll patch ns y).deployments name = ns.deployments name) ∧
    ∀ name ∈ serviceNames x, (applyAll patch ns y).services name = ns.services name

/- the objects of two stacks, and the Services of each -/
structure Separate (x y : List Workload) : Prop where
  deployments : (deploymentNames x).Disjoint (deploymentNames y)
  services : (serviceNames x).Disjoint (serviceNames y)
  own : (serviceNames x).Nodup ∧ (serviceNames y).Nodup
  untouched : LeavesAlone x y ∧ LeavesAlone y x

theorem nodup_short {A : Type} {l : List A} (short : l.length ≤ 1) : l.Nodup := by
  match l, short with
  | [], _ => exact nodup_nil
  | [a], _ => exact nodup_singleton a

theorem catalogServices_nodup_iff (input : DeployCatalogEntryInput) :
    (Stack.catalog input).serviceTails.Nodup ↔ (Stack.catalog input).OwnServicesApart := by
  simp only [Stack.serviceTails]
  by_cases single : input.components.length ≤ 1
  · have short : (input.components.filter servesPorts).length ≤ 1 :=
      (length_filter_le _ _).trans single
    exact iff_of_true (nodup_short (by simpa using short)) (nodup_short (by simpa using short))
  have tails : (input.components.filter servesPorts).map (fun c => tail input.components.length c.name) =
      ((input.components.filter servesPorts).map DeployComponentInput.name).map
        (fun s => some s.toList) := by
    simp [tail, single]
  rw [tails]
  exact nodup_map_iff (fun _ _ same => String.toList_inj.mp (Option.some.inj same))

theorem portTails_nodup {spec : CustomDeployments.Spec} {entry : String × CustomDeployments.Service}
    (accepted : CustomDeployments.AcceptedService spec entry) : (portTails entry.2).Nodup := by
  have ports : (exposed entry.2).Nodup :=
    accepted.ports.sublist (Sublist.map _ filter_sublist)
  exact ports.map (fun _ _ same => String.toList_inj.mp (Option.some.inj same))

theorem customServices_nodup_iff {input : CustomDeployments.DeployCustomInput}
    (accepted : (Stack.custom input).Accepted) :
    (Stack.custom input).serviceTails.Nodup ↔ (Stack.custom input).OwnServicesApart := by
  obtain ⟨_, ctx, ok⟩ := accepted
  have services := ((CustomDeployments.validateCustomSpec_ok_iff _ _).mp ok).services
  simp only [Stack.serviceTails, Stack.OwnServicesApart]
  by_cases single : input.spec.services.keys.length ≤ 1
  · have tails : ∀ entry : String × CustomDeployments.Service,
        (exposed entry.2).map (serviceTail input.spec.services.keys.length entry.1) = portTails entry.2 := by
      intro entry
      simp [serviceTail, tail, single, portTails]
    simp only [tails]
    have short : input.spec.services.entries.length ≤ 1 := by
      simpa [Record.keys] using single
    cases entries : input.spec.services.entries with
    | nil => simp
    | cons entry rest =>
      rw [entries] at short services
      have none : rest = [] := length_eq_zero_iff.mp (Nat.le_zero.mp (Nat.le_of_succ_le_succ short))
      subst none
      have own := portTails_nodup (services entry mem_cons_self)
      simp [own]
  · have tails : ∀ entry : String × CustomDeployments.Service,
        (exposed entry.2).map (serviceTail input.spec.services.keys.length entry.1) =
          ((portTails entry.2).map (join '-' entry.1.toList)).map some := by
      intro entry
      simp [serviceTail, tail, single, portTails]
    simp only [tails]
    rw [nodup_flatMap]
    have distinct : input.spec.services.entries.Pairwise (fun e other => e.1 ≠ other.1) :=
      pairwise_map.mp input.spec.services.keyed
    constructor
    · rintro ⟨_, between⟩ e mem other memOther differ
      have symmetric : Std.Symm (Function.onFun Disjoint (fun entry : String × CustomDeployments.Service =>
          ((portTails entry.2).map (join '-' entry.1.toList)).map some)) := ⟨fun _ _ apart => apart.symm⟩
      have apart := between.forall mem memOther (fun same => differ (congrArg Prod.fst same))
      have different : e.1.toList ≠ other.1.toList := fun same => differ (String.toList_inj.mp same)
      exact ((disjoint_iff different).mp (Disjoint.of_map apart)).1
    · intro all
      constructor
      · intro entry mem
        have joined := (portTails_nodup (services entry mem)).map (fun _ _ => @join_inj _ '-' entry.1.toList _ _)
        exact joined.map (Option.some_injective _)
      refine distinct.imp_of_mem ?_
      intro e other mem memOther differ
      have different : e.1.toList ≠ other.1.toList := fun same => differ (String.toList_inj.mp same)
      have apart := (disjoint_iff different).mpr
        ⟨all e mem other memOther differ, all other memOther e mem (Ne.symm differ)⟩
      exact disjoint_map (Option.some_injective _) apart

theorem services_nodup_iff {stack : Stack} {objects : List Workload} (accepted : stack.Accepted)
    (rendered : stack.render localeBefore = .ok objects) : (serviceNames objects).Nodup ↔ stack.OwnServicesApart := by
  rw [toList_names (Stack.render_names rendered).2]
  cases stack with
  | catalog input => exact catalogServices_nodup_iff input
  | custom input => exact customServices_nodup_iff accepted

theorem leavesAlone_of_disjoint {x y : List Workload} (deployments : (deploymentNames x).Disjoint (deploymentNames y))
    (services : (serviceNames x).Disjoint (serviceNames y)) : LeavesAlone x y := by
  intro patch ns
  constructor
  · intro name mem
    exact (applyAll_other patch ns).1 (deployments mem)
  · intro name mem
    exact (applyAll_other patch ns).2 (services mem)

/-- Two deployments of different names have different objects, and each has different Services,
exactly when what one name adds to the other never begins a component (or a service with its port)
of that, and the Services of each stand apart in the same way. -/
theorem separate_iff {localeBefore : String → String → Bool} {a b : Stack} {x y : List Workload}
    (acceptedA : a.Accepted) (acceptedB : b.Accepted) (renderedA : a.render localeBefore = .ok x)
    (renderedB : b.render localeBefore = .ok y) (differ : a.name ≠ b.name) :
    Separate x y ↔ (NamesApart Stack.deploymentTails a b ∧ NamesApart Stack.serviceTails a b) ∧
      a.OwnServicesApart ∧ b.OwnServicesApart := by
  have different : a.name.toList ≠ b.name.toList := fun same => differ (String.toList_inj.mp same)
  have deployments : (deploymentNames x).Disjoint (deploymentNames y) ↔
      NamesApart Stack.deploymentTails a b := by
    rw [← disjoint_toList, (Stack.render_names renderedA).1, (Stack.render_names renderedB).1]
    exact disjoint_iff different
  have services : (serviceNames x).Disjoint (serviceNames y) ↔ NamesApart Stack.serviceTails a b := by
    rw [← disjoint_toList, (Stack.render_names renderedA).2, (Stack.render_names renderedB).2]
    exact disjoint_iff different
  rw [← deployments, ← services, ← services_nodup_iff acceptedA renderedA,
    ← services_nodup_iff acceptedB renderedB]
  constructor
  · intro separate
    exact ⟨⟨separate.deployments, separate.services⟩, separate.own⟩
  rintro ⟨⟨apart, apartServices⟩, own⟩
  exact {
    deployments := apart
    services := apartServices
    own := own
    untouched := ⟨leavesAlone_of_disjoint apart apartServices,
      leavesAlone_of_disjoint apart.symm apartServices.symm⟩ }

open CustomDeployments in
def customStack (deploymentName : String) (services : Record Service) : Stack :=
  .custom {
    deploymentId := 1
    deploymentName := deploymentName
    namespace_ := "tenant-a"
    storageSubPath := "custom/" ++ deploymentName
    spec := stack services
    hasPullCredential := false
    nodeName := none
    storageTier := "local" }

open CustomDeployments in
def shop : Stack := customStack "shop" ⟨[("web-api", webService), ("db", webService)], by decide⟩

open CustomDeployments in
def shopWeb : Stack := customStack "shop-web" ⟨[("api", webService), ("ui", webService)], by decide⟩

open CustomDeployments in
def blog : Stack := customStack "blog" ⟨[("web", webService)], by decide⟩

def renderedOf (s : Stack) : List Workload :=
  match s.render (fun _ _ => false) with
  | .ok objects => objects
  | .error _ => []

theorem shop_accepted : shop.Accepted := ⟨by decide, ⟨.tenantAdmin, true, false, some "shop"⟩, by decide +kernel⟩

theorem shop_and_blog_separate : Separate (renderedOf shop) (renderedOf blog) := by
  have accepted : blog.Accepted := ⟨by decide, ⟨.tenantAdmin, true, false, some "blog"⟩, by decide +kernel⟩
  have rendered : shop.render (fun _ _ => false) = .ok (renderedOf shop) := rfl
  have apart : ∀ tails, NamesApart tails shop blog := fun tails =>
    ⟨spares_of_unlike (by decide), spares_of_unlike (by decide)⟩
  refine (separate_iff shop_accepted accepted rendered rfl (by decide)).mpr
    ⟨⟨apart _, apart _⟩, ?_, ?_⟩
  · have keys : ∀ key ∈ ["web-api", "db"], ∀ other ∈ ["web-api", "db"],
        ¬ (key.toList ++ ['-']) <+: other.toList := by decide
    intro e mem other memOther _
    exact spares_of_unlike (keys e.1 (mem_map_of_mem mem) other.1 (mem_map_of_mem memOther))
  · intro e mem other memOther differ
    rw [mem_singleton.mp mem, mem_singleton.mp memOther] at differ
    exact absurd rfl differ

/-- One stack has a service that is called like the rest of the other's name and a service of that:
both have a Deployment `shop-web-api`. -/
theorem shop_and_shop_web_meet : shop.Accepted ∧ shopWeb.Accepted ∧ shop.name ≠ shopWeb.name ∧
      shop.render (fun _ _ => false) = .ok (renderedOf shop) ∧
      shopWeb.render (fun _ _ => false) = .ok (renderedOf shopWeb) ∧
      ¬ Separate (renderedOf shop) (renderedOf shopWeb) := by
  refine ⟨shop_accepted, ⟨by decide, ⟨.tenantAdmin, true, false, some "shop-web"⟩, by decide +kernel⟩,
    by decide, rfl, rfl, ?_⟩
  intro separate
  have first : "shop-web-api" ∈ deploymentNames (renderedOf shop) := by decide
  have second : "shop-web-api" ∈ deploymentNames (renderedOf shopWeb) := by decide
  exact separate.deployments first second

end HostingPlatform.Deployments
