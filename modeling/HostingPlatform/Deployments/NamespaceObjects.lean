import HostingPlatform.Deployments.Names
import HostingPlatform.Deployments.Rows

/-! The objects of deployments in a namespace, and what the deployer does to them. Jobs are left out. -/
namespace HostingPlatform.Deployments

open Option List Js Results Function

structure DeploymentObject where
  app : String
  replicas : Nat
  deriving DecidableEq

structure CronJobObject where
  app : String
  suspended : Bool
  deriving DecidableEq

structure PolicyObject where
  app : String
  ports : List PolicyPort
  deriving DecidableEq

/- by their names; of a Service only the label is kept -/
structure Objects where
  deployments : String → Option DeploymentObject
  cronJobs : String → Option CronJobObject
  services : String → Option String
  policies : String → Option PolicyObject

def Objects.empty : Objects := ⟨fun _ => none, fun _ => none, fun _ => none, fun _ => none⟩

def isCron (c : DeployComponentInput) : Bool := c.type == .cronjob

structure Footprint where
  (deployments cronJobs services : List String)
  deriving DecidableEq

def namesFor (kind : DeployComponentInput → Bool) (deploymentName : String)
    (components : List DeployComponentInput) : List String :=
  (components.filter kind).map (fun c => k8sResourceName deploymentName c.name components.length)

def footprintOf (deploymentName : String) (components : List DeployComponentInput) : Footprint where
  deployments := namesFor runs deploymentName components
  cronJobs := namesFor isCron deploymentName components
  services := namesFor servesPorts deploymentName components

/-- An object that is there is replaced, which ends the suspension of a CronJob. -/
def Objects.apply (o : Objects) : KubeObject → Objects
  | .deployment name labels replicas _ =>
    { o with deployments := update o.deployments name (some ⟨labels.app, replicas⟩) }
  | .cronJob name labels _ _ => { o with cronJobs := update o.cronJobs name (some ⟨labels.app, false⟩) }
  | .job .. => o
  | .service name selector _ => { o with services := update o.services name (some selector.app) }
  | .networkPolicy name app ports => { o with policies := update o.policies name (some ⟨app, ports⟩) }

def Objects.applyAll (o : Objects) (objects : List KubeObject) : Objects := objects.foldl Objects.apply o

/- the components one after the other up to the first that cannot be rendered -/
def emit (render : DeployComponentInput → Except String (List KubeObject)) :
    List DeployComponentInput → List KubeObject × Bool
  | [] => ([], true)
  | c :: cs =>
    match render c with
    | .error _ => ([], false)
    | .ok objects => (objects ++ (emit render cs).1, (emit render cs).2)

/- what `deployCatalogEntry` has applied when it returns or throws, and whether it returns -/
def deployed (localeBefore : String → String → Bool) (input : DeployCatalogEntryInput) : List KubeObject × Bool :=
  match buildEnvVars input.fixedEnvVars input.configuration input.deploymentName
      (input.components.map DeployComponentInput.name) input.configurableEnvKeys,
    allocateResources localeBefore input.cpuRequest input.memoryRequest input.components with
  | .ok env, .ok allocations =>
    let workloads := emit (renderComponent input (withTimezone input.timezone env) allocations) input.components
    (workloads.1 ++ if workloads.2 then deployFirewallNetworkPolicy input else [], workloads.2)
  | _, _ => ([], false)

/-- A Deployment is scaled to 0; a CronJob goes on. -/
def Objects.stop (o : Objects) (f : Footprint) : Objects :=
  { o with
    deployments := fun name =>
      if name ∈ f.deployments then (o.deployments name).map (fun d => { d with replicas := 0 })
      else o.deployments name }

def Objects.start (o : Objects) (f : Footprint) (replicas : Nat) : Objects :=
  { o with
    deployments := fun name =>
      if name ∈ f.deployments then (o.deployments name).map (fun d => { d with replicas })
      else o.deployments name
    cronJobs := fun name =>
      if name ∈ f.cronJobs then (o.cronJobs name).map (fun j => { j with suspended := false })
      else o.cronJobs name }

/- the NetworkPolicy stays -/
def Objects.delete (o : Objects) (f : Footprint) : Objects :=
  { o with
    deployments := fun name => if name ∈ f.deployments then none else o.deployments name
    cronJobs := fun name => if name ∈ f.cronJobs then none else o.cronJobs name
    services := fun name => if name ∈ f.services then none else o.services name }

def policyPortsOf (input : DeployCatalogEntryInput) : List PolicyPort :=
  (input.firewall.map policyPorts).getD []

theorem deployFirewallNetworkPolicy_eq (input : DeployCatalogEntryInput) : deployFirewallNetworkPolicy input =
    if policyPortsOf input = [] then []
    else [.networkPolicy (firewallPolicyName input.deploymentName) input.deploymentName (policyPortsOf input)] := by
  unfold deployFirewallNetworkPolicy policyPortsOf
  cases ports : input.firewall.map policyPorts with
  | none => rfl
  | some entries => cases entries <;> rfl

def Emits (app : String) (f : Footprint) : KubeObject → Prop
  | .deployment name labels _ _ => labels.app = app ∧ name ∈ f.deployments
  | .cronJob name labels _ _ => labels.app = app ∧ name ∈ f.cronJobs
  | .service name selector _ => selector.app = app ∧ name ∈ f.services
  | .job .. => True
  | .networkPolicy .. => False

variable {components : List DeployComponentInput} {c : DeployComponentInput}

theorem mem_namesFor {kind : DeployComponentInput → Bool} {base : String} (mem : c ∈ components)
    (its : kind c = true) : k8sResourceName base c.name components.length ∈ namesFor kind base components :=
  mem_map.mpr ⟨c, mem_filter.mpr ⟨mem, its⟩, rfl⟩

theorem renderComponent_emits {input : DeployCatalogEntryInput} {env : List (String × String)}
    {allocations : Record AllocationResult} {objects : List KubeObject} (mem : c ∈ input.components)
    (ok : renderComponent input env allocations c = .ok objects) :
    ∀ o ∈ objects, Emits input.deploymentName (footprintOf input.deploymentName input.components) o := by
  obtain ⟨mounts, _, ok⟩ := bind_ok ok
  cases ok
  have running : runs c = true → k8sResourceName input.deploymentName c.name input.components.length ∈
      namesFor runs input.deploymentName input.components := mem_namesFor mem
  have cron : isCron c = true → k8sResourceName input.deploymentName c.name input.components.length ∈
      namesFor isCron input.deploymentName input.components := mem_namesFor mem
  have serving : servesPorts c = true → k8sResourceName input.deploymentName c.name input.components.length ∈
      namesFor servesPorts input.deploymentName input.components := mem_namesFor mem
  cases type : c.type <;> cases ports : c.ports <;>
    simp_all [renderWorkload, Emits, footprintOf, runs, isCron, servesPorts]

theorem emit_emits {render : DeployComponentInput → Except String (List KubeObject)} {P : KubeObject → Prop}
    (each : ∀ c ∈ components, ∀ objects, render c = .ok objects → ∀ o ∈ objects, P o) :
    ∀ o ∈ (emit render components).1, P o := by
  induction components with
  | nil => exact fun _ mem => absurd mem not_mem_nil
  | cons c cs ih =>
    intro o mem
    cases rendered : render c with
    | error e =>
      simp only [emit, rendered] at mem
      exact absurd mem not_mem_nil
    | ok objects =>
      simp only [emit, rendered] at mem
      rcases mem_append.mp mem with own | later
      · exact each c mem_cons_self objects rendered o own
      · exact ih (fun c' mem' => each c' (mem_cons_of_mem _ mem')) o later

theorem deployed_shape (localeBefore : String → String → Bool) (input : DeployCatalogEntryInput) :
    ∃ workloads : List KubeObject,
      (∀ o ∈ workloads, Emits input.deploymentName (footprintOf input.deploymentName input.components) o) ∧
      (deployed localeBefore input).1 = workloads ++
        if (deployed localeBefore input).2 then deployFirewallNetworkPolicy input else [] := by
  unfold deployed
  split
  · refine ⟨_, ?_, rfl⟩
    exact emit_emits (fun c mem objects ok => renderComponent_emits mem ok)
  · exact ⟨[], fun _ mem => absurd mem not_mem_nil, rfl⟩

/- of a deployment: the names that its objects may have, its status, and the ports that were deployed last -/
structure View where
  footprint : Footprint
  status : DeploymentStatus
  ports : List PolicyPort

def isDown (status : DeploymentStatus) : Bool := status == .stopped || status == .deleted

/-- Every object has the label and a name of a deployment; a deployment that is down has no replicas and no
CronJob, and each has the policy of its ports. -/
structure Owned (view : String → Option View) (o : Objects) : Prop where
  deployments : ∀ n d, o.deployments n = some d → ∃ v, view d.app = some v ∧ n ∈ v.footprint.deployments ∧
    (isDown v.status = true → d.replicas = 0)
  cronJobs : ∀ n j, o.cronJobs n = some j → ∃ v, view j.app = some v ∧ n ∈ v.footprint.cronJobs
  services : ∀ n app, o.services n = some app → ∃ v, view app = some v ∧ n ∈ v.footprint.services
  policies : ∀ n p, o.policies n = some p → (view p.app).isSome ∧ n = firewallPolicyName p.app
  firewall : ∀ name v, view name = some v → o.policies (firewallPolicyName name) =
    if v.ports = [] then none else some ⟨name, v.ports⟩
  quiet : ∀ name v, view name = some v → isDown v.status = true → v.footprint.cronJobs = []

theorem owned_empty : Owned (fun _ => none) Objects.empty where
  deployments := fun _ _ there => by cases there
  cronJobs := fun _ _ there => by cases there
  services := fun _ _ there => by cases there
  policies := fun _ _ there => by cases there
  firewall := fun _ _ there => by cases there
  quiet := fun _ _ there => by cases there

theorem firewallPolicyName_inj {a b : String} (same : firewallPolicyName a = firewallPolicyName b) : a = b :=
  String.append_right_inj _ |>.mp same

/-- Objects of the deployment `name` are under its own names; those of others keep their labels, and stay at 0
replicas; and no policy changes but its own. -/
structure Objects.Within (o o' : Objects) (name : String) (v : View) : Prop where
  deployments : ∀ n d, o'.deployments n = some d →
    d.app = name ∧ n ∈ v.footprint.deployments ∧ (isDown v.status = true → d.replicas = 0) ∨
      d.app ≠ name ∧ ∃ old, o.deployments n = some old ∧ old.app = d.app ∧ (old.replicas = 0 → d.replicas = 0)
  cronJobs : ∀ n j, o'.cronJobs n = some j →
    j.app = name ∧ n ∈ v.footprint.cronJobs ∨ ∃ old, o.cronJobs n = some old ∧ old.app = j.app
  services : ∀ n app, o'.services n = some app →
    app = name ∧ n ∈ v.footprint.services ∨ o.services n = some app
  others : ∀ n, n ≠ firewallPolicyName name → o'.policies n = o.policies n
  firewall : o'.policies (firewallPolicyName name) = if v.ports = [] then none else some ⟨name, v.ports⟩

theorem Owned.change {view : String → Option View} {o o' : Objects} {name : String} {v : View}
    (owned : Owned view o) (within : o.Within o' name v) (named : ∀ w, view name = some w → w.footprint = v.footprint)
    (quiet : isDown v.status = true → v.footprint.cronJobs = []) : Owned (update view name (some v)) o' where
  deployments := by
    intro n d there
    rcases within.deployments n d there with ⟨rfl, mem, down⟩ | ⟨other, old, was, same, zero⟩
    · exact ⟨v, update_self .., mem, down⟩
    obtain ⟨w, its, mem, down⟩ := owned.deployments n old was
    rw [same] at its
    exact ⟨w, by rw [update_of_ne other, its], mem, fun isdown => zero (down isdown)⟩
  cronJobs := by
    intro n j there
    by_cases own : j.app = name
    · refine ⟨v, by rw [own, update_self], ?_⟩
      rcases within.cronJobs n j there with ⟨_, mem⟩ | ⟨old, was, same⟩
      · exact mem
      obtain ⟨w, its, mem⟩ := owned.cronJobs n old was
      rw [same, own] at its
      exact named w its ▸ mem
    · rcases within.cronJobs n j there with ⟨self, _⟩ | ⟨old, was, same⟩
      · exact absurd self own
      obtain ⟨w, its, mem⟩ := owned.cronJobs n old was
      rw [same] at its
      exact ⟨w, by rw [update_of_ne own, its], mem⟩
  services := by
    intro n app there
    by_cases own : app = name
    · refine ⟨v, by rw [own, update_self], ?_⟩
      rcases within.services n app there with ⟨_, mem⟩ | was
      · exact mem
      obtain ⟨w, its, mem⟩ := owned.services n app was
      rw [own] at its
      exact named w its ▸ mem
    · rcases within.services n app there with ⟨self, _⟩ | was
      · exact absurd self own
      · obtain ⟨w, its, mem⟩ := owned.services n app was
        exact ⟨w, by rw [update_of_ne own, its], mem⟩
  policies := by
    intro n p there
    by_cases own : n = firewallPolicyName name
    · rw [own, within.firewall] at there
      split at there
      · contradiction
      · cases there
        exact ⟨by rw [update_self]; rfl, own⟩
    rw [within.others n own] at there
    obtain ⟨known, same⟩ := owned.policies n p there
    have other : p.app ≠ name := by
      rintro rfl
      exact own same
    exact ⟨by rw [update_of_ne other]; exact known, same⟩
  firewall := by
    intro app w its
    by_cases own : app = name
    · rw [own, update_self] at its
      cases its
      rw [own]
      exact within.firewall
    · rw [update_of_ne own] at its
      rw [within.others _ (fun same => own (firewallPolicyName_inj same))]
      exact owned.firewall app w its
  quiet := by
    intro app w its isdown
    by_cases own : app = name
    · rw [own, update_self] at its
      cases its
      exact quiet isdown
    · rw [update_of_ne own] at its
      exact owned.quiet app w its isdown

theorem Owned.remove {view : String → Option View} {o : Objects} {name : String} {v : View}
    (owned : Owned view o) (own : view name = some v) (ports : v.ports = []) :
    Owned (update view name none) (o.delete v.footprint) where
  deployments := by
    intro n d there
    simp only [Objects.delete] at there
    split at there
    · contradiction
    rename_i absent
    obtain ⟨w, its, mem, down⟩ := owned.deployments n d there
    have other : d.app ≠ name := by
      intro self
      rw [self, own] at its
      cases its
      exact absent mem
    exact ⟨w, by rw [update_of_ne other, its], mem, down⟩
  cronJobs := by
    intro n j there
    simp only [Objects.delete] at there
    split at there
    · contradiction
    rename_i absent
    obtain ⟨w, its, mem⟩ := owned.cronJobs n j there
    have other : j.app ≠ name := by
      intro self
      rw [self, own] at its
      cases its
      exact absent mem
    exact ⟨w, by rw [update_of_ne other, its], mem⟩
  services := by
    intro n app there
    simp only [Objects.delete] at there
    split at there
    · contradiction
    rename_i absent
    obtain ⟨w, its, mem⟩ := owned.services n app there
    have other : app ≠ name := by
      intro self
      rw [self, own] at its
      cases its
      exact absent mem
    exact ⟨w, by rw [update_of_ne other, its], mem⟩
  policies := by
    intro n p there
    obtain ⟨known, same⟩ := owned.policies n p there
    have other : p.app ≠ name := by
      rintro rfl
      have none := owned.firewall p.app v own
      rw [if_pos ports, ← same] at none
      rw [Objects.delete] at there
      rw [none] at there
      contradiction
    exact ⟨by rw [update_of_ne other]; exact known, same⟩
  firewall := by
    intro app w its
    by_cases self : app = name
    · rw [self, update_self] at its
      contradiction
    · rw [update_of_ne self] at its
      exact owned.firewall app w its
  quiet := by
    intro app w its isdown
    by_cases self : app = name
    · rw [self, update_self] at its
      contradiction
    · rw [update_of_ne self] at its
      exact owned.quiet app w its isdown

section

variable {view : String → Option View} {o : Objects} {name : String} {v : View}

variable {s : DeploymentStatus}

section

variable (owned : Owned view o) (own : view name = some v)
include owned own

theorem Owned.within_same (calm : isDown s = true → isDown v.status = true) : o.Within o name { v with status := s } where
  deployments := by
    intro n d there
    by_cases self : d.app = name
    · obtain ⟨w, its, mem, down⟩ := owned.deployments n d there
      rw [self, own] at its
      cases its
      exact .inl ⟨self, mem, fun isdown => down (calm isdown)⟩
    · exact .inr ⟨self, d, there, rfl, id⟩
  cronJobs := fun n j there => .inr ⟨j, there, rfl⟩
  services := fun n app there => .inr there
  others := fun _ _ => rfl
  firewall := owned.firewall name v own

theorem Owned.within_stop (s : DeploymentStatus) : o.Within (o.stop v.footprint) name { v with status := s } where
  deployments := by
    intro n d there
    simp only [Objects.stop] at there
    split at there
    · rename_i mem
      obtain ⟨old, was, rfl⟩ := map_eq_some_iff.mp there
      by_cases self : old.app = name
      · exact .inl ⟨self, mem, fun _ => rfl⟩
      · exact .inr ⟨self, old, was, rfl, fun _ => rfl⟩
    rename_i absent
    by_cases self : d.app = name
    · obtain ⟨w, its, mem, _⟩ := owned.deployments n d there
      rw [self, own] at its
      cases its
      exact absurd mem absent
    · exact .inr ⟨self, d, there, rfl, id⟩
  cronJobs := fun n j there => .inr ⟨j, there, rfl⟩
  services := fun n app there => .inr there
  others := fun _ _ => rfl
  firewall := owned.firewall name v own

theorem Owned.within_start (up : isDown s = false)
    (replicas : Nat) (alone : ∀ n ∈ v.footprint.deployments, ∀ d ∈ o.deployments n, d.app = name) :
    o.Within (o.start v.footprint replicas) name { v with status := s } where
  deployments := by
    intro n d there
    simp only [Objects.start] at there
    split at there
    · rename_i mem
      obtain ⟨old, was, rfl⟩ := map_eq_some_iff.mp there
      refine .inl ⟨alone n mem old was, mem, fun isdown => ?_⟩
      rw [up] at isdown
      contradiction
    have calm : isDown s = true → isDown v.status = true := by
      intro isdown
      rw [up] at isdown
      contradiction
    exact (owned.within_same own calm).deployments n d there
  cronJobs := by
    intro n j there
    simp only [Objects.start] at there
    split at there
    · obtain ⟨old, was, rfl⟩ := map_eq_some_iff.mp there
      exact .inr ⟨old, was, rfl⟩
    · exact .inr ⟨j, there, rfl⟩
  services := fun n app there => .inr there
  others := fun _ _ => rfl
  firewall := owned.firewall name v own

end

end

/- what the objects of a deployment leave behind, where they have no policy -/
structure Objects.Applied (o o' : Objects) (app : String) (f : Footprint) : Prop where
  deployments : ∀ n d, o'.deployments n = some d → d.app = app ∧ n ∈ f.deployments ∨ o.deployments n = some d
  cronJobs : ∀ n j, o'.cronJobs n = some j → j.app = app ∧ n ∈ f.cronJobs ∨ o.cronJobs n = some j
  services : ∀ n a, o'.services n = some a → a = app ∧ n ∈ f.services ∨ o.services n = some a
  policies : o'.policies = o.policies

theorem apply_applied {o : Objects} {app : String} {f : Footprint} {x : KubeObject} (emits : Emits app f x) :
    o.Applied (o.apply x) app f := by
  cases x with
  | deployment name labels replicas pod =>
    refine ⟨?_, fun _ _ there => .inr there, fun _ _ there => .inr there, rfl⟩
    intro n d there
    by_cases self : n = name
    · rw [self] at there ⊢
      simp only [Objects.apply, update_self, some.injEq] at there
      exact .inl ⟨there ▸ emits.1, emits.2⟩
    · simp only [Objects.apply, update_of_ne self] at there
      exact .inr there
  | cronJob name labels schedule pod =>
    refine ⟨fun _ _ there => .inr there, ?_, fun _ _ there => .inr there, rfl⟩
    intro n j there
    by_cases self : n = name
    · rw [self] at there ⊢
      simp only [Objects.apply, update_self, some.injEq] at there
      exact .inl ⟨there ▸ emits.1, emits.2⟩
    · simp only [Objects.apply, update_of_ne self] at there
      exact .inr there
  | service name selector ports =>
    refine ⟨fun _ _ there => .inr there, fun _ _ there => .inr there, ?_, rfl⟩
    intro n a there
    by_cases self : n = name
    · rw [self] at there ⊢
      simp only [Objects.apply, update_self, some.injEq] at there
      exact .inl ⟨there ▸ emits.1, emits.2⟩
    · simp only [Objects.apply, update_of_ne self] at there
      exact .inr there
  | job name labels pod =>
    exact ⟨fun _ _ there => .inr there, fun _ _ there => .inr there, fun _ _ there => .inr there, rfl⟩
  | networkPolicy name a ports => cases emits

theorem applyAll_applied {o : Objects} {app : String} {f : Footprint} {l : List KubeObject}
    (emits : ∀ x ∈ l, Emits app f x) : o.Applied (o.applyAll l) app f := by
  induction l generalizing o with
  | nil =>
    exact ⟨fun _ _ there => .inr there, fun _ _ there => .inr there, fun _ _ there => .inr there, rfl⟩
  | cons x rest ih =>
    have first := @apply_applied o app f x (emits x mem_cons_self)
    have later := @ih (o.apply x) (fun y mem => emits y (mem_cons_of_mem _ mem))
    refine ⟨?_, ?_, ?_, later.policies.trans first.policies⟩
    · intro n d there
      rcases later.deployments n d there with own | before
      · exact .inl own
      · exact first.deployments n d before
    · intro n j there
      rcases later.cronJobs n j there with own | before
      · exact .inl own
      · exact first.cronJobs n j before
    · intro n a there
      rcases later.services n a there with own | before
      · exact .inl own
      · exact first.services n a before

theorem deployed_policies (localeBefore : String → String → Bool) (o : Objects) (input : DeployCatalogEntryInput) :
    (o.applyAll (deployed localeBefore input).1).policies =
      if (deployed localeBefore input).2 = true ∧ policyPortsOf input ≠ [] then
        update o.policies (firewallPolicyName input.deploymentName)
          (some ⟨input.deploymentName, policyPortsOf input⟩)
      else o.policies := by
  obtain ⟨workloads, emits, shape⟩ := deployed_shape localeBefore input
  have before := (@applyAll_applied o _ _ workloads emits).policies
  rw [shape, deployFirewallNetworkPolicy_eq]
  cases done : (deployed localeBefore input).2 with
  | false => simpa using before
  | true =>
    by_cases none : policyPortsOf input = []
    · simpa [none] using before
    simp only [ne_eq, none, Objects.applyAll, foldl_append]
    rw [← before]
    rfl

theorem deployed_applied (localeBefore : String → String → Bool) (o : Objects) (input : DeployCatalogEntryInput) :
    ∀ o', o' = o.applyAll (deployed localeBefore input).1 →
      (∀ n d, o'.deployments n = some d → d.app = input.deploymentName ∧
        n ∈ (footprintOf input.deploymentName input.components).deployments ∨ o.deployments n = some d) ∧
      (∀ n j, o'.cronJobs n = some j → j.app = input.deploymentName ∧
        n ∈ (footprintOf input.deploymentName input.components).cronJobs ∨ o.cronJobs n = some j) ∧
      ∀ n a, o'.services n = some a → a = input.deploymentName ∧
        n ∈ (footprintOf input.deploymentName input.components).services ∨ o.services n = some a := by
  rintro o' rfl
  obtain ⟨workloads, emits, shape⟩ := deployed_shape localeBefore input
  have applied := @applyAll_applied o _ _ workloads emits
  rw [shape, deployFirewallNetworkPolicy_eq, Objects.applyAll, foldl_append]
  split
  · split
    · exact ⟨applied.deployments, applied.cronJobs, applied.services⟩
    · exact ⟨applied.deployments, applied.cronJobs, applied.services⟩
  · exact ⟨applied.deployments, applied.cronJobs, applied.services⟩

theorem Owned.within_deploy {localeBefore : String → String → Bool} {view : String → Option View} {o : Objects}
    {input : DeployCatalogEntryInput} {v : View} {ports : List PolicyPort} (owned : Owned view o)
    (named : ∀ w, view input.deploymentName = some w → w.footprint = v.footprint) (up : isDown v.status = false)
    (footprint : v.footprint = footprintOf input.deploymentName input.components)
    (before : o.policies (firewallPolicyName input.deploymentName) =
      if ports = [] then none else some ⟨input.deploymentName, ports⟩)
    (after : v.ports = if (deployed localeBefore input).2 then policyPortsOf input else ports)
    (stays : policyPortsOf input = [] → ports = []) :
    o.Within (o.applyAll (deployed localeBefore input).1) input.deploymentName v := by
  obtain ⟨deployments, cronJobs, services⟩ := deployed_applied localeBefore o input _ rfl
  have policies := deployed_policies localeBefore o input
  rw [← footprint] at deployments cronJobs services
  refine ⟨?_, ?_, services, ?_, ?_⟩
  · intro n d there
    have calm : isDown v.status = true → d.replicas = 0 := by
      intro isdown
      rw [up] at isdown
      contradiction
    rcases deployments n d there with ⟨own, mem⟩ | old
    · exact .inl ⟨own, mem, calm⟩
    by_cases self : d.app = input.deploymentName
    · obtain ⟨w, its, mem, _⟩ := owned.deployments n d old
      rw [self] at its
      exact .inl ⟨self, named w its ▸ mem, calm⟩
    · exact .inr ⟨self, d, old, rfl, id⟩
  · intro n j there
    rcases cronJobs n j there with own | old
    · exact .inl own
    · exact .inr ⟨j, old, rfl⟩
  · intro n other
    rw [policies]
    split
    · rw [update_of_ne other]
    · rfl
  rw [policies, after]
  cases done : (deployed localeBefore input).2 with
  | false => simpa using before
  | true =>
    by_cases none : policyPortsOf input = []
    · simpa [none, stays none] using before
    · simp [none]

end HostingPlatform.Deployments
