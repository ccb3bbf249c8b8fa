import HostingPlatform.Shared
import HostingPlatform.Table

/-! What the hooks of a transition write: one column of each table of a tenant, in bulk, and the
replicas of its custom deployments. The hooks of the ingress, of the volumes and of systems
outside the platform write nothing of this. -/
namespace HostingPlatform.TenantLifecycle.Cascades

open Option Table

inductive Transition where
  | active | suspended | archived | restored | deleted
  deriving DecidableEq

inductive DomainStatus where
  | unverified | verified | active | pending | suspended | deleted

inductive MailboxStatus where
  | active | disabled

inductive PrivateWorkerStatus where
  | pending | active | revoked | suspended
  deriving DecidableEq

inductive DeploymentStatus where
  | deploying | running | stopped | failed | deleting | upgrading | pending | deleted

inductive DeploymentSource where
  | catalog | custom
  deriving DecidableEq

/- a row of a tenant with the column that the hooks write, its `enabled` or its `status` -/
structure Owned (V : Type) where
  (id tenantId : Nat)
  column : V

abbrev Owns (V : Type) : Type := Table (Owned V) Owned.id

structure Deployment where
  (id tenantId : Nat)
  source : DeploymentSource
  status : DeploymentStatus

/- a Kubernetes Deployment in the namespace of a tenant, with the id in its label, if any -/
structure Workload where
  (id tenantId : Nat)
  deploymentId : Option Nat
  replicas : Nat

structure Tenant where
  id : Nat
  status : TenantStatus
  (suspendedAt archivedAt : Option Nat)
  isSystem : Bool

structure Panel where
  tenants : Table Tenant Tenant.id
  domains : Owns DomainStatus
  cronJobs : Owns Int
  mailboxes : Owns MailboxStatus
  privateWorkers : Owns PrivateWorkerStatus
  emailAliases : Owns Int
  deployments : Table Deployment Deployment.id
  workloads : Table Workload Workload.id

/- `missed`: the Deployments whose scale cannot be read or replaced, which are skipped -/
structure HookCtx where
  tenantId : Nat
  transition : Transition
  now : Nat
  missed : List Nat

def Owned.set {V : Type} (column : V) (r : Owned V) : Owned V := { r with column }

variable {V : Type} {column : V} {r : Owned V} {tenantId : Nat} {t : Owns V} {w : Workload}
  {missed missed' : List Nat}

theorem Owned.set_id (column : V) (r : Owned V) : (r.set column).id = r.id := rfl

def setWhere {V : Type} (tenantId : Nat) (p : V → Bool) (column : V) (t : Owns V) : Owns V :=
  t.update (fun r => r.tenantId == tenantId && p r.column) (Owned.set column) (Owned.set_id column)

def setAll {V : Type} (tenantId : Nat) (column : V) (t : Owns V) : Owns V :=
  setWhere tenantId (fun _ => true) column t

def deleteAll {V : Type} (tenantId : Nat) (t : Owns V) : Owns V :=
  t.delete (fun r => r.tenantId == tenantId)

/- the hooks that a transition runs; `none` where one aborts it -/
abbrev Hook : Type := HookCtx → Panel → Option Panel

def systemTenantGuard : Hook := fun ctx p =>
  match ctx.transition with
  | .suspended | .archived | .deleted =>
    if p.tenants.rows.any (fun t => t.id == ctx.tenantId && t.isSystem) then none else some p
  | .active | .restored => some p

def domainsStatus : Hook := fun ctx p =>
  match ctx.transition with
  | .active | .restored => some { p with domains := setAll ctx.tenantId .active p.domains }
  | .suspended | .archived => some { p with domains := setAll ctx.tenantId .suspended p.domains }
  | .deleted => some p

def cronjobsEnable : Hook := fun ctx p =>
  match ctx.transition with
  | .active | .restored => some { p with cronJobs := setAll ctx.tenantId 1 p.cronJobs }
  | .suspended | .archived => some { p with cronJobs := setAll ctx.tenantId 0 p.cronJobs }
  | .deleted => some p

def mailboxesStatus : Hook := fun ctx p =>
  match ctx.transition with
  | .active | .restored => some { p with mailboxes := setAll ctx.tenantId .active p.mailboxes }
  | .suspended => some { p with mailboxes := setAll ctx.tenantId .disabled p.mailboxes }
  | .archived => some { p with mailboxes := deleteAll ctx.tenantId p.mailboxes }
  | .deleted => some p

/- not registered for `active` -/
def privateWorkersStatus : Hook := fun ctx p =>
  match ctx.transition with
  | .suspended =>
    some { p with
      privateWorkers := setWhere ctx.tenantId (fun status => status == .active || status == .pending)
        .suspended p.privateWorkers }
  | .restored =>
    some { p with
      privateWorkers := setWhere ctx.tenantId (fun status => status == .suspended) .active
        p.privateWorkers }
  | .archived =>
    some { p with
      privateWorkers := setWhere ctx.tenantId (fun status => status != .revoked) .revoked
        p.privateWorkers }
  | .deleted => some { p with privateWorkers := deleteAll ctx.tenantId p.privateWorkers }
  | .active => some p

def emailAliasesEnable : Hook := fun ctx p =>
  match ctx.transition with
  | .active | .restored => some { p with emailAliases := setAll ctx.tenantId 1 p.emailAliases }
  | .suspended => some { p with emailAliases := setAll ctx.tenantId 0 p.emailAliases }
  | .archived => some { p with emailAliases := deleteAll ctx.tenantId p.emailAliases }
  | .deleted => some p

def Deployment.stop (d : Deployment) : Deployment := { d with status := .stopped }

theorem Deployment.stop_id (d : Deployment) : d.stop.id = d.id := rfl

/- on the way back the rows are left to the storage lifecycle -/
def deploymentsStatus : Hook := fun ctx p =>
  match ctx.transition with
  | .suspended | .archived =>
    some { p with
      deployments := p.deployments.update (fun d => d.tenantId == ctx.tenantId) Deployment.stop
        Deployment.stop_id }
  | .active | .restored | .deleted => some p

/- a Deployment whose label names a custom deployment of the tenant -/
def Panel.custom (p : Panel) (tenantId : Nat) (w : Workload) : Bool :=
  w.tenantId == tenantId && p.deployments.rows.any (fun d =>
    d.tenantId == tenantId && d.source == .custom && some d.id == w.deploymentId)

def Workload.scale (replicas : Nat) (w : Workload) : Workload := { w with replicas }

theorem Workload.scale_id (replicas : Nat) (w : Workload) : (w.scale replicas).id = w.id := rfl

def scaleCustomK8sDeployments (ctx : HookCtx) (p : Panel) (replicas : Nat) : Panel :=
  { p with
    workloads := p.workloads.update
      (fun w => p.custom ctx.tenantId w && !ctx.missed.contains w.id)
      (Workload.scale replicas) (Workload.scale_id replicas) }

def customDeploymentsScale : Hook := fun ctx p =>
  match ctx.transition with
  | .suspended | .archived => some (scaleCustomK8sDeployments ctx p 0)
  | .active | .restored => some (scaleCustomK8sDeployments ctx p 1)
  | .deleted => some p

def stamp (transition : Transition) (now : Nat) (t : Tenant) : Tenant :=
  match transition with
  | .active | .restored => { t with status := .active, suspendedAt := none, archivedAt := none }
  | .suspended => { t with status := .suspended, suspendedAt := some now }
  | .archived => { t with status := .archived, archivedAt := some now }
  | .deleted => t

theorem stamp_id (transition : Transition) (now : Nat) (t : Tenant) : (stamp transition now t).id = t.id := by
  cases transition <;> rfl

def tenantsStatusStamp : Hook := fun ctx p =>
  some { p with
    tenants := p.tenants.update (fun t => t.id == ctx.tenantId) (stamp ctx.transition ctx.now)
      (stamp_id ctx.transition ctx.now) }

/- in the order of the registry -/
def hooks : List Hook :=
  [systemTenantGuard, domainsStatus, cronjobsEnable, mailboxesStatus, privateWorkersStatus,
    emailAliasesEnable, deploymentsStatus, customDeploymentsScale, tenantsStatusStamp]

def runHooks (ctx : HookCtx) : List Hook → Panel → Option Panel
  | [], p => some p
  | hook :: rest, p => (hook ctx p).bind (runHooks ctx rest)

def applySuspended (tenantId now : Nat) (missed : List Nat) (p : Panel) : Option Panel :=
  runHooks ⟨tenantId, .suspended, now, missed⟩ hooks p

def applyActive (tenantId now : Nat) (missed : List Nat) (p : Panel) : Option Panel :=
  runHooks ⟨tenantId, .active, now, missed⟩ hooks p

/- each row is as it was, and so are the replicas of the custom deployments -/
structure Restored (tenantId : Nat) (before after : Panel) : Prop where
  domains : ∀ r ∈ before.domains, r ∈ after.domains
  cronJobs : ∀ r ∈ before.cronJobs, r ∈ after.cronJobs
  mailboxes : ∀ r ∈ before.mailboxes, r ∈ after.mailboxes
  privateWorkers : ∀ r ∈ before.privateWorkers, r ∈ after.privateWorkers
  emailAliases : ∀ r ∈ before.emailAliases, r ∈ after.emailAliases
  deployments : ∀ d ∈ before.deployments, d.source = .custom → d ∈ after.deployments
  workloads : ∀ w ∈ before.workloads, before.custom tenantId w = true → w ∈ after.workloads

/- every row of the tenant has the value that `active` sets, no private worker is one that
`suspended` touches, and a custom deployment is stopped with one replica, where the hook that
sets it is not kept from it -/
structure AsActivated (tenantId : Nat) (missed missed' : List Nat) (p : Panel) : Prop where
  domains : ∀ r ∈ p.domains, r.tenantId = tenantId → r.column = .active
  cronJobs : ∀ r ∈ p.cronJobs, r.tenantId = tenantId → r.column = 1
  mailboxes : ∀ r ∈ p.mailboxes, r.tenantId = tenantId → r.column = .active
  privateWorkers : ∀ r ∈ p.privateWorkers, r.tenantId = tenantId →
    r.column ≠ .active ∧ r.column ≠ .pending
  emailAliases : ∀ r ∈ p.emailAliases, r.tenantId = tenantId → r.column = 1
  deployments : ∀ d ∈ p.deployments, d.source = .custom → d.tenantId = tenantId → d.status = .stopped
  workloads : ∀ w ∈ p.workloads, p.custom tenantId w = true →
    if w.id ∈ missed' then w.id ∉ missed → w.replicas = 0 else w.replicas = 1

theorem set_eq_iff : r.set column = r ↔ r.column = column := by
  constructor
  · intro same
    exact (congrArg Owned.column same).symm
  · intro same
    rw [Owned.set, ← same]

theorem mem_setWhere {p : V → Bool} (mem : r ∈ t) : r ∈ setWhere tenantId p column t ↔
      (r.tenantId = tenantId → p r.column = true → r.column = column) := by
  unfold setWhere
  rw [mem_update_iff (Owned.set_id column) mem, apply]
  by_cases own : r.tenantId = tenantId <;> by_cases chosen : p r.column = true <;>
    simp [set_eq_iff]

theorem mem_setAll_setAll {first last : V} (mem : r ∈ t) :
    r ∈ setAll tenantId last (setAll tenantId first t) ↔ (r.tenantId = tenantId → r.column = last) := by
  unfold setAll setWhere
  rw [mem_update_update_iff (Owned.set_id first) (Owned.set_id last) mem]
  by_cases own : r.tenantId = tenantId
  · have last_stays : apply (fun r => r.tenantId == tenantId && true) (Owned.set last)
        (apply (fun r => r.tenantId == tenantId && true) (Owned.set first) r) = r.set last := by
      simp [apply, Owned.set, own]
    rw [last_stays, set_eq_iff]
    exact ⟨fun same _ => same, fun same => same own⟩
  · simp [apply, own]

theorem mem_stopped {t : Table Deployment Deployment.id} {d : Deployment} (mem : d ∈ t) :
    d ∈ t.update (fun d => d.tenantId == tenantId) Deployment.stop Deployment.stop_id ↔
      (d.tenantId = tenantId → d.status = .stopped) := by
  rw [mem_update_iff Deployment.stop_id mem, apply]
  by_cases own : d.tenantId = tenantId
  · simp only [own, beq_self_eq_true, if_true, forall_const]
    constructor
    · intro same
      exact (congrArg Deployment.status same).symm
    · intro stopped
      rw [Deployment.stop, ← stopped]
  · simp [own]

theorem custom_stopped {p q : Panel} (stopped : q.deployments = p.deployments.update (fun d => d.tenantId == tenantId)
      Deployment.stop Deployment.stop_id) (w : Workload) : q.custom tenantId w = p.custom tenantId w := by
  have same : ∀ d : Deployment,
      (fun d : Deployment => d.tenantId == tenantId && d.source == .custom && some d.id == w.deploymentId)
        (apply (fun d => d.tenantId == tenantId) Deployment.stop d) =
      (d.tenantId == tenantId && d.source == .custom && some d.id == w.deploymentId) := by
    intro d
    unfold apply
    split <;> rfl
  simp [Panel.custom, stopped, update, Function.comp_def, same]

theorem scale_eq_iff {replicas : Nat} : w.scale replicas = w ↔ w.replicas = replicas := by
  constructor
  · intro same
    exact (congrArg Workload.replicas same).symm
  · intro same
    rw [Workload.scale, ← same]

theorem scale_scale {first last : Nat} (w : Workload) : (w.scale first).scale last = w.scale last := rfl

theorem mem_scaled_down_up {t : Table Workload Workload.id} {down up : Workload → Bool} (mem : w ∈ t)
    (isDown : down w = true) (isUp : ∀ replicas, up (w.scale replicas) = true) :
    w ∈ (t.update (fun w => down w && !missed.contains w.id) (Workload.scale 0)
        (Workload.scale_id 0)).update (fun w => up w && !missed'.contains w.id) (Workload.scale 1)
        (Workload.scale_id 1) ↔
      if w.id ∈ missed' then w.id ∉ missed → w.replicas = 0 else w.replicas = 1 := by
  have isUpToo : up w = true := isUp w.replicas
  rw [mem_update_update_iff (Workload.scale_id 0) (Workload.scale_id 1) mem]
  by_cases left : w.id ∈ missed <;> by_cases left' : w.id ∈ missed' <;>
    simp [apply, Workload.scale_id, isDown, isUp, isUpToo, left, left', scale_eq_iff, scale_scale]

theorem guard_passes {ctx : HookCtx} {p q : Panel} (passed : systemTenantGuard ctx p = some q) : q = p := by
  unfold systemTenantGuard at passed
  split at passed
  · split at passed
    · contradiction
    · exact (some.inj passed).symm
  · split at passed
    · contradiction
    · exact (some.inj passed).symm
  · split at passed
    · contradiction
    · exact (some.inj passed).symm
  · exact (some.inj passed).symm
  · exact (some.inj passed).symm

def suspendedAndActivated (tenantId now now' : Nat) (missed missed' : List Nat) (p : Panel) : Panel :=
  let stopped := { p with
    deployments := p.deployments.update (fun d => d.tenantId == tenantId) Deployment.stop
      Deployment.stop_id }
  let down := scaleCustomK8sDeployments ⟨tenantId, .suspended, now, missed⟩ stopped 0
  { tenants := (p.tenants.update (fun t => t.id == tenantId) (stamp .suspended now)
      (stamp_id .suspended now)).update (fun t => t.id == tenantId) (stamp .active now')
      (stamp_id .active now')
    domains := setAll tenantId .active (setAll tenantId .suspended p.domains)
    cronJobs := setAll tenantId 1 (setAll tenantId 0 p.cronJobs)
    mailboxes := setAll tenantId .active (setAll tenantId .disabled p.mailboxes)
    privateWorkers := setWhere tenantId (fun status => status == .active || status == .pending)
      .suspended p.privateWorkers
    emailAliases := setAll tenantId 1 (setAll tenantId 0 p.emailAliases)
    deployments := stopped.deployments
    workloads := (scaleCustomK8sDeployments ⟨tenantId, .active, now', missed'⟩ down 1).workloads }

theorem suspended_active {now now' : Nat} {p q r : Panel} (suspended : applySuspended tenantId now missed p = some q)
    (active : applyActive tenantId now' missed' q = some r) :
    r = suspendedAndActivated tenantId now now' missed missed' p := by
  obtain ⟨same, guarded, done⟩ := bind_eq_some_iff.mp suspended
  rw [guard_passes guarded] at done
  cases done
  cases active
  rfl

theorem mem_workloads {now now' : Nat} {p : Panel} (mem : w ∈ p.workloads) (custom : p.custom tenantId w = true) :
    w ∈ (suspendedAndActivated tenantId now now' missed missed' p).workloads ↔
      if w.id ∈ missed' then w.id ∉ missed → w.replicas = 0 else w.replicas = 1 := by
  apply mem_scaled_down_up mem
  · exact (custom_stopped rfl w).trans custom
  · exact fun replicas => (custom_stopped rfl (w.scale replicas)).trans custom

/-- A suspension and an activation, no hook of which fails, restore the panel if and only if it
was as an activation leaves it. -/
theorem suspension_reversed_iff (tenantId now now' : Nat) (missed missed' : List Nat)
    (p q r : Panel) (suspended : applySuspended tenantId now missed p = some q)
    (active : applyActive tenantId now' missed' q = some r) :
    Restored tenantId p r ↔ AsActivated tenantId missed missed' p := by
  rw [suspended_active suspended active]
  constructor
  · intro restored
    constructor
    · exact fun d mem => (mem_setAll_setAll mem).mp (restored.domains d mem)
    · exact fun c mem => (mem_setAll_setAll mem).mp (restored.cronJobs c mem)
    · exact fun m mem => (mem_setAll_setAll mem).mp (restored.mailboxes m mem)
    · intro worker mem own
      have kept := (mem_setWhere mem).mp (restored.privateWorkers worker mem) own
      constructor
      · intro wasActive
        simp [wasActive] at kept
      · intro wasPending
        simp [wasPending] at kept
    · exact fun a mem => (mem_setAll_setAll mem).mp (restored.emailAliases a mem)
    · exact fun d mem source => (mem_stopped mem).mp (restored.deployments d mem source)
    · exact fun w mem custom => (mem_workloads mem custom).mp (restored.workloads w mem custom)
  · intro activated
    constructor
    · exact fun d mem => (mem_setAll_setAll mem).mpr (activated.domains d mem)
    · exact fun c mem => (mem_setAll_setAll mem).mpr (activated.cronJobs c mem)
    · exact fun m mem => (mem_setAll_setAll mem).mpr (activated.mailboxes m mem)
    · intro worker mem
      refine (mem_setWhere mem).mpr ?_
      intro own touched
      obtain ⟨notActive, notPending⟩ := activated.privateWorkers worker mem own
      simp [notActive, notPending] at touched
    · exact fun a mem => (mem_setAll_setAll mem).mpr (activated.emailAliases a mem)
    · exact fun d mem source => (mem_stopped mem).mpr (activated.deployments d mem source)
    · exact fun w mem custom => (mem_workloads mem custom).mpr (activated.workloads w mem custom)

/- one row of each table of tenant 1: a domain, a cron job, a mailbox, a private worker, an alias
and a custom deployment with its Kubernetes Deployment -/
def aPanel (cronJob : Int) (worker : PrivateWorkerStatus) (deployment : DeploymentStatus)
    (replicas : Nat) : Panel where
  tenants := ⟨[⟨1, .active, none, none, false⟩], by simp⟩
  domains := ⟨[⟨1, 1, .active⟩], by simp⟩
  cronJobs := ⟨[⟨1, 1, cronJob⟩], by simp⟩
  mailboxes := ⟨[⟨1, 1, .active⟩], by simp⟩
  privateWorkers := ⟨[⟨1, 1, worker⟩], by simp⟩
  emailAliases := ⟨[⟨1, 1, 1⟩], by simp⟩
  deployments := ⟨[⟨1, 1, .custom, deployment⟩], by simp⟩
  workloads := ⟨[⟨1, 1, some 1, replicas⟩], by simp⟩

theorem suspension_reversed_iff_stopped : ∃ q r, applySuspended 1 5 [] (aPanel 1 .revoked .stopped 1) = some q ∧
      applyActive 1 6 [] q = some r ∧ Restored 1 (aPanel 1 .revoked .stopped 1) r := by
  refine ⟨_, _, rfl, rfl, ?_⟩
  refine (suspension_reversed_iff 1 5 6 [] [] _ _ _ rfl rfl).mpr ?_
  constructor <;> simp [aPanel, mem_rows]

/-- A cron job that its tenant had switched off is switched on by the suspension and its end. -/
theorem suspension_forgets : ¬ ∀ (tenantId now now' : Nat) (missed missed' : List Nat) (p q r : Panel),
      (∃ t ∈ p.tenants, t.id = tenantId ∧ t.status = .active) →
      applySuspended tenantId now missed p = some q →
      applyActive tenantId now' missed' q = some r → Restored tenantId p r := by
  intro restored
  have kept := restored 1 5 6 [] [] (aPanel 0 .active .running 3) _ _
    ⟨⟨1, .active, none, none, false⟩, by simp [aPanel, mem_rows], rfl, rfl⟩ rfl rfl
  have cronJob : (⟨1, 1, 0⟩ : Owned Int) ∈ [(⟨1, 1, 1⟩ : Owned Int)] :=
    kept.cronJobs ⟨1, 1, 0⟩ (List.mem_cons_self ..)
  simp at cronJob

end HostingPlatform.TenantLifecycle.Cascades
