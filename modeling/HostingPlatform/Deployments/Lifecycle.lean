import HostingPlatform.Deployments.NamespaceObjects
import HostingPlatform.Deployments.Redeploys

/-! The lifecycle of a tenant's catalog deployments: one operation after the other, each with all that it
does to the rows and to the namespace. -/
namespace HostingPlatform.Deployments.Lifecycle

open Table List Function Transition Js

/-- Beside the rows, the catalog and the namespace: the ports of the firewall that was deployed last for a
row. -/
structure World where
  rows : Table DeploymentRow DeploymentRow.id
  entries : Nat → Option CatalogEntry
  objects : Objects
  ports : Nat → List PolicyPort

def World.start (entries : Nat → Option CatalogEntry) : World := ⟨Table.empty, entries, Objects.empty, fun _ => []⟩

def World.entry (w : World) (row : DeploymentRow) : Option CatalogEntry := row.catalogEntryId.bind w.entries

def componentsOf (entry : Option CatalogEntry) : List DeployComponentInput :=
  (entry.map (resolveComponents · none)).getD []

def World.footprint (w : World) (row : DeploymentRow) : Footprint :=
  footprintOf row.name (componentsOf (w.entry row))

def setStatus (status : DeploymentStatus) (now : Int) (row : DeploymentRow) : DeploymentRow :=
  { row with
    status := status
    updatedAt := now }

def updateRow (input : UpdateDeploymentInput) (now : Int) (row : DeploymentRow) : DeploymentRow :=
  if input.isEmpty then row else { input.assign row with updatedAt := now }

def createdRow (done : Bool) (row : DeploymentRow) : DeploymentRow :=
  { row with status := if done then .deploying else .failed }

def resourcesRow (input : UpdateResourcesInput) (now : Int) (row : DeploymentRow) : DeploymentRow :=
  { row with
    cpuRequest := (given input.cpuRequest).getD row.cpuRequest
    memoryRequest := (given input.memoryRequest).getD row.memoryRequest
    status := .pending
    updatedAt := now }

def versionRow (a : VersionAttempt) (done : Bool) (now : Int) (row : DeploymentRow) : DeploymentRow :=
  if done then a.finish now (a.lock now row) else a.revert now (a.lock now row)

theorem setStatus_id (status : DeploymentStatus) (now : Int) (row : DeploymentRow) :
    (setStatus status now row).id = row.id := rfl

theorem updateRow_id (input : UpdateDeploymentInput) (now : Int) (row : DeploymentRow) :
    (updateRow input now row).id = row.id := by
  unfold updateRow
  split <;> rfl

theorem resourcesRow_id (input : UpdateResourcesInput) (now : Int) (row : DeploymentRow) :
    (resourcesRow input now row).id = row.id := rfl

theorem versionRow_keeps (a : VersionAttempt) (done : Bool) (now : Int) (row : DeploymentRow) :
    (versionRow a done now row).id = row.id ∧ (versionRow a done now row).name = row.name ∧
      (versionRow a done now row).catalogEntryId = row.catalogEntryId ∧
      (versionRow a done now row).status = if done then .pending else .failed := by
  unfold versionRow VersionAttempt.finish VersionAttempt.revert VersionAttempt.lock
  cases done <;> cases a.operation <;> exact ⟨rfl, rfl, rfl, rfl⟩

theorem versionRow_id (a : VersionAttempt) (done : Bool) (now : Int) (row : DeploymentRow) :
    (versionRow a done now row).id = row.id := (versionRow_keeps a done now row).1

inductive Action where
  | create (row : DeploymentRow) (custom : Bool)
  | update (id : Nat) (input : UpdateDeploymentInput) (now : Int)
  | resources (id : Nat) (input : UpdateResourcesInput) (now : Int)
  | upgrade (id : Nat) (input : UpgradeVersionInput) (now : Int)
  | rollback (id : Nat) (now : Int)
  | delete (id : Nat) (now : Int)
  | restore (id : Nat) (now : Int)
  | hardDelete (id : Nat)
  | sync (entryId : Nat) (entry : CatalogEntry)

section

variable (localeBefore : String → String → Bool) (tenant : Tenant)

def World.deploy (w : World) (id : Nat) (input : DeployCatalogEntryInput) : World :=
  { w with
    objects := w.objects.applyAll (deployed localeBefore input).1
    ports := if (deployed localeBefore input).2 then Function.update w.ports id (policyPortsOf input) else w.ports }

def World.setRow (w : World) (id : Nat) (f : DeploymentRow → DeploymentRow) (keeps : ∀ row, (f row).id = row.id) :
    World := { w with rows := w.rows.update (fun row => row.id == id) f keeps }

/- a name that is taken, also by a deleted row, is refused -/
def World.create (w : World) (row : DeploymentRow) (custom : Bool) : Option World :=
  if w.rows.rows.any (fun other => other.name == row.name) then none
  else
    (w.entry row).bind (fun entry =>
      let input := createInput tenant entry row custom
      (w.rows.insert (createdRow (deployed localeBefore input).2 row)).map (fun rows =>
        { w with
          rows
          ports := Function.update w.ports row.id [] }.deploy localeBefore row.id input))

/- the Deployments are scaled under the name that was read -/
def World.update (w : World) (row : DeploymentRow) (input : UpdateDeploymentInput) (now : Int) : Option World :=
  if input.name.any (fun name => w.rows.rows.any (fun other => other.id != row.id && other.name == name)) then none
  else
    some
      { w.setRow row.id (updateRow input now) (updateRow_id input now) with
        objects :=
          match input.status with
          | some .stopped => w.objects.stop (w.footprint row)
          | some .running => w.objects.start (w.footprint row) row.replicaCount
          | none => w.objects }

def World.resources (w : World) (row : DeploymentRow) (input : UpdateResourcesInput) (now : Int) : Option World :=
  if given input.cpuRequest = none ∧ given input.memoryRequest = none then none
  else
    let w' := w.setRow row.id (resourcesRow input now) (resourcesRow_id input now)
    match (w.entry row).bind (updateResourcesInput tenant · row input) with
    | some deploy => some (w'.deploy localeBefore row.id deploy)
    | none => some w'

def World.version (w : World) (now : Int) (checked : Except ApiError (Option VersionAttempt)) : Option World :=
  match checked with
  | .ok (some a) =>
    let input := a.input tenant.kubernetesNamespace
    let done := (deployed localeBefore input).2
    some ((w.setRow a.deployment.id (versionRow a done now) (versionRow_id a done now)).deploy localeBefore
      a.deployment.id input)
  | _ => none

def step (w : World) : Action → Option World
  | .create row custom => w.create localeBefore tenant row custom
  | .update id input now => (w.rows.select (fun row => row.id == id)).bind (w.update · input now)
  | .resources id input now =>
    (w.rows.select (fun row => row.id == id)).bind (w.resources localeBefore tenant · input now)
  | .upgrade id input now => (w.rows.select (fun row => row.id == id)).bind (fun row =>
      w.version localeBefore tenant now (upgradeDeploymentVersion w.entries row input))
  | .rollback id now => (w.rows.select (fun row => row.id == id)).bind (fun row =>
      w.version localeBefore tenant now (rollbackDeploymentVersion w.entries row))
  | .delete id now => (w.rows.select (fun row => row.id == id)).map (fun row =>
      { w.setRow id (setStatus .deleted now) (setStatus_id .deleted now) with
        objects := w.objects.stop (w.footprint row) })
  | .restore id now => (w.rows.select (fun row => row.id == id)).bind (fun row =>
      if row.status = .deleted then
        some
          { w.setRow id (setStatus .running now) (setStatus_id .running now) with
            objects := w.objects.start (w.footprint row) row.replicaCount }
      else none)
  | .hardDelete id => (w.rows.select (fun row => row.id == id)).map (fun row =>
      { w with
        rows := w.rows.delete (fun other => other.id == id)
        objects := w.objects.delete (w.footprint row) })
  | .sync entryId entry => some { w with entries := Function.update w.entries entryId (some entry) }

end

structure Tidy (w : World) : Prop where
  deployments : ∀ n d, w.objects.deployments n = some d →
    ∃ row ∈ w.rows, d.app = row.name ∧ n ∈ (w.footprint row).deployments
  cronJobs : ∀ n j, w.objects.cronJobs n = some j →
    ∃ row ∈ w.rows, j.app = row.name ∧ n ∈ (w.footprint row).cronJobs
  services : ∀ n app, w.objects.services n = some app →
    ∃ row ∈ w.rows, app = row.name ∧ n ∈ (w.footprint row).services
  policies : ∀ n p, w.objects.policies n = some p →
    ∃ row ∈ w.rows, p.app = row.name ∧ n = firewallPolicyName row.name
  down : ∀ row ∈ w.rows, isDown row.status = true →
    (∀ n d, w.objects.deployments n = some d → d.app = row.name → d.replicas = 0) ∧
      ∀ n j, w.objects.cronJobs n = some j → j.app = row.name → j.suspended = true
  firewall : ∀ row ∈ w.rows,
    ((w.objects.policies (firewallPolicyName row.name)).map PolicyObject.ports).getD [] = w.ports row.id

def NoCronJobs (w : World) (row : DeploymentRow) : Prop := (w.footprint row).cronJobs = []

def Alone (w : World) (row : DeploymentRow) : Prop :=
  ∀ n ∈ (w.footprint row).deployments, ∀ d ∈ w.objects.deployments n, d.app = row.name

def portsOf (entry : CatalogEntry) : List PolicyPort := ((readEntryFirewall entry).map policyPorts).getD []

def hasPolicy (w : World) (row : DeploymentRow) : Bool := (w.objects.policies (firewallPolicyName row.name)).isSome

/-- A manifest without ports follows no policy. -/
def PolicyStays (w : World) (row : DeploymentRow) : Prop :=
  ∀ entry ∈ w.entry row, portsOf entry = [] → hasPolicy w row = false

/-- No deployment is renamed; those that are stopped or deleted have no CronJob; those that are started have
their names for themselves; and no policy has to be taken away, by a manifest that has lost its ports or with
its row. The catalog may change as long as the names of the objects do not. -/
def Safe (w : World) : Action → Prop
  | .create .. => True
  | .update id input _ => ∀ row ∈ w.rows.rows, row.id = id → (∀ name ∈ input.name, name = row.name) ∧
    (input.status = some .stopped → NoCronJobs w row) ∧ (input.status = some .running → Alone w row)
  | .resources id _ _ | .upgrade id _ _ | .rollback id _ => ∀ row ∈ w.rows.rows, row.id = id → PolicyStays w row
  | .delete id _ => ∀ row ∈ w.rows.rows, row.id = id → NoCronJobs w row
  | .restore id _ => ∀ row ∈ w.rows.rows, row.id = id → Alone w row
  | .hardDelete id => ∀ row ∈ w.rows.rows, row.id = id → hasPolicy w row = false
  | .sync entryId entry => ∀ row ∈ w.rows.rows, row.catalogEntryId = some entryId →
    footprintOf row.name (resolveComponents entry none) = w.footprint row

open Results

def World.viewOf (w : World) (row : DeploymentRow) : View := ⟨w.footprint row, row.status, w.ports row.id⟩

def World.view (w : World) (name : String) : Option View :=
  (w.rows.select (fun row => row.name == name)).map w.viewOf

def Unique (w : World) : Prop := ∀ row ∈ w.rows, ∀ row' ∈ w.rows, row.name = row'.name → row = row'

structure Inv (w : World) : Prop where
  unique : Unique w
  owned : Owned w.view w.objects

variable {w : World} {row : DeploymentRow} {input : DeployCatalogEntryInput} {a : VersionAttempt}

theorem view_of_mem (unique : Unique w) (mem : row ∈ w.rows) : w.view row.name = some (w.viewOf row) := by
  unfold World.view
  cases found : w.rows.select (fun other => other.name == row.name) with
  | none =>
    have other := select_none found row mem
    simp at other
  | some other =>
    obtain ⟨there, same⟩ := mem_of_select found
    rw [unique other there row mem (beq_iff_eq.mp same)]
    rfl

theorem mem_of_view {name : String} {v : View} (its : w.view name = some v) :
    ∃ row ∈ w.rows, row.name = name ∧ w.viewOf row = v := by
  obtain ⟨row, found, rfl⟩ := Option.map_eq_some_iff.mp its
  obtain ⟨mem, same⟩ := mem_of_select found
  exact ⟨row, mem, beq_iff_eq.mp same, rfl⟩

theorem view_none {w : World} {name : String} (absent : ∀ row ∈ w.rows, row.name ≠ name) : w.view name = none := by
  cases its : w.view name with
  | none => rfl
  | some v =>
    obtain ⟨row, mem, same, _⟩ := mem_of_view its
    exact absurd same (absent row mem)

theorem view_update {w w' : World} {name : String} (unique : Unique w) (unique' : Unique w')
    (others : ∀ row, row.name ≠ name → (row ∈ w'.rows ↔ row ∈ w.rows))
    (kept : ∀ row ∈ w.rows, row.name ≠ name → w'.viewOf row = w.viewOf row) :
    w'.view = update w.view name (w'.view name) := by
  funext n
  by_cases self : n = name
  · rw [self, update_self]
  rw [update_of_ne self]
  cases before : w.view n with
  | some v =>
    obtain ⟨row, mem, rfl, rfl⟩ := mem_of_view before
    rw [view_of_mem unique' ((others row self).mpr mem), kept row mem self]
  | none =>
    refine view_none ?_
    rintro row mem rfl
    rw [view_of_mem unique ((others row self).mp mem)] at before
    contradiction

section

variable {w : World} {row : DeploymentRow} {f : DeploymentRow → DeploymentRow}

theorem mem_setRow (keeps : ∀ r, (f r).id = r.id) (mem : row ∈ w.rows) {x : DeploymentRow} :
    x ∈ (w.setRow row.id f keeps).rows ↔ x = f row ∨ x ∈ w.rows ∧ x.id ≠ row.id := by
  refine (mem_update keeps).trans ?_
  constructor
  · rintro (⟨there, other⟩ | ⟨old, there, same, rfl⟩)
    · exact .inr ⟨there, by simpa using other⟩
    · rw [w.rows.eq_of_key there mem (beq_iff_eq.mp same)]
      exact .inl rfl
  · rintro (rfl | ⟨there, other⟩)
    · exact .inr ⟨row, mem, by simp, rfl⟩
    · exact .inl ⟨there, by simpa using other⟩

theorem Inv.change {keeps : ∀ r, (f r).id = r.id} {objects : Objects} {ports : Nat → List PolicyPort} (inv : Inv w) (mem : row ∈ w.rows)
    (name : (f row).name = row.name) (entry : (f row).catalogEntryId = row.catalogEntryId)
    (others : ∀ id, id ≠ row.id → ports id = w.ports id)
    (quiet : isDown (f row).status = true → (w.footprint row).cronJobs = [])
    (within : w.objects.Within objects row.name ⟨w.footprint row, (f row).status, ports row.id⟩) :
    Inv { w.setRow row.id f keeps with
      objects := objects
      ports := ports } := by
  have unique : Unique { w.setRow row.id f keeps with
        objects := objects
        ports := ports } := by
    intro x there y there' same
    rcases (mem_setRow keeps mem).mp there with rfl | ⟨old, other⟩ <;>
      rcases (mem_setRow keeps mem).mp there' with rfl | ⟨old', other'⟩
    · rfl
    · exact absurd (congrArg DeploymentRow.id (inv.unique row mem y old' (name ▸ same))).symm other'
    · exact absurd (congrArg DeploymentRow.id (inv.unique x old row mem (same.trans name))) other
    · exact inv.unique x old y old' same
  refine ⟨unique, ?_⟩
  rw [view_update inv.unique unique]
  · have own := view_of_mem unique ((mem_setRow keeps mem).mpr (.inl rfl))
    rw [name] at own
    have same : World.viewOf { w.setRow row.id f keeps with
          objects := objects
          ports := ports } (f row) = ⟨w.footprint row, (f row).status, ports row.id⟩ := by
      simp [World.viewOf, World.footprint, World.entry, World.setRow, name, entry, keeps row]
    rw [own, same]
    refine inv.owned.change within ?_ quiet
    intro v its
    rw [view_of_mem inv.unique mem] at its
    cases its
    rfl
  · intro x other
    refine (mem_setRow keeps mem).trans ⟨?_, ?_⟩
    · rintro (rfl | ⟨there, _⟩)
      · exact absurd name other
      · exact there
    · intro there
      refine .inr ⟨there, fun same => other ?_⟩
      rw [w.rows.eq_of_key there mem same]
  · intro x there other
    have differs : x.id ≠ row.id := fun same => other (by rw [w.rows.eq_of_key there mem same])
    simp only [World.viewOf, others x.id differs]
    rfl

end

theorem Inv.enter {rows : Table DeploymentRow DeploymentRow.id} {objects : Objects}
    {ports : Nat → List PolicyPort} (inv : Inv w) (inserted : w.rows.insert row = some rows)
    (fresh : ∀ other ∈ w.rows, other.name ≠ row.name) (others : ∀ id, id ≠ row.id → ports id = w.ports id)
    (quiet : isDown row.status = true → (w.footprint row).cronJobs = [])
    (within : w.objects.Within objects row.name ⟨w.footprint row, row.status, ports row.id⟩) :
    Inv ⟨rows, w.entries, objects, ports⟩ := by
  have names : ∀ x, x ∈ rows ↔ x = row ∨ x ∈ w.rows := fun _ => mem_insert inserted
  have new : row ∈ rows := (names row).mpr (.inl rfl)
  have unique : Unique ⟨rows, w.entries, objects, ports⟩ := by
    intro x there y there' same
    rcases (names x).mp there with rfl | old <;> rcases (names y).mp there' with rfl | old'
    · rfl
    · exact absurd same.symm (fresh y old')
    · exact absurd same (fresh x old)
    · exact inv.unique x old y old' same
  refine ⟨unique, ?_⟩
  rw [view_update inv.unique unique]
  · rw [view_of_mem unique new]
    refine inv.owned.change within ?_ quiet
    intro v its
    rw [view_none fresh] at its
    contradiction
  · intro x other
    refine (names x).trans ⟨?_, .inr⟩
    rintro (rfl | there)
    · exact absurd rfl other
    · exact there
  intro x there other
  have differs : x.id ≠ row.id := by
    intro same
    exact other (by rw [rows.eq_of_key ((names x).mpr (.inr there)) new same])
  simp only [World.viewOf, others x.id differs]
  rfl

theorem Inv.leave (inv : Inv w) (mem : row ∈ w.rows) (bare : w.ports row.id = []) : Inv { w with
      rows := w.rows.delete (fun other => other.id == row.id)
      objects := w.objects.delete (w.footprint row) } := by
  have rows : ∀ x, x ∈ w.rows.delete (fun other => other.id == row.id) ↔ x ∈ w.rows ∧ x.id ≠ row.id := by
    intro x
    rw [mem_delete]
    simp
  have unique : Unique { w with
        rows := w.rows.delete (fun other => other.id == row.id)
        objects := w.objects.delete (w.footprint row) } := by
    intro x there y there' same
    exact inv.unique x ((rows x).mp there).1 y ((rows y).mp there').1 same
  refine ⟨unique, ?_⟩
  rw [@view_update w _ row.name inv.unique unique]
  · rw [@view_none _ row.name]
    · exact inv.owned.remove (view_of_mem inv.unique mem) bare
    intro x there same
    obtain ⟨old, other⟩ := (rows x).mp there
    exact other (by rw [inv.unique x old row mem same])
  · intro x other
    refine (rows x).trans ⟨And.left, fun there => ⟨there, fun same => other ?_⟩⟩
    rw [w.rows.eq_of_key there mem same]
  · exact fun _ _ _ => rfl

theorem footprint_resolve (base : String) (entry : CatalogEntry) (version : Option (List VersionComponent)) :
    footprintOf base (resolveComponents entry version) = footprintOf base (resolveComponents entry none) := by
  unfold resolveComponents
  cases entry.components.getD [] with
  | nil => cases resolveIngressPorts entry <;> rfl
  | cons c cs =>
    have same (kind : DeployComponentInput → Bool)
        (plain : kind ∘ resolveComponent version = kind ∘ resolveComponent none) :
        namesFor kind base ((c :: cs).map (resolveComponent version)) =
          namesFor kind base ((c :: cs).map (resolveComponent none)) := by
      simp only [namesFor, filter_map, plain, map_map, length_map]
      rfl
    simp only [footprintOf, same runs rfl, same isCron rfl, same servesPorts rfl]

theorem policyPorts_stay (inv : Inv w) (mem : row ∈ w.rows) (bare : hasPolicy w row = false) : w.ports row.id = [] := by
  have firewall := inv.owned.firewall row.name _ (view_of_mem inv.unique mem)
  by_cases none : w.ports row.id = []
  · exact none
  · simp [World.viewOf, none] at firewall
    simp [hasPolicy, firewall] at bare

/- what the deployer is given for a row: its name, its components in some version, and its firewall -/
structure For (row : DeploymentRow) (entry : CatalogEntry) (input : DeployCatalogEntryInput) : Prop where
  name : input.deploymentName = row.name
  components : ∃ version, input.components = resolveComponents entry version
  ports : policyPortsOf input = portsOf entry

theorem For.footprint {entry : CatalogEntry} (its : For row entry input) (known : w.entry row = some entry) :
    footprintOf input.deploymentName input.components = w.footprint row := by
  obtain ⟨version, components⟩ := its.components
  rw [its.name, components, footprint_resolve]
  simp [World.footprint, componentsOf, known, Option.map_some]

theorem createInput_for (tenant : Tenant) (entry : CatalogEntry) (row : DeploymentRow) (custom : Bool) :
    For row entry (createInput tenant entry row custom) := ⟨rfl, ⟨_, rfl⟩, rfl⟩

theorem updateResourcesInput_for {tenant : Tenant} {entry : CatalogEntry} {changes : UpdateResourcesInput}
    (given : updateResourcesInput tenant entry row changes = some input) : For row entry input := by
  unfold updateResourcesInput at given
  split at given
  · contradiction
  · cases given
    exact ⟨rfl, ⟨_, rfl⟩, rfl⟩

theorem version_for (a : VersionAttempt) (namespace_ : String) : For a.deployment a.entry (a.input namespace_) :=
  ⟨rfl, ⟨_, rfl⟩, rfl⟩

section

variable {localeBefore : String → String → Bool} {w : World} {row : DeploymentRow}

theorem Inv.redeploy {f : DeploymentRow → DeploymentRow} {keeps : ∀ r, (f r).id = r.id} {entry : CatalogEntry}
    {input : DeployCatalogEntryInput} (inv : Inv w) (mem : row ∈ w.rows) (known : w.entry row = some entry)
    (its : For row entry input) (stays : PolicyStays w row) (name : (f row).name = row.name)
    (same : (f row).catalogEntryId = row.catalogEntryId) (up : isDown (f row).status = false) :
    Inv ((w.setRow row.id f keeps).deploy localeBefore row.id input) := by
  have own := view_of_mem inv.unique mem
  refine inv.change mem name same ?_ ?_ ?_
  · intro id other
    simp only [World.setRow]
    split
    · rw [update_of_ne other]
    · rfl
  · intro isdown
    rw [up] at isdown
    contradiction
  rw [← its.name]
  refine @Owned.within_deploy _ _ _ _ _ (w.ports row.id) inv.owned ?_ up (its.footprint known).symm ?_ ?_ ?_
  · intro v known'
    rw [its.name, own] at known'
    cases known'
    rfl
  · rw [its.name]
    exact inv.owned.firewall row.name _ own
  · split
    · rw [update_self]
    · rfl
  · intro none
    exact policyPorts_stay inv mem (stays entry known (its.ports.symm.trans none))

variable {input : UpdateDeploymentInput} {tenant : Tenant} {w' : World} {now : Int}

theorem updateRow_name (same : ∀ name ∈ input.name, name = row.name) (now : Int) :
    (updateRow input now row).name = row.name := by
  unfold updateRow
  split
  · rfl
  cases name : input.name with
  | none => simp [UpdateDeploymentInput.assign, name]
  | some n =>
    simp only [UpdateDeploymentInput.assign, name]
    exact same n name

theorem updateRow_entry (input : UpdateDeploymentInput) (now : Int) (row : DeploymentRow) :
    (updateRow input now row).catalogEntryId = row.catalogEntryId := by
  unfold updateRow
  split <;> rfl

theorem updateRow_status (input : UpdateDeploymentInput) (now : Int) (row : DeploymentRow) :
    (updateRow input now row).status = (input.status.map RequestedStatus.written).getD row.status := by
  unfold updateRow
  split
  · rename_i empty
    simp only [UpdateDeploymentInput.isEmpty, Bool.and_eq_true, Option.isNone_iff_eq_none] at empty
    rw [empty.2]
    rfl
  · rfl

theorem Inv.create {custom : Bool} (inv : Inv w) (taken : w.create localeBefore tenant row custom = some w') :
    Inv w' := by
  unfold World.create at taken
  split at taken
  · contradiction
  rename_i absent
  have fresh : ∀ other ∈ w.rows, other.name ≠ row.name := by
    intro other there same
    exact absent (any_eq_true.mpr ⟨other, there, beq_iff_eq.mpr same⟩)
  obtain ⟨entry, known, taken⟩ := Option.bind_eq_some_iff.mp taken
  obtain ⟨rows, inserted, rfl⟩ := Option.map_eq_some_iff.mp taken
  have its := createInput_for tenant entry row custom
  generalize createInput tenant entry row custom = input at its inserted ⊢
  have up : isDown (createdRow (deployed localeBefore input).2 row).status = false := by
    cases (deployed localeBefore input).2 <;> rfl
  have empty : w.objects.policies (firewallPolicyName row.name) = none := by
    cases there : w.objects.policies (firewallPolicyName row.name) with
    | none => rfl
    | some p =>
      obtain ⟨its, same⟩ := inv.owned.policies _ p there
      rw [← firewallPolicyName_inj same, view_none fresh] at its
      contradiction
  refine inv.enter inserted fresh ?_ ?_ ?_
  · intro id other
    have differs : id ≠ row.id := other
    split
    · exact (update_of_ne differs _ _).trans (update_of_ne differs _ _)
    · exact update_of_ne differs _ _
  · intro isdown
    rw [up] at isdown
    contradiction
  have name : (createdRow (deployed localeBefore input).2 row).name = input.deploymentName := its.name.symm
  rw [name]
  refine @Owned.within_deploy _ _ _ _ _ [] inv.owned ?_ up (its.footprint known).symm ?_ ?_ (fun _ => rfl)
  · intro v known
    rw [its.name, view_none fresh] at known
    contradiction
  · rw [its.name, empty]
    rfl
  split
  · exact update_self _ _ _
  · exact update_self _ _ _

theorem Inv.edit (inv : Inv w) (mem : row ∈ w.rows) (same : ∀ name ∈ input.name, name = row.name)
    (cron : input.status = some .stopped → NoCronJobs w row)
    (alone : input.status = some .running → Alone w row) (taken : w.update row input now = some w') : Inv w' := by
  have own := view_of_mem inv.unique mem
  unfold World.update at taken
  split at taken
  · contradiction
  cases taken
  refine inv.change mem (updateRow_name same now) (updateRow_entry input now row) (fun _ _ => rfl) ?_ ?_
  · intro isdown
    rw [updateRow_status] at isdown
    cases status : input.status with
    | none =>
      rw [status] at isdown
      exact inv.owned.quiet row.name _ own isdown
    | some s =>
      rw [status] at isdown
      cases s with
      | running => contradiction
      | stopped => exact cron status
  · rw [updateRow_status]
    cases status : input.status with
    | none => exact inv.owned.within_same own id
    | some s =>
      cases s with
      | stopped => exact inv.owned.within_stop own _
      | running => exact inv.owned.within_start own rfl _ (alone status)

theorem Inv.version {checked : Except ApiError (Option VersionAttempt)} (inv : Inv w) (mem : row ∈ w.rows)
    (stays : PolicyStays w row) (its : ∀ a, checked = .ok (some a) → a.deployment = row ∧ w.entry row = some a.entry)
    (taken : w.version localeBefore tenant now checked = some w') : Inv w' := by
  unfold World.version at taken
  split at taken
  · rename_i a
    obtain ⟨rfl, known⟩ := its a rfl
    cases taken
    have keeps := versionRow_keeps a (deployed localeBefore (a.input tenant.kubernetesNamespace)).2 now a.deployment
    refine inv.redeploy mem known (version_for a _) stays keeps.2.1 keeps.2.2.1 ?_
    rw [keeps.2.2.2]
    split <;> rfl
  · contradiction

theorem Inv.resources {input : UpdateResourcesInput} (inv : Inv w) (mem : row ∈ w.rows)
    (stays : PolicyStays w row) (taken : w.resources localeBefore tenant row input now = some w') : Inv w' := by
  unfold World.resources at taken
  split at taken
  · contradiction
  split at taken
  · rename_i deploy made
    cases taken
    obtain ⟨entry, known, made⟩ := Option.bind_eq_some_iff.mp made
    exact inv.redeploy mem known (updateResourcesInput_for made) stays rfl rfl rfl
  · cases taken
    refine @Inv.change _ _ _ (resourcesRow_id input now) _ _ inv mem rfl rfl (fun _ _ => rfl)
      (fun isdown => by cases isdown) ?_
    exact inv.owned.within_same (view_of_mem inv.unique mem) (fun isdown => by cases isdown)

end

theorem fetchEntry_ok {entry : CatalogEntry} (ok : fetchEntry w.entries row = .ok entry) :
    w.entry row = some entry := by
  unfold fetchEntry at ok
  split at ok
  · rename_i found
    cases ok
    exact found
  · contradiction

theorem upgrade_its {input : UpgradeVersionInput} (ok : upgradeDeploymentVersion w.entries row input = .ok (some a)) :
    a.deployment = row ∧ w.entry row = some a.entry := by
  obtain ⟨_, _, ok⟩ := bind_ok ok
  obtain ⟨entry, fetched, ok⟩ := bind_ok ok
  split at ok
  · contradiction
  split at ok
  · cases ok
  obtain ⟨_, _, ok⟩ := bind_ok ok
  cases ok
  exact ⟨rfl, fetchEntry_ok fetched⟩

theorem rollback_its (ok : rollbackDeploymentVersion w.entries row = .ok (some a)) :
    a.deployment = row ∧ w.entry row = some a.entry := by
  obtain ⟨_, _, ok⟩ := bind_ok ok
  split at ok
  · contradiction
  obtain ⟨entry, fetched, ok⟩ := bind_ok ok
  split at ok
  · contradiction
  · cases ok
    exact ⟨rfl, fetchEntry_ok fetched⟩

theorem Inv.sync {entryId : Nat} {entry : CatalogEntry} (inv : Inv w)
    (names : ∀ row ∈ w.rows.rows, row.catalogEntryId = some entryId →
      footprintOf row.name (resolveComponents entry none) = w.footprint row) :
    Inv { w with entries := update w.entries entryId (some entry) } := by
  have footprint : ∀ row ∈ w.rows, World.footprint { w with entries := update w.entries entryId (some entry) } row =
      w.footprint row := by
    intro row mem
    cases id : row.catalogEntryId with
    | none => simp [World.footprint, World.entry, id]
    | some i =>
      by_cases self : i = entryId
      · rw [← names row mem (by rw [id, self])]
        simp [World.footprint, World.entry, id, self, componentsOf, Option.map_some]
      · simp [World.footprint, World.entry, id, update_of_ne self]
  have view : World.view { w with entries := update w.entries entryId (some entry) } = w.view := by
    funext name
    unfold World.view
    cases found : w.rows.select (fun row => row.name == name) with
    | none => rfl
    | some row =>
      simp [World.viewOf, footprint row (mem_of_select found).1]
  exact ⟨inv.unique, view ▸ inv.owned⟩

section

variable {localeBefore : String → String → Bool} {tenant : Tenant}

theorem inv_start (entries : Nat → Option CatalogEntry) : Inv (World.start entries) :=
  ⟨fun _ mem => absurd mem not_mem_nil, owned_empty⟩

theorem step_inv {w w' : World} {a : Action} (inv : Inv w) (safe : Safe w a)
    (taken : step localeBefore tenant w a = some w') : Inv w' := by
  cases a with
  | create row custom => exact inv.create taken
  | update id input now =>
    obtain ⟨row, found, taken⟩ := Option.bind_eq_some_iff.mp taken
    obtain ⟨mem, its⟩ := mem_of_select found
    obtain ⟨same, cron, alone⟩ := safe row mem (beq_iff_eq.mp its)
    exact inv.edit mem same cron alone taken
  | resources id input now =>
    obtain ⟨row, found, taken⟩ := Option.bind_eq_some_iff.mp taken
    obtain ⟨mem, its⟩ := mem_of_select found
    exact inv.resources mem (safe row mem (beq_iff_eq.mp its)) taken
  | upgrade id input now =>
    obtain ⟨row, found, taken⟩ := Option.bind_eq_some_iff.mp taken
    obtain ⟨mem, its⟩ := mem_of_select found
    exact inv.version mem (safe row mem (beq_iff_eq.mp its)) (fun a => upgrade_its) taken
  | rollback id now =>
    obtain ⟨row, found, taken⟩ := Option.bind_eq_some_iff.mp taken
    obtain ⟨mem, its⟩ := mem_of_select found
    exact inv.version mem (safe row mem (beq_iff_eq.mp its)) (fun a => rollback_its) taken
  | delete id now =>
    obtain ⟨row, found, rfl⟩ := Option.map_eq_some_iff.mp taken
    obtain ⟨mem, its⟩ := mem_of_select found
    cases beq_iff_eq.mp its
    refine inv.change mem rfl rfl (fun _ _ => rfl) (fun _ => safe row mem rfl) ?_
    exact inv.owned.within_stop (view_of_mem inv.unique mem) _
  | restore id now =>
    obtain ⟨row, found, taken⟩ := Option.bind_eq_some_iff.mp taken
    obtain ⟨mem, its⟩ := mem_of_select found
    cases beq_iff_eq.mp its
    split at taken
    · cases taken
      refine inv.change mem rfl rfl (fun _ _ => rfl) (fun isdown => by cases isdown) ?_
      exact inv.owned.within_start (view_of_mem inv.unique mem) rfl _ (safe row mem rfl)
    · contradiction
  | hardDelete id =>
    obtain ⟨row, found, rfl⟩ := Option.map_eq_some_iff.mp taken
    obtain ⟨mem, its⟩ := mem_of_select found
    cases beq_iff_eq.mp its
    exact inv.leave mem (policyPorts_stay inv mem (safe row mem rfl))
  | sync entryId entry =>
    cases taken
    exact inv.sync safe

theorem Inv.tidy {w : World} (inv : Inv w) : Tidy w where
  deployments := by
    intro n d there
    obtain ⟨v, its, mem, _⟩ := inv.owned.deployments n d there
    obtain ⟨row, known, name, rfl⟩ := mem_of_view its
    exact ⟨row, known, name.symm, mem⟩
  cronJobs := by
    intro n j there
    obtain ⟨v, its, mem⟩ := inv.owned.cronJobs n j there
    obtain ⟨row, known, name, rfl⟩ := mem_of_view its
    exact ⟨row, known, name.symm, mem⟩
  services := by
    intro n app there
    obtain ⟨v, its, mem⟩ := inv.owned.services n app there
    obtain ⟨row, known, name, rfl⟩ := mem_of_view its
    exact ⟨row, known, name.symm, mem⟩
  policies := by
    intro n p there
    obtain ⟨known, same⟩ := inv.owned.policies n p there
    obtain ⟨v, its⟩ := Option.isSome_iff_exists.mp known
    obtain ⟨row, mem, name, _⟩ := mem_of_view its
    exact ⟨row, mem, name.symm, name ▸ same⟩
  down := by
    intro row mem isdown
    have own := view_of_mem inv.unique mem
    refine ⟨?_, ?_⟩
    · intro n d there app
      obtain ⟨v, its, _, zero⟩ := inv.owned.deployments n d there
      rw [app, own] at its
      cases its
      exact zero isdown
    intro n j there app
    obtain ⟨v, its, listed⟩ := inv.owned.cronJobs n j there
    rw [app, own] at its
    cases its
    rw [inv.owned.quiet row.name _ own isdown] at listed
    exact absurd listed not_mem_nil
  firewall := by
    intro row mem
    rw [inv.owned.firewall row.name _ (view_of_mem inv.unique mem)]
    split
    · rename_i none
      exact none.symm
    · rfl

/-- After each step of a run whose steps are all safe, the namespace is in line with the rows. -/
theorem tidy_throughout {entries : Nat → Option CatalogEntry} {actions : List Action}
    (safe : Guarded (step localeBefore tenant) Safe (World.start entries) actions) :
    Always (step localeBefore tenant) Tidy (World.start entries) actions := by
  rintro front back w rfl reached
  have kept : ∀ w a w', Inv w → Safe w a → step localeBefore tenant w a = some w' → Inv w' :=
    fun _ _ _ inv ok taken => step_inv inv ok taken
  exact (guarded_invariant kept (inv_start entries) safe.front reached).tidy

end

instance decPolicyStays (w : World) (row : DeploymentRow) : Decidable (PolicyStays w row) :=
  inferInstanceAs (Decidable (∀ entry ∈ w.entry row, portsOf entry = [] → hasPolicy w row = false))

instance decAlone (w : World) (row : DeploymentRow) : Decidable (Alone w row) :=
  inferInstanceAs (Decidable (∀ n ∈ (w.footprint row).deployments, ∀ d ∈ w.objects.deployments n, d.app = row.name))

instance decNoCronJobs (w : World) (row : DeploymentRow) : Decidable (NoCronJobs w row) :=
  inferInstanceAs (Decidable ((w.footprint row).cronJobs = []))

instance decSafe (w : World) : ∀ a, Decidable (Safe w a) := by
  intro _
  unfold Safe
  split <;> infer_instance

def offering (entry : CatalogEntry) (id : Nat) : Option CatalogEntry := if id = 1 then some entry else none

def asking (name : Option String) (status : Option RequestedStatus) : UpdateDeploymentInput :=
  ⟨name, none, none, none, none, status⟩

def throughLife : List Action :=
  [.create blogRow false, .update 1 (asking none (some .stopped)) 1, .update 1 (asking none (some .running)) 2,
    .delete 1 3, .restore 1 4, .hardDelete 1]

theorem life_tidy : Always (step before unpinned) Tidy (World.start (offering wordpress)) throughLife ∧
    (exec (step before unpinned) (World.start (offering wordpress)) (throughLife.take 1)).map
      (fun w => w.objects.deployments "blog") = some (some ⟨"blog", 1⟩) ∧
    (exec (step before unpinned) (World.start (offering wordpress)) throughLife).map
      (fun w => w.objects.deployments "blog") = some none :=
  ⟨tidy_throughout (by decide +kernel), by decide +kernel, by decide +kernel⟩

def dump : ManifestComponent where
  name := "dump"
  type := .cronjob
  image := "backup:1"
  ports := none
  optional := none
  schedule := some "0 3 * * *"
  volumes := none
  command := none
  args := none
  resources := none
  resourceShare := none
  database := none

def backups : CatalogEntry := { wordpress with components := some [dump] }

def turn : CatalogEntry := { wordpress with networking := some ⟨none, some ⟨some [3478], none⟩, none⟩ }

/-- A deployment that is renamed leaves its objects under the old name, the CronJob of one that is stopped
goes on, and one that is deleted for good leaves its policy behind. -/
theorem objects_left : (∃ w, exec (step before unpinned) (World.start (offering wordpress))
        [.create blogRow false, .update 1 (asking (some "news") none) 1] = some w ∧
      w.objects.deployments "blog" = some ⟨"blog", 1⟩ ∧ w.rows.rows.map DeploymentRow.name = ["news"] ∧ ¬ Tidy w) ∧
    (∃ w, exec (step before unpinned) (World.start (offering backups))
        [.create blogRow false, .update 1 (asking none (some .stopped)) 1] = some w ∧
      w.objects.cronJobs "blog" = some ⟨"blog", false⟩ ∧ w.rows.rows.map DeploymentRow.status = [.stopped] ∧
      ¬ Tidy w) ∧
    ∃ w, exec (step before unpinned) (World.start (offering turn)) [.create blogRow false, .hardDelete 1] = some w ∧
      w.objects.policies "firewall-allow-blog" = some ⟨"blog", [⟨.tcp, 3478, none⟩]⟩ ∧ w.rows.rows.map DeploymentRow.name = [] ∧
      ¬ Tidy w := by
  refine ⟨?_, ?_, ?_⟩
  · have run : (exec (step before unpinned) (World.start (offering wordpress))
        [.create blogRow false, .update 1 (asking (some "news") none) 1]).map
          (fun w => (w.objects.deployments "blog", w.rows.rows.map DeploymentRow.name)) =
        some (some ⟨"blog", 1⟩, ["news"]) := by decide +kernel
    obtain ⟨w, reached, found⟩ := Option.map_eq_some_iff.mp run
    obtain ⟨there, names⟩ := Prod.mk.inj found
    refine ⟨w, reached, there, names, ?_⟩
    intro tidy
    obtain ⟨row, mem, its, _⟩ := tidy.deployments _ _ there
    have listed : row.name ∈ w.rows.rows.map DeploymentRow.name := mem_map_of_mem mem
    rw [names, ← its] at listed
    simp at listed
  · have run : (exec (step before unpinned) (World.start (offering backups))
        [.create blogRow false, .update 1 (asking none (some .stopped)) 1]).map
          (fun w => (w.objects.cronJobs "blog", w.rows.rows.map DeploymentRow.status)) =
        some (some ⟨"blog", false⟩, [.stopped]) := by decide +kernel
    obtain ⟨w, reached, found⟩ := Option.map_eq_some_iff.mp run
    obtain ⟨there, statuses⟩ := Prod.mk.inj found
    refine ⟨w, reached, there, statuses, ?_⟩
    intro tidy
    obtain ⟨row, mem, its, _⟩ := tidy.cronJobs _ _ there
    have listed : row.status ∈ w.rows.rows.map DeploymentRow.status := mem_map_of_mem mem
    rw [statuses, mem_singleton] at listed
    have suspended := (tidy.down row mem (by rw [listed]; rfl)).2 _ _ there its
    contradiction
  · have run : (exec (step before unpinned) (World.start (offering turn)) [.create blogRow false, .hardDelete 1]).map
          (fun w => (w.objects.policies "firewall-allow-blog", w.rows.rows.map DeploymentRow.name)) =
        some (some ⟨"blog", [⟨.tcp, 3478, none⟩]⟩, []) := by decide +kernel
    obtain ⟨w, reached, found⟩ := Option.map_eq_some_iff.mp run
    obtain ⟨there, names⟩ := Prod.mk.inj found
    refine ⟨w, reached, there, names, ?_⟩
    intro tidy
    obtain ⟨row, mem, _⟩ := tidy.policies _ _ there
    have listed : row.name ∈ w.rows.rows.map DeploymentRow.name := mem_map_of_mem mem
    rw [names] at listed
    contradiction

end HostingPlatform.Deployments.Lifecycle
