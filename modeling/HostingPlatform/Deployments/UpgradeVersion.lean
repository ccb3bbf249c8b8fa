import HostingPlatform.Deployments.Rows
import HostingPlatform.Interleaving

/-! Upgrading a deployment to another version of its catalog entry, and rolling it back: what is
checked, what the deployer is given, and the UPDATEs of the row. -/
namespace HostingPlatform.Deployments

open Table List Js

inductive VersionOperation where
  | upgrade | rollback
  deriving DecidableEq

/- an attempt that has passed the checks, with the row as it was read -/
structure VersionAttempt where
  operation : VersionOperation
  deployment : DeploymentRow
  entry : CatalogEntry
  target : String

structure UpgradeVersionInput where
  targetVersion : String
  force : Bool

def catalogSourced (deployment : DeploymentRow) : Except ApiError Unit :=
  if deployment.source = .catalog then .ok ()
  else .error ⟨"NOT_SUPPORTED_FOR_CUSTOM", "Catalog upgrade flow is not applicable to custom deployments — use the /upgrade-tag endpoint instead.", 400⟩

def fetchEntry (entries : Nat → Option CatalogEntry) (deployment : DeploymentRow) : Except ApiError CatalogEntry :=
  match deployment.catalogEntryId.bind entries with
  | some entry => .ok entry
  | none => .error ⟨"CATALOG_ENTRY_GONE", "Catalog entry no longer exists", 410⟩

def fetchVersion (entry : CatalogEntry) (version : String) : Option CatalogEntryVersion :=
  entry.versions.find? (·.version == version)

def versionUnknown (entry : CatalogEntry) (version : String) : ApiError :=
  ⟨"CATALOG_VERSION_UNKNOWN", s!"Version {version} not declared in catalog for {entry.code}", 404⟩

def pathNotSupported (code from_ version : String) (upgradeFrom : List String) : ApiError :=
  let allowed := if upgradeFrom.isEmpty then "(none — fresh install only)" else ", ".intercalate upgradeFrom
  ⟨"UPGRADE_PATH_NOT_SUPPORTED", s!"{code} requires one-major-at-a-time upgrades. {from_} → {version} is not in the allowed upgrade path. Allowed source versions for {version}: {allowed}.", 409⟩

def pathUnconfirmed (from_ version : String) : ApiError :=
  ⟨"UPGRADE_PATH_UNCONFIRMED", s!"Upgrade {from_} → {version} is not in the recommended path. Pass force=true to proceed.", 409⟩

/- the first deploy skips the check, as an unlocked entry does -/
def checkPath (entry : CatalogEntry) (deployment : DeploymentRow) (input : UpgradeVersionInput)
    (upgradeFrom : List String) : Except ApiError Unit :=
  let lockMode := entry.versionLockMode.getD .advisory
  match lockMode, given deployment.installedVersion with
  | .unlocked, _ | _, none => .ok ()
  | .strict, some installed =>
    if upgradeFrom.contains installed then .ok ()
    else .error (pathNotSupported entry.code installed input.targetVersion upgradeFrom)
  | .advisory, some installed =>
    if upgradeFrom.contains installed || input.force then .ok ()
    else .error (pathUnconfirmed installed input.targetVersion)

/- nothing where the version is installed already -/
def upgradeDeploymentVersion (entries : Nat → Option CatalogEntry) (deployment : DeploymentRow)
    (input : UpgradeVersionInput) : Except ApiError (Option VersionAttempt) := do
  catalogSourced deployment
  let entry ← fetchEntry entries deployment
  match fetchVersion entry input.targetVersion with
  | none => .error (versionUnknown entry input.targetVersion)
  | some target =>
    if deployment.installedVersion = some input.targetVersion then .ok none
    else
      checkPath entry deployment input (target.upgradeFrom.getD [])
      return some ⟨.upgrade, deployment, entry, input.targetVersion⟩

def rollbackUnavailable : ApiError :=
  ⟨"ROLLBACK_NOT_AVAILABLE", "No previous version to roll back to. Rollback is only available for the most recent upgrade.", 409⟩

def rollbackRemoved (version : String) : ApiError :=
  ⟨"ROLLBACK_VERSION_REMOVED", s!"Version {version} is no longer in the catalog. Cannot roll back.", 410⟩

def rollbackDeploymentVersion (entries : Nat → Option CatalogEntry) (deployment : DeploymentRow) :
    Except ApiError (Option VersionAttempt) := do
  catalogSourced deployment
  match given deployment.previousVersion with
  | none => .error rollbackUnavailable
  | some toVersion =>
    let entry ← fetchEntry entries deployment
    match fetchVersion entry toVersion with
    | none => .error (rollbackRemoved toVersion)
    | some _ => return some ⟨.rollback, deployment, entry, toVersion⟩

def VersionAttempt.input (a : VersionAttempt) (namespace_ : String) : DeployCatalogEntryInput :=
  let resolved := resolveVersionAwareDeploymentConfig a.entry (some a.target)
  { deploymentName := a.deployment.name
    storagePath := a.deployment.storagePath.getD ""
    namespace_ := namespace_
    components := resolved.components
    volumes := resolved.volumes
    replicaCount := a.deployment.replicaCount
    cpuRequest := a.deployment.cpuRequest
    memoryRequest := a.deployment.memoryRequest
    configuration := some (a.deployment.configuration.getD .empty)
    fixedEnvVars := some resolved.fixedEnvVars
    configurableEnvKeys := some resolved.configurableEnvKeys
    reuseExistingData := false
    catalogCode := none
    passwordEnvVar := none
    timezone := none
    nodeName := none
    storageTier := none
    firewall := readEntryFirewall a.entry
    hostPorts := readEntryHostPorts a.entry }

/- the condition of the first UPDATE -/
def VersionAttempt.matches_ (a : VersionAttempt) (row : DeploymentRow) : Bool :=
  match a.operation with
  | .upgrade => row.installedVersion == a.deployment.installedVersion
  | .rollback => row.installedVersion == a.deployment.installedVersion && row.previousVersion == some a.target

def VersionAttempt.lock (a : VersionAttempt) (now : Int) (row : DeploymentRow) : DeploymentRow :=
  match a.operation with
  | .upgrade =>
    { row with
      targetVersion := some a.target
      previousVersion := a.deployment.installedVersion
      status := .pending
      updatedAt := now }
  | .rollback =>
    { row with
      targetVersion := some a.target
      status := .pending
      updatedAt := now }

def VersionAttempt.finish (a : VersionAttempt) (now : Int) (row : DeploymentRow) : DeploymentRow :=
  match a.operation with
  | .upgrade =>
    { row with
      installedVersion := some a.target
      updatedAt := now }
  | .rollback =>
    { row with
      installedVersion := some a.target
      previousVersion := none
      updatedAt := now }

def VersionAttempt.revert (a : VersionAttempt) (now : Int) (row : DeploymentRow) : DeploymentRow :=
  match a.operation with
  | .upgrade =>
    { row with
      status := .failed
      targetVersion := a.deployment.installedVersion
      previousVersion := a.deployment.previousVersion
      updatedAt := now }
  | .rollback =>
    { row with
      status := .failed
      targetVersion := a.deployment.installedVersion
      updatedAt := now }

theorem VersionAttempt.matches_installed {a : VersionAttempt} {row : DeploymentRow}
    (locks : a.matches_ row = true) : row.installedVersion = a.deployment.installedVersion := by
  unfold matches_ at locks
  cases op : a.operation with
  | upgrade => simpa [op] using locks
  | rollback =>
    simp only [op, Bool.and_eq_true, beq_iff_eq] at locks
    exact locks.1

end HostingPlatform.Deployments

/-! Upgrades and rollbacks of one deployment that run at the same time, statement by statement. -/
namespace HostingPlatform.Deployments.VersionRuns
open Table

open List Interleaving Transition

inductive Stage where
  | lock | tenant | deploy | finish | revert
  deriving DecidableEq

structure Task where
  attempt : VersionAttempt
  stage : Stage

/- how a statement ends; a deploy that fails may have replaced a pod spec before -/
inductive Result where
  | done | fails | failsPartly
  deriving DecidableEq

/-- Beside the row: the version of the pod spec that was deployed last, the version that was installed
before the last successful upgrade, the attempt that has written the status last, those that have ended
with an error, and all that there have been. -/
structure World where
  row : DeploymentRow
  (deployed beforeUpgrade : Option String)
  statusBy : Option Nat
  (threw started : List Nat)
  attempts : Table (Process Task) Process.id

def World.start (row : DeploymentRow) : World where
  row := row
  deployed := row.installedVersion
  beforeUpgrade := row.previousVersion
  statusBy := none
  threw := []
  started := []
  attempts := Table.empty

inductive Effect where
  | nothing
  | lock
  | deploy
  | finish
  | revert

inductive Ending where
  | returned | thrown

/-- The namespace is looked up between the lock and the block whose errors are caught; an error of the
last UPDATE is caught as one of the deploy is. -/
def statement (row : DeploymentRow) (r : Result) (t : Task) : Effect × Outcome Task Ending :=
  match t.stage with
  | .lock =>
    if r = .done ∧ t.attempt.matches_ row = true then (.lock, .next { t with stage := .tenant })
    else (.nothing, .answer .thrown)
  | .tenant =>
    if r = .done then (.nothing, .next { t with stage := .deploy }) else (.nothing, .answer .thrown)
  | .deploy =>
    match r with
    | .done => (.deploy, .next { t with stage := .finish })
    | .fails => (.nothing, .next { t with stage := .revert })
    | .failsPartly => (.deploy, .next { t with stage := .revert })
  | .finish =>
    if r = .done then (.finish, .answer .returned) else (.nothing, .next { t with stage := .revert })
  | .revert => (if r = .done then .revert else .nothing, .answer .thrown)

def World.apply (w : World) (id : Nat) (a : VersionAttempt) (now : Int) : Effect → World
  | .nothing => w
  | .lock =>
    { w with
      row := a.lock now w.row
      statusBy := some id }
  | .deploy => { w with deployed := some a.target }
  | .finish =>
    { w with
      row := a.finish now w.row
      beforeUpgrade := if a.operation = .upgrade then w.row.installedVersion else w.beforeUpgrade }
  | .revert =>
    { w with
      row := a.revert now w.row
      statusBy := some id }

def World.resume (w : World) (id : Nat) (o : Outcome Task Ending) : World :=
  { w with
    attempts := Interleaving.resume w.attempts id o
    threw :=
      match o with
      | .answer .thrown => id :: w.threw
      | _ => w.threw }

inductive Action where
  | upgrade (id : Nat) (entries : Nat → Option CatalogEntry) (input : UpgradeVersionInput)
  | rollback (id : Nat) (entries : Nat → Option CatalogEntry)
  | advance (id : Nat) (r : Result) (now : Int)

def World.arrive (w : World) (id : Nat) (checked : Except ApiError (Option VersionAttempt)) : Option World :=
  if id ∈ w.started then none
  else
    match checked with
    | .ok (some a) => (w.attempts.insert ⟨id, ⟨a, .lock⟩⟩).map (fun attempts =>
        { w with
          attempts
          started := id :: w.started })
    | _ => none

def step (w : World) : Action → Option World
  | .upgrade id entries input => w.arrive id (upgradeDeploymentVersion entries w.row input)
  | .rollback id entries => w.arrive id (rollbackDeploymentVersion entries w.row)
  | .advance id r now => (w.attempts.select (fun p => p.id == id)).map (fun p =>
      let result := statement w.row r p.task
      (w.apply p.id p.task.attempt now result.1).resume p.id result.2)

/- between its first UPDATE and its last one -/
def inside (t : Task) : Bool := t.stage != .lock

structure Kept (w : World) : Prop where
  alone : ∀ p ∈ w.attempts, ∀ q ∈ w.attempts, inside p.task = true → inside q.task = true → p.id = q.id
  installed : w.attempts.rows = [] → w.row.installedVersion = w.deployed
  previous : w.attempts.rows = [] → w.row.previousVersion = none ∨ w.row.previousVersion = w.beforeUpgrade
  settled : w.attempts.rows = [] → w.row.status = .pending → ∀ id ∈ w.statusBy, id ∉ w.threw

/-- An attempt takes the lock while no other is inside, with the previous version that it has read; from
there on nothing fails but a deploy that has replaced nothing. -/
def TaskSafe (w : World) (r : Result) (t : Task) : Prop :=
  match t.stage with
  | .lock => t.attempt.matches_ w.row = true →
    (∀ q ∈ w.attempts.rows, inside q.task = false) ∧ t.attempt.deployment.previousVersion = w.row.previousVersion
  | .deploy => r ≠ .failsPartly
  | .tenant | .finish | .revert => r = .done

instance decTaskSafe (w : World) (r : Result) : ∀ t, Decidable (TaskSafe w r t) := by
  intro _
  unfold TaskSafe
  split <;> infer_instance

def Safe (w : World) : Action → Prop
  | .advance id r _ => ∀ p ∈ w.attempts.rows, p.id = id → TaskSafe w r p.task
  | _ => True

instance decSafe (w : World) : ∀ action, Decidable (Safe w action) := by
  intro _
  unfold Safe
  split <;> infer_instance

structure Rest (w : World) : Prop where
  installed : w.row.installedVersion = w.deployed
  previous : w.row.previousVersion = none ∨ w.row.previousVersion = w.beforeUpgrade
  settled : w.row.status = .pending → ∀ id ∈ w.statusBy, id ∉ w.threw

/- the version that was installed before, while an upgrade is inside or not -/
def keptPrevious (w : World) (a : VersionAttempt) : Option String :=
  match a.operation with
  | .upgrade => a.deployment.previousVersion
  | .rollback => w.row.previousVersion

structure Holds (w : World) (id : Nat) (t : Task) : Prop where
  status : w.statusBy = some id
  installed : w.row.installedVersion = t.attempt.deployment.installedVersion
  deployed : w.deployed = if t.stage = .finish then some t.attempt.target else w.row.installedVersion
  previous : keptPrevious w t.attempt = none ∨ keptPrevious w t.attempt = w.beforeUpgrade
  locked : t.attempt.operation = .upgrade → w.row.previousVersion = w.row.installedVersion

structure Inv (w : World) : Prop where
  known : ∀ p ∈ w.attempts, p.id ∈ w.started
  gone : ∀ id ∈ w.threw, id ∈ w.started ∧ ∀ p ∈ w.attempts, p.id ≠ id
  status : ∀ id ∈ w.statusBy, id ∈ w.started ∧ ∀ p ∈ w.attempts, p.id = id → inside p.task = true
  alone : ∀ p ∈ w.attempts, ∀ q ∈ w.attempts, inside p.task = true → inside q.task = true → p.id = q.id
  rest : (∀ p ∈ w.attempts, inside p.task = false) → Rest w
  held : ∀ p ∈ w.attempts, inside p.task = true → Holds w p.id p.task

variable {w w' : World} {p : Process Task} {now : Int}

theorem Inv.kept (inv : Inv w) : Kept w := by
  have rest : w.attempts.rows = [] → Rest w := by
    intro none
    refine inv.rest ?_
    intro p mem
    rw [mem_rows, none] at mem
    exact absurd mem not_mem_nil
  exact ⟨inv.alone, fun none => (rest none).installed, fun none => (rest none).previous,
    fun none => (rest none).settled⟩

theorem inv_start (row : DeploymentRow) : Inv (World.start row) where
  known := fun p mem => absurd mem (not_mem_empty p)
  gone := fun _ mem => absurd mem not_mem_nil
  status := fun _ mem => by cases mem
  alone := fun p mem => absurd mem (not_mem_empty p)
  rest := fun _ => ⟨rfl, .inr rfl, fun _ _ mem => by cases mem⟩
  held := fun p mem => absurd mem (not_mem_empty p)

theorem inv_arrive {id : Nat} {checked : Except ApiError (Option VersionAttempt)} (inv : Inv w)
    (taken : w.arrive id checked = some w') : Inv w' := by
  unfold World.arrive at taken
  split at taken
  · contradiction
  rename_i fresh
  split at taken
  · rename_i a
    obtain ⟨attempts, inserted, rfl⟩ := Option.map_eq_some_iff.mp taken
    have cases : ∀ q ∈ attempts, q = ⟨id, ⟨a, .lock⟩⟩ ∨ q ∈ w.attempts := fun q mem =>
      (mem_insert inserted).mp mem
    have old : ∀ q ∈ w.attempts, q ∈ attempts := fun q mem => (mem_insert inserted).mpr (.inr mem)
    refine ⟨?_, ?_, ?_, ?_, ?_, ?_⟩
    · intro p mem
      rcases cases p mem with rfl | mem
      · exact mem_cons_self
      · exact mem_cons_of_mem _ (inv.known p mem)
    · intro other mem
      refine ⟨mem_cons_of_mem _ (inv.gone other mem).1, ?_⟩
      intro p there same
      rcases cases p there with rfl | there
      · have same : id = other := same
        rw [same] at fresh
        exact fresh (inv.gone other mem).1
      · exact (inv.gone other mem).2 p there same
    · intro other mem
      refine ⟨mem_cons_of_mem _ (inv.status other mem).1, ?_⟩
      intro p there same
      rcases cases p there with rfl | there
      · have same : id = other := same
        rw [same] at fresh
        exact absurd (inv.status other mem).1 fresh
      · exact (inv.status other mem).2 p there same
    · intro p there q there' insideP insideQ
      rcases cases p there with rfl | there
      · cases insideP
      rcases cases q there' with rfl | there'
      · cases insideQ
      · exact inv.alone p there q there' insideP insideQ
    · intro outside
      obtain ⟨installed, previous, settled⟩ := inv.rest (fun p mem => outside p (old p mem))
      exact ⟨installed, previous, settled⟩
    intro p there insideP
    rcases cases p there with rfl | there
    · cases insideP
    · obtain ⟨status, installed, deployed, previous, locked⟩ := inv.held p there insideP
      exact ⟨status, installed, deployed, previous, locked⟩
  · contradiction

theorem Inv.others (inv : Inv w) {q : Process Task} (mem : p ∈ w.attempts) (insideP : inside p.task = true)
    (memq : q ∈ w.attempts) (differ : q.id ≠ p.id) : inside q.task = false := by
  by_contra insideQ
  exact differ (inv.alone q memq p mem (by simpa using insideQ) insideP)

theorem Inv.goes_on {t : Task} (inv : Inv w) (mem : p ∈ w.attempts)
    (others : ∀ q ∈ w.attempts, q.id ≠ p.id → inside q.task = false) (insideT : inside t = true)
    (attempts : w'.attempts = Interleaving.resume w.attempts p.id (.next t : Outcome Task Ending))
    (started : w'.started = w.started) (threw : w'.threw = w.threw) (status : w'.statusBy = some p.id)
    (holds : Holds w' p.id t) : Inv w' := by
  have cases : ∀ q ∈ w'.attempts, (q ∈ w.attempts ∧ inside q.task = false ∧ q.id ≠ p.id) ∨ q = ⟨p.id, t⟩ := by
    intro q memq
    rw [attempts] at memq
    rcases mem_resume_next memq with ⟨old, differ⟩ | this
    · exact .inl ⟨old, others q old differ, differ⟩
    · exact .inr this
  refine ⟨?_, ?_, ?_, ?_, ?_, ?_⟩
  · intro q memq
    rw [started]
    rcases cases q memq with ⟨old, _⟩ | rfl
    · exact inv.known q old
    · exact inv.known p mem
  · intro id memId
    rw [threw] at memId
    rw [started]
    refine ⟨(inv.gone id memId).1, ?_⟩
    intro q memq
    rcases cases q memq with ⟨old, _⟩ | rfl
    · exact (inv.gone id memId).2 q old
    · exact (inv.gone id memId).2 p mem
  · intro id memId
    rw [status] at memId
    cases memId
    rw [started]
    refine ⟨inv.known p mem, ?_⟩
    intro q memq same
    rcases cases q memq with ⟨_, _, differ⟩ | rfl
    · exact absurd same differ
    · exact insideT
  · intro q memq r memr insideQ insideR
    rcases cases q memq with ⟨_, outside, _⟩ | rfl
    · rw [outside] at insideQ
      contradiction
    rcases cases r memr with ⟨_, outside, _⟩ | rfl
    · rw [outside] at insideR
      contradiction
    · rfl
  · intro outside
    have self : (⟨p.id, t⟩ : Process Task) ∈ w'.attempts := by
      rw [attempts]
      exact mem_resume_self mem
    rw [outside _ self] at insideT
    contradiction
  · intro q memq insideQ
    rcases cases q memq with ⟨_, outside, _⟩ | rfl
    · rw [outside] at insideQ
      contradiction
    · exact holds

theorem Inv.leaves (inv : Inv w) (mem : p ∈ w.attempts) (insideP : inside p.task = true)
    (attempts : w'.attempts = w.attempts.delete (fun q => q.id == p.id)) (started : w'.started = w.started)
    (threw : ∀ id ∈ w'.threw, id = p.id ∨ id ∈ w.threw) (status : w'.statusBy = some p.id) (rest : Rest w') :
    Inv w' := by
  have cases : ∀ q ∈ w'.attempts, q ∈ w.attempts ∧ inside q.task = false ∧ q.id ≠ p.id := by
    intro q memq
    rw [attempts] at memq
    obtain ⟨old, differ⟩ := mem_delete.mp memq
    have differ : q.id ≠ p.id := by simpa using differ
    exact ⟨old, inv.others mem insideP old differ, differ⟩
  refine ⟨?_, ?_, ?_, ?_, fun _ => rest, ?_⟩
  · intro q memq
    rw [started]
    exact inv.known q (cases q memq).1
  · intro id memId
    rw [started]
    rcases threw id memId with rfl | old
    · exact ⟨inv.known p mem, fun q memq => (cases q memq).2.2⟩
    · exact ⟨(inv.gone id old).1, fun q memq => (inv.gone id old).2 q (cases q memq).1⟩
  · intro id memId
    rw [status] at memId
    cases memId
    rw [started]
    exact ⟨inv.known p mem, fun q memq same => absurd same (cases q memq).2.2⟩
  · intro q memq r _ insideQ
    rw [(cases q memq).2.1] at insideQ
    contradiction
  · intro q memq insideQ
    rw [(cases q memq).2.1] at insideQ
    contradiction

theorem Inv.refused (inv : Inv w) (mem : p ∈ w.attempts) (outside : inside p.task = false) :
    Inv (w.resume p.id (.answer .thrown)) := by
  have cases : ∀ q ∈ (w.resume p.id (.answer .thrown)).attempts, q ∈ w.attempts ∧ q.id ≠ p.id :=
    fun q memq => @mem_resume_answer Task Ending q w.attempts p.id .thrown memq
  have status : ∀ id ∈ w.statusBy, id ≠ p.id := by
    rintro id memId rfl
    rw [(inv.status p.id memId).2 p mem rfl] at outside
    contradiction
  refine ⟨?_, ?_, ?_, ?_, ?_, ?_⟩
  · exact fun q memq => inv.known q (cases q memq).1
  · intro id memId
    rcases mem_cons.mp memId with rfl | old
    · exact ⟨inv.known p mem, fun q memq => (cases q memq).2⟩
    · exact ⟨(inv.gone id old).1, fun q memq => (inv.gone id old).2 q (cases q memq).1⟩
  · exact fun id memId => ⟨(inv.status id memId).1, fun q memq => (inv.status id memId).2 q (cases q memq).1⟩
  · exact fun q memq r memr => inv.alone q (cases q memq).1 r (cases r memr).1
  · intro none
    obtain ⟨installed, previous, settled⟩ := inv.rest (fun q memq => by
      by_cases same : q.id = p.id
      · rw [w.attempts.eq_of_key memq mem same]
        exact outside
      · exact none q (mem_resume_other memq same))
    refine ⟨installed, previous, ?_⟩
    intro pending id memId memThrew
    rcases mem_cons.mp memThrew with rfl | old
    · exact status _ memId rfl
    · exact settled pending id memId old
  · intro q memq insideQ
    obtain ⟨own, installed, deployed, previous, locked⟩ := inv.held q (cases q memq).1 insideQ
    exact ⟨own, installed, deployed, previous, locked⟩

theorem lock_installed (a : VersionAttempt) (now : Int) (row : DeploymentRow) :
    (a.lock now row).installedVersion = row.installedVersion := by
  unfold VersionAttempt.lock
  cases a.operation <;> rfl

theorem revert_installed (a : VersionAttempt) (now : Int) (row : DeploymentRow) :
    (a.revert now row).installedVersion = row.installedVersion := by
  unfold VersionAttempt.revert
  cases a.operation <;> rfl

theorem revert_status (a : VersionAttempt) (now : Int) (row : DeploymentRow) : (a.revert now row).status = .failed := by
  unfold VersionAttempt.revert
  cases a.operation <;> rfl

theorem finish_installed (a : VersionAttempt) (now : Int) (row : DeploymentRow) :
    (a.finish now row).installedVersion = some a.target := by
  unfold VersionAttempt.finish
  cases a.operation <;> rfl

theorem Inv.locks (inv : Inv w) (mem : p ∈ w.attempts) (outside : ∀ q ∈ w.attempts, inside q.task = false)
    (same : p.task.attempt.deployment.previousVersion = w.row.previousVersion)
    (matching : p.task.attempt.matches_ w.row = true) :
    Inv ((w.apply p.id p.task.attempt now .lock).resume p.id (.next { p.task with stage := .tenant })) := by
  obtain ⟨installed, previous, _⟩ := inv.rest outside
  refine inv.goes_on mem (fun q memq _ => outside q memq) rfl rfl rfl rfl rfl ⟨rfl, ?_, ?_, ?_, ?_⟩
  · exact (lock_installed _ _ _).trans (VersionAttempt.matches_installed matching)
  · exact installed.symm.trans (lock_installed _ _ _).symm
  · simp only [keptPrevious, World.apply, VersionAttempt.lock]
    cases operation : p.task.attempt.operation with
    | upgrade =>
      rw [same]
      exact previous
    | rollback => exact previous
  · intro upgrades
    have upgrades : p.task.attempt.operation = .upgrade := upgrades
    simp only [World.apply, VersionAttempt.lock, upgrades]
    exact (VersionAttempt.matches_installed matching).symm

theorem Inv.finishes (inv : Inv w) (mem : p ∈ w.attempts) (stage : p.task.stage = .finish) :
    Inv ((w.apply p.id p.task.attempt now .finish).resume p.id (.answer .returned)) := by
  have insideP : inside p.task = true := by simp [inside, stage]
  obtain ⟨status, installed, deployed, previous, locked⟩ := inv.held p mem insideP
  rw [if_pos stage] at deployed
  refine inv.leaves mem insideP rfl rfl (fun _ old => .inr old) status ⟨?_, ?_, ?_⟩
  · exact (finish_installed _ _ _).trans deployed.symm
  · simp only [World.resume, World.apply, VersionAttempt.finish]
    cases operation : p.task.attempt.operation with
    | upgrade => exact .inr (by simpa using locked operation)
    | rollback => exact .inl rfl
  · intro _ id memId thrown
    have own := status.symm.trans memId
    cases own
    exact (inv.gone p.id thrown).2 p mem rfl

theorem Inv.reverts (inv : Inv w) (mem : p ∈ w.attempts) (stage : p.task.stage = .revert) :
    Inv ((w.apply p.id p.task.attempt now .revert).resume p.id (.answer .thrown)) := by
  have insideP : inside p.task = true := by simp [inside, stage]
  obtain ⟨_, installed, deployed, previous, _⟩ := inv.held p mem insideP
  rw [if_neg (by simp [stage])] at deployed
  refine inv.leaves mem insideP rfl rfl (fun id memId => mem_cons.mp memId) rfl ⟨?_, ?_, ?_⟩
  · exact (revert_installed _ _ _).trans deployed.symm
  · simp only [World.resume, World.apply, VersionAttempt.revert]
    cases operation : p.task.attempt.operation with
    | upgrade | rollback => simpa [keptPrevious, operation] using previous
  · intro pending
    have failed := (revert_status p.task.attempt now w.row).symm.trans pending
    contradiction

theorem Inv.advance {r : Result} (inv : Inv w) (mem : p ∈ w.attempts) (safe : TaskSafe w r p.task) :
    Inv ((w.apply p.id p.task.attempt now (statement w.row r p.task).1).resume p.id
      (statement w.row r p.task).2) := by
  unfold statement
  cases stage : p.task.stage with
  | lock =>
    simp only [TaskSafe, stage] at safe
    by_cases locks : r = .done ∧ p.task.attempt.matches_ w.row = true
    · simp only [if_pos locks]
      exact inv.locks mem (safe locks.2).1 (safe locks.2).2 locks.2
    · simp only [if_neg locks]
      exact inv.refused mem (by simp [inside, stage])
  | tenant =>
    simp only [TaskSafe, stage] at safe
    have insideP : inside p.task = true := by simp [inside, stage]
    obtain ⟨status, installed, deployed, previous, locked⟩ := inv.held p mem insideP
    simp only [if_pos safe]
    rw [if_neg (by simp [stage])] at deployed
    exact inv.goes_on mem (fun q memq differ => inv.others mem insideP memq differ) rfl rfl rfl rfl status
      ⟨status, installed, deployed, previous, locked⟩
  | deploy =>
    simp only [TaskSafe, stage] at safe
    have insideP : inside p.task = true := by simp [inside, stage]
    obtain ⟨status, installed, deployed, previous, locked⟩ := inv.held p mem insideP
    rw [if_neg (by simp [stage])] at deployed
    cases r with
    | done =>
      exact inv.goes_on mem (fun q memq differ => inv.others mem insideP memq differ) rfl rfl rfl rfl status
        ⟨status, installed, rfl, previous, locked⟩
    | fails =>
      exact inv.goes_on mem (fun q memq differ => inv.others mem insideP memq differ) rfl rfl rfl rfl status
        ⟨status, installed, deployed, previous, locked⟩
    | failsPartly => exact absurd rfl safe
  | finish =>
    simp only [TaskSafe, stage] at safe
    simp only [if_pos safe]
    exact inv.finishes mem stage
  | revert =>
    simp only [TaskSafe, stage] at safe
    simp only [if_pos safe]
    exact inv.reverts mem stage

theorem Inv.step {action : Action} (inv : Inv w) (safe : Safe w action)
    (taken : VersionRuns.step w action = some w') : Inv w' := by
  cases action with
  | upgrade id entries input | rollback id entries => exact inv_arrive inv taken
  | advance id r now =>
    obtain ⟨p, selected, rfl⟩ := Option.map_eq_some_iff.mp taken
    obtain ⟨mem, same⟩ := mem_of_select selected
    exact inv.advance mem (safe p mem (eq_of_beq same))

/-- In a run where every attempt takes the lock while no other is inside, with the previous version that
it has read, and where nothing fails after that but deploys that have replaced nothing, one attempt at
most is inside, and what the row says of the versions is so whenever none is left. -/
theorem versions_kept {row : DeploymentRow} {w : World} {actions : List Action}
    (guarded : Guarded VersionRuns.step Safe (World.start row) actions)
    (run : exec VersionRuns.step (World.start row) actions = some w) : Kept w :=
  (guarded_invariant (fun _ _ _ inv safe taken => Inv.step inv safe taken) (inv_start row) guarded run).kept

def versioned : CatalogEntry :=
  { wordpress with
    versionLockMode := some .unlocked
    versions := [⟨"28", none, none, none, none⟩, ⟨"29", none, none, none, none⟩, ⟨"30", none, none, none, none⟩] }

def versionedRow : DeploymentRow := { blogRow with installedVersion := some "28" }

def toVersion (id : Nat) (version : String) : Action := .upgrade id (fun _ => some versioned) ⟨version, false⟩

def upgradeRun : List Action :=
  [toVersion 1 "29", .advance 1 .done 1, .advance 1 .done 1, .advance 1 .done 1, .advance 1 .done 2]

/- a second upgrade takes the lock as well -/
def overlappingRun : List Action := [toVersion 1 "29", toVersion 2 "30", .advance 1 .done 1, .advance 2 .done 1]

def abandonedRun : List Action := [toVersion 1 "29", .advance 1 .done 1, .advance 1 .fails 1]

theorem upgrade_kept : ∃ w, exec VersionRuns.step (World.start versionedRow) upgradeRun = some w ∧
    w.row.installedVersion = some "29" ∧ Kept w := by
  have installed : (exec VersionRuns.step (World.start versionedRow) upgradeRun).map (·.row.installedVersion) =
      some (some "29") := by decide +kernel
  obtain ⟨w, run, version⟩ := Option.map_eq_some_iff.mp installed
  exact ⟨w, run, version, versions_kept (by decide +kernel) run⟩

/-- Two upgrades that have read the same version are both between their first and their last UPDATE; and
an upgrade that ends because the namespace is missing leaves the row pending. -/
theorem upgrades_overlap : (∃ w, exec VersionRuns.step (World.start versionedRow) overlappingRun = some w ∧
      ∃ p ∈ w.attempts, ∃ q ∈ w.attempts, inside p.task = true ∧ inside q.task = true ∧ p.id ≠ q.id) ∧
    ∃ w, exec VersionRuns.step (World.start versionedRow) abandonedRun = some w ∧ w.attempts.rows = [] ∧
      w.row.status = .pending ∧ w.statusBy = some 1 ∧ 1 ∈ w.threw := by
  have both : (exec VersionRuns.step (World.start versionedRow) overlappingRun).map
      (fun w => w.attempts.rows.map (fun p => (p.id, inside p.task))) = some [(2, true), (1, true)] := by
    decide +kernel
  have left : (exec VersionRuns.step (World.start versionedRow) abandonedRun).map
      (fun w => (w.attempts.rows.length, w.row.status, w.statusBy, w.threw)) =
        some (0, .pending, some 1, [1]) := by decide +kernel
  constructor
  · obtain ⟨w, run, all⟩ := Option.map_eq_some_iff.mp both
    refine ⟨w, run, ?_⟩
    obtain ⟨p, memP, first⟩ := mem_map.mp (all ▸ mem_cons_self : (2, true) ∈ _)
    obtain ⟨q, memQ, second⟩ := mem_map.mp (all ▸ mem_cons_of_mem _ mem_cons_self : (1, true) ∈ _)
    obtain ⟨two, insideP⟩ := Prod.mk.inj first
    obtain ⟨one, insideQ⟩ := Prod.mk.inj second
    exact ⟨p, memP, q, memQ, insideP, insideQ, by omega⟩
  · obtain ⟨w, run, all⟩ := Option.map_eq_some_iff.mp left
    simp only [Prod.mk.injEq, length_eq_zero_iff] at all
    exact ⟨w, run, all.1, all.2.1, all.2.2.1, by simp [all.2.2.2]⟩

end HostingPlatform.Deployments.VersionRuns
