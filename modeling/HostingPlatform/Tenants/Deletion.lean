import HostingPlatform.Storage.Orchestrator
import HostingPlatform.TenantLifecycle.Steps

/-! Hard deletes of tenants, one at a time or in bulk. The hooks of the `deleted` transition run
first; the namespace and the tenant's row go after them, whatever became of the transition, and
the row takes the rows of the tenant's snapshots with it. -/
namespace HostingPlatform.Tenants

open Table List TenantLifecycle

structure Tenant where
  id : Nat
  kubernetesNamespace : String
  isSystem : Bool

structure StorageSnapshot where
  (id tenantId : Nat)
  archivePath : String

/- `archives` are what the snapshot store holds -/
structure Platform where
  tenants : Table Tenant Tenant.id
  storageSnapshots : Table StorageSnapshot StorageSnapshot.id
  (namespaces archives : List String)
  references : ∀ snap ∈ storageSnapshots, ∃ tenant ∈ tenants, tenant.id = snap.tenantId

/-- How a delete turns out: what the hooks return, whether the dispatcher throws, whether the
namespace's deletion fails with more than a 404, and the error of the row's, if any. -/
structure Circumstances where
  transitionId : Nat
  result : String → HookResultStatus
  (dispatchThrows deleteNamespaceFails : Bool)
  deleteRowError : Option String

/- `DELETE`; the snapshots' foreign key says `ON DELETE CASCADE` -/
def Platform.deleteTenantRow (p : Platform) (tenantId : Nat) : Platform where
  tenants := p.tenants.delete (fun tenant => tenant.id == tenantId)
  storageSnapshots := p.storageSnapshots.delete (fun snap => snap.tenantId == tenantId)
  namespaces := p.namespaces
  archives := p.archives
  references snap mem := by
    obtain ⟨old, other⟩ := Table.mem_delete.mp mem
    obtain ⟨tenant, there, own⟩ := p.references snap old
    exact ⟨tenant, Table.mem_delete.mpr ⟨there, by rw [own]; exact other⟩, own⟩

def Platform.deleteNamespace (p : Platform) (name : String) : Platform :=
  { p with namespaces := p.namespaces.filter (· != name) }

/- errors of the dispatcher are swallowed; its callers see the id only -/
def dispatchTransition (c : Circumstances) : Option DispatchResult :=
  if c.dispatchThrows then none else some (runTransition c.transitionId deletedHooks c.result)

structure Applied where
  platform : Platform
  transitionId : Option Nat
  error : Option String

def applyDeleted (p : Platform) (tenantId : Nat) (name : String) (c : Circumstances) : Applied :=
  let transitionId := (dispatchTransition c).map DispatchResult.transitionId
  let emptied := if c.deleteNamespaceFails then p else p.deleteNamespace name
  match c.deleteRowError with
  | some error => ⟨emptied, transitionId, some error⟩
  | none => ⟨emptied.deleteTenantRow tenantId, transitionId, none⟩

def Platform.deleteArchive (p : Platform) (archivePath : String) : Platform :=
  { p with archives := p.archives.filter (· != archivePath) }

/- the SELECT of the tenant's snapshots and the loop over them -/
def Platform.purge (p : Platform) (tenantId : Nat) : Platform :=
  (p.storageSnapshots.selectAll (fun snap => snap.tenantId == tenantId)).foldl
    (fun p snap => p.deleteArchive snap.archivePath) p

def systemTenantProtected : ApiError where
  code := "SYSTEM_TENANT_PROTECTED"
  message := "Cannot delete SYSTEM tenant — the platform-owned tenant is protected against destructive transitions (ADR-040)."
  status := 409

/- a call of `applyDeleted` for a tenant -/
structure Deletion where
  before : Platform
  tenant : Tenant
  circumstances : Circumstances

def Deletion.applied (d : Deletion) : Applied :=
  applyDeleted d.before d.tenant.id d.tenant.kubernetesNamespace d.circumstances

/- the platform after a request, and the deletions it came to -/
structure Deleted (R : Type) where
  platform : Platform
  deletions : List Deletion
  response : R

inductive DeleteResponse where
  | deleted (transitionId : Option Nat)
  | refused (error : ApiError)
  | failed (error : String)

def deleteTenant (p : Platform) (id : Nat) (c : Circumstances) : Deleted DeleteResponse :=
  match p.tenants.select (fun tenant => tenant.id == id) with
  | none => ⟨p, [], .refused (Storage.tenantNotFound id)⟩
  | some tenant =>
    if tenant.isSystem then ⟨p, [], .refused systemTenantProtected⟩
    else
      let d : Deletion := ⟨p, tenant, c⟩
      match d.applied.error with
      | some error => ⟨d.applied.platform, [d], .failed error⟩
      | none => ⟨d.applied.platform.purge id, [d], .deleted d.applied.transitionId⟩

structure BulkResult where
  succeeded : List Nat
  failed : List (Nat × String)

def bulkDeleteOne (state : Deleted BulkResult) (request : Nat × Circumstances) : Deleted BulkResult :=
  let fail (error : String) : BulkResult :=
    { state.response with failed := state.response.failed ++ [(request.1, error)] }
  match state.platform.tenants.select (fun tenant => tenant.id == request.1) with
  | none => { state with response := fail (Storage.tenantNotFound request.1).message }
  | some tenant =>
    if tenant.isSystem then
      { state with response := fail "Cannot delete SYSTEM tenant (platform-protected, ADR-040)" }
    else
      let d : Deletion := ⟨state.platform, tenant, request.2⟩
      match d.applied.error with
      | some error => ⟨d.applied.platform, state.deletions ++ [d], fail error⟩
      | none => ⟨d.applied.platform, state.deletions ++ [d],
          { state.response with succeeded := state.response.succeeded ++ [request.1] }⟩

def bulkDeleteTenants (p : Platform) (requests : List (Nat × Circumstances)) : Deleted BulkResult :=
  requests.foldl bulkDeleteOne ⟨p, [], ⟨[], []⟩⟩

inductive HardDelete where
  | deleteTenant (id : Nat) (c : Circumstances)
  | bulkDeleteTenants (requests : List (Nat × Circumstances))

def HardDelete.run (p : Platform) : HardDelete → Deleted Unit
  | .deleteTenant id c =>
    let done := Tenants.deleteTenant p id c
    ⟨done.platform, done.deletions, ()⟩
  | .bulkDeleteTenants requests =>
    let done := Tenants.bulkDeleteTenants p requests
    ⟨done.platform, done.deletions, ()⟩

/-- A hook that aborts the transition does not succeed, and the dispatcher records it. -/
def Deletion.Blocked (d : Deletion) : Prop :=
  d.circumstances.dispatchThrows = false ∧ ∃ hook ∈ deletedHooks, Blocks d.circumstances.result hook

def Deletion.Stuck (d : Deletion) : Prop :=
  (d.circumstances.deleteNamespaceFails = true ∨
    d.tenant.kubernetesNamespace ∉ d.before.namespaces) ∧
  d.circumstances.deleteRowError.isSome = true

def Deletion.Aborts (d : Deletion) : Prop :=
  (dispatchTransition d.circumstances).map DispatchResult.state = some .failedBlocking →
    d.applied.platform.namespaces = d.before.namespaces ∧
      d.applied.platform.tenants = d.before.tenants

def Deletion.Purged (d : Deletion) (after : Platform) : Prop :=
  ∀ snap ∈ d.before.storageSnapshots, snap.tenantId = d.tenant.id →
    snap.archivePath ∉ after.archives

variable {d : Deletion}

theorem Deletion.blocked_iff : (dispatchTransition d.circumstances).map DispatchResult.state = some .failedBlocking ↔
      d.Blocked := by
  unfold dispatchTransition Deletion.Blocked
  cases throws : d.circumstances.dispatchThrows with
  | true => simp
  | false => simp [runTransition_blocking]

theorem namespaces_applied (d : Deletion) : d.applied.platform.namespaces =
    if d.circumstances.deleteNamespaceFails then d.before.namespaces
    else d.before.namespaces.filter (· != d.tenant.kubernetesNamespace) := by
  simp only [Deletion.applied, applyDeleted]
  split <;> split <;> rfl

theorem tenants_applied (d : Deletion) : d.applied.platform.tenants =
    if d.circumstances.deleteRowError.isSome then d.before.tenants
    else d.before.tenants.delete (fun tenant => tenant.id == d.tenant.id) := by
  simp only [Deletion.applied, applyDeleted]
  split
  · rename_i error fails
    rw [fails]
    split <;> rfl
  · rename_i done
    have there : ¬ d.circumstances.deleteRowError.isSome = true := by simp [done]
    split <;> rfl

theorem archives_applied (d : Deletion) : d.applied.platform.archives = d.before.archives := by
  simp only [Deletion.applied, applyDeleted]
  split <;> split <;> rfl

theorem snapshots_applied (done : d.applied.error = none) :
    ∀ snap ∈ d.applied.platform.storageSnapshots, snap.tenantId ≠ d.tenant.id := by
  simp only [Deletion.applied, applyDeleted] at done ⊢
  split at done
  · cases done
  · intro snap mem
    simpa using (mem_delete.mp mem).2

theorem error_applied (d : Deletion) : d.applied.error = d.circumstances.deleteRowError := by
  simp only [Deletion.applied, applyDeleted]
  split
  · rename_i error fails
    exact fails.symm
  · rename_i none
    exact none.symm

theorem Deletion.aborts_iff (there : d.tenant ∈ d.before.tenants) : d.Aborts ↔ ¬ d.Blocked ∨ d.Stuck := by
  have row : d.applied.platform.tenants = d.before.tenants ↔ d.circumstances.deleteRowError.isSome = true := by
    rw [tenants_applied]
    constructor
    · intro same
      by_contra fails
      rw [if_neg fails] at same
      have gone := (mem_delete.mp (same ▸ there)).2
      simp at gone
    · intro fails
      rw [if_pos fails]
  have emptied : d.applied.platform.namespaces = d.before.namespaces ↔
      d.circumstances.deleteNamespaceFails = true ∨ d.tenant.kubernetesNamespace ∉ d.before.namespaces := by
    rw [namespaces_applied]
    cases fails : d.circumstances.deleteNamespaceFails with
    | true => simp
    | false =>
      simp only [Bool.false_eq_true, if_false, filter_eq_self, bne_iff_ne, false_or]
      exact ⟨fun other mem => other _ mem rfl, fun absent name mem same => absent (same ▸ mem)⟩
  unfold Deletion.Aborts Deletion.Stuck
  rw [Deletion.blocked_iff, row, emptied]
  exact imp_iff_not_or

theorem deleteArchives_none (snaps : List StorageSnapshot) (none : snaps = []) (p : Platform) :
    snaps.foldl (fun p snap => p.deleteArchive snap.archivePath) p = p := by
  rw [none]
  rfl

theorem purge_applied (done : d.applied.error = none) : d.applied.platform.purge d.tenant.id = d.applied.platform := by
  refine deleteArchives_none _ ?_ _
  refine filter_eq_nil_iff.mpr ?_
  intro snap mem
  simpa using snapshots_applied done snap mem

structure Bulked (p : Platform) (platform : Platform) (deletions : List Deletion) : Prop where
  archives : platform.archives = p.archives
  before : ∀ d ∈ deletions, d.before.archives = p.archives
  there : ∀ d ∈ deletions, d.tenant ∈ d.before.tenants

theorem Bulked.snoc {p platform after : Platform} {deletions : List Deletion}
    (bulked : Bulked p platform deletions) (own : d.before = platform) (there : d.tenant ∈ platform.tenants)
    (same : after.archives = platform.archives) : Bulked p after (deletions ++ [d]) where
  archives := same.trans bulked.archives
  before d' mem := by
    rcases mem_append.mp mem with old | new
    · exact bulked.before d' old
    · rw [mem_singleton.mp new, own]
      exact bulked.archives
  there d' mem := by
    rcases mem_append.mp mem with old | new
    · exact bulked.there d' old
    · rw [mem_singleton.mp new, own]
      exact there

theorem bulkDeleteOne_bulked {p : Platform} {state : Deleted BulkResult}
    (bulked : Bulked p state.platform state.deletions) (request : Nat × Circumstances) :
    Bulked p (bulkDeleteOne state request).platform (bulkDeleteOne state request).deletions := by
  unfold bulkDeleteOne
  dsimp only
  split
  · exact bulked
  rename_i tenant found
  have there := (mem_of_select found).1
  have same := archives_applied ⟨state.platform, tenant, request.2⟩
  split
  · exact bulked
  · split <;> exact bulked.snoc rfl there same

theorem HardDelete.bulked (p : Platform) (request : HardDelete) :
    Bulked p (request.run p).platform (request.run p).deletions := by
  have start : Bulked p p [] := ⟨rfl, nofun, nofun⟩
  cases request with
  | bulkDeleteTenants requests =>
    have all : ∀ (requests : List (Nat × Circumstances)) (state : Deleted BulkResult),
        Bulked p state.platform state.deletions →
        Bulked p (requests.foldl bulkDeleteOne state).platform (requests.foldl bulkDeleteOne state).deletions := by
      intro requests
      induction requests with
      | nil => exact fun state bulked => bulked
      | cons first rest ih =>
        intro state bulked
        exact ih _ (bulkDeleteOne_bulked bulked first)
    exact all requests ⟨p, [], ⟨[], []⟩⟩ start
  | deleteTenant id c =>
    simp only [HardDelete.run, Tenants.deleteTenant]
    split
    · exact start
    rename_i tenant found
    obtain ⟨there, own⟩ := mem_of_select found
    have same := archives_applied ⟨p, tenant, c⟩
    split
    · exact start
    split
    · exact start.snoc rfl there same
    rename_i done
    have purged := purge_applied done
    rw [eq_of_beq own] at purged
    refine start.snoc rfl there ?_
    rw [purged]
    exact same

/-- A blocked deletion stops short of the namespace and the row only where they cannot go. -/
theorem deletions_abort_iff (p : Platform) (request : HardDelete) : (∀ d ∈ (request.run p).deletions, d.Aborts) ↔
      ∀ d ∈ (request.run p).deletions, ¬ d.Blocked ∨ d.Stuck := by
  have there := (request.bulked p).there
  constructor
  · exact fun aborts d mem => (Deletion.aborts_iff (there d mem)).mp (aborts d mem)
  · exact fun holds d mem => (Deletion.aborts_iff (there d mem)).mpr (holds d mem)

def oneTenant : Platform where
  tenants := ⟨[⟨1, "tenant-1", false⟩], List.nodup_singleton _⟩
  storageSnapshots := ⟨[⟨1, 1, "tenant-1/1.tar.gz"⟩], List.nodup_singleton _⟩
  namespaces := ["tenant-1"]
  archives := ["tenant-1/1.tar.gz"]
  references snap mem := by
    obtain rfl := List.mem_singleton.mp mem
    exact ⟨_, List.mem_singleton.mpr rfl, rfl⟩

def hooksReturn (result : String → HookResultStatus) : Circumstances :=
  ⟨1, result, false, false, none⟩

def privateWorkersFail : Circumstances :=
  hooksReturn (fun name => if name = "db-private-workers" then .failed else .ok)

theorem aborted_deletion_deletes :
    ¬ ∀ (p : Platform) (request : HardDelete), ∀ d ∈ (request.run p).deletions, d.Aborts := by
  intro aborts
  let d : Deletion := ⟨oneTenant, ⟨1, "tenant-1", false⟩, privateWorkersFail⟩
  have mem : d ∈ ((HardDelete.deleteTenant 1 privateWorkersFail).run oneTenant).deletions := mem_singleton.mpr rfl
  have kept := (aborts oneTenant (.deleteTenant 1 privateWorkersFail) d mem (by decide)).1
  exact absurd kept (by decide)

/-- A hard delete leaves no archive of a tenant only where there is none. -/
theorem archives_purged_iff (p : Platform) (request : HardDelete) :
    (∀ d ∈ (request.run p).deletions, d.applied.error = none → d.Purged (request.run p).platform) ↔
      ∀ d ∈ (request.run p).deletions, d.circumstances.deleteRowError = none →
        ∀ snap ∈ d.before.storageSnapshots, snap.tenantId = d.tenant.id →
          snap.archivePath ∉ d.before.archives := by
  have bulked := request.bulked p
  have same : ∀ d ∈ (request.run p).deletions, (request.run p).platform.archives = d.before.archives :=
    fun d mem => bulked.archives.trans (bulked.before d mem).symm
  constructor
  · intro purged d mem done snap there own
    rw [← same d mem]
    exact purged d mem ((error_applied d).trans done) snap there own
  · intro none d mem done snap there own
    rw [same d mem]
    exact none d mem ((error_applied d).symm.trans done) snap there own

theorem deletion_leaves_archives : ¬ ∀ (p : Platform) (request : HardDelete), ∀ d ∈ (request.run p).deletions,
      d.applied.error = none → d.Purged (request.run p).platform := by
  intro purged
  let d : Deletion := ⟨oneTenant, ⟨1, "tenant-1", false⟩, hooksReturn (fun _ => .ok)⟩
  have mem : d ∈ ((HardDelete.deleteTenant 1 d.circumstances).run oneTenant).deletions := mem_singleton.mpr rfl
  have gone := purged oneTenant (.deleteTenant 1 d.circumstances) d mem rfl
    ⟨1, 1, "tenant-1/1.tar.gz"⟩ (mem_singleton.mpr rfl) rfl
  exact absurd gone (by decide)

end HostingPlatform.Tenants
