import HostingPlatform.Storage.Work

/-! What one statement leaves alone: those that only write rows or wait leave the namespace
as it is, and the others the rows. -/
namespace HostingPlatform.Storage

open List Pausing Programs Transition

variable {s : Site} {v : Locals} {o : Fate} {step : Step}

theorem exec_calm {steps : List Step} {handler : Option (List Step)} (calm : statements.Calm .smooth (s, v) steps) :
    exec Work.step ⟨s, (remaining steps handler).map (fun p => ⟨v, p⟩), false⟩
        (replicate steps.length (.advance .smooth)) =
      some ⟨(statements.after .smooth (s, v) steps).1, none, false⟩ := by
  induction steps generalizing s v with
  | nil => rfl
  | cons c rest ih =>
    obtain ⟨quiet, tail⟩ := calm
    have taken : Work.step ⟨s, (remaining (c :: rest) handler).map (fun p => ⟨v, p⟩), false⟩
        (.advance .smooth) = some ⟨c.act s v .smooth,
          (remaining rest handler).map (fun p => ⟨c.note s v .smooth, p⟩), false⟩ := by
      simp only [remaining, Work.step, Option.map_some, Running.advance, Language.next, quiet,
        Bool.false_eq_true]
      rfl
    rw [length_cons, replicate_succ, exec, taken]
    exact ih tail

structure SameNamespace (s s' : Site) : Prop where
  volume : s'.volume = s.volume
  archives : s'.archives = s.archives
  deployments : s'.deployments = s.deployments
  cronJobs : s'.cronJobs = s.cronJobs
  data : s'.data = s.data
  status : s'.tenant.status = s.tenant.status

def Step.clerical : Step → Bool
  | .quiesce | .unquiesce | .unquiesceQuietly | .snapshotTenantPVC | .restoreTenantPVC | .deletePVC
  | .applyPVC _ | .deleteWorkloads | .cascade _ | .runFsck _ => false
  | _ => true

theorem SameNamespace.refl (s : Site) : SameNamespace s s := ⟨rfl, rfl, rfl, rfl, rfl, rfl⟩

theorem SameNamespace.write {written : Site} (o : Fate) (same : SameNamespace s written) :
    SameNamespace s (s.write o written) := by
  unfold Site.write
  split
  · exact same
  · exact SameNamespace.refl s

theorem SameNamespace.recover (s : Site) : SameNamespace s s.recover := by
  unfold Site.recover
  repeat' split
  · exact SameNamespace.refl s
  · exact ⟨rfl, rfl, rfl, rfl, rfl, rfl⟩
  · cases s.tenant.activeStorageOpId <;> exact ⟨rfl, rfl, rfl, rfl, rfl, rfl⟩

theorem clerical_act (clerical : step.clerical = true) : SameNamespace s (step.act s v o) := by
  cases step with
  | updateOp state =>
    cases state with
    | none => exact SameNamespace.refl s
    | some state => exact SameNamespace.write o ⟨rfl, rfl, rfl, rfl, rfl, rfl⟩
  | mirrorState state =>
    simp only [Step.act]
    split
    · exact SameNamespace.write o ⟨rfl, rfl, rfl, rfl, rfl, rfl⟩
    · exact SameNamespace.refl s
  | saveQuiesceSnapshot | snapshotStatus | saveOverride | markTenant =>
    exact SameNamespace.write o ⟨rfl, rfl, rfl, rfl, rfl, rfl⟩
  | quiesce | unquiesce | unquiesceQuietly | snapshotTenantPVC | restoreTenantPVC | deletePVC
  | applyPVC | deleteWorkloads | cascade | runFsck => contradiction
  | _ => exact SameNamespace.refl s

theorem SameNamespace.busy {s' : Site} (same : SameNamespace s s') : s'.busy = s.busy := by
  rw [Site.busy, Site.busy, same.deployments, same.cronJobs]

theorem note_other (other : step ≠ .quiesce) : step.note s v o = v := by
  cases step with
  | quiesce => exact absurd rfl other
  | _ => rfl

theorem note_snapId : (step.note s v o).snapId = v.snapId := by
  cases step with
  | quiesce =>
    simp only [Step.note]
    split <;> rfl
  | _ => rfl

theorem act_status (other : ∀ status, step ≠ .cascade status) : (step.act s v o).tenant.status = s.tenant.status := by
  by_cases clerical : step.clerical = true
  · exact (clerical_act clerical).status
  cases step with
  | unquiesce | unquiesceQuietly =>
    simp only [Step.act]
    cases v.quiesceSnap <;> rfl
  | snapshotTenantPVC =>
    simp only [Step.act, Site.archive]
    repeat' split
    all_goals rfl
  | restoreTenantPVC =>
    simp only [Step.act, Site.unpack]
    repeat' split
    all_goals rfl
  | deletePVC | applyPVC =>
    simp only [Step.act, Site.write]
    split <;> rfl
  | runFsck repair =>
    simp only [Step.act]
    split <;> rfl
  | quiesce | deleteWorkloads => rfl
  | cascade status => exact absurd rfl (other status)
  | _ => exact absurd rfl clerical

theorem cascade_status (s : Site) (status : TenantStatus) (o : Fate) : (s.cascade status o).tenant.status = status ∨
      (s.cascade status o).tenant.status = s.tenant.status := by
  cases status with
  | suspended | archived =>
    simp only [Site.cascade]
    repeat' split
    all_goals simp [setStatus]
  | active =>
    simp only [Site.cascade]
    split <;> simp [setStatus]
  | pending => exact .inr rfl

theorem act_volume (other : step ≠ .deletePVC) (there : s.volume.isSome = true) :
    (step.act s v o).volume.isSome = true := by
  by_cases clerical : step.clerical = true
  · rw [(clerical_act clerical).volume]
    exact there
  cases step with
  | unquiesce | unquiesceQuietly =>
    simp only [Step.act]
    cases v.quiesceSnap <;> exact there
  | snapshotTenantPVC =>
    simp only [Step.act, Site.archive]
    repeat' split
    all_goals exact there
  | restoreTenantPVC =>
    simp only [Step.act, Site.unpack]
    repeat' split
    all_goals first | exact there | rfl
  | applyPVC =>
    simp only [Step.act, Site.write]
    split
    · simp
    · exact there
  | cascade status =>
    simp only [Step.act, Site.cascade]
    repeat' split
    all_goals exact there
  | runFsck repair =>
    simp only [Step.act]
    split
    · simpa using there
    · exact there
  | quiesce | deleteWorkloads => exact there
  | deletePVC => exact absurd rfl other
  | _ => exact absurd rfl clerical

/- where the tenant's data may be: its volume, and the archives of its snapshots -/
structure SameStore (s s' : Site) : Prop where
  volume : s'.volume = s.volume
  archives : s'.archives = s.archives
  snapshots : s'.snapshots = s.snapshots
  data : s'.data = s.data
  supply : s'.supply = s.supply

def Step.stores : Step → Bool
  | .snapshotStatus _ | .snapshotTenantPVC | .restoreTenantPVC | .deletePVC | .applyPVC _
  | .runFsck _ => true
  | _ => false

theorem SameStore.refl (s : Site) : SameStore s s := ⟨rfl, rfl, rfl, rfl, rfl⟩

theorem SameStore.write {written : Site} (o : Fate) (same : SameStore s written) : SameStore s (s.write o written) := by
  unfold Site.write
  split
  · exact same
  · exact SameStore.refl s

theorem SameStore.recover (s : Site) : SameStore s s.recover := by
  unfold Site.recover
  repeat' split
  · exact SameStore.refl s
  · exact ⟨rfl, rfl, rfl, rfl, rfl⟩
  · cases s.tenant.activeStorageOpId <;> exact ⟨rfl, rfl, rfl, rfl, rfl⟩

theorem act_store (other : step.stores = false) : SameStore s (step.act s v o) := by
  cases step with
  | updateOp state =>
    cases state with
    | none => exact SameStore.refl s
    | some state => exact SameStore.write o ⟨rfl, rfl, rfl, rfl, rfl⟩
  | mirrorState state =>
    simp only [Step.act]
    split
    · exact SameStore.write o ⟨rfl, rfl, rfl, rfl, rfl⟩
    · exact SameStore.refl s
  | saveQuiesceSnapshot | saveOverride | markTenant => exact SameStore.write o ⟨rfl, rfl, rfl, rfl, rfl⟩
  | unquiesce | unquiesceQuietly =>
    simp only [Step.act]
    cases v.quiesceSnap <;> exact ⟨rfl, rfl, rfl, rfl, rfl⟩
  | cascade status =>
    simp only [Step.act, Site.cascade]
    repeat' split
    all_goals exact ⟨rfl, rfl, rfl, rfl, rfl⟩
  | quiesce | deleteWorkloads => exact ⟨rfl, rfl, rfl, rfl, rfl⟩
  | snapshotStatus | snapshotTenantPVC | restoreTenantPVC | deletePVC | applyPVC | runFsck =>
    contradiction
  | _ => exact SameStore.refl s

/- the Deployments and CronJobs have no part in what happens to the volume -/
structure SameWorkloads (s s' : Site) : Prop where
  deployments : s'.deployments = s.deployments
  cronJobs : s'.cronJobs = s.cronJobs

theorem SameWorkloads.busy {s' : Site} (same : SameWorkloads s s') : s'.busy = s.busy := by
  rw [Site.busy, Site.busy, same.deployments, same.cronJobs]

theorem archive_workloads (s : Site) (v : Locals) (o : Fate) : SameWorkloads s (s.archive v o) := by
  unfold Site.archive
  repeat' split
  all_goals exact ⟨rfl, rfl⟩

theorem scaleCustom_name (replicas : Nat) (o : Fate) (w : Deployment) :
    (scaleCustomK8sDeployments replicas o w).name = w.name := by
  unfold scaleCustomK8sDeployments
  split <;> rfl

theorem scaleCustom_labels (replicas : Nat) (o : Fate) (w : Deployment) :
    (scaleCustomK8sDeployments replicas o w).labels = w.labels := by
  unfold scaleCustomK8sDeployments
  split <;> rfl

theorem cascade_suspended (own : s.isSystem = false) (o : Fate) : s.cascade .suspended o =
      { s with
        tenant := if o.takes then setStatus .suspended s.tenant else s.tenant
        deployments := (tearDown o s.deployments).map (scaleCustomK8sDeployments 0 o) } := by
  simp [Site.cascade, own]

theorem quiesce_idle (smooth : o.throws = false) : (s.quiesce o).busy = false := by
  have deployments : ∀ d ∈ (s.quiesce o).deployments, d.setting = 0 := by
    intro d mem
    simp only [Site.quiesce, smooth, Bool.false_eq_true] at mem
    obtain ⟨w, _, rfl⟩ := mem_map.mp mem
    exact pause_nothing_missed
  have cronJobs : ∀ c ∈ (s.quiesce o).cronJobs, c.setting = true := by
    intro c mem
    simp only [Site.quiesce, smooth, Bool.false_eq_true] at mem
    obtain ⟨w, _, rfl⟩ := mem_map.mp mem
    exact pause_nothing_missed
  simp only [Site.busy, Bool.or_eq_false_iff, any_eq_false]
  refine ⟨?_, ?_⟩
  · intro d mem
    simp [deployments d mem]
  · intro c mem
    simp [cronJobs c mem]

def Call.orchestration : Call → Orchestration
  | .snapshotTenant kind => Storage.snapshotTenant kind
  | .suspendTenant => Storage.suspendTenant
  | .resumeTenant => Storage.resumeTenant
  | .archiveTenant => runArchive
  | .restoreArchivedTenant newGi => runRestoreArchive newGi
  | .rollbackToSnapshot _ => runRollbackToSnapshot

theorem accept_orchestration {c : Call} {a : Admission} (admitted : s.accept c = some a) :
    a.orchestration = c.orchestration := by
  cases c with
  | restoreArchivedTenant newGi =>
    simp only [Site.accept, Option.ite_none_right_eq_some, Option.map_eq_some_iff] at admitted
    obtain ⟨_, _, _, rfl⟩ := admitted
    rfl
  | rollbackToSnapshot snapshotId =>
    obtain ⟨_, _, rfl⟩ := Option.map_eq_some_iff.mp admitted
    rfl
  | snapshotTenant =>
    cases admitted
    rfl
  | suspendTenant | archiveTenant =>
    obtain ⟨_, same⟩ := Option.ite_none_left_eq_some.mp admitted
    cases same
    rfl
  | resumeTenant =>
    obtain ⟨_, same⟩ := Option.ite_none_right_eq_some.mp admitted
    cases same
    rfl

structure Discipline where
  outline : Call → Outline (Site × Locals) Step
  rest : Site → Prop
  ok : Site × Locals → Step → Fate → Prop
  accepts : Site → Call → Prop

structure Discipline.Sound (D : Discipline) : Prop where
  valid : ∀ c, (D.outline c).Valid statements D.ok
  ends : ∀ c p, (D.outline c).done p ∨ (D.outline c).failed p → D.rest p.1
  body : ∀ c, c.orchestration.body = (D.outline c).body.program
  handler : ∀ c, c.orchestration.handler = (D.outline c).handler.program
  begins : ∀ (s : Site) c a, D.rest s → D.accepts s c → s.accept c = some a →
    (D.outline c).body.pre (D.outline c).done (s.claim a)

def Discipline.Holds (D : Discipline) (s : Site) (running : Option Running) : Prop :=
  running.elim (D.rest s) (fun r => ∃ c, (D.outline c).Covers r.program (s, r.locals))

section Sound
variable {D : Discipline}

/-- What the orchestrator may do next. -/
def Discipline.Allowed (D : Discipline) (s : Site) (r : Running) (o : Fate) : Prop :=
  ∀ step ∈ r.program.steps.head?, D.ok (s, r.locals) step o

variable {c : Call} {s : Site}

theorem Discipline.after {v : Locals} {p : Option (Program Step)} (sound : D.Sound)
    (after : (D.outline c).After p (s, v)) : D.Holds s (p.map (fun p => ⟨v, p⟩)) := by
  cases p with
  | none => exact sound.ends c (s, v) after
  | some p => exact ⟨c, after⟩

theorem Discipline.Holds.advance {r : Running} {o : Fate} (sound : D.Sound) (holds : D.Holds s (some r))
    (allowed : D.Allowed s r o) : D.Holds (r.advance s o).1 (r.advance s o).2 := by
  obtain ⟨c, covers⟩ := holds
  exact Discipline.after sound (Outline.next (sound.valid c) covers allowed)

theorem Discipline.Holds.claim {a : Admission} (sound : D.Sound) (holds : D.rest s)
    (accepts : D.accepts s c) (admitted : s.accept c = some a) :
    D.Holds (s.claim a).1 (a.orchestration.program.map (fun p => ⟨(s.claim a).2, p⟩)) := by
  have begin := Outline.begin (sound.begins s c a holds accepts admitted)
  rw [← sound.body, ← sound.handler, ← accept_orchestration admitted] at begin
  exact Discipline.after sound begin

theorem Discipline.Holds.call {w : Work} (sound : D.Sound) (holds : D.Holds w.site w.running)
    (accepts : w.running.isNone = true ∧ w.site.tenant.storageLifecycleState = .idle → D.accepts w.site c) :
    D.Holds (w.call c).site (w.call c).running := by
  unfold Work.call
  split
  · rename_i free
    rw [Option.isNone_iff_eq_none.mp free.1] at holds
    cases admitted : w.site.accept c with
    | none =>
      rw [Option.elim_none, Option.isNone_iff_eq_none.mp free.1]
      exact holds
    | some a => exact Discipline.Holds.claim sound holds (accepts free) admitted
  · exact holds

theorem Discipline.Holds.mono {s' : Site} {running : Option Running} (rest : D.rest s → D.rest s')
    (assertions : ∀ c v a step, (a, step) ∈ (D.outline c).body ++ (D.outline c).handler →
      a (s, v) → a (s', v)) (holds : D.Holds s running) : D.Holds s' running := by
  cases running with
  | none => exact rest holds
  | some r =>
    obtain ⟨c, covers⟩ := holds
    refine ⟨c, covers.mono ?_ ?_⟩
    · exact fun a step mem => assertions c r.locals a step (mem_append_left _ mem)
    · exact fun a step mem => assertions c r.locals a step (mem_append_right _ mem)

end Sound

end HostingPlatform.Storage
