import HostingPlatform.Storage.Effects

/-! Suspending, resuming and snapshots, in any order and with any failure: what a Deployment's
replicas and a CronJob's flag were at first, `count` and `flag`, is what they are again when
the tenant is active. It takes a world in which no failure falls between the scaling down of
the workloads and what is to bring them up. -/
namespace HostingPlatform.Storage

open Option Table List Pausing Programs Annotation Transition

/- the newest operation, and the record that a resume would go by -/
def Site.newest (s : Site) : Option (Nat × OpType) :=
  s.operations.head?.map (fun op => (op.id, op.opType))

def Site.pauseOnRecord (s : Site) : Option QuiesceSnapshot := s.lastSuspend.bind (·.quiesceSnapshot)

section Original
variable (count : String → Nat) (flag : String → Bool)

structure Up (s : Site) : Prop where
  deployments : Intact count s.deployments
  cronJobs : Intact flag s.cronJobs

/- each workload is down, or as it was -/
structure Scaled (s : Site) : Prop where
  deployments : Between 0 count s.deployments
  cronJobs : Between true flag s.cronJobs

/- a record that brings up nothing wrong -/
structure Faithful (snap : QuiesceSnapshot) : Prop where
  deployments : Sound 0 count snap.deployments
  cronJobs : Sound true flag snap.cronJobs

structure Complete (snap : QuiesceSnapshot) (s : Site) : Prop where
  deployments : Recorded count snap.deployments s.deployments
  cronJobs : Recorded flag snap.cronJobs s.cronJobs

structure Literal (snap : QuiesceSnapshot) : Prop where
  deployments : Exact count snap.deployments
  cronJobs : Exact flag snap.cronJobs

/-- What holds throughout. A suspended tenant's last suspension has the record to resume by. -/
structure Base (s : Site) : Prop where
  scaled : Scaled count flag s
  status : s.tenant.status = .active ∨ s.tenant.status = .suspended
  recorded : s.tenant.status = .suspended → ∃ snap,
    s.pauseOnRecord = some snap ∧ Faithful count flag snap ∧ Complete count flag snap s

/- between two operations -/
structure Settled (s : Site) : Prop where
  base : Base count flag s
  active : s.tenant.status = .active → Up count flag s
  failed : ∀ op ∈ s.operations.head?, op.opType = .suspend → op.state = .failed → Up count flag s

/- a snapshot that is being made, and whether its orchestrator has the workloads up -/
structure Snapshotting (up : Bool) (p : Site × Locals) : Prop where
  base : Base count flag p.1
  opType : p.2.opType = .snapshot
  own : ∀ op ∈ p.1.newest, op.2 ≠ .suspend
  found : ∀ snap, p.2.quiesceSnap = some snap → Faithful count flag snap ∧
    (p.1.tenant.status = .active → Literal count flag snap ∧ Complete count flag snap p.1)
  none : p.2.quiesceSnap = none → p.1.tenant.status = .active → Up count flag p.1
  up : up = true → p.1.tenant.status = .active → Up count flag p.1

/- a suspension before and after its cascade; its handler begins with the workloads up -/
structure Suspending (status : TenantStatus) (p : Site × Locals) : Prop where
  scaled : Scaled count flag p.1
  status : p.1.tenant.status = status
  opType : p.2.opType = .suspend
  own : p.1.newest = some (p.2.opId, .suspend)
  found : ∃ snap, p.2.quiesceSnap = some snap ∧ Faithful count flag snap ∧
    Complete count flag snap p.1

structure NotSuspended (p : Site × Locals) : Prop where
  up : Up count flag p.1
  status : p.1.tenant.status = .active
  opType : p.2.opType = .suspend
  own : p.1.newest = some (p.2.opId, .suspend)

structure SuspensionMade (p : Site × Locals) : Prop where
  settled : Settled count flag p.1
  status : p.1.tenant.status = .suspended
  opType : p.2.opType = .suspend

structure Resuming (up : Bool) (p : Site × Locals) : Prop where
  base : Base count flag p.1
  opType : p.2.opType = .resume
  own : ∀ op ∈ p.1.newest, op.2 ≠ .suspend
  found : ∃ snap, p.2.quiesceSnap = some snap ∧ Faithful count flag snap ∧
    Complete count flag snap p.1
  active : p.1.tenant.status = .active → Up count flag p.1
  up : up = true → Up count flag p.1

def snapshotting : Outline (Site × Locals) Step where
  body :=
    segment (Snapshotting count flag true) [.quiesce] ++
    (segment (Snapshotting count flag false) [.waitForQuiesced, .updateOp none, .snapshotTenantPVC,
      .snapshotStatus .ready, .updateOp (some .idle), .unquiesce] ++
    segment (Snapshotting count flag true) [.updateOp (some .idle), .markTenant .idle, .readSnapshot])
  handler :=
    segment (Snapshotting count flag false) [.snapshotStatus .failed, .updateOp (some .failed),
      .unquiesceQuietly] ++
    segment (Snapshotting count flag true) [.markTenant .idle]
  done := Snapshotting count flag true
  failed := Snapshotting count flag true

def suspending : Outline (Site × Locals) Step where
  body :=
    segment (NotSuspended count flag) [.quiesce] ++
    (segment (Suspending count flag .active) [.cascade .suspended] ++
    (segment (Suspending count flag .suspended) [.saveQuiesceSnapshot] ++
    segment (SuspensionMade count flag) [.markTenant .idle]))
  handler := segment (NotSuspended count flag) suspendTenant.handler
  done := SuspensionMade count flag
  failed := NotSuspended count flag

def resuming : Outline (Site × Locals) Step where
  body :=
    segment (Resuming count flag false) [.unquiesce] ++
    (segment (Resuming count flag true) [.cascade .active] ++
    segment (Resuming count flag false) [.updateOp (some .idle), .markTenant .idle])
  handler := segment (Resuming count flag false) resumeTenant.handler
  done := Resuming count flag false
  failed := Resuming count flag false

end Original

def AsFound (p : Site × Locals) : Prop :=
  ∀ snap ∈ p.2.quiesceSnap, AsRecorded snap.deployments p.1.deployments ∧
    AsRecorded snap.cronJobs p.1.cronJobs

/-- A failure to quiesce an active tenant comes before anything has been scaled down. What is to be
brought up can be reached, or needs nothing. A suspension is stamped, and from there on nothing
of it fails. Custom deployments that a resume scales have a single replica. A snapshot's handler
gets through to its `unquiesce`, unless there is nothing to bring up. -/
def Careful (p : Site × Locals) (step : Step) (o : Fate) : Prop :=
  match step with
  | .quiesce => p.1.tenant.status = .active → o.throws = true →
      (∀ d ∈ p.1.deployments, d.name ∉ o.missed → d.setting = 0) ∧
      ∀ c ∈ p.1.cronJobs, c.name ∉ o.missedJobs → c.setting = true
  | .unquiesce | .unquiesceQuietly => ∀ snap ∈ p.2.quiesceSnap,
      Spares 0 o.missed snap.deployments p.1.deployments ∧
      Spares true o.missedJobs snap.cronJobs p.1.cronJobs
  | .cascade .suspended => o.takes = true ∧ p.1.isSystem = false
  | .cascade .active =>
      ∀ d ∈ p.1.deployments, d.labels.custom = true → d.name ∉ o.missed → d.setting = 1
  | .saveQuiesceSnapshot => o.throws = false
  | .markTenant _ => p.2.opType = .suspend → p.1.tenant.status = .suspended → o.throws = false
  | .snapshotStatus .failed | .updateOp (some .failed) =>
      p.2.opType = .snapshot → o.throws = true → AsFound p
  | _ => True

def restoringWorkloads (count : String → Nat) (flag : String → Bool) : Discipline where
  outline
    | .snapshotTenant _ => snapshotting count flag
    | .suspendTenant => suspending count flag
    | .resumeTenant => resuming count flag
    | c => .throughout (fun _ => False) c.orchestration.body c.orchestration.handler
  rest := Settled count flag
  ok := Careful
  accepts := fun _ c => match c with
    | .snapshotTenant _ | .suspendTenant | .resumeTenant => True
    | _ => False

structure SameWork (s s' : Site) : Prop where
  deployments : s'.deployments = s.deployments
  cronJobs : s'.cronJobs = s.cronJobs
  status : s'.tenant.status = s.tenant.status
  newest : s'.newest = s.newest
  record : s'.pauseOnRecord = s.pauseOnRecord

def Step.works : Step → Bool
  | .quiesce | .unquiesce | .unquiesceQuietly | .deleteWorkloads | .cascade _
  | .saveQuiesceSnapshot => true
  | _ => false

theorem SameWork.refl (s : Site) : SameWork s s := ⟨rfl, rfl, rfl, rfl, rfl⟩

variable {s : Site} {count : String → Nat} {flag : String → Bool}

theorem SameWork.write {written : Site} (o : Fate) (same : SameWork s written) : SameWork s (s.write o written) := by
  unfold Site.write
  split
  · exact same
  · exact SameWork.refl s

theorem updateOperation_work (s : Site) (opId : Nat) (state : LifecycleState) :
    SameWork s (s.updateOperation opId (setOpState state)) := by
  let mark := apply (fun op => op.id == opId) (setOpState state)
  have id (op : Operation) : (mark op).id = op.id := by
    simp only [mark, apply]
    split <;> rfl
  have opType (op : Operation) : (mark op).opType = op.opType := by
    simp only [mark, apply]
    split <;> rfl
  have snap (op : Operation) : (mark op).quiesceSnapshot = op.quiesceSnapshot := by
    simp only [mark, apply]
    split <;> rfl
  refine ⟨rfl, rfl, rfl, ?_, ?_⟩
  · show ((s.operations.map mark).head?).map _ = _
    rw [head?_map, Option.map_map]
    refine congrArg (Option.map · s.operations.head?) (funext fun op => ?_)
    rw [Function.comp_apply, id, opType]
  show ((s.operations.map mark).find? _).bind _ = _
  have suspends : (fun op : Operation => op.opType == .suspend) ∘ mark = fun op => op.opType == .suspend := by
    funext op
    rw [Function.comp_apply, opType]
  rw [find?_map, suspends, bind_map]
  refine congrArg (bind (s.operations.find? _)) (funext fun op => ?_)
  rw [Function.comp_apply, snap]

theorem act_work {v : Locals} {o : Fate} {step : Step} (other : step.works = false) : SameWork s (step.act s v o) := by
  cases step with
  | updateOp state =>
    cases state with
    | none => exact SameWork.refl s
    | some state => exact SameWork.write o (updateOperation_work s v.opId state)
  | mirrorState state =>
    simp only [Step.act]
    split
    · exact SameWork.write o ⟨rfl, rfl, rfl, rfl, rfl⟩
    · exact SameWork.refl s
  | snapshotTenantPVC =>
    simp only [Step.act, Site.archive]
    repeat' split
    all_goals exact ⟨rfl, rfl, rfl, rfl, rfl⟩
  | restoreTenantPVC =>
    simp only [Step.act, Site.unpack]
    repeat' split
    all_goals exact ⟨rfl, rfl, rfl, rfl, rfl⟩
  | runFsck repair =>
    simp only [Step.act]
    split
    · exact ⟨rfl, rfl, rfl, rfl, rfl⟩
    · exact SameWork.refl s
  | currentTenantId | readSnapshot | waitForQuiesced | patchPVC | waitForPvcCapacity | waitForPvcGone
  | locateTenantVolume | attachLonghornVolume | waitForVolumeAttached | detachLonghornVolume
  | ensureVolumeReattached => exact SameWork.refl s
  | quiesce | unquiesce | unquiesceQuietly | deleteWorkloads | cascade | saveQuiesceSnapshot =>
    contradiction
  | _ =>
    exact SameWork.write o ⟨rfl, rfl, rfl, rfl, rfl⟩

/- some workloads may be gone -/
structure Remains (s s' : Site) : Prop where
  deployments : s'.deployments ⊆ s.deployments
  cronJobs : s'.cronJobs ⊆ s.cronJobs
  status : s'.tenant.status = s.tenant.status
  newest : s'.newest = s.newest
  record : s'.pauseOnRecord = s.pauseOnRecord

theorem SameWork.remains {s' : Site} (same : SameWork s s') : Remains s s' where
  deployments := by
    rw [same.deployments]
    exact Subset.refl _
  cronJobs := by
    rw [same.cronJobs]
    exact Subset.refl _
  status := same.status
  newest := same.newest
  record := same.record

section Remains
variable {count : String → Nat} {flag : String → Bool} {s s' : Site} {v : Locals}

theorem Remains.ups (left : Remains s s') (up : Up count flag s) : Up count flag s' :=
  ⟨up.deployments.subset left.deployments, up.cronJobs.subset left.cronJobs⟩

theorem Remains.scaled (left : Remains s s') (scaled : Scaled count flag s) : Scaled count flag s' :=
  ⟨scaled.deployments.subset left.deployments, scaled.cronJobs.subset left.cronJobs⟩

theorem Remains.complete {snap : QuiesceSnapshot} (left : Remains s s')
    (complete : Complete count flag snap s) : Complete count flag snap s' :=
  ⟨complete.deployments.subset left.deployments, complete.cronJobs.subset left.cronJobs⟩

theorem Remains.base (left : Remains s s') (base : Base count flag s) : Base count flag s' where
  scaled := left.scaled base.scaled
  status := by
    rw [left.status]
    exact base.status
  recorded := by
    rw [left.status, left.record]
    intro suspended
    obtain ⟨snap, recorded, faithful, complete⟩ := base.recorded suspended
    exact ⟨snap, recorded, faithful, left.complete complete⟩

variable {up : Bool}

theorem Remains.snapshotting (left : Remains s s') (before : Snapshotting count flag up (s, v)) :
    Snapshotting count flag up (s', v) where
  base := left.base before.base
  opType := before.opType
  own := by
    rw [left.newest]
    exact before.own
  found := by
    intro snap held
    obtain ⟨faithful, active⟩ := before.found snap held
    refine ⟨faithful, ?_⟩
    rw [left.status]
    exact fun is => ⟨(active is).1, left.complete (active is).2⟩
  none := by
    rw [left.status]
    exact fun held is => left.ups (before.none held is)
  up := by
    rw [left.status]
    exact fun brought is => left.ups (before.up brought is)

theorem Remains.suspending {status : TenantStatus} (left : Remains s s')
    (before : Suspending count flag status (s, v)) : Suspending count flag status (s', v) where
  scaled := left.scaled before.scaled
  status := left.status.trans before.status
  opType := before.opType
  own := left.newest.trans before.own
  found := by
    obtain ⟨snap, held, faithful, complete⟩ := before.found
    exact ⟨snap, held, faithful, left.complete complete⟩

theorem Remains.notSuspended (left : Remains s s') (before : NotSuspended count flag (s, v)) :
    NotSuspended count flag (s', v) where
  up := left.ups before.up
  status := left.status.trans before.status
  opType := before.opType
  own := left.newest.trans before.own

theorem Remains.resuming (left : Remains s s') (before : Resuming count flag up (s, v)) :
    Resuming count flag up (s', v) where
  base := left.base before.base
  opType := before.opType
  own := by
    rw [left.newest]
    exact before.own
  found := by
    obtain ⟨snap, held, faithful, complete⟩ := before.found
    exact ⟨snap, held, faithful, left.complete complete⟩
  active := by
    rw [left.status]
    exact fun is => left.ups (before.active is)
  up := fun brought => left.ups (before.up brought)

theorem Remains.settled (left : Remains s s') (same : s'.operations = s.operations)
    (before : Settled count flag s) : Settled count flag s' where
  base := left.base before.base
  active := by
    rw [left.status]
    exact fun is => left.ups (before.active is)
  failed := by
    rw [same]
    exact fun op newest suspend failed => left.ups (before.failed op newest suspend failed)

end Remains

section Workloads
variable {count : String → Nat} {flag : String → Bool} {s : Site} {snap : QuiesceSnapshot} {o : Fate}

theorem Scaled.quiesce (scaled : Scaled count flag s) : Scaled count flag (s.quiesce o) :=
  ⟨scaled.deployments.pause, scaled.cronJobs.pause⟩

theorem Scaled.workloads (scaled : Scaled count flag s) : Faithful count flag s.workloads :=
  ⟨scaled.deployments.record, scaled.cronJobs.record⟩

theorem Up.literal (up : Up count flag s) : Literal count flag s.workloads :=
  ⟨up.deployments.exact, up.cronJobs.exact⟩

theorem Up.scaled (up : Up count flag s) : Scaled count flag s :=
  ⟨up.deployments.between, up.cronJobs.between⟩

theorem Up.recorded (up : Up count flag s) : Complete count flag s.workloads s :=
  ⟨up.deployments.recorded, up.cronJobs.recorded⟩

theorem Complete.quiesce (complete : Complete count flag snap s) : Complete count flag snap (s.quiesce o) where
  deployments := by
    refine complete.deployments.rename ?_
    intro d mem
    obtain ⟨w, memw, rfl⟩ := mem_map.mp mem
    exact ⟨w, memw, pause_name.symm⟩
  cronJobs := by
    refine complete.cronJobs.rename ?_
    intro c mem
    obtain ⟨w, memw, rfl⟩ := mem_map.mp mem
    exact ⟨w, memw, pause_name.symm⟩

theorem Base.quiesce (base : Base count flag s) : Base count flag (s.quiesce o) where
  scaled := base.scaled.quiesce
  status := base.status
  recorded := by
    intro suspended
    obtain ⟨snap, recorded, faithful, complete⟩ := base.recorded suspended
    exact ⟨snap, recorded, faithful, complete.quiesce⟩

theorem quiesce_unchanged (throws : o.throws = true)
    (resting : (∀ d ∈ s.deployments, d.name ∉ o.missed → d.setting = 0) ∧
      ∀ c ∈ s.cronJobs, c.name ∉ o.missedJobs → c.setting = true) : s.quiesce o = s := by
  simp [Site.quiesce, throws, pause_unchanged resting.1, pause_unchanged resting.2]

theorem Scaled.unquiesce (scaled : Scaled count flag s) (faithful : Faithful count flag snap) :
    Scaled count flag (s.unquiesce snap o) :=
  ⟨scaled.deployments.resume faithful.deployments, scaled.cronJobs.resume faithful.cronJobs⟩

theorem Complete.unquiesce {snap' : QuiesceSnapshot} (complete : Complete count flag snap' s) :
    Complete count flag snap' (s.unquiesce snap o) where
  deployments := by
    refine complete.deployments.rename ?_
    intro d mem
    obtain ⟨w, memw, rfl⟩ := mem_map.mp mem
    exact ⟨w, memw, (resume_name _ _ _ w).symm⟩
  cronJobs := by
    refine complete.cronJobs.rename ?_
    intro c mem
    obtain ⟨w, memw, rfl⟩ := mem_map.mp mem
    exact ⟨w, memw, (resume_name _ _ _ w).symm⟩

theorem Base.unquiesce (base : Base count flag s) (faithful : Faithful count flag snap) :
    Base count flag (s.unquiesce snap o) where
  scaled := base.scaled.unquiesce faithful
  status := base.status
  recorded := by
    intro suspended
    obtain ⟨snap, recorded, faithful, complete⟩ := base.recorded suspended
    exact ⟨snap, recorded, faithful, complete.unquiesce⟩

theorem Scaled.brought_up (scaled : Scaled count flag s) (faithful : Faithful count flag snap)
    (complete : Complete count flag snap s) (spares : Spares 0 o.missed snap.deployments s.deployments ∧
      Spares true o.missedJobs snap.cronJobs s.cronJobs) : Up count flag (s.unquiesce snap o) :=
  ⟨scaled.deployments.restored faithful.deployments complete.deployments spares.1,
    scaled.cronJobs.restored faithful.cronJobs complete.cronJobs spares.2⟩

theorem cascade_active (single : ∀ d ∈ s.deployments, d.labels.custom = true → d.name ∉ o.missed → d.setting = 1) :
    s.cascade .active o = { s with tenant := if o.takes then setStatus .active s.tenant else s.tenant } := by
  have kept : s.deployments.map (scaleCustomK8sDeployments 1 o) = s.deployments := by
    refine (map_congr_left ?_).trans (map_id s.deployments)
    intro d mem
    unfold scaleCustomK8sDeployments
    split
    · rename_i custom
      rw [← single d mem custom.1 custom.2]
      rfl
    · rfl
  simp [Site.cascade, kept]

end Workloads

section Snapshot
variable {count : String → Nat} {flag : String → Bool}

variable {up : Bool} {p : Site × Locals} {step : Step}

theorem Snapshotting.lower (before : Snapshotting count flag up p) : Snapshotting count flag false p :=
  ⟨before.base, before.opType, before.own, before.found, before.none, nofun⟩

theorem Snapshotting.asFound (before : Snapshotting count flag up p) (found : AsFound p) :
    Snapshotting count flag true p where
  base := before.base
  opType := before.opType
  own := before.own
  found := before.found
  none := before.none
  up := by
    intro _ active
    cases held : p.2.quiesceSnap with
    | none => exact before.none held active
    | some snap =>
      have literal := ((before.found snap held).2 active).1
      obtain ⟨deployments, cronJobs⟩ := found snap held
      exact ⟨literal.deployments.intact deployments, literal.cronJobs.intact cronJobs⟩

theorem snapshotting_act {s : Site} {v : Locals} {o : Fate} (other : step.works = false)
    (before : Snapshotting count flag up (s, v)) : Snapshotting count flag up (step.act s v o, step.note s v o) := by
  rw [note_other (by rintro rfl; contradiction)]
  exact (act_work other).remains.snapshotting before

theorem snapshotting_leads (other : step.works = false) :
    Leads statements Careful (Snapshotting count flag false) (Snapshotting count flag up) step
      (Snapshotting count flag up) := by
  rintro ⟨s, v⟩ o before _
  split
  · exact (snapshotting_act other before).lower
  · exact snapshotting_act other before

theorem snapshotting_handled (other : step.works = false)
    (careful : ∀ p o, p.2.opType = .snapshot → Careful p step o → o.throws = true → AsFound p)
    (possible : ∀ (s : Site) v, s.possible v step = true) :
    Leads statements Careful (Snapshotting count flag true) (Snapshotting count flag false) step
      (Snapshotting count flag false) := by
  rintro ⟨s, v⟩ o before allowed
  split
  · rename_i thrown
    have throws : o.throws = true := by
      obtain ⟨_, throws | impossible⟩ := throws_iff.mp thrown
      · exact throws
      · rw [possible s v] at impossible
        contradiction
    exact snapshotting_act other (before.asFound (careful _ o before.opType allowed throws))
  · exact snapshotting_act other before

theorem snapshotting_quiesce : Leads statements Careful (Snapshotting count flag false)
    (Snapshotting count flag true) .quiesce (Snapshotting count flag false) := by
  rintro ⟨s, v⟩ o before careful
  have base : Base count flag (s.quiesce o) := before.base.quiesce
  by_cases throws : o.throws = true
  · rw [if_pos (throws_iff.mpr ⟨rfl, .inl throws⟩)]
    show Snapshotting count flag false (s.quiesce o, Step.note s v o .quiesce)
    rw [Step.note, if_pos throws]
    refine ⟨base, before.opType, before.own, ?_, ?_, by simp⟩
    · intro snap held
      obtain ⟨faithful, active⟩ := before.found snap held
      exact ⟨faithful, fun is => ⟨(active is).1, (active is).2.quiesce⟩⟩
    · intro _ active
      rw [quiesce_unchanged throws (careful active throws)]
      exact before.up rfl active
  · have smooth : o.throws = false := by simpa using throws
    rw [if_neg (ne_true_of_eq_false (not_throws_iff.mpr (.inr ⟨smooth, rfl⟩)))]
    show Snapshotting count flag false (s.quiesce o, Step.note s v o .quiesce)
    rw [Step.note, if_neg throws]
    refine ⟨base, before.opType, before.own, ?_, by simp, by simp⟩
    intro snap held
    cases held
    exact ⟨before.base.scaled.workloads, fun active =>
      ⟨(before.up rfl active).literal, (before.up rfl active).recorded.quiesce⟩⟩

theorem snapshotting_unquiesce {caught : Site × Locals → Prop}
    (unquiesces : step = .unquiesce ∨ step = .unquiesceQuietly)
    (ends : ∀ p, Snapshotting count flag true p → caught p) :
    Leads statements Careful caught (Snapshotting count flag false) step (Snapshotting count flag true) := by
  rintro ⟨s, v⟩ o before careful
  have act : step.act s v o = v.quiesceSnap.elim s (s.unquiesce · o) := by
    rcases unquiesces with rfl | rfl <;> rfl
  have note : step.note s v o = v := by
    rcases unquiesces with rfl | rfl <;> rfl
  have after : Snapshotting count flag true (step.act s v o, step.note s v o) := by
    rw [act, note]
    cases held : v.quiesceSnap with
    | none =>
      exact ⟨before.base, before.opType, before.own, before.found, before.none, fun _ => before.none held⟩
    | some snap =>
      have spares : Spares 0 o.missed snap.deployments s.deployments ∧
          Spares true o.missedJobs snap.cronJobs s.cronJobs := by
        rcases unquiesces with rfl | rfl
        all_goals exact careful snap held
      obtain ⟨faithful, active⟩ := before.found snap held
      have up (is : s.tenant.status = .active) : Up count flag (s.unquiesce snap o) :=
        before.base.scaled.brought_up faithful (active is).2 spares
      refine ⟨before.base.unquiesce faithful, before.opType, before.own, ?_, fun _ => up, fun _ => up⟩
      intro snap' same
      cases held.symm.trans same
      exact ⟨faithful, fun is => ⟨(active is).1, (active is).2.unquiesce⟩⟩
  split
  · exact ends _ after
  · exact after

theorem snapshotting_valid : (snapshotting count flag).Valid statements Careful where
  body := by
    refine valid_segment [] Step.quiesce (fun _ mem => absurd mem not_mem_nil) snapshotting_quiesce
      (valid_segment [Step.waitForQuiesced, .updateOp none, .snapshotTenantPVC,
        .snapshotStatus .ready, .updateOp (some .idle)] .unquiesce ?_
        (snapshotting_unquiesce (.inl rfl) (fun _ => Snapshotting.lower)) (valid_throughout ?_))
    all_goals simp
    · exact ⟨snapshotting_leads rfl, snapshotting_leads rfl, snapshotting_leads rfl,
        snapshotting_leads rfl, snapshotting_leads rfl⟩
    · exact ⟨snapshotting_leads rfl, snapshotting_leads rfl, snapshotting_leads rfl⟩
  handler := by
    refine valid_segment [Step.snapshotStatus .failed, .updateOp (some .failed)]
      .unquiesceQuietly ?_ (snapshotting_unquiesce (.inr rfl) (fun _ => id))
      (valid_throughout ?_)
    all_goals simp
    · exact ⟨snapshotting_handled rfl (fun _ _ snapshot careful => careful snapshot) (fun _ _ => rfl),
        snapshotting_handled rfl (fun _ _ snapshot careful => careful snapshot) (fun _ _ => rfl)⟩
    rintro ⟨s, v⟩ o before _
    split
    all_goals exact snapshotting_act rfl before

end Snapshot

section Suspension
variable {count : String → Nat} {flag : String → Bool}

theorem suspending_quiesce : Leads statements Careful (NotSuspended count flag)
    (NotSuspended count flag) .quiesce (Suspending count flag .active) := by
  rintro ⟨s, v⟩ o before careful
  by_cases throws : o.throws = true
  · rw [if_pos (throws_iff.mpr ⟨rfl, .inl throws⟩)]
    show NotSuspended count flag (s.quiesce o, Step.note s v o .quiesce)
    rw [Step.note, if_pos throws, quiesce_unchanged throws (careful before.status throws)]
    exact before
  have smooth : o.throws = false := by simpa using throws
  rw [if_neg (ne_true_of_eq_false (not_throws_iff.mpr (.inr ⟨smooth, rfl⟩)))]
  show Suspending count flag .active (s.quiesce o, Step.note s v o .quiesce)
  rw [Step.note, if_neg throws]
  exact ⟨before.up.scaled.quiesce, before.status, before.opType, before.own,
    s.workloads, rfl, before.up.scaled.workloads, before.up.recorded.quiesce⟩

variable {s : Site} {o : Fate}

theorem Scaled.cascade (scaled : Scaled count flag s) (own : s.isSystem = false) :
    Scaled count flag (s.cascade .suspended o) := by
  rw [cascade_suspended own]
  refine ⟨?_, scaled.cronJobs⟩
  intro d mem
  obtain ⟨w, memw, rfl⟩ := mem_map.mp mem
  unfold scaleCustomK8sDeployments
  split
  · exact .inl rfl
  · exact scaled.deployments w (mem_of_mem_filter memw)

theorem Complete.cascade {snap : QuiesceSnapshot} (complete : Complete count flag snap s)
    (own : s.isSystem = false) : Complete count flag snap (s.cascade .suspended o) := by
  rw [cascade_suspended own]
  refine ⟨?_, complete.cronJobs⟩
  refine complete.deployments.rename ?_
  intro d mem
  obtain ⟨w, memw, rfl⟩ := mem_map.mp mem
  exact ⟨w, mem_of_mem_filter memw, (scaleCustom_name 0 o w).symm⟩

theorem suspending_cascade : Leads statements Careful (NotSuspended count flag)
    (Suspending count flag .active) (.cascade .suspended) (Suspending count flag .suspended) := by
  rintro ⟨s, v⟩ o before ⟨takes, notSystem⟩
  have own : s.isSystem = false := notSystem
  show Suspending count flag .suspended (s.cascade .suspended o, v)
  obtain ⟨snap, held, faithful, complete⟩ := before.found
  refine ⟨before.scaled.cascade own, ?_, before.opType, ?_, snap, held, faithful, complete.cascade own⟩
  · rw [cascade_suspended own, takes]
    rfl
  · rw [cascade_suspended own]
    exact before.own

theorem suspending_save : Leads statements Careful (NotSuspended count flag)
    (Suspending count flag .suspended) .saveQuiesceSnapshot (SuspensionMade count flag) := by
  rintro ⟨s, v⟩ o before careful
  have smooth : o.throws = false := careful
  have quiet : statements.throws (s, v) .saveQuiesceSnapshot o = false := not_throws_iff.mpr (.inr ⟨smooth, rfl⟩)
  rw [quiet]
  have act : Step.act s v o .saveQuiesceSnapshot =
      s.updateOperation v.opId (setQuiesceSnapshot v.quiesceSnap) := by
    simp [Step.act, Site.write, Fate.takes, smooth]
  show SuspensionMade count flag (Step.act s v o .saveQuiesceSnapshot, v)
  rw [act]
  obtain ⟨snap, held, faithful, complete⟩ := before.found
  obtain ⟨op, first, same⟩ := map_eq_some_iff.mp before.own
  obtain ⟨rest, operations⟩ := head?_eq_some_iff.mp first
  obtain ⟨id, suspend⟩ := Prod.mk.inj same
  have opType : op.opType = .suspend := suspend
  have written : (s.updateOperation v.opId (setQuiesceSnapshot v.quiesceSnap)).operations =
      setQuiesceSnapshot v.quiesceSnap op ::
        rest.map (apply (fun op => op.id == v.opId) (setQuiesceSnapshot v.quiesceSnap)) := by
    have own : (op.id == v.opId) = true := beq_iff_eq.mpr id
    show s.operations.map _ = _
    rw [operations, map_cons, apply, if_pos own]
  have recorded : (s.updateOperation v.opId (setQuiesceSnapshot v.quiesceSnap)).pauseOnRecord = some snap := by
    rw [Site.pauseOnRecord, Site.lastSuspend, written, find?_cons_of_pos]
    · exact held
    show (op.opType == .suspend) = true
    rw [opType]
    rfl
  have scaled : Scaled count flag (s.updateOperation v.opId (setQuiesceSnapshot v.quiesceSnap)) :=
    ⟨before.scaled.deployments, before.scaled.cronJobs⟩
  refine ⟨⟨⟨scaled, .inr before.status, ?_⟩, ?_, ?_⟩, before.status, before.opType⟩
  · exact fun _ => ⟨snap, recorded, faithful, complete.deployments, complete.cronJobs⟩
  · intro active
    have suspended : s.tenant.status = .suspended := before.status
    have active : s.tenant.status = .active := active
    rw [suspended] at active
    contradiction
  · intro op' newest _ failed
    rw [written] at newest
    cases newest
    contradiction

theorem suspending_ends : Leads statements Careful (NotSuspended count flag)
    (SuspensionMade count flag) (.markTenant .idle) (SuspensionMade count flag) := by
  rintro ⟨s, v⟩ o before careful
  have smooth : o.throws = false := careful before.opType before.status
  have quiet : statements.throws (s, v) (.markTenant .idle) o = false := not_throws_iff.mpr (.inr ⟨smooth, rfl⟩)
  rw [quiet]
  have same : SameWork s (Step.act s v o (.markTenant .idle)) := act_work rfl
  have operations : (Step.act s v o (.markTenant .idle)).operations = s.operations := by
    simp only [Step.act, Site.write]
    split <;> rfl
  exact ⟨same.remains.settled operations before.settled, same.status.trans before.status, before.opType⟩

theorem suspending_valid : (suspending count flag).Valid statements Careful where
  body := by
    refine ⟨suspending_quiesce, suspending_cascade, suspending_save, suspending_ends, trivial⟩
  handler := by
    refine valid_throughout ?_
    intro step mem
    rintro ⟨s, v⟩ o before _
    have after : NotSuspended count flag (step.act s v o, step.note s v o) := by
      simp only [suspendTenant, mem_cons, not_mem_nil, or_false] at mem
      rcases mem with rfl | rfl
      all_goals exact (act_work rfl).remains.notSuspended before
    split
    all_goals exact after

end Suspension

section Resumption
variable {count : String → Nat} {flag : String → Bool}

variable {up : Bool}

theorem Resuming.lower {p : Site × Locals} (before : Resuming count flag up p) : Resuming count flag false p :=
  ⟨before.base, before.opType, before.own, before.found, before.active, nofun⟩

theorem resuming_kept {step : Step} (other : step.works = false) :
    Preserves statements Careful (Resuming count flag up) step := by
  rintro ⟨s, v⟩ o before _
  show Resuming count flag up (step.act s v o, step.note s v o)
  rw [note_other (by rintro rfl; contradiction)]
  exact (act_work other).remains.resuming before

theorem resuming_unquiesce : Leads statements Careful (Resuming count flag false)
    (Resuming count flag false) .unquiesce (Resuming count flag true) := by
  rintro ⟨s, v⟩ o before careful
  obtain ⟨snap, held, faithful, complete⟩ := before.found
  have held' : v.quiesceSnap = some snap := held
  have up : Up count flag (s.unquiesce snap o) :=
    before.base.scaled.brought_up faithful complete (careful snap held)
  have after : Resuming count flag true (s.unquiesce snap o, v) :=
    ⟨before.base.unquiesce faithful, before.opType, before.own,
      ⟨snap, held, faithful, complete.unquiesce⟩, fun _ => up, fun _ => up⟩
  have performed : statements.perform (s, v) .unquiesce o = (s.unquiesce snap o, v) := by
    show (v.quiesceSnap.elim s (s.unquiesce · o), v) = _
    rw [held']
    rfl
  rw [performed]
  split
  · exact after.lower
  · exact after

theorem resuming_cascade : Leads statements Careful (Resuming count flag false)
    (Resuming count flag true) (.cascade .active) (Resuming count flag false) := by
  rintro ⟨s, v⟩ o before single
  show Resuming count flag false (s.cascade .active o, v)
  rw [cascade_active single]
  split
  · have up : Up count flag { s with tenant := setStatus .active s.tenant } :=
      ⟨(before.up rfl).deployments, (before.up rfl).cronJobs⟩
    obtain ⟨snap, held, faithful, complete⟩ := before.found
    exact ⟨⟨up.scaled, Or.inl rfl, nofun⟩, before.opType, before.own,
      ⟨snap, held, faithful, complete.deployments, complete.cronJobs⟩, fun _ => up, nofun⟩
  · exact before.lower

theorem resuming_valid : (resuming count flag).Valid statements Careful where
  body := by
    refine ⟨resuming_unquiesce, resuming_cascade, ?_, ?_, trivial⟩
    · exact (resuming_kept rfl).leads
    · exact (resuming_kept rfl).leads
  handler := by
    refine valid_throughout ?_
    intro step mem
    simp only [resumeTenant, mem_cons, not_mem_nil, or_false] at mem
    rcases mem with rfl | rfl
    all_goals exact (resuming_kept rfl).leads

end Resumption

section Runs
variable {count : String → Nat} {flag : String → Bool}

theorem claim_operations (s : Site) (a : Admission) : (s.claim a).1.operations =
    ⟨s.supply, s.tenant.id, a.orchestration.opType, a.orchestration.state, none⟩ :: s.operations := rfl

variable {s : Site} {a : Admission}

theorem claim_record (other : a.orchestration.opType ≠ .suspend) : (s.claim a).1.pauseOnRecord = s.pauseOnRecord := by
  rw [Site.pauseOnRecord, Site.lastSuspend, claim_operations, find?_cons_of_neg]
  · rfl
  · simpa using other

theorem Base.claim (base : Base count flag s) (other : a.orchestration.opType ≠ .suspend) :
    Base count flag (s.claim a).1 where
  scaled := ⟨base.scaled.deployments, base.scaled.cronJobs⟩
  status := base.status
  recorded := by
    rw [claim_record other]
    intro suspended
    obtain ⟨snap, recorded, faithful, complete⟩ := base.recorded suspended
    exact ⟨snap, recorded, faithful, complete.deployments, complete.cronJobs⟩

theorem restoringWorkloads_begins {c : Call} (settled : Settled count flag s)
    (accepts : (restoringWorkloads count flag).accepts s c) (admitted : s.accept c = some a) :
    ((restoringWorkloads count flag).outline c).body.pre
      ((restoringWorkloads count flag).outline c).done (s.claim a) := by
  have up (active : s.tenant.status = .active) (a : Admission) : Up count flag (s.claim a).1 :=
    ⟨(settled.active active).deployments, (settled.active active).cronJobs⟩
  cases c with
  | snapshotTenant kind =>
    cases admitted
    refine ⟨settled.base.claim nofun, rfl, ?_, nofun, fun _ active => up active _, fun _ active => up active _⟩
    intro op newest
    cases newest
    nofun
  | suspendTenant =>
    obtain ⟨other, same⟩ := ite_none_left_eq_some.mp admitted
    cases same
    have active : s.tenant.status = .active := settled.base.status.resolve_right other
    exact ⟨up active _, active, rfl, rfl⟩
  | resumeTenant =>
    obtain ⟨suspended, same⟩ := ite_none_right_eq_some.mp admitted
    cases same
    obtain ⟨snap, recorded, faithful, complete⟩ := settled.base.recorded suspended
    refine ⟨settled.base.claim nofun, rfl, ?_, ?_, ?_, nofun⟩
    · intro op newest
      cases newest
      nofun
    · exact ⟨snap, recorded, faithful, complete.deployments, complete.cronJobs⟩
    intro active
    have active : s.tenant.status = .active := active
    rw [suspended] at active
    contradiction
  | _ => exact absurd accepts id

theorem settled_of_newest (base : Base count flag s) (active : s.tenant.status = .active → Up count flag s)
    (own : ∀ op ∈ s.newest, op.2 ≠ .suspend) : Settled count flag s where
  base := base
  active := active
  failed := by
    intro op newest suspend
    exact absurd suspend (own (op.id, op.opType) (map_eq_some_iff.mpr ⟨op, newest, rfl⟩))

theorem NotSuspended.settled {p : Site × Locals} (after : NotSuspended count flag p) : Settled count flag p.1 where
  base := by
    refine ⟨after.up.scaled, .inl after.status, ?_⟩
    intro suspended
    rw [after.status] at suspended
    contradiction
  active := fun _ => after.up
  failed := fun _ _ _ _ => after.up

theorem restoringWorkloads_sound : (restoringWorkloads count flag).Sound where
  valid c := by
    cases c with
    | snapshotTenant => exact snapshotting_valid
    | suspendTenant => exact suspending_valid
    | resumeTenant => exact resuming_valid
    | _ => exact Outline.throughout_valid (fun _ _ _ _ never _ => never)
  ends c p := by
    cases c with
    | snapshotTenant =>
      rintro (after | after)
      all_goals exact settled_of_newest after.base (after.up rfl) after.own
    | suspendTenant =>
      rintro (after | after)
      · exact after.settled
      · exact after.settled
    | resumeTenant =>
      rintro (after | after)
      all_goals exact settled_of_newest after.base after.active after.own
    | _ =>
      rintro (never | never)
      all_goals exact absurd never id
  body c := by cases c <;> rfl
  handler c := by cases c <;> rfl
  begins _ _ _ := restoringWorkloads_begins

theorem remains_holds {s' : Site} {running : Option Running} (left : Remains s s')
    (same : s'.operations = s.operations) (holds : (restoringWorkloads count flag).Holds s running) :
    (restoringWorkloads count flag).Holds s' running := by
  refine holds.mono (left.settled same) ?_
  intro c v a step mem before
  cases c with
  | snapshotTenant =>
    simp only [restoringWorkloads, snapshotting, mem_append, mem_segment] at mem
    rcases mem with (⟨rfl, _⟩ | ⟨rfl, _⟩ | ⟨rfl, _⟩) | ⟨rfl, _⟩ | ⟨rfl, _⟩
    all_goals exact left.snapshotting before
  | suspendTenant =>
    simp only [restoringWorkloads, suspending, mem_append, mem_segment] at mem
    rcases mem with (⟨rfl, _⟩ | ⟨rfl, _⟩ | ⟨rfl, _⟩ | ⟨rfl, _⟩) | ⟨rfl, _⟩
    · exact left.notSuspended before
    · exact left.suspending before
    · exact left.suspending before
    · exact ⟨left.settled same before.settled, left.status.trans before.status, before.opType⟩
    · exact left.notSuspended before
  | resumeTenant =>
    simp only [restoringWorkloads, resuming, mem_append, mem_segment] at mem
    rcases mem with (⟨rfl, _⟩ | ⟨rfl, _⟩ | ⟨rfl, _⟩) | ⟨rfl, _⟩
    all_goals exact left.resuming before
  | _ =>
    simp only [restoringWorkloads, Outline.throughout, mem_append, mem_segment, ← and_or_left] at mem
    obtain ⟨rfl, _⟩ := mem
    exact before

end Runs

/-- What the operations leave of the workloads: they are up when the tenant is active, and after
a suspension that failed; and a resume goes by a record of all of them. -/
structure Undisturbed (count : String → Nat) (flag : String → Bool) (w : Work) : Prop where
  active : w.running = none → w.site.tenant.status = .active → Up count flag w.site
  failed : w.running = none → ∀ op ∈ w.site.operations.head?,
    op.opType = .suspend → op.state = .failed → Up count flag w.site
  resumes : ∀ r, w.running = some r → r.locals.opType = .resume → ∃ snap,
    r.locals.quiesceSnap = some snap ∧ Faithful count flag snap ∧ Complete count flag snap w.site

/- suspensions, resumptions and snapshots, and beside them workloads that write and go away -/
def CarefulRuns (w : Work) : Move → Prop
  | .call (.snapshotTenant _) | .call .suspendTenant | .call .resumeTenant | .write _ | .remove _
  | .setExpiry _ => True
  | .advance o => ∀ r ∈ w.running, ∀ step ∈ r.program.steps.head?, Careful (w.site, r.locals) step o
  | _ => False

theorem restoringWorkloads_step {w w' : Work} {action : Move}
    (holds : (restoringWorkloads count flag).Holds w.site w.running) (allowed : CarefulRuns w action)
    (taken : w.step action = some w') : (restoringWorkloads count flag).Holds w'.site w'.running := by
  cases (step_taken taken).2 with
  | call c =>
    refine holds.call restoringWorkloads_sound (fun _ => ?_)
    cases c <;> trivial
  | advance r o running =>
    rw [running] at holds
    exact holds.advance restoringWorkloads_sound (allowed r running)
  | write contents | setExpiry expired =>
    refine remains_holds ?_ ?_ holds
    · exact ⟨Subset.refl _, Subset.refl _, rfl, rfl, rfl⟩
    · rfl
  | remove name =>
    refine remains_holds ?_ ?_ holds
    · exact ⟨fun _ mem => mem_of_mem_filter mem, fun _ mem => mem_of_mem_filter mem,
        rfl, rfl, rfl⟩
    · rfl
  | _ =>
    exact absurd allowed id

theorem restoringWorkloads_resumes {r : Running} (holds : (restoringWorkloads count flag).Holds s (some r))
    (resumes : r.locals.opType = .resume) : ∃ snap,
      r.locals.quiesceSnap = some snap ∧ Faithful count flag snap ∧ Complete count flag snap s := by
  obtain ⟨c, covers⟩ := holds
  obtain ⟨a, step, mem, _, here⟩ := covers.assertion
  cases c with
  | resumeTenant =>
    simp only [restoringWorkloads, resuming, mem_append, mem_segment] at mem
    rcases mem with (⟨rfl, _⟩ | ⟨rfl, _⟩ | ⟨rfl, _⟩) | ⟨rfl, _⟩
    all_goals exact here.found
  | snapshotTenant =>
    have other : r.locals.opType = .snapshot := by
      simp only [restoringWorkloads, snapshotting, mem_append, mem_segment] at mem
      rcases mem with (⟨rfl, _⟩ | ⟨rfl, _⟩ | ⟨rfl, _⟩) | ⟨rfl, _⟩ | ⟨rfl, _⟩
      all_goals exact here.opType
    rw [other] at resumes
    contradiction
  | suspendTenant =>
    have other : r.locals.opType = .suspend := by
      simp only [restoringWorkloads, suspending, mem_append, mem_segment] at mem
      rcases mem with (⟨rfl, _⟩ | ⟨rfl, _⟩ | ⟨rfl, _⟩ | ⟨rfl, _⟩) | ⟨rfl, _⟩
      all_goals exact here.opType
    rw [other] at resumes
    contradiction
  | _ =>
    simp only [restoringWorkloads, Outline.throughout, mem_append, mem_segment, ← and_or_left] at mem
    obtain ⟨rfl, _⟩ := mem
    exact absurd here id

/-- Suspensions, resumptions and snapshots give the workloads back as they were, in every run
whose failures all fall where nothing is to be brought up or it is brought up yet. -/
theorem workloads_undisturbed (count : String → Nat) (flag : String → Bool) (s : Site)
    (actions : List Move) (w : Work) (active : s.tenant.status = .active) (up : Up count flag s)
    (guarded : Guarded Work.step CarefulRuns (Work.begin s) actions)
    (run : exec Work.step (Work.begin s) actions = some w) : Undisturbed count flag w := by
  have base : Base count flag s := by
    refine ⟨up.scaled, .inl active, ?_⟩
    rw [active]
    nofun
  have initial : (restoringWorkloads count flag).Holds (Work.begin s).site (Work.begin s).running :=
    ⟨base, fun _ => up, fun _ _ _ _ => up⟩
  have holds : (restoringWorkloads count flag).Holds w.site w.running :=
    guarded_invariant (fun _ _ _ holds allowed taken => restoringWorkloads_step holds allowed taken)
      initial guarded run
  have settled (ended : w.running = none) : Settled count flag w.site := by
    rw [ended] at holds
    exact holds
  refine ⟨fun ended => (settled ended).active, fun ended => (settled ended).failed, ?_⟩
  intro r running resumes
  rw [running] at holds
  exact restoringWorkloads_resumes holds resumes

instance (rest : Nat) (missed : List String) (snap : List (String × Nat)) (ws : List Deployment) :
    Decidable (Spares rest missed snap ws) := by
  unfold Spares
  infer_instance

instance (rest : Bool) (missed : List String) (snap : List (String × Bool)) (ws : List CronJob) :
    Decidable (Spares rest missed snap ws) := by
  unfold Spares
  infer_instance

instance (p : Site × Locals) : Decidable (AsFound p) := by
  unfold AsFound AsRecorded
  infer_instance

instance (p : Site × Locals) (step : Step) (o : Fate) : Decidable (Careful p step o) := by
  unfold Careful
  split <;> infer_instance

instance (w : Work) : (action : Move) → Decidable (CarefulRuns w action)
  | .call (.snapshotTenant _) | .call .suspendTenant | .call .resumeTenant | .write _ | .remove _
  | .setExpiry _ => isTrue trivial
  | .advance o => inferInstanceAs (Decidable (∀ r ∈ w.running, ∀ step ∈ r.program.steps.head?,
      Careful (w.site, r.locals) step o))
  | .call .archiveTenant | .call (.restoreArchivedTenant _) | .call (.rollbackToSnapshot _)
  | .bulkUpdateTenantStatus _ _ | .updateTenant _ _ | .suspendExpiredTenants _ | .deleteTenant
  | .recover => isFalse id

/- what the workloads of the sample have at first -/
def demoCount (name : String) : Nat := if name = "web" then 3 else 0

def demoFlag (_ : String) : Bool := false

theorem demo_up : Up demoCount demoFlag demo := by
  constructor <;> simp [Intact, demo, demoCount, demoFlag]

/- a snapshot whose Job fails, a suspension, and a resume -/
def carefulActions : List Move :=
  .call (.snapshotTenant .manual) :: List.replicate 3 (.advance .smooth) ++
    .advance ⟨true, false, [], [], .blank⟩ :: List.replicate 4 (.advance .smooth) ++
      .call .suspendTenant :: List.replicate 4 (.advance .smooth) ++
        .call .resumeTenant :: List.replicate 4 (.advance .smooth)

theorem workloads_undisturbed_demo : ∃ w, exec Work.step (Work.begin demo) carefulActions = some w ∧
    w.running = none ∧ w.site.tenant.status = .active ∧ Undisturbed demoCount demoFlag w :=
  ⟨_, rfl, rfl, rfl, workloads_undisturbed demoCount demoFlag demo carefulActions _ rfl demo_up (by decide) rfl⟩

/-- The CronJobs cannot be listed once the Deployment has been scaled down: the suspension fails,
and the tenant is active with nothing up. -/
theorem failed_suspension_disturbs : ∃ w,
    exec Work.step (Work.begin demo) [.call .suspendTenant,
      .advance ⟨true, false, [], ["nightly"], .blank⟩, .advance .smooth, .advance .smooth] = some w ∧
      Up demoCount demoFlag demo ∧ demo.tenant.status = .active ∧
      ¬ Undisturbed demoCount demoFlag w := by
  refine ⟨_, rfl, demo_up, rfl, ?_⟩
  intro undisturbed
  have up := undisturbed.active rfl rfl
  have web := up.deployments ⟨"web", ⟨false, true⟩, 0⟩ mem_cons_self
  exact absurd web (by decide)

end HostingPlatform.Storage
