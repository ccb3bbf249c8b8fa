import HostingPlatform.Storage.Effects

/-! Where a tenant's data is while it is archived and restored. One handler serves every
failure of an archive, and takes back the snapshot although the volume may be gone. -/
namespace HostingPlatform.Storage

open List Pausing Programs Annotation Transition

/-- In the volume, or in the archive of a snapshot that is ready. -/
def Kept (s : Site) : Prop :=
  s.volume = some s.data ∨ ∃ snap ∈ s.snapshots, snap.status = .ready ∧ s.archives snap.id = some s.data

/-- In the volume, or where a restore that the tenant may call takes it from. -/
def Safe (s : Site) : Prop :=
  s.volume = some s.data ∨ ∃ c a,
    ((∃ newGi, c = .restoreArchivedTenant newGi) ∨ ∃ snapshotId, c = .rollbackToSnapshot snapshotId) ∧
      s.accept c = some a ∧ a.snapId.bind s.archives = some s.data

def Fresh (s : Site) : Prop := ∀ snap ∈ s.snapshots, snap.id < s.supply

def OwnReady (p : Site × Locals) : Prop :=
  ∃ snap ∈ p.1.snapshots, some snap.id = p.2.snapId ∧ snap.status = .ready

/-- Where the handler of an archive takes the snapshot back, the volume is there still, or the
snapshot was not ready. -/
def VolumeOutlives (p : Site × Locals) (step : Step) (o : Fate) : Prop :=
  step = .snapshotStatus .failed → o.takes = true → p.1.volume.isSome = true ∨ ¬ OwnReady p

/- where an archive stands: whether the workloads are down, whether the archive has been made
of what the volume holds, and whether the snapshot is ready -/
structure Archiving (paused archived ready : Bool) (p : Site × Locals) : Prop where
  fresh : Fresh p.1
  kept : Kept p.1
  row : ∃ snap ∈ p.1.snapshots, some snap.id = p.2.snapId
  unready : ready = false → ¬ OwnReady p
  ready : ready = true → OwnReady p
  paused : paused = true → p.1.busy = false
  archived : archived = true → ∀ c, p.1.volume = some c → p.2.snapId.bind p.1.archives = some c

structure Gone (p : Site × Locals) : Prop where
  fresh : Fresh p.1
  kept : Kept p.1
  gone : p.1.volume = none

/- in the handler: a snapshot that is ready has no data that the volume, where there is one,
has not -/
structure Failing (p : Site × Locals) : Prop where
  fresh : Fresh p.1
  kept : Kept p.1
  same : OwnReady p → p.2.snapId.bind p.1.archives = some p.1.data →
    ∀ c, p.1.volume = some c → c = p.1.data

structure Restoring (p : Site × Locals) : Prop where
  fresh : Fresh p.1
  kept : Kept p.1
  ready : OwnReady p

def archiving : Outline (Site × Locals) Step where
  body :=
    segment (Archiving false false false) [.updateOp (some .quiescing), .quiesce] ++
    (segment (Archiving true false false) [.waitForQuiesced, .updateOp (some .snapshotting),
      .currentTenantId, .snapshotTenantPVC] ++
    (segment (Archiving true true false) [.snapshotStatus .ready] ++
    (segment (Archiving true true true) [.updateOp (some .replacing), .deleteWorkloads, .deletePVC] ++
    segment Gone [.updateOp (some .archiving), .cascade .archived, .updateOp (some .idle),
      .markTenant .idle])))
  handler := segment Failing runArchive.handler
  done := Gone
  failed := Failing

def keeping : Discipline where
  outline
    | .archiveTenant => archiving
    | .restoreArchivedTenant newGi => .throughout Restoring (runRestoreArchive newGi).body
        (runRestoreArchive newGi).handler
    | .rollbackToSnapshot _ => .throughout Restoring runRollbackToSnapshot.body
        runRollbackToSnapshot.handler
    | c => .throughout (fun _ => False) c.orchestration.body c.orchestration.handler
  rest := fun s => Fresh s ∧ Kept s
  ok := VolumeOutlives
  accepts := fun _ c => match c with
    | .archiveTenant | .restoreArchivedTenant _ | .rollbackToSnapshot _ => True
    | _ => False

section Store
variable {s s' : Site} {v : Locals}

theorem SameStore.kept (same : SameStore s s') (kept : Kept s) : Kept s' := by
  unfold Kept
  rw [same.volume, same.archives, same.snapshots, same.data]
  exact kept

theorem SameStore.fresh (same : SameStore s s') (fresh : Fresh s) : Fresh s' := by
  unfold Fresh
  rw [same.snapshots, same.supply]
  exact fresh

theorem SameStore.ownReady (same : SameStore s s') : OwnReady (s', v) ↔ OwnReady (s, v) := by
  unfold OwnReady
  rw [same.snapshots]

theorem SameStore.archiving {paused archived ready : Bool} (same : SameStore s s')
    (down : paused = true → s'.busy = false) (before : Archiving paused archived ready (s, v)) :
    Archiving paused archived ready (s', v) where
  fresh := same.fresh before.fresh
  kept := same.kept before.kept
  row := by
    rw [same.snapshots]
    exact before.row
  unready := fun not own => before.unready not (same.ownReady.mp own)
  ready := fun own => same.ownReady.mpr (before.ready own)
  paused := down
  archived := by
    rw [same.volume, same.archives]
    exact before.archived

theorem SameStore.failing (same : SameStore s s') (before : Failing (s, v)) : Failing (s', v) where
  fresh := same.fresh before.fresh
  kept := same.kept before.kept
  same := by
    rw [same.ownReady, same.volume, same.archives, same.data]
    exact before.same

theorem SameStore.restoring (same : SameStore s s') (before : Restoring (s, v)) : Restoring (s', v) where
  fresh := same.fresh before.fresh
  kept := same.kept before.kept
  ready := same.ownReady.mpr before.ready

theorem SameStore.gone (same : SameStore s s') (before : Gone (s, v)) : Gone (s', v) where
  fresh := same.fresh before.fresh
  kept := same.kept before.kept
  gone := same.volume.trans before.gone

end Store

variable {p : Site × Locals} {s : Site} {c : Call} {running : Option Running}

theorem Archiving.failing {paused archived ready : Bool} (before : Archiving paused archived ready p)
    (made : ready = true → archived = true) : Failing p where
  fresh := before.fresh
  kept := before.kept
  same := by
    intro own held c there
    cases ready with
    | false => exact absurd own (before.unready rfl)
    | true =>
      have all := before.archived (made rfl) c there
      rw [held] at all
      exact (Option.some.inj all).symm

theorem Gone.failing (before : Gone p) : Failing p where
  fresh := before.fresh
  kept := before.kept
  same := by
    intro _ _ c there
    rw [before.gone] at there
    contradiction

section Leads

variable {step : Step} {s : Site} {v : Locals} {id : Nat} {o : Fate}

section

variable {paused archived ready : Bool} (made : ready = true → archived = true) (other : step.stores = false)
include made other

theorem archiving_leads (note : step ≠ .quiesce)
    (down : ∀ s v o, paused = true → s.busy = false → (step.act s v o).busy = false) :
    Leads statements VolumeOutlives Failing (Archiving paused archived ready) step
      (Archiving paused archived ready) := by
  rintro ⟨s, v⟩ o before _
  have after : Archiving paused archived ready (step.act s v o, step.note s v o) := by
    rw [note_other note]
    exact (act_store other).archiving (fun up => down s v o up (before.paused up)) before
  split
  · exact after.failing made
  · exact after

theorem clerical_leads (clerical : step.clerical = true) :
    Leads statements VolumeOutlives Failing (Archiving paused archived ready) step
      (Archiving paused archived ready) := by
  refine archiving_leads made other ?_ ?_
  · rintro rfl
    contradiction
  · intro s v o _ down
    exact (clerical_act clerical).busy.trans down

end

theorem deleteWorkloads_busy (o : Fate) (down : s.busy = false) :
    (s.deleteAllDeploymentsCronJobsServices o).busy = false := by
  simp only [Site.busy, Bool.or_eq_false_iff, any_eq_false] at down ⊢
  refine ⟨?_, ?_⟩
  · intro d mem
    exact down.1 d (mem_of_mem_filter mem)
  · intro c mem
    exact down.2 c (mem_of_mem_filter mem)

theorem quiesce_leads : Leads statements VolumeOutlives Failing (Archiving false false false)
    .quiesce (Archiving true false false) := by
  rintro ⟨s, v⟩ o before _
  have stores : Step.stores .quiesce = false := rfl
  have same : SameStore s (s.quiesce o) := act_store (v := v) stores
  have after : Archiving false false false (s.quiesce o, v) := same.archiving nofun before
  by_cases throws : o.throws = true
  · rw [if_pos (throws_iff.mpr ⟨rfl, .inl throws⟩)]
    show Failing (s.quiesce o, Step.note s v o .quiesce)
    rw [Step.note, if_pos throws]
    exact after.failing (by simp)
  have smooth : o.throws = false := by simpa using throws
  rw [if_neg (ne_true_of_eq_false (not_throws_iff.mpr (.inr ⟨smooth, rfl⟩)))]
  show Archiving true false false (s.quiesce o, Step.note s v o .quiesce)
  rw [Step.note, if_neg throws]
  exact ⟨after.fresh, after.kept, after.row, after.unready, by simp, fun _ => quiesce_idle smooth,
    by simp⟩

theorem kept_update (kept : Kept s) (own : v.snapId = some id) (unready : ¬ OwnReady (s, v))
    (archive : Option Contents) : Kept { s with archives := Function.update s.archives id archive } := by
  rcases kept with volume | ⟨snap, mem, ready, held⟩
  · exact .inl volume
  refine .inr ⟨snap, mem, ready, ?_⟩
  have other : snap.id ≠ id := by
    rintro rfl
    exact unready ⟨snap, mem, own.symm, ready⟩
  show Function.update s.archives id archive snap.id = some s.data
  rw [Function.update_of_ne other]
  exact held

theorem archive_updates (own : v.snapId = some id) (o : Fate) : s.archive v o = s ∨
      ∃ archive, s.archive v o = { s with archives := Function.update s.archives id archive } := by
  cases there : s.volume with
  | none =>
    left
    simp [Site.archive, there]
  | some contents =>
    simp only [Site.archive, own, there]
    repeat' split
    · exact .inr ⟨_, rfl⟩
    · exact .inl rfl
    · exact .inr ⟨_, rfl⟩

theorem archive_leads : Leads statements VolumeOutlives Failing (Archiving true false false)
    .snapshotTenantPVC (Archiving true true false) := by
  rintro ⟨s, v⟩ o before _
  obtain ⟨row, memRow, named⟩ := before.row
  have own : v.snapId = some row.id := named.symm
  have updated (archive : Option Contents) : Archiving true false false
      ({ s with archives := Function.update s.archives row.id archive }, v) :=
    ⟨before.fresh, kept_update before.kept own (before.unready rfl) archive, before.row,
      before.unready, nofun, before.paused, nofun⟩
  have after : Archiving true false false (s.archive v o, v) := by
    rcases archive_updates own o with same | ⟨archive, same⟩
    · rw [same]
      exact before
    · rw [same]
      exact updated archive
  by_cases quiet : statements.throws (s, v) .snapshotTenantPVC o = false
  · rw [quiet]
    obtain ⟨smooth, possible⟩ := (not_throws_iff.mp quiet).resolve_left nofun
    obtain ⟨contents, there⟩ : ∃ contents, s.volume = some contents := by
      refine Option.isSome_iff_exists.mp ?_
      simp only [Site.possible, Bool.and_eq_true] at possible
      exact possible.1
    have made : s.archive v o = { s with archives := Function.update s.archives row.id (some contents) } := by
      simp [Site.archive, own, there, smooth]
    show Archiving true true false (s.archive v o, v)
    refine ⟨after.fresh, after.kept, after.row, after.unready, nofun, after.paused, ?_⟩
    intro _ c holds
    rw [made] at holds ⊢
    have same : some contents = some c := there.symm.trans holds
    show v.snapId.bind (Function.update s.archives row.id (some contents)) = some c
    rw [own, Option.bind_some, Function.update_self]
    exact same
  · rw [if_pos (by simpa using quiet)]
    exact after.failing nofun

theorem mem_updateSnapshot {snapId : Option Nat} {status : SnapshotStatus} {snap : Snapshot} :
    snap ∈ (s.updateSnapshot snapId (setSnapshotState status)).snapshots ↔ ∃ old ∈ s.snapshots,
      (if some old.id = snapId then setSnapshotState status old else old) = snap := by
  simp [Site.updateSnapshot, Table.apply, mem_map]

theorem fresh_updateSnapshot (fresh : Fresh s) (snapId : Option Nat) (status : SnapshotStatus) :
    Fresh (s.updateSnapshot snapId (setSnapshotState status)) := by
  intro snap mem
  obtain ⟨old, memOld, rfl⟩ := mem_updateSnapshot.mp mem
  split
  all_goals exact fresh old memOld

theorem kept_ready (kept : Kept s) (snapId : Option Nat) :
    Kept (s.updateSnapshot snapId (setSnapshotState .ready)) := by
  rcases kept with volume | ⟨old, mem, ready, held⟩
  · exact .inl volume
  refine .inr ⟨_, mem_updateSnapshot.mpr ⟨old, mem, rfl⟩, ?_, ?_⟩
  · split
    · rfl
    · exact ready
  · split
    all_goals exact held

theorem Failing.takenBack (before : Failing (s, v)) (outlives : s.volume.isSome = true ∨ ¬ OwnReady (s, v)) :
    Kept (s.updateSnapshot v.snapId (setSnapshotState .failed)) := by
  rcases before.kept with volume | ⟨old, mem, ready, held⟩
  · exact .inl volume
  by_cases own : some old.id = v.snapId
  · left
    have ownReady : OwnReady (s, v) := ⟨old, mem, own, ready⟩
    obtain ⟨c, there⟩ := Option.isSome_iff_exists.mp (outlives.resolve_right (fun not => not ownReady))
    have same : c = s.data := by
      refine before.same ownReady ?_ c there
      rw [← own]
      exact held
    show s.volume = some s.data
    rw [there, same]
  · refine .inr ⟨old, mem_updateSnapshot.mpr ⟨old, mem, if_neg own⟩, ready, held⟩

theorem ready_leads : Leads statements VolumeOutlives Failing (Archiving true true false)
    (.snapshotStatus .ready) (Archiving true true true) := by
  rintro ⟨s, v⟩ o before _
  obtain ⟨row, memRow, own⟩ := before.row
  have mem : setSnapshotState .ready row ∈ (s.updateSnapshot v.snapId (setSnapshotState .ready)).snapshots :=
    mem_updateSnapshot.mpr ⟨row, memRow, if_pos own⟩
  have marked : Archiving true true true (s.updateSnapshot v.snapId (setSnapshotState .ready), v) :=
    ⟨fresh_updateSnapshot before.fresh _ _, kept_ready before.kept _, ⟨_, mem, own⟩, nofun,
      fun _ => ⟨_, mem, own, rfl⟩, before.paused, before.archived⟩
  show if statements.throws (s, v) _ o = true
    then Failing (s.write o (s.updateSnapshot v.snapId (setSnapshotState .ready)), v)
    else Archiving true true true (s.write o (s.updateSnapshot v.snapId (setSnapshotState .ready)), v)
  unfold Site.write
  split
  · split
    · exact marked.failing (fun _ => rfl)
    · exact before.failing nofun
  · rename_i quiet
    have smooth : o.throws = false := by simpa [statements, Step.quiet, Site.possible] using quiet
    rw [if_pos (by simp [Fate.takes, smooth])]
    exact marked

theorem deletePVC_leads : Leads statements VolumeOutlives Failing (Archiving true true true) .deletePVC Gone := by
  rintro ⟨s, v⟩ o before _
  have gone : Gone ({ s with volume := none }, v) := by
    refine ⟨before.fresh, ?_, rfl⟩
    rcases before.kept with volume | row
    · obtain ⟨snap, mem, own, ready⟩ := before.ready rfl
      refine .inr ⟨snap, mem, ready, ?_⟩
      have held := before.archived rfl s.data volume
      rw [← own] at held
      exact held
    · exact .inr row
  show if statements.throws (s, v) _ o = true
    then Failing (s.write o { s with volume := none }, v)
    else Gone (s.write o { s with volume := none }, v)
  unfold Site.write
  split
  · split
    · exact gone.failing
    · exact before.failing (fun _ => rfl)
  · rename_i quiet
    have smooth : o.throws = false := by simpa [statements, Step.quiet, Site.possible] using quiet
    rw [if_pos (by simp [Fate.takes, smooth])]
    exact gone

theorem gone_leads (other : step.stores = false) (note : step ≠ .quiesce) :
    Leads statements VolumeOutlives Failing Gone step Gone := by
  rintro ⟨s, v⟩ o before _
  have after : Gone (step.act s v o, step.note s v o) := by
    rw [note_other note]
    exact (act_store other).gone before
  split
  · exact after.failing
  · exact after

theorem failing_kept (mem : step ∈ runArchive.handler) : Preserves statements VolumeOutlives Failing step := by
  rintro ⟨s, v⟩ o before outlives
  have note : step.note s v o = v := by
    refine note_other ?_
    rintro rfl
    simp [runArchive] at mem
  show Failing (step.act s v o, step.note s v o)
  rw [note]
  by_cases takesBack : step = .snapshotStatus .failed
  · subst takesBack
    show Failing (s.write o (s.updateSnapshot v.snapId (setSnapshotState .failed)), v)
    unfold Site.write
    split
    · rename_i takes
      refine ⟨fresh_updateSnapshot before.fresh _ _, before.takenBack (outlives rfl takes), ?_⟩
      rintro ⟨snap, memSnap, own, ready⟩ _
      obtain ⟨old, memOld, rfl⟩ := mem_updateSnapshot.mp memSnap
      exfalso
      split at ready
      · contradiction
      rename_i other
      rw [if_neg other] at own
      exact other own
    · exact before
  · refine (act_store ?_).failing before
    simp only [runArchive, mem_cons, not_mem_nil, or_false] at mem
    rcases mem with rfl | rfl | rfl | rfl | rfl
    all_goals first | rfl | exact absurd rfl takesBack

theorem archiving_valid : archiving.Valid statements VolumeOutlives where
  body := by
    refine valid_segment [Step.updateOp (some .quiescing)] .quiesce ?_ quiesce_leads
      (valid_segment [.waitForQuiesced, .updateOp (some .snapshotting), .currentTenantId]
        .snapshotTenantPVC ?_ archive_leads
        (valid_segment [] (.snapshotStatus .ready) (fun _ mem => absurd mem not_mem_nil) ready_leads
          (valid_segment [Step.updateOp (some .replacing), .deleteWorkloads] .deletePVC ?_
            deletePVC_leads (valid_throughout ?_))))
    all_goals simp
    · exact clerical_leads nofun rfl rfl
    · exact ⟨clerical_leads nofun rfl rfl, clerical_leads nofun rfl rfl, clerical_leads nofun rfl rfl⟩
    · refine ⟨clerical_leads (fun _ => rfl) rfl rfl, ?_⟩
      exact archiving_leads (fun _ => rfl) rfl nofun (fun _ _ o _ down => deleteWorkloads_busy o down)
    · exact ⟨gone_leads rfl nofun, gone_leads rfl nofun, gone_leads rfl nofun, gone_leads rfl nofun⟩
  handler := valid_throughout (fun _ mem => (failing_kept mem).leads)

theorem unpack_restoring (before : Restoring (s, v)) : Restoring (s.unpack v o, v) := by
  obtain ⟨snap, mem, own, ready⟩ := before.ready
  unfold Site.unpack
  split
  · rename_i contents _ archive _
    have held : s.archives snap.id = some contents := by
      rw [← own] at archive
      exact archive
    have row : ∃ snap ∈ s.snapshots, snap.status = .ready ∧ s.archives snap.id = some contents :=
      ⟨snap, mem, ready, held⟩
    repeat' split
    · exact ⟨before.fresh, .inr row, before.ready⟩
    · exact before
    · exact ⟨before.fresh, .inl rfl, before.ready⟩
  · exact before

theorem applyPVC_restoring (before : Restoring (s, v)) :
    Restoring (s.write o { s with volume := s.volume.or (some .blank) }, v) := by
  unfold Site.write
  split
  · refine ⟨before.fresh, ?_, before.ready⟩
    rcases before.kept with volume | row
    · left
      rw [volume]
      rfl
    · exact .inr row
  · exact before

theorem restoring_kept (allowed : step.stores = true → step = .restoreTenantPVC ∨ ∃ mib, step = .applyPVC mib) :
    Preserves statements VolumeOutlives Restoring step := by
  rintro ⟨s, v⟩ o before _
  have after : Restoring (step.act s v o, v) := by
    by_cases stores : step.stores = true
    · rcases allowed stores with rfl | ⟨mib, rfl⟩
      · exact unpack_restoring before
      · exact applyPVC_restoring before
    · exact (act_store (by simpa using stores)).restoring before
  have own : OwnReady (step.act s v o, step.note s v o) := by
    unfold OwnReady
    rw [note_snapId]
    exact after.ready
  exact ⟨after.fresh, after.kept, own⟩

end Leads

theorem keeping_begins {a : Admission} (rest : Fresh s ∧ Kept s) (accepts : keeping.accepts s c)
    (admitted : s.accept c = some a) : (keeping.outline c).body.pre (keeping.outline c).done (s.claim a) := by
  obtain ⟨fresh, kept⟩ := rest
  have restores {o : Orchestration} {snap : Snapshot} (creates : o.creates = none)
      (mem : snap ∈ s.snapshots) (ready : snap.status = .ready) :
      Restoring (s.claim ⟨o, some snap.id, none⟩) := by
    simp only [Site.claim, creates]
    exact ⟨fun row own => Nat.lt_add_right 2 (fresh row own), kept, ⟨snap, mem, rfl, ready⟩⟩
  cases c with
  | archiveTenant =>
    obtain ⟨_, same⟩ := Option.ite_none_left_eq_some.mp admitted
    cases same
    have other : ∀ snap ∈ s.snapshots, snap.id ≠ s.supply + 1 := by
      intro snap mem same
      have below := fresh snap mem
      omega
    refine ⟨?_, ?_, ⟨_, mem_cons_self, rfl⟩, ?_, nofun, nofun, nofun⟩
    · intro snap mem
      rcases mem_cons.mp mem with rfl | older
      · exact Nat.lt_succ_self (s.supply + 1)
      · exact Nat.lt_add_right 2 (fresh snap older)
    · exact kept.imp id (fun ⟨snap, mem, row⟩ => ⟨snap, mem_cons_of_mem _ mem, row⟩)
    rintro _ ⟨snap, mem, own, ready⟩
    rcases mem_cons.mp mem with rfl | older
    · contradiction
    · exact other snap older (Option.some.inj own)
  | restoreArchivedTenant newGi =>
    obtain ⟨_, found⟩ := Option.ite_none_right_eq_some.mp admitted
    obtain ⟨snap, last, rfl⟩ := Option.map_eq_some_iff.mp found
    have ready := find?_some last
    simp only [Bool.and_eq_true, beq_iff_eq] at ready
    exact restores rfl (mem_of_find?_eq_some last) ready.2
  | rollbackToSnapshot snapshotId =>
    obtain ⟨snap, found, rfl⟩ := Option.map_eq_some_iff.mp admitted
    have ready := find?_some found
    simp only [Bool.and_eq_true, beq_iff_eq] at ready
    exact restores rfl (mem_of_find?_eq_some found) ready.2
  | _ => exact absurd accepts id

theorem keeping_sound : keeping.Sound where
  valid c := by
    cases c with
    | archiveTenant => exact archiving_valid
    | restoreArchivedTenant newGi =>
      refine Outline.throughout_valid (fun step mem => restoring_kept ?_)
      intro stores
      simp only [runRestoreArchive, cons_append, nil_append, mem_cons, not_mem_nil, or_false] at mem
      rcases mem with rfl | rfl | rfl | rfl | rfl | rfl | rfl | rfl | rfl | rfl
      all_goals first | contradiction | exact .inl rfl | exact .inr ⟨_, rfl⟩
    | rollbackToSnapshot snapshotId =>
      refine Outline.throughout_valid (fun step mem => restoring_kept ?_)
      intro stores
      simp only [runRollbackToSnapshot, cons_append, nil_append, mem_cons, not_mem_nil, or_false] at mem
      rcases mem with rfl | rfl | rfl | rfl | rfl | rfl | rfl | rfl | rfl | rfl | rfl | rfl
      all_goals first | contradiction | exact .inl rfl
    | _ => exact Outline.throughout_valid (fun _ _ _ _ never _ => never)
  ends c p := by
    cases c with
    | archiveTenant | restoreArchivedTenant | rollbackToSnapshot =>
      rintro (after | after)
      all_goals exact ⟨after.fresh, after.kept⟩
    | _ =>
      rintro (never | never)
      all_goals exact absurd never id
  body c := by cases c <;> rfl
  handler c := by cases c <;> rfl
  begins _ _ _ := keeping_begins

theorem keeping_assertion {a : Site × Locals → Prop} {step : Step}
    (mem : (a, step) ∈ (keeping.outline c).body ++ (keeping.outline c).handler) :
    a = Archiving false false false ∨ (∃ archived ready, a = Archiving true archived ready) ∨
      a = Gone ∨ a = Failing ∨ a = Restoring ∨ a = fun _ => False := by
  cases c with
  | archiveTenant =>
    simp only [keeping, archiving, mem_append, mem_segment] at mem
    rcases mem with (⟨same, _⟩ | ⟨same, _⟩ | ⟨same, _⟩ | ⟨same, _⟩ | ⟨same, _⟩) | ⟨same, _⟩
    · exact .inl same
    · exact .inr (.inl ⟨_, _, same⟩)
    · exact .inr (.inl ⟨_, _, same⟩)
    · exact .inr (.inl ⟨_, _, same⟩)
    · exact .inr (.inr (.inl same))
    · exact .inr (.inr (.inr (.inl same)))
  | restoreArchivedTenant | rollbackToSnapshot =>
    simp only [keeping, Outline.throughout, mem_append, mem_segment, ← and_or_left] at mem
    exact .inr (.inr (.inr (.inr (.inl mem.1))))
  | _ =>
    simp only [keeping, Outline.throughout, mem_append, mem_segment, ← and_or_left] at mem
    exact .inr (.inr (.inr (.inr (.inr mem.1))))

theorem keeping_beside {s' : Site} (same : SameStore s s') (down : s.busy = false → s'.busy = false)
    (holds : keeping.Holds s running) : keeping.Holds s' running := by
  refine holds.mono ?_ ?_
  · rintro ⟨fresh, kept⟩
    exact ⟨same.fresh fresh, same.kept kept⟩
  intro c v a step mem before
  rcases keeping_assertion mem with rfl | ⟨archived, ready, rfl⟩ | rfl | rfl | rfl | rfl
  · exact same.archiving nofun before
  · exact same.archiving (fun _ => down (before.paused rfl)) before
  · exact same.gone before
  · exact same.failing before
  · exact same.restoring before
  · exact before

theorem keeping_written (contents : Contents) (busy : s.busy = true) (there : s.volume.isSome = true)
    (holds : keeping.Holds s running) : keeping.Holds { s with volume := some contents, data := contents } running := by
  refine holds.mono ?_ ?_
  · rintro ⟨fresh, _⟩
    exact ⟨fresh, .inl rfl⟩
  intro c v a step mem before
  rcases keeping_assertion mem with rfl | ⟨archived, ready, rfl⟩ | rfl | rfl | rfl | rfl
  · exact ⟨before.fresh, .inl rfl, before.row, before.unready, nofun, nofun, nofun⟩
  · have down : s.busy = false := before.paused rfl
    rw [down] at busy
    contradiction
  · have gone : s.volume = none := before.gone
    rw [gone] at there
    contradiction
  · exact ⟨before.fresh, .inl rfl, fun _ _ c same => (Option.some.inj same).symm⟩
  · exact ⟨before.fresh, .inl rfl, before.ready⟩
  · exact before

theorem keeping_kept (holds : keeping.Holds s running) : Kept s := by
  cases running with
  | none => exact holds.2
  | some r =>
    obtain ⟨c, covers⟩ := holds
    obtain ⟨a, step, mem, _, here⟩ := covers.assertion
    rcases keeping_assertion mem with rfl | ⟨archived, ready, rfl⟩ | rfl | rfl | rfl | rfl
    · exact here.kept
    · exact here.kept
    · exact here.kept
    · exact here.kept
    · exact here.kept
    · exact absurd here id

theorem Kept.safe (kept : Kept s) : Safe s := by
  rcases kept with volume | ⟨snap, mem, ready, held⟩
  · exact .inl volume
  right
  have found : (s.snapshots.find? (fun row => row.id == snap.id && row.status == .ready)).isSome = true := by
    rw [find?_isSome]
    exact ⟨snap, mem, by simp [ready]⟩
  obtain ⟨row, same⟩ := Option.isSome_iff_exists.mp found
  have own := find?_some same
  simp only [Bool.and_eq_true, beq_iff_eq] at own
  refine ⟨.rollbackToSnapshot snap.id, ⟨runRollbackToSnapshot, some row.id, none⟩, .inr ⟨_, rfl⟩, ?_, ?_⟩
  · simp [Site.accept, same]
  · rw [own.1]
    exact held

/-- Requests to archive and to restore, and what may happen beside them: the workloads write and
go away, the tenant is recovered after a failure, its subscription runs out. -/
def ArchiveRuns : Move → Bool
  | .call .archiveTenant | .call (.restoreArchivedTenant _) | .call (.rollbackToSnapshot _)
  | .recover | .write _ | .remove _ | .setExpiry _ => true
  | _ => false

/- no handler takes a snapshot back that is ready once the volume is gone -/
def OutlivesFailure (w : Work) : Move → Prop
  | .advance o => ∀ r ∈ w.running, ∀ step ∈ r.program.steps.head?,
      VolumeOutlives (w.site, r.locals) step o
  | action => ArchiveRuns action = true

instance (p : Site × Locals) : Decidable (OwnReady p) :=
  inferInstanceAs (Decidable (∃ snap ∈ p.1.snapshots, some snap.id = p.2.snapId ∧ snap.status = .ready))

instance (p : Site × Locals) (step : Step) (o : Fate) : Decidable (VolumeOutlives p step o) :=
  inferInstanceAs (Decidable (step = .snapshotStatus .failed → o.takes = true →
    p.1.volume.isSome = true ∨ ¬ OwnReady p))

instance (w : Work) : (action : Move) → Decidable (OutlivesFailure w action) := by
  intro _
  unfold OutlivesFailure
  split <;> infer_instance

theorem keeping_step {w w' : Work} {action : Move} (holds : keeping.Holds w.site w.running)
    (allowed : OutlivesFailure w action) (taken : w.step action = some w') : keeping.Holds w'.site w'.running := by
  cases (step_taken taken).2 with
  | call c =>
    refine holds.call keeping_sound (fun _ => ?_)
    cases c <;> trivial
  | advance r o running =>
    rw [running] at holds
    exact holds.advance keeping_sound (allowed r running)
  | recover =>
    exact keeping_beside (SameStore.recover w.site)
      (fun down => (SameNamespace.recover w.site).busy.trans down) holds
  | write contents busy there => exact keeping_written contents busy there holds
  | remove name =>
    refine keeping_beside ?_ ?_ holds
    · exact ⟨rfl, rfl, rfl, rfl, rfl⟩
    intro down
    simp only [Site.busy, Bool.or_eq_false_iff, any_eq_false] at down ⊢
    refine ⟨?_, ?_⟩
    · intro d mem
      exact down.1 d (mem_of_mem_filter mem)
    · intro c mem
      exact down.2 c (mem_of_mem_filter mem)
  | setExpiry expired =>
    refine keeping_beside ?_ ?_ holds
    · exact ⟨rfl, rfl, rfl, rfl, rfl⟩
    · exact id
  | updateTenant | bulkUpdateTenantStatus | suspendExpiredTenants | deleteTenant => contradiction

/-- Whatever throws while a tenant is archived and restored, its data is in the volume or can be
restored, in every run in which no handler takes a snapshot back that is ready once the volume
is gone. -/
theorem archive_keeps_data (s : Site) (actions : List Move) (w : Work) (fresh : Fresh s)
    (kept : Kept s) (guarded : Guarded Work.step OutlivesFailure (Work.begin s) actions)
    (run : exec Work.step (Work.begin s) actions = some w) : Safe w.site := by
  have initial : keeping.Holds (Work.begin s).site (Work.begin s).running := ⟨fresh, kept⟩
  have holds : keeping.Holds w.site w.running :=
    guarded_invariant (fun _ _ _ holds allowed taken => keeping_step holds allowed taken) initial guarded run
  exact (keeping_kept holds).safe

/- an archive without a failure, and the restore after it -/
def archiveAndRestore : List Move :=
  .call .archiveTenant :: List.replicate runArchive.body.length (.advance .smooth) ++
    .call (.restoreArchivedTenant 10) ::
      List.replicate (runRestoreArchive 10).body.length (.advance .smooth)

theorem archive_keeps_data_smoothly : ∃ w,
    exec Work.step (Work.begin demo) archiveAndRestore = some w ∧ Safe w.site :=
  ⟨_, rfl, archive_keeps_data demo archiveAndRestore _ nofun (.inl rfl) (by decide) rfl⟩

/-- The write after the deletion of the volume fails, and the handler takes the snapshot back. -/
def failAfterDeletion : List Move :=
  .call .archiveTenant :: List.replicate 10 (.advance .smooth) ++
    .advance ⟨true, false, [], [], .blank⟩ :: List.replicate 2 (.advance .smooth)

theorem archive_loses_data : ∃ w,
    exec Work.step (Work.begin demo) failAfterDeletion = some w ∧ ¬ Safe w.site := by
  refine ⟨_, rfl, ?_⟩
  rintro (volume | ⟨c, a, ⟨newGi, rfl⟩ | ⟨snapshotId, rfl⟩, admitted, _⟩)
  · exact absurd volume (by decide)
  · exact absurd admitted nofun
  obtain ⟨snap, found, _⟩ := Option.map_eq_some_iff.mp admitted
  have mem := mem_of_find?_eq_some found
  have ready := find?_some found
  simp only [Bool.and_eq_true] at ready
  cases mem_singleton.mp mem
  exact absurd ready.2 (by decide)

end HostingPlatform.Storage
