import HostingPlatform.Storage.Effects

/-! How a tenant leaves the archived status. A PATCH lets it go to active only, through a
restore; the request to suspend and the bulk operations ask for nothing of the kind. -/
namespace HostingPlatform.Storage

open List Programs Annotation Transition

def NotArchived (p : Site × Locals) : Prop := p.1.tenant.status ≠ .archived

def VolumeThere (p : Site × Locals) : Prop := p.1.volume.isSome = true

def restoring (newGi : Nat) : Outline (Site × Locals) Step where
  body := (fun _ => True, .applyPVC (newGi * 1024)) ::
    segment VolumeThere (runRestoreArchive newGi).body.tail
  handler := segment (fun _ => True) (runRestoreArchive newGi).handler
  done := VolumeThere
  failed := fun _ => True

def exits : Discipline where
  outline
    | .suspendTenant => .throughout NotArchived suspendTenant.body suspendTenant.handler
    | .resumeTenant => .throughout NotArchived resumeTenant.body resumeTenant.handler
    | .restoreArchivedTenant newGi => restoring newGi
    | c => .throughout (fun _ => True) c.orchestration.body c.orchestration.handler
  rest := fun _ => True
  ok := fun _ _ _ => True
  accepts := fun s c => c = .suspendTenant → s.tenant.status ≠ .archived

/-- The restore has put the volume back and is about to make the tenant active. -/
def RestoreEnds (w : Work) (action : Move) : Prop :=
  ∃ r o newGi, w.running = some r ∧ action = .advance o ∧
    r.program.steps <:+ (runRestoreArchive newGi).body ∧
    r.program.steps.head? = some (.cascade .active) ∧ w.site.volume.isSome = true

/-- No bulk operation and no request to suspend gets through to an archived tenant: the SYSTEM
tenant is not suspended in bulk, and a request waits for nothing that is under way. -/
def LeavesArchived (w : Work) : Move → Prop
  | .bulkUpdateTenantStatus .suspend _ =>
    w.site.tenant.status = .archived → w.site.isSystem = true
  | .bulkUpdateTenantStatus .reactivate _ => w.site.tenant.status ≠ .archived
  | .call .suspendTenant =>
    w.site.tenant.status = .archived →
      ¬ (w.running.isNone = true ∧ w.site.tenant.storageLifecycleState = .idle)
  | _ => True

instance (w : Work) : (action : Move) → Decidable (LeavesArchived w action) := by
  intro _
  unfold LeavesArchived
  split <;> infer_instance

def ArchivedKept (w : Work) (action : Move) (w' : Work) : Prop :=
  w'.deleted = true ∨ w'.site.tenant.status = .archived ∨ RestoreEnds w action

theorem notArchived_kept {step : Step} (other : step ≠ .cascade .archived) :
    Preserves statements exits.ok NotArchived step := by
  rintro ⟨s, v⟩ o holds _
  show (step.act s v o).tenant.status ≠ .archived
  by_cases cascade : ∃ status, step = .cascade status
  · obtain ⟨status, rfl⟩ := cascade
    rcases cascade_status s status o with same | same
    · have moved : (Step.act s v o (.cascade status)).tenant.status = status := same
      rw [moved]
      rintro rfl
      exact other rfl
    · have stays : (Step.act s v o (.cascade status)).tenant.status = s.tenant.status := same
      rw [stays]
      exact holds
  · rw [act_status (fun status same => cascade ⟨status, same⟩)]
    exact holds

theorem restoring_valid (newGi : Nat) : (restoring newGi).Valid statements exits.ok where
  body := by
    refine ⟨?_, valid_throughout ?_⟩
    · rintro ⟨s, v⟩ o _ _
      split
      · trivial
      rename_i quiet
      have smooth : o.throws = false := by simpa [statements, Step.quiet, Site.possible] using quiet
      show (s.write o { s with volume := s.volume.or (some .blank) }).volume.isSome = true
      simp [Site.write, Fate.takes, smooth]
    · rintro step mem ⟨s, v⟩ o there _
      have kept : (step.act s v o).volume.isSome = true := by
        refine act_volume ?_ there
        rintro rfl
        simp [runRestoreArchive] at mem
      split
      · trivial
      · exact kept
  handler := valid_throughout (fun _ _ => Preserves.leads (fun _ _ _ _ => trivial))

theorem exits_sound : exits.Sound where
  valid c := by
    cases c with
    | suspendTenant | resumeTenant =>
      refine Outline.throughout_valid ?_
      intro step mem
      refine notArchived_kept ?_
      rintro rfl
      simp [suspendTenant, resumeTenant] at mem
    | restoreArchivedTenant newGi => exact restoring_valid newGi
    | _ => exact Outline.throughout_valid (fun _ _ _ _ _ _ => trivial)
  ends _ _ _ := trivial
  body c := by cases c <;> rfl
  handler c := by cases c <;> rfl
  begins s c a _ accepts admitted := by
    cases c with
    | suspendTenant => exact accepts rfl
    | resumeTenant =>
      obtain ⟨suspended, _⟩ := Option.ite_none_right_eq_some.mp admitted
      show s.tenant.status ≠ .archived
      rw [suspended]
      simp
    | _ => trivial

variable {s : Site} {running : Option Running} {w : Work} {status : TenantStatus}

theorem exits_mono {s' : Site} (status : s.tenant.status ≠ .archived → s'.tenant.status ≠ .archived)
    (volume : s.volume.isSome = true → s'.volume.isSome = true) (holds : exits.Holds s running) :
    exits.Holds s' running := by
  refine holds.mono (fun _ => trivial) ?_
  intro c v a step mem before
  have assertion : a = NotArchived ∨ a = VolumeThere ∨ a = fun _ => True := by
    cases c with
    | restoreArchivedTenant newGi =>
      simp only [exits, restoring, mem_append, mem_cons, mem_segment] at mem
      rcases mem with (⟨rfl, _⟩ | ⟨rfl, _⟩) | ⟨rfl, _⟩
      · exact .inr (.inr rfl)
      · exact .inr (.inl rfl)
      · exact .inr (.inr rfl)
    | suspendTenant | resumeTenant =>
      simp only [exits, Outline.throughout, mem_append, mem_segment, ← and_or_left] at mem
      exact .inl mem.1
    | _ =>
      simp only [exits, Outline.throughout, mem_append, mem_segment, ← and_or_left] at mem
      exact .inr (.inr mem.1)
  rcases assertion with rfl | rfl | rfl
  · exact status before
  · exact volume before
  · trivial

theorem writeStatus_archived (valid : w.site.tenant.status = .archived → status = .archived ∨ status = .active) :
    (w.writeStatus status).site.tenant.status = .archived ↔ w.site.tenant.status = .archived := by
  unfold Work.writeStatus
  split
  · exact Iff.rfl
  rename_i own
  constructor
  · rintro rfl
    by_contra other
    simp [statusOwnedByLifecycle, other] at own
  · intro archived
    rcases valid archived with rfl | rfl
    · rfl
    · simp [statusOwnedByLifecycle, archived] at own

theorem call_status (w : Work) (c : Call) : (w.call c).site.tenant.status = w.site.tenant.status := by
  unfold Work.call
  split
  · cases w.site.accept c <;> rfl
  · rfl

theorem updateTenant_cases (w : Work) (status : TenantStatus) (planGi : Nat) : w.updateTenant status planGi = w ∨
      (w.site.tenant.status = .archived → status = .archived ∨ status = .active) ∧
        (w.updateTenant status planGi = w.writeStatus status ∨ ∃ c, (c = .suspendTenant → status = .suspended) ∧
            w.updateTenant status planGi = (w.writeStatus status).call c) := by
  unfold Work.updateTenant
  split
  · exact .inl rfl
  split
  · exact .inl rfl
  rename_i accepted
  refine .inr ⟨?_, ?_⟩
  · intro archived
    by_contra other
    push Not at other
    exact accepted ⟨archived, other⟩
  cases handed : statusCall w.site.tenant.status status planGi with
  | none => exact .inl rfl
  | some c =>
    refine .inr ⟨c, ?_, rfl⟩
    rintro rfl
    cases status with
    | suspended => rfl
    | archived | active =>
      simp only [statusCall] at handed
      split at handed <;> simp at handed
    | pending => simp [statusCall] at handed

theorem updateTenant_archived (w : Work) (status : TenantStatus) (planGi : Nat) :
    (w.updateTenant status planGi).site.tenant.status = .archived ↔ w.site.tenant.status = .archived := by
  rcases updateTenant_cases w status planGi with same | ⟨valid, same | ⟨c, _, same⟩⟩
  · rw [same]
  · rw [same]
    exact writeStatus_archived valid
  · rw [same, call_status]
    exact writeStatus_archived valid

theorem exits_updateTenant (status : TenantStatus) (planGi : Nat) (holds : exits.Holds w.site w.running) :
    exits.Holds (w.updateTenant status planGi).site (w.updateTenant status planGi).running := by
  rcases updateTenant_cases w status planGi with same | ⟨valid, handed⟩
  · rw [same]
    exact holds
  have written : exits.Holds (w.writeStatus status).site (w.writeStatus status).running := by
    have running : (w.writeStatus status).running = w.running := by
      unfold Work.writeStatus
      split <;> rfl
    have volume : (w.writeStatus status).site.volume = w.site.volume := by
      unfold Work.writeStatus
      split <;> rfl
    rw [running]
    refine exits_mono ?_ ?_ holds
    · exact fun other same => other ((writeStatus_archived valid).mp same)
    · rw [volume]
      exact id
  rcases handed with same | ⟨c, suspends, same⟩
  · rw [same]
    exact written
  rw [same]
  refine written.call exits_sound ?_
  intro _ suspend archived
  have existing := (writeStatus_archived valid).mp archived
  rcases valid existing with own | own
  all_goals
    rw [suspends suspend] at own
    contradiction

theorem exits_cascade (other : status ≠ .archived) (o : Fate) (holds : exits.Holds s running) :
    exits.Holds (s.cascade status o) running := by
  refine exits_mono ?_ ?_ holds
  · intro before
    rcases cascade_status s status o with same | same
    · rw [same]
      exact other
    · rw [same]
      exact before
  · have keeps : Step.cascade status ≠ .deletePVC := nofun
    exact act_volume (v := ⟨.suspend, 0, none, none⟩) keeps

theorem exits_step {w' : Work} {action : Move} (holds : exits.Holds w.site w.running)
    (allowed : LeavesArchived w action) (taken : w.step action = some w') : exits.Holds w'.site w'.running := by
  cases (step_taken taken).2 with
  | call c =>
    refine holds.call exits_sound ?_
    rintro free rfl archived
    exact allowed archived free
  | updateTenant status planGi => exact exits_updateTenant status planGi holds
  | bulkUpdateTenantStatus action o =>
    cases action with
    | suspend =>
      simp only [Site.bulkUpdateTenantStatus]
      split
      · exact holds
      · exact exits_cascade (by simp) o holds
    | reactivate =>
      have cascaded : exits.Holds (w.site.cascade .active o) w.running := exits_cascade (by simp) o holds
      exact cascaded
  | suspendExpiredTenants o =>
    simp only [Site.suspendExpiredTenants]
    split
    · exact exits_cascade (by simp) o holds
    · exact holds
  | deleteTenant => exact holds
  | advance r o running =>
    rw [running] at holds
    exact holds.advance exits_sound (fun _ _ => trivial)
  | recover =>
    have same := SameNamespace.recover w.site
    refine exits_mono ?_ ?_ holds
    · rw [same.status]
      exact id
    · rw [same.volume]
      exact id
  | write contents busy there =>
    refine exits_mono ?_ (fun _ => rfl) holds
    exact id
  | remove name | setExpiry expired =>
    refine exits_mono ?_ ?_ holds
    all_goals exact id

theorem restoring_cascade {newGi : Nat} {v : Locals} {p : Program Step}
    (covers : (restoring newGi).Covers p (s, v)) (head : p.steps.head? = some (.cascade status)) :
    p.steps <:+ (runRestoreArchive newGi).body ∧ p.steps.head? = some (.cascade .active) ∧
      s.volume.isSome = true := by
  rcases covers with ⟨_, stands⟩ | ⟨_, stands⟩
  · have left : p.steps <:+ (runRestoreArchive newGi).body := stands.suffix
    obtain ⟨a, step, mem, same, holds⟩ := stands.assertion
    cases same.symm.trans head
    rw [restoring, mem_cons, mem_segment, Prod.mk.injEq] at mem
    rcases mem with ⟨_, other⟩ | ⟨rfl, mem⟩
    · contradiction
    · have active : status = .active := by simpa [runRestoreArchive] using mem
      exact ⟨left, active ▸ head, holds⟩
  · obtain ⟨a, step, mem, same, _⟩ := stands.assertion
    cases same.symm.trans head
    simp [restoring, mem_segment, runRestoreArchive] at mem

theorem advance_archived {r : Running} (o : Fate) (holds : exits.Holds s (some r))
    (archived : s.tenant.status = .archived) : (r.advance s o).1.tenant.status = .archived ∨ ∃ newGi,
      r.program.steps <:+ (runRestoreArchive newGi).body ∧
        r.program.steps.head? = some (.cascade .active) ∧ s.volume.isSome = true := by
  obtain ⟨c, covers⟩ := holds
  obtain ⟨v, steps, handler⟩ := r
  obtain ⟨a, step, mem, head, here⟩ := covers.assertion
  obtain ⟨rest, rfl⟩ := head?_eq_some_iff.mp head
  by_cases cascade : ∃ status, step = .cascade status
  · obtain ⟨status, rfl⟩ := cascade
    cases c with
    | restoreArchivedTenant newGi => exact .inr ⟨newGi, restoring_cascade covers head⟩
    | suspendTenant | resumeTenant =>
      simp only [exits, Outline.throughout, mem_append, mem_segment, ← and_or_left] at mem
      obtain ⟨rfl, _⟩ := mem
      exact absurd archived here
    | archiveTenant =>
      simp only [exits, Outline.throughout, mem_append, mem_segment, ← and_or_left] at mem
      have own : status = .archived := by simpa [Call.orchestration, runArchive] using mem.2
      left
      rcases cascade_status s status o with same | same
      · exact same.trans own
      · exact same.trans archived
    | snapshotTenant | rollbackToSnapshot =>
      simp [exits, Outline.throughout, mem_segment, Call.orchestration, Storage.snapshotTenant,
        runRollbackToSnapshot] at mem
  · exact .inl ((act_status (fun status same => cascade ⟨status, same⟩)).trans archived)

/-- Where no bulk operation and no request to suspend meets an archived tenant, whatever
happens to it next leaves it archived, deletes it, or ends a restore that put its volume back. -/
theorem archived_left_by_restore (s : Site) (actions : List Move) (w w' : Work) (action : Move)
    (guarded : Guarded Work.step LeavesArchived (Work.begin s) actions)
    (run : exec Work.step (Work.begin s) actions = some w) (allowed : LeavesArchived w action)
    (taken : w.step action = some w') (archived : w.site.tenant.status = .archived) : ArchivedKept w action w' := by
  have initial : exits.Holds (Work.begin s).site (Work.begin s).running := trivial
  have holds : exits.Holds w.site w.running :=
    guarded_invariant (fun _ _ _ holds allowed taken => exits_step holds allowed taken) initial guarded run
  cases (step_taken taken).2 with
  | call c => exact .inr (.inl ((call_status w c).trans archived))
  | updateTenant status planGi =>
    exact .inr (.inl ((updateTenant_archived w status planGi).mpr archived))
  | bulkUpdateTenantStatus action o =>
    cases action with
    | suspend =>
      refine .inr (.inl ?_)
      simp only [Site.bulkUpdateTenantStatus]
      rw [if_pos (allowed archived)]
      exact archived
    | reactivate => exact absurd archived allowed
  | suspendExpiredTenants o =>
    right
    left
    simp [Site.suspendExpiredTenants, archived]
  | deleteTenant => exact .inl rfl
  | advance r o running =>
    rw [running] at holds
    rcases advance_archived o holds archived with stays | ⟨newGi, left, head, there⟩
    · exact .inr (.inl stays)
    · exact .inr (.inr ⟨r, o, newGi, running, rfl, left, head, there⟩)
  | recover => exact .inr (.inl ((SameNamespace.recover w.site).status.trans archived))
  | write | remove | setExpiry => exact .inr (.inl archived)

def archiveActions : List Move :=
  .call .archiveTenant :: List.replicate runArchive.body.length (.advance .smooth)

def archivedDemo : Work := (exec Work.step (Work.begin demo) archiveActions).getD (Work.begin demo)

/-- After an archive, a PATCH that wants the tenant suspended. -/
theorem archived_kept_patched : archivedDemo.site.tenant.status = .archived ∧
      ArchivedKept archivedDemo (.updateTenant .suspended 10) archivedDemo :=
  ⟨rfl, archived_left_by_restore demo archiveActions archivedDemo archivedDemo
    (.updateTenant .suspended 10) (by decide) rfl trivial rfl rfl⟩

/-- A bulk operation makes it active, with no volume. -/
theorem bulk_leaves_archived : archivedDemo.site.tenant.status = .archived ∧
    ∃ w, archivedDemo.step (.bulkUpdateTenantStatus .reactivate .smooth) = some w ∧
      w.site.tenant.status = .active ∧ w.site.volume = none ∧
      ¬ ArchivedKept archivedDemo (.bulkUpdateTenantStatus .reactivate .smooth) w := by
  refine ⟨rfl, _, rfl, rfl, rfl, ?_⟩
  rintro (deleted | archived | ⟨r, o, newGi, _, same, _⟩)
  · exact absurd deleted (by decide)
  · exact absurd archived (by decide)
  · contradiction

end HostingPlatform.Storage
