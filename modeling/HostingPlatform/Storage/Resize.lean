import HostingPlatform.Storage.Effects

/-! A destructive resize in which one statement after the deletion of the volume throws. The
handler scales the workloads up again and does nothing about the volume, so the resize is
rolled back only where the restore had already been made. -/
namespace HostingPlatform.Storage

open List Pausing Programs Annotation

def afterDeletion (newMib : Nat) : List Step :=
  ((runResizeDestructive newMib).body.dropWhile (· ≠ .deletePVC)).tail

def throughDeletion (newMib : Nat) : List Step :=
  (runResizeDestructive newMib).body.takeWhile (· ≠ .deletePVC) ++ [.deletePVC]

/-- The states of a destructive resize from its claim on. After the deletion the statements
of `between` go smoothly, the next one throws, and whatever is called later succeeds. -/
def resizeStates (s : Site) (newMib : Nat) (between : List Step) (o : Fate) :
    List (Site × Locals) :=
  statements.trace (s.claim ⟨runResizeDestructive newMib, none, none⟩)
    (runResizeDestructive newMib).program
    (List.replicate (throughDeletion newMib ++ between).length .smooth ++
      o :: List.replicate (runResizeDestructive newMib).handler.length .smooth)

/- the volume holds the data in the end, and whenever workloads are up -/
structure RolledBack (tree : Nat) (states : List (Site × Locals)) : Prop where
  ends : ∀ last ∈ states.getLast?, last.1.volume = some (.files tree)
  down : ∀ state ∈ states, state.1.busy = true → state.1.volume = some (.files tree)

/- where a smooth resize stands: what the volume holds, whether the workloads are down, and
whether the archive has been made -/
structure Standing (id tree : Nat) (volume : Option Contents) (paused archived : Bool)
    (p : Site × Locals) : Prop where
  snapId : p.2.snapId = some id
  volume : p.1.volume = volume
  paused : paused = true → p.1.busy = false
  archived : archived = true → p.1.archives id = some (.files tree)

section Outline
variable (newMib id tree : Nat)

def kept : Annotation (Site × Locals) Step :=
  segment (Standing id tree (some (.files tree)) false false)
      [.updateOp (some .quiescing), .mirrorState .quiescing, .quiesce] ++
    (segment (Standing id tree (some (.files tree)) true false)
      [.waitForQuiesced, .updateOp (some .snapshotting), .mirrorState .snapshotting,
        .currentTenantId, .snapshotTenantPVC] ++
    segment (Standing id tree (some (.files tree)) true true)
      [.snapshotStatus .ready, .updateOp (some .replacing), .mirrorState .replacing, .deletePVC])

def gone : Annotation (Site × Locals) Step :=
  segment (Standing id tree none true true) [.waitForPvcGone, .applyPVC newMib] ++
    segment (Standing id tree (some .blank) true true)
      [.updateOp (some .restoring), .mirrorState .restoring, .currentTenantId]

def restored : Annotation (Site × Locals) Step :=
  segment (Standing id tree (some (.files tree)) false false)
    [.updateOp (some .unquiescing), .mirrorState .unquiescing, .unquiesce, .currentTenantId,
      .saveOverride newMib, .updateOp (some .idle), .currentTenantId, .markTenant .idle]

def resizing : Annotation (Site × Locals) Step :=
  kept id tree ++ (gone newMib id tree ++
    (Standing id tree (some .blank) true true, Step.restoreTenantPVC) :: restored newMib id tree)

end Outline

theorem program_resizing (newMib id tree : Nat) :
    program (resizing newMib id tree) = (runResizeDestructive newMib).body := rfl

theorem program_kept (newMib id tree : Nat) : program (kept id tree) = throughDeletion newMib := rfl

theorem program_rest (newMib id tree : Nat) : program (gone newMib id tree ++
    (Standing id tree (some .blank) true true, Step.restoreTenantPVC) :: restored newMib id tree) =
      afterDeletion newMib := rfl

variable {id tree newMib : Nat} {volume : Option Contents} {s : Site} {v : Locals}
  {caught a : Site × Locals → Prop} {step : Step} {o : Fate}

theorem Standing.workloads {paused archived : Bool} {s' : Site}
    (standing : Standing id tree volume paused archived (s, v)) (sameVolume : s'.volume = s.volume)
    (archives : s'.archives = s.archives) (busy : paused = true → s'.busy = s.busy) :
    Standing id tree volume paused archived (s', v) where
  snapId := standing.snapId
  volume := sameVolume.trans standing.volume
  paused := fun down => (busy down).trans (standing.paused down)
  archived := fun made => by
    rw [archives]
    exact standing.archived made

theorem smooth_clerical {paused archived : Bool} (clerical : step.clerical = true)
    (possible : step = .waitForPvcGone → volume = none) :
    Leads statements (fun _ _ o => o = .smooth) caught (Standing id tree volume paused archived)
      step (Standing id tree volume paused archived) := by
  rintro ⟨s, v⟩ o standing rfl
  have quiet : statements.throws (s, v) step .smooth = false := by
    refine not_throws_iff.mpr (.inr ⟨rfl, ?_⟩)
    cases step with
    | waitForPvcGone =>
      have none : s.volume = none := standing.volume.trans (possible rfl)
      simp [Site.possible, none]
    | snapshotTenantPVC | restoreTenantPVC => contradiction
    | _ => rfl
  rw [quiet]
  have same : SameNamespace s (step.act s v .smooth) := clerical_act clerical
  have note : step.note s v .smooth = v := note_other (by rintro rfl; contradiction)
  show Standing id tree volume paused archived (step.act s v .smooth, step.note s v .smooth)
  rw [note]
  exact standing.workloads same.volume same.archives (fun _ => same.busy)

theorem leads_of_step {b : Site × Locals → Prop} (possible : ∀ s v, a (s, v) → s.possible v step = true)
    (leads : ∀ s v, a (s, v) → b (step.act s v .smooth, step.note s v .smooth)) :
    Leads statements (fun _ _ o => o = .smooth) caught a step b := by
  rintro ⟨s, v⟩ o holds rfl
  have quiet : statements.throws (s, v) step .smooth = false := not_throws_iff.mpr (.inr ⟨rfl, possible s v holds⟩)
  rw [quiet]
  exact leads s v holds

section Smooth
variable (newMib id tree : Nat)

variable {rest : Annotation (Site × Locals) Step} {post : Site × Locals → Prop}

theorem kept_valid (next : ∀ p, Standing id tree none true true p → pre post rest p)
    (valid : rest.Valid statements (fun _ _ o => o = .smooth) post (fun _ => False)) :
    (kept id tree ++ rest).Valid statements (fun _ _ o => o = .smooth) post (fun _ => False) := by
  have clerical {volume : Option Contents} {paused archived : Bool} {step : Step}
      (own : step.clerical = true) (others : step ≠ .waitForPvcGone) :
      Leads statements (fun _ _ o => o = .smooth) (fun _ => False)
        (Standing id tree volume paused archived) step (Standing id tree volume paused archived) :=
    smooth_clerical own (fun same => absurd same others)
  refine valid_segment [.updateOp (some .quiescing), .mirrorState .quiescing] .quiesce ?_ ?_
    (valid_segment [.waitForQuiesced, .updateOp (some .snapshotting), .mirrorState .snapshotting,
      .currentTenantId] .snapshotTenantPVC ?_ ?_
      (valid_segment [.snapshotStatus .ready, .updateOp (some .replacing), .mirrorState .replacing]
        .deletePVC ?_ ?_ valid))
  · simp only [mem_cons, not_mem_nil, or_false, forall_eq_or_imp, forall_eq]
    exact ⟨clerical rfl (by simp), clerical rfl (by simp)⟩
  · refine leads_of_step (fun _ _ _ => rfl) ?_
    intro s v standing
    exact ⟨standing.snapId, standing.volume, fun _ => quiesce_idle rfl, nofun⟩
  · simp only [mem_cons, not_mem_nil, or_false, forall_eq_or_imp, forall_eq]
    exact ⟨clerical rfl (by simp), clerical rfl (by simp), clerical rfl (by simp), clerical rfl (by simp)⟩
  · refine leads_of_step ?_ ?_
    · intro s v standing
      have snapId : v.snapId = some id := standing.snapId
      have volume : s.volume = some (.files tree) := standing.volume
      simp [Site.possible, snapId, volume]
    intro s v standing
    have snapId : v.snapId = some id := standing.snapId
    have volume : s.volume = some (.files tree) := standing.volume
    have made : s.archive v .smooth =
        { s with archives := Function.update s.archives id (some (.files tree)) } := by
      simp [Site.archive, snapId, volume, Fate.smooth]
    refine ⟨snapId, ?_, ?_, ?_⟩
    · show (s.archive v .smooth).volume = _
      rw [made]
      exact volume
    · intro _
      show (s.archive v .smooth).busy = false
      rw [(archive_workloads s v .smooth).busy]
      exact standing.paused rfl
    · intro _
      show (s.archive v .smooth).archives id = _
      rw [made]
      exact Function.update_self id _ _
  · simp only [mem_cons, not_mem_nil, or_false, forall_eq_or_imp, forall_eq]
    exact ⟨clerical rfl (by simp), clerical rfl (by simp), clerical rfl (by simp)⟩
  refine leads_of_step (fun _ _ _ => rfl) ?_
  intro s v standing
  exact next _ ⟨standing.snapId, rfl, standing.paused, standing.archived⟩

theorem restored_valid : (restored newMib id tree).Valid statements (fun _ _ o => o = .smooth)
      (Standing id tree (some (.files tree)) false false) (fun _ => False) := by
  refine valid_last_segment [.updateOp (some .unquiescing), .mirrorState .unquiescing, .unquiesce,
    .currentTenantId, .saveOverride newMib, .updateOp (some .idle), .currentTenantId]
    (.markTenant .idle) ?_ (smooth_clerical rfl (by simp))
  have unquiesce : Leads statements (fun _ _ o => o = .smooth) (fun _ => False)
      (Standing id tree (some (.files tree)) false false) .unquiesce
      (Standing id tree (some (.files tree)) false false) := by
    refine leads_of_step (fun _ _ _ => rfl) ?_
    intro s v standing
    refine standing.workloads ?_ ?_ nofun
    all_goals
      simp only [Step.act]
      cases v.quiesceSnap <;> rfl
  simp only [mem_cons, not_mem_nil, or_false, forall_eq_or_imp, forall_eq]
  exact ⟨smooth_clerical rfl (by simp), smooth_clerical rfl (by simp), unquiesce,
    smooth_clerical rfl (by simp), smooth_clerical rfl (by simp), smooth_clerical rfl (by simp),
    smooth_clerical rfl (by simp)⟩

theorem restore_leads : Leads statements (fun _ _ o => o = .smooth) (fun _ => False)
      (Standing id tree (some .blank) true true) .restoreTenantPVC
      (Standing id tree (some (.files tree)) false false) := by
  have archive (s : Site) (v : Locals) (standing : Standing id tree (some .blank) true true (s, v)) :
      v.snapId.bind s.archives = some (.files tree) := by
    rw [standing.snapId]
    exact standing.archived rfl
  refine leads_of_step ?_ ?_
  · intro s v standing
    have volume : s.volume = some .blank := standing.volume
    show (s.volume.isSome && (v.snapId.bind s.archives).isSome) = true
    simp [volume, archive s v standing]
  intro s v standing
  have volume : s.volume = some .blank := standing.volume
  have unpacked : s.unpack v .smooth = { s with volume := some (.files tree), data := .files tree } := by
    simp [Site.unpack, archive s v standing, volume, Fate.smooth]
  refine ⟨standing.snapId, ?_, by simp, by simp⟩
  show (s.unpack v .smooth).volume = _
  rw [unpacked]

theorem gone_valid (next : ∀ p, Standing id tree (some .blank) true true p → pre post rest p)
    (valid : rest.Valid statements (fun _ _ o => o = .smooth) post (fun _ => False)) :
    (gone newMib id tree ++ rest).Valid statements (fun _ _ o => o = .smooth) post (fun _ => False) := by
  refine valid_segment [.waitForPvcGone] (.applyPVC newMib) ?_ ?_
    (valid_segment [.updateOp (some .restoring), .mirrorState .restoring] .currentTenantId ?_ ?_ valid)
  · simp only [mem_cons, not_mem_nil, or_false, forall_eq]
    exact smooth_clerical rfl (fun _ => rfl)
  · refine leads_of_step (fun _ _ _ => rfl) ?_
    intro s v standing
    have none : s.volume = none := standing.volume
    refine ⟨standing.snapId, ?_, standing.paused, standing.archived⟩
    show s.volume.or (some .blank) = some .blank
    rw [none]
    rfl
  · simp only [mem_cons, not_mem_nil, or_false, forall_eq_or_imp, forall_eq]
    exact ⟨smooth_clerical rfl (by simp), smooth_clerical rfl (by simp)⟩
  · exact (smooth_clerical rfl (by simp)).weaken next

theorem resizing_valid : (resizing newMib id tree).Valid statements (fun _ _ o => o = .smooth)
      (Standing id tree (some (.files tree)) false false) (fun _ => False) := by
  refine kept_valid id tree (fun _ standing => standing) ?_
  refine gone_valid newMib id tree (fun _ standing => standing) ?_
  exact ⟨restore_leads id tree, restored_valid newMib id tree⟩

end Smooth

theorem handler_volume (newMib : Nat) (p : Site × Locals) :
    (∀ state ∈ statements.run .smooth p (runResizeDestructive newMib).handler, state.1.volume = p.1.volume) ∧
    (statements.after .smooth p (runResizeDestructive newMib).handler).1.volume = p.1.volume := by
  have clerical (step : Step) (own : step.clerical = true) (q : Site × Locals) (same : q.1.volume = p.1.volume) :
      (statements.perform q step .smooth).1.volume = p.1.volume :=
    (clerical_act own).volume.trans same
  refine Language.run_invariant rfl ?_
  intro step mem q same
  simp only [runResizeDestructive, mem_cons, not_mem_nil, or_false] at mem
  rcases mem with rfl | rfl | rfl | rfl
  · exact clerical _ rfl q same
  · show (Step.act q.1 q.2 .smooth .unquiesceQuietly).volume = _
    simp only [Step.act]
    cases q.2.quiesceSnap <;> exact same
  · exact clerical _ rfl q same
  · exact clerical _ rfl q same

theorem handler_calm (newMib : Nat) (p : Site × Locals) :
    statements.Calm .smooth p (runResizeDestructive newMib).handler :=
  ⟨rfl, rfl, rfl, rfl, trivial⟩

theorem smooth_invariant {c : Step} (mem : (a, c) ∈ resizing newMib id tree) (p : Site × Locals)
    (holds : a p) (busy : p.1.busy = true) : p.1.volume = some (.files tree) := by
  have down {volume : Option Contents} {archived : Bool} (standing : Standing id tree volume true archived p) :
      p.1.volume = some (.files tree) := by
    rw [standing.paused rfl] at busy
    contradiction
  simp only [resizing, kept, gone, restored, mem_append, mem_segment, mem_cons] at mem
  rcases mem with (⟨rfl, _⟩ | ⟨rfl, _⟩ | ⟨rfl, _⟩) | (⟨rfl, _⟩ | ⟨rfl, _⟩) | ⟨rfl, _⟩ | ⟨rfl, _⟩
  · exact holds.volume
  · exact holds.volume
  · exact holds.volume
  · exact down holds
  · exact down holds
  · exact down holds
  · exact holds.volume

theorem gone_volume (mem : (a, step) ∈ gone newMib id tree) (holds : a (s, v)) :
    step ≠ .restoreTenantPVC ∧ (step.act s v o).volume ≠ some (.files tree) := by
  have clerical {step : Step} (own : step.clerical = true) (other : s.volume ≠ some (.files tree)) :
      step ≠ .restoreTenantPVC ∧ (step.act s v o).volume ≠ some (.files tree) := by
    refine ⟨by rintro rfl; contradiction, ?_⟩
    rw [(clerical_act own).volume]
    exact other
  simp only [gone, mem_append, mem_segment, mem_cons, not_mem_nil, or_false] at mem
  rcases mem with ⟨rfl, rfl | rfl⟩ | ⟨rfl, rfl | rfl | rfl⟩
  all_goals have volume : s.volume = _ := holds.volume
  · exact clerical rfl (by simp [volume])
  · refine ⟨by simp, ?_⟩
    simp only [Step.act, Site.write]
    split
    · simp [volume]
    · simp [volume]
  · exact clerical rfl (by simp [volume])
  · exact clerical rfl (by simp [volume])
  · exact clerical rfl (by simp [volume])

theorem restored_volume (mem : (a, step) ∈ restored newMib id tree) (holds : a (s, v)) :
    (step.act s v o).volume = some (.files tree) := by
  rw [restored, mem_segment] at mem
  obtain ⟨rfl, mem⟩ := mem
  have volume : s.volume = some (.files tree) := holds.volume
  by_cases clerical : step.clerical = true
  · rw [(clerical_act clerical).volume]
    exact volume
  have unquiesce : step = .unquiesce := by
    simp only [mem_cons, not_mem_nil, or_false] at mem
    rcases mem with rfl | rfl | rfl | rfl | rfl | rfl | rfl | rfl
    all_goals first | rfl | exact absurd rfl clerical
  subst unquiesce
  simp only [Step.act]
  cases v.quiesceSnap <;> exact volume

theorem interrupted_volume (standing : Standing id tree (some .blank) true true (s, v)) (throws : o.throws = true) :
    (Step.act s v o .restoreTenantPVC).volume = some (.files tree) ↔ o.lands = true ∧ o.left = .files tree := by
  have volume : s.volume = some .blank := standing.volume
  have archive : v.snapId.bind s.archives = some (.files tree) := by
    rw [standing.snapId]
    exact standing.archived rfl
  simp only [Step.act, Site.unpack, archive, volume, throws]
  by_cases lands : o.lands = true
  · simp [lands]
  · simp [lands, volume]

theorem resize_loud (newMib : Nat) (mem : step ∈ (runResizeDestructive newMib).body) : step.quiet = false := by
  have all : (runResizeDestructive newMib).body.all (fun c => !c.quiet) = true := rfl
  simpa using all_eq_true.mp all step mem

theorem trace_caught {p : Site × Locals} {rest : List Step} (thrown : statements.throws p step o = true) :
    statements.trace p (remaining (step :: rest) (some (runResizeDestructive newMib).handler))
        (o :: replicate (runResizeDestructive newMib).handler.length .smooth) =
      statements.perform p step o :: statements.run .smooth (statements.perform p step o)
        (runResizeDestructive newMib).handler := by
  have handled := Language.trace_calm [] none [] (handler_calm newMib (statements.perform p step o))
  rw [append_nil, append_nil] at handled
  rw [Language.trace_throw thrown, handled]
  exact congrArg _ (append_nil _)

theorem rolled_back_iff_caught {before : List (Site × Locals)} {caught : Site × Locals}
    (run : ∀ state ∈ before, state.1.busy = true → state.1.volume = some (.files tree)) :
    RolledBack tree (before ++ caught :: statements.run .smooth caught (runResizeDestructive newMib).handler) ↔
        caught.1.volume = some (.files tree) := by
  obtain ⟨handler, last⟩ := handler_volume newMib caught
  have ending : (before ++ caught ::
      statements.run .smooth caught (runResizeDestructive newMib).handler).getLast? =
      some (statements.after .smooth caught (runResizeDestructive newMib).handler) := by
    rw [getLast?_append, getLast?_cons]
    rfl
  constructor
  · intro rolledBack
    exact last.symm.trans (rolledBack.ends _ ending)
  intro held
  refine ⟨?_, ?_⟩
  · intro state mem
    rw [ending] at mem
    cases mem
    exact last.trans held
  intro state mem up
  rcases mem_append.mp mem with ahead | later
  · exact run state ahead up
  rcases mem_cons.mp later with rfl | inHandler
  · exact held
  · exact (handler state inHandler).trans held

theorem rolled_back_iff_volume {done rest : Annotation (Site × Locals) Step}
    (holds : s.volume = some (.files tree)) (split : gone newMib (s.supply + 1) tree ++
      (Standing (s.supply + 1) tree (some .blank) true true, Step.restoreTenantPVC) ::
      restored newMib (s.supply + 1) tree = done ++ (a, step) :: rest) (throws : o.throws = true) :
    ∃ p : Site × Locals, a p ∧ (RolledBack tree (resizeStates s newMib (program done) o) ↔
        (step.act p.1 p.2 o).volume = some (.files tree)) := by
  have outline : resizing newMib (s.supply + 1) tree =
      (kept (s.supply + 1) tree ++ done) ++ (a, step) :: rest := by
    rw [resizing, split, append_assoc]
  have valid := resizing_valid newMib (s.supply + 1) tree
  rw [outline] at valid
  have first : Standing (s.supply + 1) tree (some (.files tree)) false false
      (s.claim ⟨runResizeDestructive newMib, none, none⟩) := ⟨rfl, holds, nofun, nofun⟩
  obtain ⟨calm, standing, run⟩ := valid.calm
    (fun p => p.1.busy = true → p.1.volume = some (.files tree)) (by exact first)
    (by rw [← outline]; exact fun b c mem p holds => smooth_invariant mem p holds)
    (fun p standing _ => standing.volume)
  have steps : program (kept (s.supply + 1) tree ++ done) = throughDeletion newMib ++ program done := by
    rw [program_append, program_kept newMib]
  rw [steps] at calm standing run
  have body : (runResizeDestructive newMib).program =
      remaining ((throughDeletion newMib ++ program done) ++ step :: program rest)
        (some (runResizeDestructive newMib).handler) := by
    rw [Orchestration.program, ← program_resizing newMib (s.supply + 1) tree, outline, program_append, steps]
    rfl
  have loud : step.quiet = false := by
    refine resize_loud newMib ?_
    rw [← program_resizing newMib (s.supply + 1) tree, outline, program_append]
    exact mem_append_right _ mem_cons_self
  refine ⟨_, standing, ?_⟩
  rw [resizeStates, body, Language.trace_calm _ _ _ calm, trace_caught (throws_iff.mpr ⟨loud, .inl throws⟩)]
  exact rolled_back_iff_caught run

/-- Whichever statement after the deletion throws, the resize ends with the data in the volume
before any workload is up again if and only if the restore had been made, or had unpacked
everything when it threw. -/
theorem resize_rolled_back_iff (s : Site) (newMib tree : Nat) (between later : List Step)
    (step : Step) (o : Fate) (holds : s.volume = some (.files tree))
    (split : afterDeletion newMib = between ++ step :: later) (throws : o.throws = true) :
    RolledBack tree (resizeStates s newMib between o) ↔ .restoreTenantPVC ∈ between ∨
        step = .restoreTenantPVC ∧ o.lands = true ∧ o.left = .files tree := by
  let id := s.supply + 1
  rw [← program_rest newMib id tree, program, map_eq_append_iff] at split
  obtain ⟨done, tail, annotated, rfl, same⟩ := split
  rw [map_eq_cons_iff] at same
  obtain ⟨⟨a, c⟩, rest, rfl, rfl, rfl⟩ := same
  obtain ⟨⟨s', v⟩, standing, iff⟩ := rolled_back_iff_volume holds annotated throws
  have unrestored : ∀ b d, (b, d) ∈ gone newMib id tree → d ≠ .restoreTenantPVC := by
    intro b d mem
    simp only [gone, mem_append, mem_segment, not_mem_nil] at mem
    rintro rfl
    simp at mem
  rw [show map Prod.snd done = program done from rfl, iff]
  rcases position annotated with ⟨more, front⟩ | ⟨rfl, here, _⟩ | ⟨more, rfl, back⟩
  · have mem : (a, c) ∈ gone newMib id tree := by simp [front]
    obtain ⟨other, volume⟩ := gone_volume (o := o) mem standing
    refine iff_of_false volume ?_
    rintro (restored | ⟨same, _⟩)
    · obtain ⟨⟨b, d⟩, memDone, same⟩ := mem_map.mp restored
      exact unrestored b d (by simp [front, memDone]) same
    · exact other same
  · obtain ⟨rfl, rfl⟩ := Prod.mk.inj here
    rw [interrupted_volume standing throws]
    constructor
    · exact fun full => .inr ⟨rfl, full⟩
    rintro (restored | ⟨_, full⟩)
    · obtain ⟨⟨b, d⟩, mem, same⟩ := mem_map.mp restored
      exact absurd same (unrestored b d mem)
    · exact full
  · have mem : (a, c) ∈ restored newMib id tree := by simp [back]
    refine iff_of_true (restored_volume mem standing) (.inl ?_)
    simp [program]

/-- The update of the operation after the restore throws. -/
theorem resize_rolled_back_late : afterDeletion 5120 = (afterDeletion 5120).take 6 ++
      .updateOp (some .unquiescing) :: (afterDeletion 5120).drop 7 ∧
    RolledBack 7 (resizeStates demo 5120 ((afterDeletion 5120).take 6) ⟨true, false, [], [], .blank⟩) :=
  ⟨rfl, (resize_rolled_back_iff demo 5120 7 ((afterDeletion 5120).take 6)
    ((afterDeletion 5120).drop 7) (.updateOp (some .unquiescing)) ⟨true, false, [], [], .blank⟩
    rfl rfl rfl).mpr (.inl (by decide))⟩

/-- The Job that restores the data fails before it has unpacked anything. The workloads are
scaled up again on the empty volume. -/
theorem resize_leaves_blank_volume : afterDeletion 5120 = (afterDeletion 5120).take 5 ++
      .restoreTenantPVC :: (afterDeletion 5120).drop 6 ∧
    ¬ RolledBack 7 (resizeStates demo 5120 ((afterDeletion 5120).take 5) ⟨true, false, [], [], .blank⟩) := by
  refine ⟨rfl, ?_⟩
  intro rolledBack
  exact absurd (rolledBack.ends _ rfl) (by decide)

end HostingPlatform.Storage
