import HostingPlatform.BackupRcloneShim.Reconciler

/-! When the objects of the shim hold what a pass has rendered: which runs keep the stored hash and the
objects together. -/
namespace HostingPlatform.BackupRcloneShim.Reconciler

open Table List Transition

def Materialised (s : Cluster) (r : RenderedShimConfig) : Prop := ∀ o, s.objects o = some (content r o)

def Ending.plan : Ending → Option Plan
  | .unchanged plan => some plan
  | .materialised plan => some plan
  | .failed plan _ => some plan
  | _ => none

/- the plan of a pass that is at work on the objects, or is about to write its status -/
def Phase.plan : Phase → Option Plan
  | .read plan _ => some plan
  | .write plan _ _ => some plan
  | .patchDaemonSet plan => some plan
  | .readStatus ending => ending.plan
  | .writeStatus ending _ => ending.plan
  | _ => none

def Phase.isDone : Phase → Bool
  | .done _ => true
  | _ => false

def Idle (s : Cluster) : Prop := ∀ p ∈ s.passes, p.phase.isDone = true

def SameContent (r r' : RenderedShimConfig) : Prop := ∀ o, content r o = content r' o

/-- Inputs of one hash are rendered alike, as far as the run has seen them. -/
def Told (s : Cluster) (plan : Plan) : Prop :=
  ∀ other ∈ s.plans, other.inputHash = plan.inputHash → SameContent other.rendered plan.rendered

/-- Whoever else is at work has inputs of the same hash. -/
def Agrees (s : Cluster) (plan : Plan) : Prop :=
  ∀ q ∈ s.passes.rows, ∀ other ∈ q.phase.plan, other.inputHash = plan.inputHash

/-- The stored hash is empty, or the objects hold what was rendered from inputs of this hash. -/
def Described (s : Cluster) : Prop :=
  ∀ h ∈ storedHash s, h ≠ "" → ∃ plan ∈ s.plans, plan.inputHash = h ∧ Materialised s plan.rendered

variable (crypto : Crypto)

def CarefulLoad (s : Cluster) (loaded : Except String Plan) : Prop :=
  match loaded with
  | .ok plan => Told s plan ∧ (plan.state = .STATE_NO_ASSIGNMENTS → Agrees s plan)
  | .error _ => True

def Careful (s : Cluster) (p : Pass) (outcome : Outcome) : Prop :=
  match p.phase with
  | .loadShimAssignments key => outcome = .answered → CarefulLoad s (planOf crypto key s.loaded)
  | .readStatusInputHash plan => Agrees s plan
  | .write plan .sshKeys true => outcome.applies = true ∨
      s.objects .sshKeys = some (content plan.rendered .sshKeys)
  | .patchDaemonSet _ => (s.objects .daemonSet).isSome = true
  | .readStatus _ => outcome = .answered ∨ Described s
  | .writeStatus _ found => (applicable found s.status && outcome.applies) = true ∨ Described s
  | _ => True

def Sound (s : Cluster) : Action → Prop
  | .run id outcome => ∀ p ∈ s.passes.rows, p.id = id → Careful crypto s p outcome
  | _ => True

def Object.all : List Object := [.config, .credentials, .sshKeys, .daemonSet]

theorem Object.mem_all (o : Object) : o ∈ Object.all := by
  cases o <;> decide

theorem forall_object {P : Object → Prop} : (∀ o ∈ Object.all, P o) ↔ ∀ o, P o :=
  ⟨fun every o => every o o.mem_all, fun every o _ => every o⟩

instance (s : Cluster) (r : RenderedShimConfig) : Decidable (Materialised s r) :=
  decidable_of_iff _ (@forall_object fun o => s.objects o = some (content r o))

instance (r r' : RenderedShimConfig) : Decidable (SameContent r r') :=
  decidable_of_iff _ (@forall_object fun o => content r o = content r' o)

instance (s : Cluster) (plan : Plan) : Decidable (Told s plan) :=
  inferInstanceAs (Decidable (∀ other ∈ s.plans, other.inputHash = plan.inputHash →
    SameContent other.rendered plan.rendered))

instance (s : Cluster) (plan : Plan) : Decidable (Agrees s plan) :=
  inferInstanceAs (Decidable (∀ q ∈ s.passes.rows, ∀ other ∈ q.phase.plan, other.inputHash = plan.inputHash))

instance (s : Cluster) : Decidable (Described s) :=
  inferInstanceAs (Decidable (∀ h ∈ storedHash s, h ≠ "" →
    ∃ plan ∈ s.plans, plan.inputHash = h ∧ Materialised s plan.rendered))

instance (s : Cluster) (loaded : Except String Plan) : Decidable (CarefulLoad s loaded) := by
  unfold CarefulLoad
  split <;> infer_instance

instance (s : Cluster) (p : Pass) (outcome : Outcome) : Decidable (Careful crypto s p outcome) := by
  unfold Careful
  split <;> infer_instance

instance (s : Cluster) (a : Action) : Decidable (Sound crypto s a) := by
  unfold Sound
  split <;> infer_instance

/- nothing happened before; the objects are as the cluster was set up -/
def Cluster.initial (key : Option RawKey) (loaded : Except String (List ClassAssignment))
    (objects : Object → Option (Option String)) : Cluster :=
  ⟨key, loaded, objects, none, Table.empty, []⟩

/- the pass `id` and changes of the inputs -/
def Alone (id : Nat) : Action → Prop
  | .start id' _ => id' = id
  | .run id' _ => id' = id
  | .change _ _ => True
  | .applyDaemonSet => False

/-- After a pass that ran alone to its end and returned STATE_OK, the objects hold what it has rendered. -/
def Converges (initial : Cluster) (actions : List Action) : Prop :=
  ∀ before alone id, before ++ alone <+: actions → (∀ a ∈ alone, Alone id a) →
    ∀ s t, exec (step crypto) initial before = some s → Idle s → (∀ p ∈ s.passes, p.id ≠ id) →
      exec (step crypto) s alone = some t → ∀ p ∈ t.passes, p.id = id →
        ∀ ending, p.phase = .done (some ending) → ending.result.state = .STATE_OK →
          ∃ plan, ending.plan = some plan ∧ Materialised t plan.rendered

/-- No pass finds its inputs unchanged while the objects hold anything else. -/
def ShortcutsHonest (initial : Cluster) (actions : List Action) : Prop :=
  ∀ before id, before ++ [.run id .answered] <+: actions →
    ∀ s, exec (step crypto) initial before = some s → ∀ p ∈ s.passes, p.id = id →
      ∀ plan, p.phase = .readStatusInputHash plan →
        afterStatusHash s plan .answered = .readStatus (.unchanged plan) → Materialised s plan.rendered

def Phase.known : Phase → Option Plan
  | .readStatusInputHash plan => some plan
  | phase => phase.plan

def Object.rank : Object → Nat
  | .config => 0
  | .credentials => 1
  | .sshKeys => 2
  | .daemonSet => 3

def Ending.complete : Ending → Bool
  | .unchanged _ => true
  | .materialised _ => true
  | _ => false

/- the pass has written the object, or has found it written -/
def Phase.written : Phase → Object → Bool
  | .read _ object, o => decide (o.rank < object.rank)
  | .write _ object _, o => decide (o.rank < object.rank)
  | .patchDaemonSet _, o => decide (o.rank < 3)
  | .readStatus ending, _ => ending.complete
  | .writeStatus ending _, _ => ending.complete
  | _, _ => false

def Found (s : Cluster) (phase : Phase) : Prop :=
  ∀ plan object, phase = .write plan object true → (s.objects object).isSome = true

def Holds (s : Cluster) (phase : Phase) : Prop :=
  ∀ plan, phase.plan = some plan → ∀ o, phase.written o = true → s.objects o = some (content plan.rendered o)

structure Kept (s : Cluster) : Prop where
  told : ∀ plan ∈ s.plans, ∀ other ∈ s.plans, other.inputHash = plan.inputHash →
    SameContent other.rendered plan.rendered
  hashed : ∀ plan ∈ s.plans, plan.inputHash ≠ ""
  known : ∀ p ∈ s.passes, ∀ plan, p.phase.known = some plan → plan ∈ s.plans
  agree : ∀ p ∈ s.passes, ∀ q ∈ s.passes, ∀ plan other, p.phase.plan = some plan → q.phase.plan = some other →
    other.inputHash = plan.inputHash
  holds : ∀ p ∈ s.passes, Holds s p.phase
  found : ∀ p ∈ s.passes, Found s p.phase
  stored : ∀ h, storedHash s = some h → h ≠ "" →
    (∃ plan ∈ s.plans, plan.inputHash = h ∧ Materialised s plan.rendered) ∨
      ∃ p ∈ s.passes, ∃ plan, p.phase.plan = some plan ∧ plan.inputHash ≠ h

variable {phase : Phase} {s s' : Cluster} {p : Pass} {outcome : Outcome} {object : Object} {found : Bool}
  {ending : Ending} {loaded : Except String (List ClassAssignment)} {a : Action} {key : Option RawKey}
  {objects : Object → Option (Option String)} {actions : List Action}

theorem known_of_plan {plan : Plan} (its : phase.plan = some plan) : phase.known = some plan := by
  cases phase with
  | readStatusInputHash plan' => contradiction
  | _ => exact its

theorem mem_enter {q : Pass} (mem : p ∈ s.passes) :
    q ∈ (s.enter p.id phase).passes ↔ q ∈ s.passes ∧ q.id ≠ p.id ∨ q = p.enter phase := by
  refine (mem_update (Pass.enter_id phase)).trans ?_
  constructor
  · rintro (⟨there, other⟩ | ⟨old, there, same, rfl⟩)
    · exact .inl ⟨there, beq_eq_false_iff_ne.mp other⟩
    · rw [s.passes.eq_of_key there mem (beq_iff_eq.mp same)]
      exact .inr rfl
  · rintro (⟨there, other⟩ | rfl)
    · exact .inl ⟨there, beq_eq_false_iff_ne.mpr other⟩
    · exact .inr ⟨p, mem, beq_self_eq_true p.id, rfl⟩

/-- What a step of the pass `p` has to bring about in `s'`, in which all passes stand as before, when `p`
goes on to `phase`. -/
structure Advances (s : Cluster) (p : Pass) (s' : Cluster) (phase : Phase) : Prop where
  passes : s'.passes = s.passes
  told : ∀ plan ∈ s'.plans, ∀ other ∈ s'.plans, other.inputHash = plan.inputHash →
    SameContent other.rendered plan.rendered
  hashed : ∀ plan ∈ s'.plans, plan.inputHash ≠ ""
  plans : ∀ plan ∈ s.plans, plan ∈ s'.plans
  known : ∀ plan, phase.known = some plan → plan ∈ s'.plans
  agree : ∀ plan, phase.plan = some plan → ∀ q ∈ s.passes, q.id ≠ p.id → ∀ other, q.phase.plan = some other →
    other.inputHash = plan.inputHash
  others : ∀ q ∈ s.passes, q.id ≠ p.id → Holds s' q.phase
  there : ∀ o, (s.objects o).isSome = true → (s'.objects o).isSome = true
  holds : Holds s' phase
  found : Found s' phase
  stored : ∀ h, storedHash s' = some h → h ≠ "" →
    (∃ plan ∈ s'.plans, plan.inputHash = h ∧ Materialised s' plan.rendered) ∨
      (∃ q ∈ s.passes, q.id ≠ p.id ∧ ∃ plan, q.phase.plan = some plan ∧ plan.inputHash ≠ h) ∨
        ∃ plan, phase.plan = some plan ∧ plan.inputHash ≠ h

theorem advances_kept (kept : Kept s) (mem : p ∈ s.passes) (advances : Advances s p s' phase) :
    Kept (s'.enter p.id phase) := by
  have there : p ∈ s'.passes := advances.passes ▸ mem
  have origin {q : Pass} (its : q ∈ (s'.enter p.id phase).passes) :
      q ∈ s.passes ∧ q.id ≠ p.id ∨ q = p.enter phase := by
    have from' := (mem_enter there).mp its
    rwa [advances.passes] at from'
  have stays {q : Pass} (its : q ∈ s.passes ∧ q.id ≠ p.id ∨ q = p.enter phase) :
      q ∈ (s'.enter p.id phase).passes := by
    refine (mem_enter there).mpr ?_
    rwa [advances.passes]
  exact {
    told := advances.told
    hashed := advances.hashed
    known := by
      intro q its plan known
      rcases origin its with ⟨old, _⟩ | rfl
      · exact advances.plans plan (kept.known q old plan known)
      · exact advances.known plan known
    agree := by
      intro q its r its' plan other first second
      rcases origin its with ⟨old, differs⟩ | rfl
      · rcases origin its' with ⟨old', _⟩ | rfl
        · exact kept.agree q old r old' plan other first second
        · exact (advances.agree other second q old differs plan first).symm
      · rcases origin its' with ⟨old', differs'⟩ | rfl
        · exact advances.agree plan first r old' differs' other second
        · exact congrArg Plan.inputHash (Option.some.inj (second.symm.trans first))
    holds := by
      intro q its
      rcases origin its with ⟨old, differs⟩ | rfl
      · exact advances.others q old differs
      · exact advances.holds
    found := by
      intro q its
      rcases origin its with ⟨old, differs⟩ | rfl
      · exact fun plan object at' => advances.there object (kept.found q old plan object at')
      · exact advances.found
    stored := by
      intro h stored some
      rcases advances.stored h stored some with described | ⟨q, old, differs, busy⟩ | busy
      · exact .inl described
      · exact .inr ⟨q, stays (.inl ⟨old, differs⟩), busy⟩
      · exact .inr ⟨p.enter phase, stays (.inr rfl), busy⟩ }

theorem quiet_advances (kept : Kept s) (mem : p ∈ s.passes)
    (known : ∀ plan, phase.known = some plan → p.phase.known = some plan)
    (agree : ∀ plan, phase.plan = some plan → p.phase.plan = some plan ∨ Agrees s plan)
    (holds : Holds s phase) (found : Found s phase)
    (leaves : (∃ plan, p.phase.plan = some plan) → phase.plan = none → Described s) : Advances s p s phase where
  passes := rfl
  told := kept.told
  hashed := kept.hashed
  plans := fun _ there => there
  known := fun plan its => kept.known p mem plan (known plan its)
  agree := by
    intro plan its q there _ other its'
    rcases agree plan its with before | agrees
    · exact kept.agree p mem q there plan other before its'
    · exact agrees q there other its'
  others := fun q there _ => kept.holds q there
  there := fun _ its => its
  holds := holds
  found := found
  stored := by
    intro h stored some
    rcases kept.stored h stored some with described | ⟨q, there, plan, its, differs⟩
    · exact .inl described
    by_cases same : q.id = p.id
    · rw [s.passes.eq_of_key there mem same] at its
      cases after : phase.plan with
      | none => exact .inl (leaves ⟨plan, its⟩ after h stored some)
      | some plan' =>
        right; right
        refine ⟨plan', rfl, ?_⟩
        have known' := known plan' (known_of_plan after)
        rw [known_of_plan its] at known'
        cases known'
        exact differs
    · exact .inr (.inl ⟨q, there, same, plan, its, differs⟩)

theorem found_of_plan (other : ∀ plan object, phase ≠ .write plan object true) :
    Found s phase := fun plan object its => absurd its (other plan object)

theorem idle_advances (kept : Kept s) (mem : p ∈ s.passes) (before : p.phase.plan = none)
    (after : phase.known = none) : Advances s p s phase := by
  have none {plan : Plan} (its : phase.plan = some plan) : False := by
    rw [known_of_plan its] at after
    contradiction
  refine quiet_advances kept mem ?_ (fun plan its => (none its).elim) (fun plan its => (none its).elim) ?_ ?_
  · intro plan its
    rw [after] at its
    contradiction
  · intro plan object its
    subst its
    contradiction
  · rintro ⟨plan, its⟩
    rw [before] at its
    contradiction

section

variable {plan : Plan} (kept : Kept s) (mem : p ∈ s.passes)
include kept mem

theorem plan_advances (before : p.phase.plan = none) (hashed : plan.inputHash ≠ "") (told : Told s plan)
    (agrees : plan.state = .STATE_NO_ASSIGNMENTS → Agrees s plan) :
    Advances s p { s with plans := plan :: s.plans } (begins plan) := by
  have phase : begins plan = .read plan .config ∧ plan.state = .STATE_NO_ASSIGNMENTS ∨
      begins plan = .readStatusInputHash plan := by
    unfold begins
    split
    · rename_i state
      exact .inl ⟨rfl, state⟩
    · exact .inr rfl
  have alike {other : Plan} (there : other ∈ s.plans) (same : other.inputHash = plan.inputHash) :
      SameContent other.rendered plan.rendered := told other there same
  exact {
    passes := rfl
    told := by
      intro first there second there' same
      rcases mem_cons.mp there with rfl | old
      · rcases mem_cons.mp there' with rfl | old'
        · exact fun _ => rfl
        · exact alike old' same
      · rcases mem_cons.mp there' with rfl | old'
        · exact fun o => (alike old same.symm o).symm
        · exact kept.told first old second old' same
    hashed := by
      intro other there
      rcases mem_cons.mp there with rfl | old
      · exact hashed
      · exact kept.hashed other old
    plans := fun other there => mem_cons_of_mem plan there
    known := by
      intro other its
      rcases phase with ⟨its', _⟩ | its' <;> rw [its'] at its <;> cases its <;> exact mem_cons_self
    agree := by
      intro other its q there _ plan' its'
      rcases phase with ⟨here, state⟩ | here
      · rw [here] at its
        cases its
        exact agrees state q there plan' its'
      · rw [here] at its
        contradiction
    others := fun q there _ => kept.holds q there
    there := fun _ its => its
    holds := by
      intro other its o written
      rcases phase with ⟨here, _⟩ | here <;> rw [here] at written
      · simp [Phase.written, Object.rank] at written
      · contradiction
    found := by
      refine found_of_plan fun plan' object => ?_
      rcases phase with ⟨here, _⟩ | here <;> rw [here] <;> exact nofun
    stored := by
      intro h stored some
      rcases kept.stored h stored some with ⟨other, there, described⟩ | ⟨q, there, busy⟩
      · exact .inl ⟨other, mem_cons_of_mem plan there, described⟩
      refine .inr (.inl ⟨q, there, ?_, busy⟩)
      intro same
      obtain ⟨other, its, _⟩ := busy
      rw [s.passes.eq_of_key there mem same, before] at its
      contradiction }

theorem shortcut_materialised (known : p.phase.known = some plan) (agrees : Agrees s plan) (same : storedHash s = some plan.inputHash) :
    Materialised s plan.rendered := by
  have there := kept.known p mem plan known
  rcases kept.stored _ same (kept.hashed plan there) with ⟨other, its, hash, described⟩ | ⟨q, at', other, busy, differs⟩
  · intro o
    rw [described o, kept.told plan there other its hash o]
  · exact absurd (agrees q at' other busy) differs

theorem statusHash_advances (phase : p.phase = .readStatusInputHash plan) (agrees : Agrees s plan) :
    Advances s p s (afterStatusHash s plan outcome) := by
  have known : p.phase.known = some plan := by rw [phase]; rfl
  have leaves (after : Phase) : (∃ plan, p.phase.plan = some plan) → after.plan = none → Described s := by
    rintro ⟨other, its⟩
    rw [phase] at its
    contradiction
  have goes : Advances s p s (.read plan .config) := by
    refine quiet_advances kept mem ?_ ?_ ?_ (found_of_plan fun _ _ => nofun) (leaves _)
    · rintro _ ⟨⟩
      exact known
    · rintro _ ⟨⟩
      exact .inr agrees
    · intro other _ o written
      simp [Phase.written, Object.rank] at written
  unfold afterStatusHash
  split
  · split
    · rename_i same
      refine quiet_advances kept mem ?_ ?_ ?_ (found_of_plan fun _ _ => nofun) (leaves _)
      · rintro _ ⟨⟩
        exact known
      · rintro _ ⟨⟩
        exact .inr agrees
      · rintro _ ⟨⟩ o _
        exact shortcut_materialised kept mem known agrees same o
    · exact goes
  · exact goes

theorem same_advances (before : p.phase.plan = some plan)
    (after : phase.plan = some plan) (written : ∀ o, phase.written o = true →
      p.phase.written o = true ∨ s.objects o = some (content plan.rendered o)) (found : Found s phase) :
    Advances s p s phase := by
  have same {other : Plan} (its : phase.plan = some other) : other = plan :=
    Option.some.inj (its.symm.trans after)
  refine quiet_advances kept mem ?_ ?_ ?_ found ?_
  · intro other its
    rw [known_of_plan after] at its
    rw [← its]
    exact known_of_plan before
  · intro other its
    rw [same its]
    exact .inl before
  · intro other its o wrote
    rw [same its]
    rcases written o wrote with earlier | holds
    · exact kept.holds p mem plan before o earlier
    · exact holds
  · intro _ gone
    rw [after] at gone
    contradiction

theorem set_advances (before : p.phase.plan = some plan) (after : phase.plan = some plan)
    (written : ∀ o, phase.written o = true → p.phase.written o = true ∨ o = object)
    (found : ∀ plan object, phase ≠ .write plan object true) :
    Advances s p (setObject s object (content plan.rendered object)) phase := by
  have there := kept.known p mem plan (known_of_plan before)
  have set (o : Object) (r : RenderedShimConfig) (same : content r object = content plan.rendered object)
      (holds : o ≠ object → s.objects o = some (content r o)) :
      (setObject s object (content plan.rendered object)).objects o = some (content r o) := by
    simp only [setObject]
    split
    · rename_i here
      rw [here, same]
    · rename_i other
      exact holds other
  have same {other : Plan} (its : phase.plan = some other) : other = plan :=
    Option.some.inj (its.symm.trans after)
  exact {
    passes := rfl
    told := kept.told
    hashed := kept.hashed
    plans := fun _ its => its
    known := by
      intro other its
      rw [known_of_plan after] at its
      cases its
      exact there
    agree := by
      intro other its q at' _ other' its'
      rw [same its]
      exact kept.agree p mem q at' plan other' before its'
    others := by
      intro q at' _ other its o wrote
      have alike := kept.told plan there other (kept.known q at' other (known_of_plan its))
        (kept.agree p mem q at' plan other before its)
      exact set o other.rendered (alike object) fun _ => kept.holds q at' other its o wrote
    there := by
      intro o its
      simp only [setObject]
      split
      · rfl
      · exact its
    holds := by
      intro other its o wrote
      rw [same its]
      refine set o plan.rendered rfl fun differs => ?_
      rcases written o wrote with earlier | here
      · exact kept.holds p mem plan before o earlier
      · exact absurd here differs
    found := found_of_plan found
    stored := by
      intro h stored some
      rcases kept.stored h stored some with ⟨other, its, hash, described⟩ | ⟨q, at', other, its, differs⟩
      · by_cases hashes : plan.inputHash = h
        · have alike := kept.told plan there other its (hash.trans hashes.symm)
          exact .inl ⟨other, its, hash, fun o => set o other.rendered (alike object) fun _ => described o⟩
        · exact .inr (.inr ⟨plan, after, hashes⟩)
      by_cases mine : q.id = p.id
      · rw [s.passes.eq_of_key at' mem mine, before] at its
        cases its
        exact .inr (.inr ⟨plan, after, differs⟩)
      · exact .inr (.inl ⟨q, at', mine, other, its, differs⟩) }

theorem failed_advances (before : p.phase.plan = some plan) (message : String) :
    Advances s p s (.readStatus (.failed plan message)) :=
  same_advances kept mem before rfl (fun _ written => nomatch written) (found_of_plan fun _ _ => nofun)

theorem read_advances (phase : p.phase = .read plan object) : Advances s p s (afterRead s plan object outcome) := by
  have before : p.phase.plan = some plan := by rw [phase]; rfl
  cases outcome with
  | answered =>
    refine same_advances kept mem before rfl ?_ ?_
    · intro o written
      rw [phase]
      exact .inl written
    · intro other at' its
      injection its with _ same found
      exact same ▸ found
  | refused message | lost message => exact failed_advances kept mem before message

end

theorem afterWrite_written {plan : Plan} {o : Object} (written : (afterWrite plan object).written o = true) :
    o.rank < object.rank ∨ o = object := by
  cases object <;> cases o <;> first | exact .inr rfl | exact .inl (by decide) | cases written

theorem afterWrite_plan (plan : Plan) (object : Object) : (afterWrite plan object).plan = some plan := by
  cases object <;> rfl

theorem afterWrite_found (plan : Plan) (object : Object) (plan' : Plan) (object' : Object) :
    afterWrite plan object ≠ .write plan' object' true := by
  cases object <;> exact nofun

theorem written_before {plan : Plan} {o : Object} (phase : p.phase = .write plan object found)
    (written : (afterWrite plan object).written o = true) : p.phase.written o = true ∨ o = object := by
  refine (afterWrite_written written).imp ?_ (fun same => same)
  intro earlier
  rw [phase]
  exact decide_eq_true earlier

theorem writeError_cases (plan : Plan) (object : Object) (found : Bool) (message : String) :
    writeError plan object found message = .readStatus (.failed plan message) ∨
      object = .sshKeys ∧ found = true ∧ writeError plan object found message = afterWrite plan object := by
  unfold writeError
  split
  · rename_i swallowed
    refine .inr ⟨swallowed.1, swallowed.2, ?_⟩
    rw [swallowed.1]
  · exact .inl rfl

theorem write_advances {plan : Plan} (kept : Kept s) (mem : p ∈ s.passes) (phase : p.phase = .write plan object found)
    (careful : object = .sshKeys → found = true → outcome.applies = true ∨
      s.objects .sshKeys = some (content plan.rendered .sshKeys)) :
    Advances s p (write s plan object found outcome).1 (write s plan object found outcome).2 := by
  have before : p.phase.plan = some plan := by rw [phase]; rfl
  have done : Advances s p (setObject s object (content plan.rendered object)) (afterWrite plan object) :=
    set_advances kept mem before (afterWrite_plan plan object) (fun _ written => written_before phase written)
      (afterWrite_found plan object)
  have fails (message : String) :
      Advances s p (setObject s object (content plan.rendered object)) (writeError plan object found message) := by
    rcases writeError_cases plan object found message with its | ⟨_, _, its⟩ <;> rw [its]
    · exact set_advances kept mem before rfl (fun _ written => nomatch written) (fun _ _ => nofun)
    · exact done
  -- the secret is there, so only an error that is swallowed can leave it as it was
  have stays (message : String) (unwritten : applicable found (s.objects object) = false ∨ outcome.applies = false) :
      Advances s p s (writeError plan object found message) := by
    rcases writeError_cases plan object found message with its | ⟨rfl, rfl, its⟩ <;> rw [its]
    · exact failed_advances kept mem before message
    have there := kept.found p mem plan .sshKeys phase
    have holds : s.objects .sshKeys = some (content plan.rendered .sshKeys) := by
      rcases careful rfl rfl with applies | holds
      · rcases unwritten with unfit | refused
        · rw [applicable, there] at unfit
          contradiction
        · rw [applies] at refused
          contradiction
      · exact holds
    refine same_advances kept mem before (afterWrite_plan plan .sshKeys) ?_
      (found_of_plan (afterWrite_found plan .sshKeys))
    intro o written
    refine (written_before phase written).imp (fun its => its) ?_
    rintro rfl
    exact holds
  simp only [write]
  cases fits : applicable found (s.objects object) with
  | false =>
    cases outcome with
    | answered => exact stays _ (.inl fits)
    | refused message | lost message => exact stays message (.inl fits)
  | true =>
    cases outcome with
    | answered => exact done
    | refused message => exact stays message (.inr rfl)
    | lost message => exact fails message

theorem daemonSet_advances {plan : Plan} (kept : Kept s) (mem : p ∈ s.passes)
    (phase : p.phase = .patchDaemonSet plan) (there : (s.objects .daemonSet).isSome = true) :
    Advances s p (patchDaemonSet s plan outcome).1 (patchDaemonSet s plan outcome).2 := by
  have before : p.phase.plan = some plan := by rw [phase]; rfl
  simp only [patchDaemonSet, there]
  cases outcome with
  | answered =>
    refine set_advances kept mem before rfl ?_ (fun _ _ => nofun)
    intro o _
    rw [phase]
    cases o <;> first | exact .inr rfl | exact .inl rfl
  | refused message => exact failed_advances kept mem before message
  | lost message => exact set_advances kept mem before rfl (fun _ written => nomatch written) (fun _ _ => nofun)

theorem ended_advances {ending : Option Ending} (kept : Kept s) (mem : p ∈ s.passes)
    (described : Described s) : Advances s p s (.done ending) :=
  quiet_advances kept mem (fun _ its => nomatch its) (fun _ its => nomatch its) (fun _ its => nomatch its)
    (found_of_plan fun _ _ => nofun) (fun _ _ => described)

theorem statusRead_advances (kept : Kept s) (mem : p ∈ s.passes) (phase : p.phase = .readStatus ending)
    (careful : outcome = .answered ∨ Described s) : Advances s p s (afterStatusRead s ending outcome) := by
  have ends (refused : outcome ≠ .answered) : Advances s p s (.done (some ending)) :=
    ended_advances kept mem (careful.resolve_left refused)
  cases outcome with
  | answered =>
    refine quiet_advances kept mem ?_ ?_ ?_ (found_of_plan fun _ _ => nofun) ?_
    · intro plan its
      rw [phase]
      exact its
    · intro plan its
      rw [phase]
      exact .inl its
    · have holds := kept.holds p mem
      rw [phase] at holds
      exact holds
    · rintro ⟨plan, its⟩ gone
      rw [phase] at its
      rw [show Phase.plan (.readStatus ending) = Phase.plan (afterStatusRead s ending .answered) from rfl, gone] at its
      contradiction
  | refused message | lost message => exact ends nofun

theorem writeStatus_advances (kept : Kept s) (mem : p ∈ s.passes) (phase : p.phase = .writeStatus ending found)
    (careful : (applicable found s.status && outcome.applies) = true ∨ Described s) :
    Advances s p (writeStatus crypto s p.reconciledAt ending found outcome) (.done (some ending)) := by
  unfold writeStatus
  split
  · exact {
      passes := rfl
      told := kept.told
      hashed := kept.hashed
      plans := fun _ its => its
      known := fun _ its => nomatch its
      agree := fun _ its => nomatch its
      others := fun q there _ => kept.holds q there
      there := fun _ its => its
      holds := fun _ its => nomatch its
      found := found_of_plan fun _ _ => nofun
      stored := by
        intro h stored some
        have same : (ending.status crypto p.reconciledAt).inputHash = h := Option.some.inj stored
        have complete (plan : Plan) (its : ending.plan = .some plan) (whole : ending.complete = true) :
            ∃ plan' ∈ s.plans, plan'.inputHash = plan.inputHash ∧ Materialised s plan'.rendered := by
          refine ⟨plan, kept.known p mem plan ?_, rfl, ?_⟩
          · rw [phase]
            exact its
          intro o
          refine kept.holds p mem plan ?_ o ?_
          · rw [phase]
            exact its
          · rw [phase]
            exact whole
        cases ending with
        | unchanged plan | materialised plan => exact .inl (same ▸ complete plan rfl rfl)
        | missingKey message | loadFailed fingerprint message => exact absurd same.symm some
        | failed plan message => exact absurd same.symm some }
  · rename_i unwritten
    exact ended_advances kept mem (careful.resolve_left unwritten)

theorem planOf_hash {key : RawKey} {plan : Plan} (made : planOf crypto key loaded = .ok plan) :
    plan.inputHash ≠ "" := by
  unfold planOf at made
  split at made
  · contradiction
  · cases made
    exact crypto.digest _
  rename_i a rest
  cases rendered : renderShimConfig crypto key (a :: rest) with
  | error message =>
    rw [rendered] at made
    contradiction
  | ok r =>
    rw [rendered] at made
    cases made
    exact crypto.digest _

theorem next_advances (kept : Kept s) (mem : p ∈ s.passes) (careful : Careful crypto s p outcome)
    (taken : next crypto s p outcome = some (s', phase)) : Advances s p s' phase := by
  unfold next at taken
  unfold Careful at careful
  cases at' : p.phase with
  | loadBackupTargetKey =>
    rw [at'] at taken
    cases taken
    refine idle_advances kept mem (by rw [at']; rfl) ?_
    cases outcome with
    | answered => cases s.key <;> rfl
    | refused message => rfl
    | lost message => rfl
  | loadShimAssignments key =>
    rw [at'] at taken careful
    have before : p.phase.plan = none := by rw [at']; rfl
    cases outcome with
    | answered =>
      dsimp only at taken careful
      cases made : planOf crypto key s.loaded with
      | ok plan =>
        rw [made] at taken
        cases taken
        have loads := careful rfl
        rw [made] at loads
        obtain ⟨told, agrees⟩ := loads
        exact plan_advances kept mem before (planOf_hash crypto made) told agrees
      | error message =>
        rw [made] at taken
        cases taken
        exact idle_advances kept mem before rfl
    | refused message | lost message =>
      cases taken
      exact idle_advances kept mem before rfl
  | readStatusInputHash plan =>
    rw [at'] at taken careful
    cases taken
    exact statusHash_advances kept mem at' careful
  | read plan object =>
    rw [at'] at taken
    cases taken
    exact read_advances kept mem at'
  | write plan object found =>
    rw [at'] at taken careful
    cases taken
    refine write_advances kept mem at' ?_
    rintro rfl rfl
    exact careful
  | patchDaemonSet plan =>
    rw [at'] at taken careful
    cases taken
    exact daemonSet_advances kept mem at' careful
  | readStatus ending =>
    rw [at'] at taken careful
    cases taken
    exact statusRead_advances kept mem at' careful
  | writeStatus ending found =>
    rw [at'] at taken careful
    cases taken
    exact writeStatus_advances crypto kept mem at' careful
  | done ending =>
    rw [at'] at taken
    contradiction

theorem step_kept {t : Cluster} (kept : Kept s) (sound : Sound crypto s a)
    (taken : step crypto s a = some t) : Kept t := by
  cases a with
  | change key loaded =>
    cases taken
    exact { kept with }
  | applyDaemonSet =>
    simp only [step] at taken
    split at taken
    · contradiction
    rename_i absent
    cases taken
    have same (o : Object) (value : Option String) (its : s.objects o = some value) :
        (setObject s .daemonSet none).objects o = some value := by
      simp only [setObject]
      split
      · rename_i here
        rw [here] at its
        rw [its] at absent
        exact absurd rfl absent
      · exact its
    exact {
      kept with
      holds := fun p mem plan its o written => same o _ (kept.holds p mem plan its o written)
      found := by
        intro p mem plan object at'
        obtain ⟨value, its⟩ := Option.isSome_iff_exists.mp (kept.found p mem plan object at')
        exact Option.isSome_iff_exists.mpr ⟨value, same object value its⟩
      stored := by
        intro h stored some
        refine (kept.stored h stored some).imp ?_ (fun busy => busy)
        rintro ⟨plan, there, hash, described⟩
        exact ⟨plan, there, hash, fun o => same o _ (described o)⟩ }
  | start id reconciledAt =>
    obtain ⟨passes, inserted, rfl⟩ := Option.map_eq_some_iff.mp taken
    exact {
      told := kept.told
      hashed := kept.hashed
      known := by
        intro p mem plan known
        rcases (mem_insert inserted).mp mem with rfl | old
        · contradiction
        · exact kept.known p old plan known
      agree := by
        intro p mem q mem' plan other first second
        rcases (mem_insert inserted).mp mem with rfl | old
        · contradiction
        rcases (mem_insert inserted).mp mem' with rfl | old'
        · contradiction
        · exact kept.agree p old q old' plan other first second
      holds := by
        intro p mem
        rcases (mem_insert inserted).mp mem with rfl | old
        · exact fun _ its => nomatch its
        · exact kept.holds p old
      found := by
        intro p mem
        rcases (mem_insert inserted).mp mem with rfl | old
        · exact found_of_plan fun _ _ => nofun
        · exact kept.found p old
      stored := by
        intro h stored some
        refine (kept.stored h stored some).imp (fun its => its) ?_
        rintro ⟨p, old, busy⟩
        exact ⟨p, (mem_insert inserted).mpr (.inr old), busy⟩ }
  | run id outcome =>
    obtain ⟨p, found, did⟩ := Option.bind_eq_some_iff.mp taken
    obtain ⟨⟨s', phase⟩, went, rfl⟩ := Option.map_eq_some_iff.mp did
    obtain ⟨mem, selected⟩ := mem_of_select found
    have same := beq_iff_eq.mp selected
    rw [← same]
    exact advances_kept kept mem (next_advances crypto kept mem (sound p mem same) went)

theorem initial_kept (key : Option RawKey) (loaded : Except String (List ClassAssignment))
    (objects : Object → Option (Option String)) : Kept (Cluster.initial key loaded objects) where
  told _ mem := absurd mem not_mem_nil
  hashed _ mem := absurd mem not_mem_nil
  known _ mem := absurd mem not_mem_nil
  agree _ mem := absurd mem not_mem_nil
  holds _ mem := absurd mem not_mem_nil
  found _ mem := absurd mem not_mem_nil
  stored _ stored := nomatch stored

/- what the pass `id` has rendered is there if it has ended with STATE_OK, and no other pass runs -/
structure Solo (id : Nat) (s : Cluster) : Prop where
  kept : Kept s
  others : ∀ q ∈ s.passes, q.id ≠ id → q.phase.isDone = true
  ended : ∀ p ∈ s.passes, p.id = id → ∀ ending, p.phase = .done (some ending) →
    ending.result.state = .STATE_OK → ∃ plan, ending.plan = some plan ∧ Materialised s plan.rendered

theorem ending_materialised (kept : Kept s) (mem : p ∈ s.passes) (plan : p.phase.plan = ending.plan)
    (written : ∀ o, p.phase.written o = ending.complete) (ok : ending.result.state = .STATE_OK) :
    ∃ plan, ending.plan = some plan ∧ Materialised s plan.rendered := by
  have holds (its : Plan) (same : ending.plan = some its) (whole : ending.complete = true) :
      Materialised s its.rendered :=
    fun o => kept.holds p mem its (plan.trans same) o ((written o).trans whole)
  cases ending with
  | unchanged its | materialised its => exact ⟨its, rfl, holds its rfl rfl⟩
  | missingKey message | loadFailed fingerprint message | failed its message => contradiction

theorem next_ends (taken : next crypto s p outcome = some (s', .done (some ending))) :
    s'.objects = s.objects ∧ p.phase.plan = ending.plan ∧ ∀ o, p.phase.written o = ending.complete := by
  unfold next at taken
  cases at' : p.phase with
  | loadBackupTargetKey =>
    rw [at'] at taken
    cases outcome <;> cases key : s.key <;> simp [afterKey, key] at taken
  | loadShimAssignments key =>
    rw [at'] at taken
    cases outcome with
    | answered =>
      cases made : planOf crypto key s.loaded with
      | ok plan =>
        simp only [made, begins] at taken
        split at taken <;> simp at taken
      | error message => simp [made] at taken
    | refused message | lost message => simp at taken
  | readStatusInputHash plan =>
    rw [at'] at taken
    cases outcome with
    | answered =>
      simp only [afterStatusHash, Option.some.injEq] at taken
      split at taken <;> simp at taken
    | refused message | lost message => simp [afterStatusHash] at taken
  | read plan object =>
    rw [at'] at taken
    cases outcome <;> simp [afterRead] at taken
  | write plan object found =>
    rw [at'] at taken
    have goesOn (o : Object) : afterWrite plan o ≠ .done (some ending) := by cases o <;> exact nofun
    have fails (message : String) : writeError plan object found message ≠ .done (some ending) := by
      unfold writeError
      split
      · exact goesOn .sshKeys
      · exact nofun
    have phase := congrArg Prod.snd (Option.some.inj taken)
    cases outcome with
    | answered =>
      simp only [write] at phase
      split at phase
      · exact absurd phase (goesOn object)
      · exact absurd phase (fails _)
    | refused message | lost message => exact absurd phase (fails message)
  | patchDaemonSet plan =>
    rw [at'] at taken
    cases outcome <;> simp [patchDaemonSet, afterWrite] at taken
  | readStatus ending' =>
    rw [at'] at taken
    cases outcome <;> simp [afterStatusRead] at taken <;> obtain ⟨rfl, rfl⟩ := taken <;>
      exact ⟨rfl, rfl, fun _ => rfl⟩
  | writeStatus ending' found =>
    rw [at'] at taken
    obtain ⟨rfl, rfl⟩ := taken
    refine ⟨?_, rfl, fun _ => rfl⟩
    unfold writeStatus
    split <;> rfl
  | done ending' =>
    rw [at'] at taken
    contradiction

theorem solo_step {id : Nat} {t : Cluster} (solo : Solo id s) (ok : Alone id a ∧ Sound crypto s a)
    (taken : step crypto s a = some t) : Solo id t := by
  have kept := step_kept crypto solo.kept ok.2 taken
  cases a with
  | change key loaded =>
    cases taken
    exact ⟨kept, solo.others, solo.ended⟩
  | applyDaemonSet => exact ok.1.elim
  | start id' reconciledAt =>
    obtain ⟨passes, inserted, rfl⟩ := Option.map_eq_some_iff.mp taken
    refine ⟨kept, ?_, ?_⟩
    · intro q mem differs
      rcases (mem_insert inserted).mp mem with rfl | old
      · exact absurd ok.1 differs
      · exact solo.others q old differs
    · intro p mem same ending ended
      rcases (mem_insert inserted).mp mem with rfl | old
      · contradiction
      · exact solo.ended p old same ending ended
  | run id' outcome =>
    obtain ⟨p, found, did⟩ := Option.bind_eq_some_iff.mp taken
    obtain ⟨⟨s', phase⟩, went, rfl⟩ := Option.map_eq_some_iff.mp did
    obtain ⟨mem, selected⟩ := mem_of_select found
    have same := beq_iff_eq.mp selected
    have passes := (next_advances crypto solo.kept mem (ok.2 p mem same) went).passes
    have origin {q : Pass} (its : q ∈ (s'.enter id' phase).passes) :
        q ∈ s.passes ∧ q.id ≠ p.id ∨ q = p.enter phase := by
      rw [← same] at its
      have from' := (mem_enter (passes ▸ mem)).mp its
      rwa [passes] at from'
    have mine : p.id = id := same.trans ok.1
    refine ⟨kept, ?_, ?_⟩
    · intro q its differs
      rcases origin its with ⟨old, _⟩ | rfl
      · exact solo.others q old differs
      · exact absurd mine differs
    intro q its here ending ended state
    rcases origin its with ⟨_, differs⟩ | rfl
    · exact absurd (here.trans mine.symm) differs
    have done : phase = .done (some ending) := ended
    subst done
    obtain ⟨objects, plan, written⟩ := next_ends crypto went
    obtain ⟨its, same, holds⟩ := ending_materialised solo.kept mem plan written state
    refine ⟨its, same, ?_⟩
    intro o
    rw [← holds o]
    exact congrFun objects o

section

variable (sound : Guarded (step crypto) (Sound crypto) (Cluster.initial key loaded objects) actions)
include sound

theorem converges : Converges crypto (Cluster.initial key loaded objects) actions := by
  rintro before alone id ⟨rest, rfl⟩ only s t reached idle fresh run
  rw [append_assoc] at sound
  have kept := guarded_invariant (fun _ _ _ kept ok taken => step_kept crypto kept ok taken)
    (initial_kept key loaded objects) sound.front reached
  have initial : Solo id s :=
    ⟨kept, fun q mem _ => idle q mem, fun p mem same => absurd same (fresh p mem)⟩
  have guarded := (sound.back reached).front
  have both : Guarded (step crypto) (fun s a => Alone id a ∧ Sound crypto s a) s alone :=
    ((guarded_congr (fun a mem _ => ⟨fun sound => ⟨only a mem, sound⟩, And.right⟩) s).mp guarded)
  exact (guarded_invariant (fun _ _ _ solo ok taken => solo_step crypto solo ok taken) initial both run).ended

theorem shortcuts_honest : ShortcutsHonest crypto (Cluster.initial key loaded objects) actions := by
  rintro before id ⟨rest, rfl⟩ s reached p mem same plan phase taken
  rw [append_assoc] at sound
  have kept := guarded_invariant (fun _ _ _ kept ok taken => step_kept crypto kept ok taken)
    (initial_kept key loaded objects) sound.front reached
  have agrees := (sound.back reached).1 p mem same
  unfold Careful at agrees
  rw [phase] at agrees
  unfold afterStatusHash at taken
  dsimp only at taken
  split at taken
  · rename_i stored
    exact shortcut_materialised kept mem (by rw [phase]; rfl) agrees stored
  · contradiction

end

/-- In every run in which the passes that overlap at their work have inputs of one hash, no error is
swallowed after which the stored hash or an object is stale, and inputs of one hash are rendered alike,
a pass that runs alone and returns STATE_OK leaves its rendering behind, and no pass skips its work over
another rendering. -/
theorem reconcile_converges {key : Option RawKey} {loaded : Except String (List ClassAssignment)}
    {objects : Object → Option (Option String)} {actions : List Action}
    (sound : Guarded (step crypto) (Sound crypto) (Cluster.initial key loaded objects) actions) :
    Converges crypto (Cluster.initial key loaded objects) actions ∧
      ShortcutsHonest crypto (Cluster.initial key loaded objects) actions :=
  ⟨converges crypto sound, shortcuts_honest crypto sound⟩

def zeroKey : RawKey := ⟨List.replicate 32 0, List.length_replicate⟩

def plainCrypto : Crypto where
  sha256 text := "sha256:" ++ text
  digest text := by
    intro empty
    have length := congrArg String.length empty
    rw [String.length_append] at length
    have seven : "sha256:".length = 7 := by decide
    rw [seven, String.length_empty] at length
    omega
  fingerprintRawKey _ := "fp"
  deriveShimAccessKey _ := "access"
  deriveShimSecretKey _ := "secret"

def sshTarget (id host key : String) : BackupTargetConfig where
  id := id
  name := id
  storageType := .ssh
  s3Endpoint := none
  s3Bucket := none
  s3Region := none
  s3AccessKey := none
  s3SecretKey := none
  s3Prefix := none
  s3UsePathStyle := none
  sshHost := some host
  sshPort := none
  sshUser := some "u"
  sshKey := some key
  sshPassword := none
  sshPath := none
  cifsHost := none
  cifsPort := none
  cifsShare := none
  cifsUser := none
  cifsPassword := none
  cifsDomain := none
  cifsPath := none
  nfsServer := none
  nfsExport := none
  nfsVersion := none
  nfsOptions := none
  nfsPath := none

def bound (target : BackupTargetConfig) : Except String (List ClassAssignment) := .ok [⟨.tenant, target⟩]

def old : BackupTargetConfig := sshTarget "t1" "a" "k1"

def new : BackupTargetConfig := sshTarget "t2" "b" "k2"

/- the DaemonSet and the ConfigMap are applied, the Secrets are not -/
def applied : Object → Option (Option String)
  | .config => some none
  | .daemonSet => some none
  | _ => none

def fresh : Cluster := Cluster.initial (some zeroKey) (bound old) applied

def calls (id n : Nat) : List Action := List.replicate n (.run id .answered)

/- a pass: two reads of the inputs, one of the hash, two calls for each Secret and the ConfigMap, the patch
of the DaemonSet and two calls for the status -/
def whole (id : Nat) : List Action := .start id 0 :: calls id 12

/-- Two replicas overlap over the same inputs and the second one fails to create a Secret; the inputs
change, the answer to a patch is lost, one pass heals it, and the last one finds nothing to do. -/
def healing : List Action :=
  [.start 1 0, .start 2 0] ++ calls 1 6 ++ calls 2 6 ++ calls 1 6 ++ calls 2 3 ++
    [.change (some zeroKey) (bound new), .start 3 0] ++ calls 3 9 ++ [.run 3 (.lost "timeout")] ++ calls 3 2 ++
      whole 4 ++ .start 5 0 :: calls 5 5

theorem healing_converges : Converges plainCrypto fresh healing ∧ ShortcutsHonest plainCrypto fresh healing :=
  reconcile_converges plainCrypto (by decide +kernel)

/- the key of an SFTP upstream is replaced, and the patch of its Secret fails -/
def keyPatchRefused : List Action :=
  whole 1 ++ [.change (some zeroKey) (bound new)] ++
    (.start 2 0 :: calls 2 8 ++ [.run 2 (.refused "timeout")] ++ calls 2 3)

/- the status of a pass is not written, and the inputs change back -/
def statusLost : List Action :=
  whole 1 ++ [.change (some zeroKey) (bound new)] ++ (.start 2 0 :: calls 2 11 ++ [.run 2 (.refused "timeout")]) ++
    [.change (some zeroKey) (bound old)] ++ (.start 3 0 :: calls 3 5)

/- a pass overwrites the objects of a later one, which has the last word on the status -/
def overtaken : List Action :=
  (.start 1 0 :: calls 1 3) ++ [.change (some zeroKey) (bound new)] ++ (.start 2 0 :: calls 2 10) ++ calls 1 9 ++
    calls 2 2 ++ (.start 3 0 :: calls 3 5)

/- no DaemonSet has been applied yet -/
def unapplied : Cluster := Cluster.initial (some zeroKey) (bound old) fun _ => none

def stale (t : Cluster) (p : Pass) : Bool :=
  match p.phase with
  | .done (some ending) => ending.result.state == .STATE_OK && ending.plan.any fun plan =>
      !decide (Materialised t plan.rendered)
  | _ => false

def leavesStale (initial : Cluster) (before alone : List Action) (id : Nat) : Bool :=
  (exec (step crypto) initial before).any fun s =>
    s.passes.rows.all (fun p => p.phase.isDone && p.id != id) &&
      (exec (step crypto) s alone).any fun t => t.passes.rows.any fun p => p.id == id && stale t p

theorem not_converges {initial : Cluster} {before alone : List Action} {id : Nat}
    (only : ∀ a ∈ alone, Alone id a) (fails : leavesStale crypto initial before alone id = true) :
    ¬ Converges crypto initial (before ++ alone) := by
  intro claim
  obtain ⟨s, reached, its⟩ := (Option.any_eq_true _ _).mp fails
  rw [Bool.and_eq_true, all_eq_true] at its
  obtain ⟨t, run, some⟩ := (Option.any_eq_true _ _).mp its.2
  obtain ⟨p, mem, same⟩ := any_eq_true.mp some
  rw [Bool.and_eq_true, beq_iff_eq] at same
  have left := same.2
  have quiet (q : Pass) (there : q ∈ s.passes) := Bool.and_eq_true_iff.mp (its.1 q there)
  unfold stale at left
  split at left
  · rename_i ending phase
    rw [Bool.and_eq_true, beq_iff_eq] at left
    obtain ⟨plan, planned, unlike⟩ := (Option.any_eq_true _ _).mp left.2
    obtain ⟨other, its, holds⟩ := claim before alone id (prefix_refl _) only s t reached
      (fun q there => (quiet q there).1) (fun q there => bne_iff_ne.mp (quiet q there).2) run p mem same.1 ending
      phase left.1
    cases planned.symm.trans its
    rw [decide_eq_true holds] at unlike
    contradiction
  · contradiction

theorem calls_alone (id n : Nat) : ∀ a ∈ calls id n, Alone id a := by
  intro a mem
  rw [(mem_replicate.mp mem).2]
  rfl

theorem objects_left_stale : ¬ Converges plainCrypto fresh keyPatchRefused ∧
    ¬ Converges plainCrypto unapplied (whole 1) ∧ ¬ Converges plainCrypto fresh statusLost ∧
      ¬ Converges plainCrypto fresh overtaken := by
  have starts (id n : Nat) : ∀ a ∈ Action.start id 0 :: calls id n, Alone id a := by
    intro a mem
    rcases mem_cons.mp mem with rfl | later
    · rfl
    · exact calls_alone id n a later
  refine ⟨?_, ?_, ?_, ?_⟩
  · refine @not_converges plainCrypto fresh (whole 1 ++ [.change (some zeroKey) (bound new)])
      (.start 2 0 :: calls 2 8 ++ [.run 2 (.refused "timeout")] ++ calls 2 3) 2 ?_ (by decide +kernel)
    intro a mem
    rcases mem_append.mp mem with early | late
    · rcases mem_append.mp early with first | refused
      · exact starts 2 8 a first
      · rw [mem_singleton.mp refused]
        rfl
    · exact calls_alone 2 3 a late
  · exact @not_converges plainCrypto unapplied [] (whole 1) 1 (starts 1 12) (by decide +kernel)
  · exact @not_converges plainCrypto fresh (whole 1 ++ [.change (some zeroKey) (bound new)] ++
      (.start 2 0 :: calls 2 11 ++ [.run 2 (.refused "timeout")]) ++ [.change (some zeroKey) (bound old)])
      (.start 3 0 :: calls 3 5) 3 (starts 3 5) (by decide +kernel)
  · exact @not_converges plainCrypto fresh ((.start 1 0 :: calls 1 3) ++ [.change (some zeroKey) (bound new)] ++
      (.start 2 0 :: calls 2 10) ++ calls 1 9 ++ calls 2 2) (.start 3 0 :: calls 3 5) 3 (starts 3 5)
      (by decide +kernel)

end HostingPlatform.BackupRcloneShim.Reconciler
