import HostingPlatform.Tasks.Service
import HostingPlatform.Ranking
import HostingPlatform.Transition

/-! What one call may do to a row of the table of tasks, and from it what a row says about its operation
over any sequence of calls. -/
namespace HostingPlatform.Tasks

open Option Table List Transition

inductive Action where
  | start (args : TaskStartArgs)
  | progress (id : Nat) (args : TaskProgressArgs)
  | finish (id : Nat) (args : TaskFinishArgs)
  | finishByRef (kind refId : String) (args : TaskFinishArgs)
  | clear (userId : Nat) (ids : List Nat)
  | runRetention
  | snapshot (filter : SnapshotFilter) (dateNow : Nat)
  | wait (ms : Nat)

/- a call that throws changes nothing and is no step -/
def step (s : Store) : Action → Option Store
  | .start args => (start s args).map Prod.fst
  | .progress id args => progress s id args
  | .finish id args => some (finish s id args)
  | .finishByRef kind refId args => some (finishByRef s kind refId args)
  | .clear userId ids => some (clear s userId ids).1
  | .runRetention => some (runRetention s).1
  | .snapshot _ _ => some s
  | .wait ms => some { s with now := s.now + ms }

def Starts (id : Nat) (s : Store) : Action → Prop
  | .start args => (start s args).map Prod.snd = some id
  | _ => False

def Finishes (id : Nat) (s : Store) : Action → Prop
  | .finish id' _ => id' = id
  | .finishByRef kind refId _ => ∃ r ∈ s.rows, r.id = id ∧ refers kind refId r = true
  | _ => False

/- what `a` makes of the row `old` -/
inductive Change (s : Store) (a : Action) (old : TaskRow) : TaskRow → Prop where
  | same : Change s a old old
  | restarted (args : TaskStartArgs) : a = .start args → conflicting s args = some old →
      Change s a old (restart args s.now old)
  | progressed (id : Nat) (args : TaskProgressArgs) : a = .progress id args →
      (args.pct.bind fun pct => pct).all percentage = true →
      Change s a old (progressUpdate args s.now old)
  | finished (args : TaskFinishArgs) : Finishes old.id s a → Change s a old (buildFinishUpdate args s.now old)
  | cleared : old.status.terminal = true → Change s a old (clearRow s.now old)
  | reaped : a = .runRetention → orphaned s.now old = true → Change s a old (reap s.now old)

variable {s t : Store} {a : Action} {old r : TaskRow} {args : TaskStartArgs} {now dateNow : Nat}
  {actions : List Action} {filter : SnapshotFilter}

theorem Change.id (change : Change s a old r) : r.id = old.id := by
  cases change <;> rfl

theorem start_cases {id : Nat} (started : start s args = some (t, id)) : (∃ r, conflicting s args = some r ∧ id = r.id ∧
      t = record (s.update (hasId r.id) (restart args s.now) (restart_keeps args s.now)) r.id) ∨
    ∃ none : conflicting s args = none, id = s.drawn ∧ t = record (insertRow s args none) s.drawn := by
  unfold start at started
  split at started
  · contradiction
  split at started <;> cases started
  · rename_i r found
    exact .inl ⟨r, found, rfl, rfl⟩
  · rename_i found
    exact .inr ⟨found, rfl, rfl⟩

theorem mem_insertRow {none : conflicting s args = none} :
    r ∈ (record (insertRow s args none) s.drawn).rows ↔ r = newRow args s.drawn s.now ∨ r ∈ s.rows := by
  constructor
  · intro mem
    exact (mem_put.mp mem).imp (fun new => new) And.left
  intro origin
  refine mem_put.mpr (origin.imp (fun new => new) ?_)
  intro mem
  exact ⟨mem, Nat.ne_of_lt (s.fresh r mem)⟩

theorem apply_change {s : Store} {a : Action} {p : TaskRow → Bool} {f : TaskRow → TaskRow} {old : TaskRow}
    (change : p old = true → Change s a old (f old)) : Change s a old (apply p f old) := by
  unfold apply
  split
  · rename_i selected
    exact change selected
  · exact .same

theorem hasId_eq {id : Nat} (mem : r ∈ s.rows) (there : old ∈ s.rows) (same : r.id = id)
    (selected : hasId id old = true) : old = r :=
  s.rows.eq_of_key there mem ((beq_iff_eq.mp selected).trans same.symm)

theorem not_before (now window : Nat) : decide (now + window < now) = false :=
  decide_eq_false (Nat.not_lt.mpr (Nat.le_add_right now window))

theorem outdated_reap (now : Nat) (r : TaskRow) : outdated now (reap now r) = false := by
  have finished : (reap now r).finishedAt = some now := by
    rfl
  unfold outdated
  rw [finished, any_some, not_before, Bool.and_false]

theorem step_forward (taken : step s a = some t) (mem : old ∈ s.rows) :
    (∃ r ∈ t.rows, Change s a old r) ∨ a = .runRetention ∧ outdated s.now old = true := by
  cases a with
  | start args =>
    obtain ⟨⟨t', id⟩, started, rfl⟩ := map_eq_some_iff.mp taken
    rcases start_cases started with ⟨r, found, rfl, rfl⟩ | ⟨none, rfl, rfl⟩
    · refine .inl ⟨_, apply_mem_update (restart_keeps args s.now).id mem, apply_change fun selected => ?_⟩
      rw [hasId_eq (conflicting_some found).1 mem rfl selected]
      exact .restarted args rfl found
    · exact .inl ⟨old, mem_insertRow.mpr (.inr mem), .same⟩
  | progress id args =>
    simp only [step, progress, ite_none_right_eq_some, some.injEq] at taken
    obtain ⟨valid, rfl⟩ := taken
    exact .inl ⟨_, apply_mem_update (progressUpdate_keeps args s.now).id mem,
      apply_change fun _ => .progressed id args rfl valid⟩
  | finish id args =>
    cases taken
    exact .inl ⟨_, apply_mem_update (buildFinishUpdate_keeps args s.now).id mem,
      apply_change fun selected => .finished args (beq_iff_eq.mp selected).symm⟩
  | finishByRef kind refId args =>
    cases taken
    exact .inl ⟨_, apply_mem_update (buildFinishUpdate_keeps args s.now).id mem,
      apply_change fun selected => .finished args ⟨old, mem, rfl, selected⟩⟩
  | clear userId ids =>
    cases taken
    refine .inl ⟨_, apply_mem_update (clearRow_keeps s.now).id mem, apply_change fun selected => ?_⟩
    simp only [clearable, Bool.and_eq_true] at selected
    exact .cleared selected.1.2
  | runRetention =>
    cases taken
    have change := @apply_change s .runRetention (orphaned s.now) (reap s.now) old
      (fun orphan => .reaped rfl orphan)
    have there := apply_mem_update (reap_keeps s.now).id mem (p := orphaned s.now)
    cases gone : outdated s.now (apply (orphaned s.now) (reap s.now) old) with
    | false => exact .inl ⟨_, mem_delete.mpr ⟨there, gone⟩, change⟩
    | true =>
      unfold apply at gone
      split at gone
      · rw [outdated_reap] at gone
        contradiction
      · exact .inr ⟨rfl, gone⟩
  | snapshot filter dateNow | wait ms =>
    cases taken
    exact .inl ⟨old, mem, .same⟩

theorem step_ids (taken : step s a = some t) (mem : r ∈ t.rows) :
    (∃ old ∈ s.rows, old.id = r.id) ∨ ∃ args, a = .start args ∧ r = newRow args s.drawn s.now := by
  have updated {p : TaskRow → Bool} {f : TaskRow → TaskRow} (keeps : Keeps f)
      (there : r ∈ s.rows.update p f keeps.id) : ∃ old ∈ s.rows, old.id = r.id := by
    obtain ⟨old, before, _, same, _⟩ := update_origin keeps there
    exact ⟨old, before, same.symm⟩
  cases a with
  | start args =>
    obtain ⟨⟨t', id⟩, started, rfl⟩ := map_eq_some_iff.mp taken
    rcases start_cases started with ⟨_, _, rfl, rfl⟩ | ⟨none, rfl, rfl⟩
    · exact .inl (updated (restart_keeps args s.now) mem)
    rcases mem_insertRow.mp mem with rfl | before
    · exact .inr ⟨args, rfl, rfl⟩
    · exact .inl ⟨r, before, rfl⟩
  | progress id args =>
    simp only [step, progress, ite_none_right_eq_some, some.injEq] at taken
    obtain ⟨_, rfl⟩ := taken
    exact .inl (updated (progressUpdate_keeps args s.now) mem)
  | finish id args | finishByRef kind refId args =>
    cases taken
    exact .inl (updated (buildFinishUpdate_keeps args s.now) mem)
  | clear userId ids =>
    cases taken
    exact .inl (updated (clearRow_keeps s.now) mem)
  | runRetention =>
    cases taken
    exact .inl (updated (reap_keeps s.now) (mem_delete.mp mem).1)
  | snapshot filter dateNow | wait ms =>
    cases taken
    exact .inl ⟨r, mem, rfl⟩

theorem step_backward (taken : step s a = some t) (mem : r ∈ t.rows) :
    (∃ old ∈ s.rows, Change s a old r) ∨ ∃ args, a = .start args ∧ r = newRow args s.drawn s.now := by
  rcases step_ids taken mem with ⟨old, there, same⟩ | new
  · left
    -- the row that was there before has become this one, as the two have one key
    rcases step_forward taken there with ⟨r', mem', change⟩ | ⟨rfl, _⟩
    · rw [t.rows.eq_of_key mem mem' (same.symm.trans change.id.symm)]
      exact ⟨old, there, change⟩
    cases taken
    obtain ⟨origin, before, rfl, _⟩ := update_origin (reap_keeps s.now) (mem_delete.mp mem).1
    exact ⟨origin, before, apply_change fun orphan => .reaped rfl orphan⟩
  · exact .inr new

/-- The clock does not go back, no id is drawn twice, and a start is recorded. -/
structure Onward (s : Store) (a : Action) (t : Store) : Prop where
  now : s.now ≤ t.now
  drawn : s.drawn ≤ t.drawn
  started : ∀ id, t.started id = s.started id ∨ Starts id s a ∧ t.started id = s.now

theorem step_onward (taken : step s a = some t) : Onward s a t := by
  have recorded (u : Store) (same : u.started = s.started) (now : u.now = s.now) (id i : Nat)
      (starts : Starts id s a) :
      (record u id).started i = s.started i ∨ Starts i s a ∧ (record u id).started i = s.now := by
    by_cases its : i = id
    · subst its
      exact .inr ⟨starts, (if_pos rfl).trans now⟩
    · exact .inl ((if_neg its).trans (congrFun same i))
  cases a with
  | start args =>
    obtain ⟨⟨t', id⟩, started, rfl⟩ := map_eq_some_iff.mp taken
    have starts : Starts id s (.start args) := by rw [Starts, started, map_some]
    rcases start_cases started with ⟨r, _, rfl, rfl⟩ | ⟨none, rfl, rfl⟩
    · exact ⟨Nat.le_refl _, Nat.le_refl _, fun i => recorded _ rfl rfl _ i starts⟩
    · exact ⟨Nat.le_refl _, Nat.le_succ _, fun i => recorded _ rfl rfl _ i starts⟩
  | progress id args =>
    simp only [step, progress, ite_none_right_eq_some, some.injEq] at taken
    obtain ⟨_, rfl⟩ := taken
    exact ⟨Nat.le_refl _, Nat.le_refl _, fun _ => .inl rfl⟩
  | finish id args | finishByRef kind refId args | clear userId ids | runRetention | snapshot filter dateNow =>
    cases taken
    exact ⟨Nat.le_refl _, Nat.le_refl _, fun _ => .inl rfl⟩
  | wait ms =>
    cases taken
    exact ⟨Nat.le_add_right _ _, Nat.le_refl _, fun _ => .inl rfl⟩

/- no call finishes the row, and no retention runs more than 24 hours after the start -/
def Undisturbed (id startedAt : Nat) (s : Store) : Action → Prop
  | .runRetention => s.now ≤ startedAt + ORPHAN_REAP_MS
  | a => ¬ Finishes id s a

def Running (id : Nat) (s : Store) : Prop :=
  ∃ r ∈ s.rows, r.id = id ∧ r.status = .running ∧ r.clearedAt = none

def StartedRuns (now : Nat) (actions : List Action) : Prop :=
  ∀ before args after, before ++ .start args :: after <+: actions →
    ∀ s t id u, exec step (Store.empty now) before = some s → start s args = some (t, id) →
      Guarded step (Undisturbed id s.now) t after → exec step t after = some u → Running id u

def SameEnd (r r' : TaskRow) : Prop :=
  r'.status = r.status ∧ r'.errorMessage = r.errorMessage ∧ r'.finishedAt = r.finishedAt

def EndedStays (now : Nat) (actions : List Action) : Prop :=
  ∀ before after, before ++ after <+: actions →
    ∀ s u, exec step (Store.empty now) before = some s → exec step s after = some u →
      ∀ r ∈ s.rows, r.status.terminal = true → Guarded step (fun s a => ¬ Starts r.id s a) s after →
        ∀ r' ∈ u.rows, r'.id = r.id → SameEnd r r'

/-- What retention deletes was terminal in every state of the last seven days. -/
def OldDeleted (now : Nat) (actions : List Action) : Prop :=
  ∀ earlier later, earlier ++ later ++ [.runRetention] <+: actions →
    ∀ m s, exec step (Store.empty now) earlier = some m → exec step m later = some s →
      s.now ≤ m.now + TERMINAL_RETENTION_MS →
        ∀ r ∈ s.rows, (∀ r' ∈ (runRetention s).1.rows, r'.id ≠ r.id) →
          ∃ r' ∈ m.rows, r'.id = r.id ∧ r'.status.terminal = true

/-- The task is shown, or its parent is, or others that are at least as recent fill the list. -/
def Shown (s : Store) (filter : SnapshotFilter) (dateNow : Nat) (r : TaskRow) : Prop :=
  r ∈ snapshot s filter dateNow ∨ (∃ p ∈ snapshot s filter dateNow, r.parentTaskId = some p.id) ∨
    cap filter ≤ (s.rows.selectAll fun r' =>
      listed filter dateNow r' && r'.id != r.id && decide (r.updatedAt ≤ r'.updatedAt)).length

def InFlightOf (userId : Nat) (r : TaskRow) : Prop :=
  r.userId = some userId ∧ r.status.inFlight = true ∧ r.clearedAt = none

def SnapshotsComplete (now : Nat) (actions : List Action) : Prop :=
  ∀ before filter dateNow, before ++ [.snapshot filter dateNow] <+: actions →
    ∀ s, exec step (Store.empty now) before = some s →
      ∀ r ∈ s.rows, InFlightOf filter.userId r → Shown s filter dateNow r

structure Truthful (now : Nat) (actions : List Action) : Prop where
  started : StartedRuns now actions
  ended : EndedStays now actions
  deleted : OldDeleted now actions
  shown : SnapshotsComplete now actions

/-- No task of the list is in flight under a parent that the list folds under another one. -/
def Flat (s : Store) (filter : SnapshotFilter) (dateNow : Nat) : Prop :=
  ∀ r ∈ selectTasks s filter dateNow, r.status.inFlight = true → r.clearedAt = none →
    ∀ p ∈ selectTasks s filter dateNow, r.parentTaskId = some p.id →
      parentAmong (selectTasks s filter dateNow) p = false

def Sound (s : Store) : Action → Prop
  | .start args => taskRowSchema (newRow args s.drawn s.now) = true ∧
      ∀ r ∈ conflicting s args, r.clearedAt = none
  | .finish id _ => ∀ r ∈ s.rows, hasId id r = true → r.status.inFlight = true
  | .finishByRef kind refId _ => ∀ r ∈ s.rows, refers kind refId r = true → r.status.inFlight = true
  | .runRetention => ∀ r ∈ s.rows, orphaned s.now r = true → s.started r.id + ORPHAN_REAP_MS < s.now
  | .snapshot filter dateNow => filter.since = none ∧ Flat s filter dateNow
  | .progress _ _ => True
  | .clear _ _ => True
  | .wait _ => True

instance (s : Store) (a : Action) : Decidable (Sound s a) :=
  match a with
  | .start args => inferInstanceAs (Decidable (_ ∧ ∀ r ∈ conflicting s args, r.clearedAt = none))
  | .finish id _ =>
    inferInstanceAs (Decidable (∀ r ∈ s.rows.rows, hasId id r = true → r.status.inFlight = true))
  | .finishByRef kind refId _ =>
    inferInstanceAs (Decidable (∀ r ∈ s.rows.rows, refers kind refId r = true → r.status.inFlight = true))
  | .runRetention => inferInstanceAs (Decidable (∀ r ∈ s.rows.rows,
      orphaned s.now r = true → s.started r.id + ORPHAN_REAP_MS < s.now))
  | .snapshot filter dateNow => inferInstanceAs (Decidable (filter.since = none ∧
      ∀ r ∈ selectTasks s filter dateNow, r.status.inFlight = true → r.clearedAt = none →
        ∀ p ∈ selectTasks s filter dateNow, r.parentTaskId = some p.id →
          parentAmong (selectTasks s filter dateNow) p = false))
  | .progress _ _ | .clear _ _ | .wait _ => isTrue trivial

instance (id : Nat) (s : Store) (a : Action) : Decidable (Finishes id s a) := by
  unfold Finishes
  split <;> infer_instance

instance (id startedAt : Nat) (s : Store) (a : Action) : Decidable (Undisturbed id startedAt s a) := by
  unfold Undisturbed
  split <;> infer_instance

instance (id : Nat) (s : Store) (a : Action) : Decidable (Starts id s a) := by
  unfold Starts
  split <;> infer_instance

instance (id : Nat) (s : Store) : Decidable (Running id s) :=
  inferInstanceAs (Decidable (∃ r ∈ s.rows.rows, r.id = id ∧ r.status = .running ∧ r.clearedAt = none))

/- the row runs, and its last start was not before `startedAt` -/
structure Runs (id startedAt : Nat) (s : Store) : Prop where
  row : Running id s
  since : startedAt ≤ s.started id
  now : startedAt ≤ s.now

theorem starts_runs {id : Nat} (sound : Sound s (.start args)) (started : start s args = some (t, id)) :
    Runs id s.now t := by
  rcases start_cases started with ⟨r, found, rfl, rfl⟩ | ⟨none, rfl, rfl⟩
  · have mem := (conflicting_some found).1
    have there := @apply_mem_update _ _ s.rows (hasId r.id) _ (restart_keeps args s.now).id r mem
    rw [apply, if_pos (show hasId r.id r = true from beq_self_eq_true r.id)] at there
    exact ⟨⟨_, there, rfl, rfl, sound.2 r found⟩, Nat.le_of_eq (if_pos rfl).symm, Nat.le_refl _⟩
  · exact ⟨⟨_, mem_insertRow.mpr (.inl rfl), rfl, rfl, rfl⟩, Nat.le_of_eq (if_pos rfl).symm, Nat.le_refl _⟩

theorem runs_step {id startedAt : Nat} (runs : Runs id startedAt s)
    (ok : Undisturbed id startedAt s a ∧ Sound s a) (taken : step s a = some t) : Runs id startedAt t := by
  obtain ⟨⟨old, mem, rfl, running, uncleared⟩, since, now⟩ := runs
  obtain ⟨undisturbed, sound⟩ := ok
  have onward := step_onward taken
  refine ⟨?_, ?_, now.trans onward.now⟩
  · rcases step_forward taken mem with ⟨r, there, change⟩ | ⟨rfl, gone⟩
    · cases change with
      | same => exact ⟨old, there, rfl, running, uncleared⟩
      | restarted args => exact ⟨_, there, rfl, rfl, uncleared⟩
      | progressed i args => exact ⟨_, there, rfl, running, uncleared⟩
      | finished args hit =>
        cases a with
        | finish | finishByRef => exact absurd hit undisturbed
        | _ => exact hit.elim
      | cleared terminal => simp [running, TaskStatus.terminal] at terminal
      | reaped its orphan =>
        -- the last start is too recent
        subst its
        have long := sound old mem orphan
        have short : s.now ≤ startedAt + ORPHAN_REAP_MS := undisturbed
        omega
    · simp [outdated, running, TaskStatus.terminal] at gone
  · rcases onward.started old.id with same | ⟨_, later⟩
    · exact same ▸ since
    · exact later ▸ now

theorem started_runs (sound : Guarded step Sound (Store.empty now) actions) : StartedRuns now actions := by
  rintro before args after ⟨rest, rfl⟩ s t id u reached started undisturbed run
  rw [append_assoc] at sound
  have later := sound.back reached
  have taken : step s (.start args) = some t := by rw [step, started, map_some]
  have guarded := undisturbed.and (later.tail taken).front
  exact (guarded_invariant (fun _ _ _ runs ok taken => runs_step runs ok taken)
    (starts_runs later.1 started) guarded run).row

structure Ended (r : TaskRow) (s : Store) : Prop where
  same : ∀ r' ∈ s.rows, r'.id = r.id → SameEnd r r'
  drawn : r.id < s.drawn

theorem ended_step (terminal : r.status.terminal = true) (ended : Ended r s)
    (ok : ¬ Starts r.id s a ∧ Sound s a) (taken : step s a = some t) : Ended r t := by
  refine ⟨?_, ended.drawn.trans_le (step_onward taken).drawn⟩
  intro r' mem same
  rcases step_backward taken mem with ⟨old, there, change⟩ | ⟨args, rfl, rfl⟩
  · have before := ended.same old there (change.id.symm.trans same)
    have idle : old.status.inFlight = false := by
      rw [before.1]
      simpa [TaskStatus.not_terminal] using terminal
    cases change with
    | same | progressed i args | cleared => exact before
    | restarted args its found =>
      subst its
      refine absurd ?_ ok.1
      obtain ⟨⟨t', id⟩, started, rfl⟩ := map_eq_some_iff.mp taken
      rcases start_cases started with ⟨r, its, rfl, _⟩ | ⟨none, _⟩
      · cases found.symm.trans its
        rw [Starts, started]
        exact congrArg some same
      · rw [found] at none
        contradiction
    | finished args hit =>
      have busy : old.status.inFlight = true := by
        cases a with
        | finish id args => exact ok.2 old there (beq_iff_eq.mpr hit.symm)
        | finishByRef kind refId args =>
          obtain ⟨hitRow, its, key, refs⟩ := hit
          rw [s.rows.eq_of_key its there key] at refs
          exact ok.2 old there refs
        | _ => exact hit.elim
      rw [idle] at busy
      contradiction
    | reaped its orphan =>
      rw [orphaned, idle] at orphan
      contradiction
  · exact absurd same (Nat.ne_of_gt ended.drawn)

theorem ended_stays (sound : Guarded step Sound (Store.empty now) actions) : EndedStays now actions := by
  rintro before after ⟨rest, rfl⟩ s u reached run r mem terminal unstarted
  rw [append_assoc] at sound
  have guarded := unstarted.and (sound.back reached).front
  have initial : Ended r s := by
    refine ⟨?_, s.fresh r mem⟩
    intro r' there same
    rw [s.rows.eq_of_key there mem same]
    exact ⟨rfl, rfl, rfl⟩
  exact (guarded_invariant (fun _ _ _ ended ok taken => ended_step terminal ended ok taken)
    initial guarded run).same

/- whatever ended before the state `m` had ended in `m` -/
structure EndedIn (m s : Store) : Prop where
  rows : ∀ r ∈ s.rows, r.status.terminal = true → ∀ finishedAt, r.finishedAt = some finishedAt →
    finishedAt < m.now → ∃ r' ∈ m.rows, r'.id = r.id ∧ r'.status.terminal = true
  now : m.now ≤ s.now

theorem endedIn_step {m : Store} (endedIn : EndedIn m s) (taken : step s a = some t) : EndedIn m t := by
  refine ⟨?_, endedIn.now.trans (step_onward taken).now⟩
  intro r mem terminal finishedAt finished early
  have late := endedIn.now
  rcases step_backward taken mem with ⟨old, there, change⟩ | ⟨args, _, rfl⟩
  · cases change with
    | same => exact endedIn.rows _ there terminal finishedAt finished early
    | restarted args => simp [restart, TaskStatus.terminal] at terminal
    | progressed i args | cleared => exact endedIn.rows old there terminal finishedAt finished early
    | finished args | reaped =>
      cases finished
      exact absurd early (Nat.not_lt.mpr late)
  · simp [newRow, TaskStatus.terminal] at terminal

theorem retention_deletes (mem : r ∈ s.rows) (gone : ∀ r' ∈ (runRetention s).1.rows, r'.id ≠ r.id) :
    outdated s.now r = true := by
  rcases step_forward (show step s .runRetention = some (runRetention s).1 from rfl) mem with
    ⟨r', there, change⟩ | ⟨_, old⟩
  · exact absurd change.id (gone r' there)
  · exact old

theorem old_deleted (now : Nat) (actions : List Action) : OldDeleted now actions := by
  intro earlier later _ m s reached run recent r mem gone
  have old := retention_deletes mem gone
  rw [outdated, Bool.and_eq_true, Option.any_eq_true] at old
  obtain ⟨terminal, finishedAt, finished, past⟩ := old
  have early := of_decide_eq_true past
  have initial : EndedIn m m := ⟨fun r mem terminal _ _ _ => ⟨r, mem, rfl, terminal⟩, Nat.le_refl _⟩
  have endedIn := guarded_invariant (fun _ _ _ endedIn _ taken => endedIn_step endedIn taken) initial
    (@guarded_of_forall _ _ step (fun _ _ => True) (fun _ _ => trivial) m later) run
  refine endedIn.rows r mem terminal finishedAt finished ?_
  omega

theorem schema_congr {r' : TaskRow} (kind : r'.kind = r.kind) (refId : r'.refId = r.refId)
    (label : r'.label = r.label) (pct : r'.progressPct.all percentage = r.progressPct.all percentage)
    (target : r'.target = r.target) : taskRowSchema r' = taskRowSchema r := by
  rw [taskRowSchema, taskRowSchema, kind, refId, label, pct, target]

def Contract (s : Store) : Prop := ∀ r ∈ s.rows, taskRowSchema r = true

theorem contract_step (contract : Contract s) (sound : Sound s a) (taken : step s a = some t) : Contract t := by
  intro r mem
  rcases step_backward taken mem with ⟨old, there, change⟩ | ⟨args, rfl, rfl⟩
  · have before := contract old there
    have pct : old.progressPct.all percentage = true := by
      simp only [taskRowSchema, Bool.and_eq_true] at before
      exact before.1.2
    cases change with
    | same | cleared | reaped => exact before
    | restarted args its found =>
      subst its
      obtain ⟨_, kind, refId⟩ := conflicting_some found
      rw [← sound.1]
      exact schema_congr kind refId rfl rfl rfl
    | progressed i args its valid =>
      rw [← before]
      refine schema_congr rfl rfl rfl ?_ rfl
      rw [pct]
      cases given : args.pct with
      | none =>
        rw [progressUpdate, given]
        exact pct
      | some pct =>
        rw [given] at valid
        rw [progressUpdate, given]
        exact valid
    | finished args =>
      rw [← before]
      refine schema_congr rfl rfl rfl ?_ rfl
      rw [pct, buildFinishUpdate]
      split
      · rfl
      · exact pct
  · exact sound.1

theorem filterMap_toTaskRow {rows : List TaskRow} (contract : ∀ r ∈ rows, taskRowSchema r = true) :
    rows.filterMap toTaskRow = rows := by
  induction rows with
  | nil => rfl
  | cons r rest ih =>
    have here : toTaskRow r = some r := if_pos (contract r mem_cons_self)
    rw [filterMap_cons, here]
    exact congrArg (r :: ·) (ih fun r' mem => contract r' (mem_cons_of_mem r mem))

theorem mem_selectTasks (mem : r ∈ selectTasks s filter dateNow) : r ∈ s.rows ∧ listed filter dateNow r = true :=
  mem_selectAll.mp ((mem_insertionSort _).mp (mem_of_mem_take mem))

theorem taken_or_full (mem : r ∈ s.rows) (its : listed filter dateNow r = true) :
    r ∈ selectTasks s filter dateNow ∨ cap filter ≤ (s.rows.selectAll fun r' =>
      listed filter dateNow r' && r'.id != r.id && decide (r.updatedAt ≤ r'.updatedAt)).length := by
  by_cases taken : r ∈ selectTasks s filter dateNow
  · exact .inl taken
  right
  have _ : IsTrans TaskRow recentFirst := ⟨fun a b c first second => Nat.le_trans second first⟩
  have _ : Std.Total recentFirst := ⟨fun a b => Nat.le_total b.updatedAt a.updatedAt⟩
  have sorted := pairwise_insertionSort recentFirst (s.rows.selectAll (listed filter dateNow))
  obtain ⟨full, before⟩ := Ranking.before_of_not_mem_take sorted
    ((mem_insertionSort _).mpr (mem_selectAll.mpr ⟨mem, its⟩)) taken
  have sub : (selectTasks s filter dateNow).Subperm (s.rows.selectAll fun r' =>
      listed filter dateNow r' && r'.id != r.id && decide (r.updatedAt ≤ r'.updatedAt)) := by
    refine subperm_of_subset ?_ ?_
    · exact ((perm_insertionSort _ _).nodup_iff.mpr
        ((Nodup.of_map _ s.rows.keyed).sublist filter_sublist)).sublist (take_sublist _ _)
    intro r' there
    obtain ⟨mem', listed'⟩ := mem_selectTasks there
    have differs : r'.id ≠ r.id := by
      intro same
      exact taken (s.rows.eq_of_key mem' mem same ▸ there)
    refine mem_selectAll.mpr ⟨mem', ?_⟩
    have recent : r.updatedAt ≤ r'.updatedAt := before r' there
    simp [listed', differs, recent]
  exact full ▸ sub.length_le

theorem snapshot_shows (contract : Contract s) (sound : Sound s (.snapshot filter dateNow))
    (mem : r ∈ s.rows) (inFlight : InFlightOf filter.userId r) : Shown s filter dateNow r := by
  obtain ⟨user, busy, uncleared⟩ := inFlight
  have its : listed filter dateNow r = true := by simp [listed, user, busy, sound.1]
  have all : (selectTasks s filter dateNow).filterMap toTaskRow = selectTasks s filter dateNow :=
    filterMap_toTaskRow fun r' there => contract r' (mem_selectTasks there).1
  rcases taken_or_full mem its with selected | full
  · cases folded : parentAmong (selectTasks s filter dateNow) r with
    | false =>
      left
      rw [snapshot, all]
      exact mem_filter.mpr ⟨selected, by rw [folded]; rfl⟩
    | true =>
      right; left
      obtain ⟨parent, given, found⟩ := (any_eq_true _ _).mp folded
      obtain ⟨p, there, same⟩ := any_eq_true.mp found
      have child : r.parentTaskId = some p.id := by rw [given, beq_iff_eq.mp same]
      refine ⟨p, ?_, child⟩
      rw [snapshot, all]
      refine mem_filter.mpr ⟨there, ?_⟩
      rw [sound.2 r selected busy uncleared p there child]
      rfl
  · exact .inr (.inr full)

theorem snapshots_complete (sound : Guarded step Sound (Store.empty now) actions) : SnapshotsComplete now actions := by
  rintro before filter dateNow ⟨rest, rfl⟩ s reached r mem inFlight
  rw [append_assoc] at sound
  have contract : Contract s := guarded_invariant (fun _ _ _ contract ok taken => contract_step contract ok taken)
      (fun r mem => absurd mem not_mem_nil) sound.front reached
  exact snapshot_shows contract (sound.back reached).1 mem inFlight

/-- In every run in which no start re-runs a row that is marked cleared, nothing finishes a row that has
ended, no retention finds a row that is older than its last start, and no snapshot folds a task under a
task that is folded itself, the rows tell the truth. -/
theorem rows_tell_the_truth {now : Nat} {actions : List Action}
    (sound : Guarded step Sound (Store.empty now) actions) : Truthful now actions where
  started := started_runs sound
  ended := ended_stays sound
  deleted := old_deleted now actions
  shown := snapshots_complete sound

def taskOf (kind refId : String) (parentTaskId : Option Nat) : TaskStartArgs where
  kind := kind
  refId := some refId
  scope := .admin
  userId := some 7
  tenantId := none
  label := "Backup bundle"
  target := .route "/tenants/1?tab=backups"
  progressPct := none
  progressText := none
  details := none
  parentTaskId := parentTaskId

def ending (status : Outcome) (clearImmediately : Bool) : TaskFinishArgs :=
  ⟨status, none, none, none, clearImmediately⟩

/-- A bulk operation and its child, a re-run, and a task that nobody finishes. -/
def ordinary : List Action :=
  [.start (taskOf "tenant.suspend.bulk" "b" none), .start (taskOf "tenant.transition" "t" (some 0)),
    .progress 0 ⟨some (some 50), none, none⟩, .snapshot ⟨7, none, none⟩ 10, .finish 1 (ending .succeeded false),
    .start (taskOf "tenant.transition" "t" (some 0)), .finishByRef "tenant.transition" "t" (ending .failed true),
    .finish 0 (ending .failed false), .clear 7 [], .start (taskOf "cache.purge" "c" none),
    .wait 86400001, .runRetention, .wait 604800001, .runRetention, .snapshot ⟨7, some 50, none⟩ 20]

theorem ordinary_truthful : Truthful 0 ordinary := rows_tell_the_truth (by decide +kernel)

/- a task is re-run that was marked cleared when it had failed -/
def rerunCleared : List Action :=
  [.start (taskOf "backup.bundle" "b" none), .finishByRef "backup.bundle" "b" (ending .failed true),
    .start (taskOf "backup.bundle" "b" none)]

/- a task is re-run 24 hours after its first start, and retention runs one millisecond later -/
def rerunOld : List Action :=
  [.start (taskOf "backup.bundle" "b" none), .wait 86400000, .start (taskOf "backup.bundle" "b" none), .wait 1,
    .runRetention]

def finishedTwice : List Action :=
  [.start (taskOf "backup.bundle" "b" none), .finish 0 (ending .failed false), .wait 1,
    .finish 0 (ending .succeeded false)]

def threeGenerations : List Action :=
  [.start (taskOf "tenant.suspend.bulk" "b" none), .start (taskOf "tenant.transition" "t" (some 0)),
    .start (taskOf "storage.snapshot" "s" (some 1)), .snapshot ⟨7, none, none⟩ 0]

theorem rows_drift : ¬ StartedRuns 0 rerunCleared ∧ ¬ StartedRuns 0 rerunOld ∧
    ¬ EndedStays 0 finishedTwice ∧ ¬ SnapshotsComplete 0 threeGenerations := by
  refine ⟨?_, ?_, ?_, ?_⟩
  · intro claim
    have every : ∀ s ∈ exec step (Store.empty 0) (rerunCleared.take 2),
        ∀ t ∈ start s (taskOf "backup.bundle" "b" none), Running t.2 t.1 :=
      fun s reached t started => claim _ _ [] ⟨[], rfl⟩ s t.1 t.2 t.1 reached started trivial rfl
    revert every
    decide +kernel
  · intro claim
    have every : ∀ s ∈ exec step (Store.empty 0) (rerunOld.take 2),
        ∀ t ∈ start s (taskOf "backup.bundle" "b" none),
          Guarded step (Undisturbed t.2 s.now) t.1 [.wait 1, .runRetention] →
            ∀ u ∈ exec step t.1 [.wait 1, .runRetention], Running t.2 u :=
      fun s reached t started undisturbed u => claim _ _ _ ⟨[], rfl⟩ s t.1 t.2 u reached started undisturbed
    revert every
    decide +kernel
  · intro claim
    have every : ∀ s ∈ exec step (Store.empty 0) (finishedTwice.take 2), ∀ u ∈ exec step s (finishedTwice.drop 2),
        ∀ r ∈ s.rows.rows, r.status.terminal = true →
          Guarded step (fun s a => ¬ Starts r.id s a) s (finishedTwice.drop 2) →
            ∀ r' ∈ u.rows.rows, r'.id = r.id → r'.status = r.status :=
      fun s reached u run r mem terminal unstarted r' mem' same =>
        (claim _ _ ⟨[], rfl⟩ s u reached run r mem terminal unstarted r' mem' same).1
    revert every
    decide +kernel
  · intro claim
    have every : ∀ s ∈ exec step (Store.empty 0) (threeGenerations.take 3), ∀ r ∈ s.rows.rows,
        r.userId = some 7 ∧ r.status.inFlight = true ∧ r.clearedAt = none →
          r.id ∈ (snapshot s ⟨7, none, none⟩ 0).map TaskRow.id ∨
            (∃ p ∈ snapshot s ⟨7, none, none⟩ 0, r.parentTaskId = some p.id) ∨ 100 ≤ s.rows.rows.length := by
      intro s reached r mem inFlight
      rcases claim _ ⟨7, none, none⟩ 0 ⟨[], rfl⟩ s reached r mem inFlight with shown | parent | full
      · exact .inl (mem_map_of_mem shown)
      · exact .inr (.inl parent)
      · exact .inr (.inr (full.trans (length_filter_le _ _)))
    revert every
    decide +kernel

end HostingPlatform.Tasks
