import Mathlib.Data.List.Basic

/-! Named objects whose setting is taken to a resting value and brought back from a record.
`original` is what a setting was before anything was paused. -/
namespace HostingPlatform.Pausing

open List

structure Workload (L V : Type) where
  name : String
  labels : L
  setting : V

section Paused
variable {L V : Type} [DecidableEq V] (rest : V)

def record (ws : List (Workload L V)) : List (String × V) := ws.map (fun w => (w.name, w.setting))

def pause (missed : List String) (w : Workload L V) : Workload L V :=
  if w.name ∈ missed then w else { w with setting := rest }

/- an entry that was at rest is skipped; one whose object cannot be reached changes nothing -/
def resumeOne (missed : List String) (w : Workload L V) (entry : String × V) : Workload L V :=
  if entry.2 = rest ∨ entry.1 ∈ missed ∨ entry.1 ≠ w.name then w
  else { w with setting := entry.2 }

def resume (missed : List String) (snap : List (String × V)) (w : Workload L V) : Workload L V :=
  snap.foldl (resumeOne rest missed) w

end Paused

def Intact {L V : Type} (original : String → V) (ws : List (Workload L V)) : Prop :=
  ∀ w ∈ ws, w.setting = original w.name

def Between {L V : Type} (rest : V) (original : String → V) (ws : List (Workload L V)) : Prop :=
  ∀ w ∈ ws, w.setting = rest ∨ w.setting = original w.name

def Sound {V : Type} (rest : V) (original : String → V) (snap : List (String × V)) : Prop :=
  ∀ entry ∈ snap, entry.2 = rest ∨ entry.2 = original entry.1

def Recorded {L V : Type} (original : String → V) (snap : List (String × V))
    (ws : List (Workload L V)) : Prop := ∀ w ∈ ws, (w.name, original w.name) ∈ snap

def Exact {V : Type} (original : String → V) (snap : List (String × V)) : Prop :=
  ∀ entry ∈ snap, entry.2 = original entry.1

def AsRecorded {L V : Type} (snap : List (String × V)) (ws : List (Workload L V)) : Prop :=
  ∀ w ∈ ws, (w.name, w.setting) ∈ snap

/- an object that cannot be reached needs nothing of what the record has -/
def Spares {L V : Type} (rest : V) (missed : List String) (snap : List (String × V))
    (ws : List (Workload L V)) : Prop :=
  ∀ w ∈ ws, w.name ∈ missed → ∀ entry ∈ snap, entry.1 = w.name → entry.2 = rest ∨ entry.2 = w.setting

section Lemmas
variable {L V : Type} {rest : V} {original : String → V} {missed : List String}
  {snap : List (String × V)} {ws ws' : List (Workload L V)} {w : Workload L V}

theorem Intact.between (intact : Intact original ws) : Between rest original ws :=
  fun w mem => .inr (intact w mem)

theorem Intact.subset (intact : Intact original ws) (sub : ws' ⊆ ws) : Intact original ws' :=
  fun w mem => intact w (sub mem)

theorem Between.subset (between : Between rest original ws) (sub : ws' ⊆ ws) :
    Between rest original ws' := fun w mem => between w (sub mem)

theorem Recorded.subset (recorded : Recorded original snap ws) (sub : ws' ⊆ ws) :
    Recorded original snap ws' := fun w mem => recorded w (sub mem)

theorem Intact.recorded (intact : Intact original ws) : Recorded original (record ws) ws := by
  intro w mem
  rw [← intact w mem]
  exact mem_map.mpr ⟨w, mem, rfl⟩

theorem Between.record (between : Between rest original ws) : Sound rest original (record ws) := by
  intro entry mem
  obtain ⟨w, memw, rfl⟩ := mem_map.mp mem
  exact between w memw

theorem Intact.exact (intact : Intact original ws) : Exact original (record ws) := by
  intro entry mem
  obtain ⟨w, memw, rfl⟩ := mem_map.mp mem
  exact intact w memw

theorem Exact.intact (exact : Exact original snap) (same : AsRecorded snap ws) :
    Intact original ws := fun w mem => exact _ (same w mem)

theorem Recorded.rename (recorded : Recorded original snap ws)
    (named : ∀ w' ∈ ws', ∃ w ∈ ws, w.name = w'.name) : Recorded original snap ws' := by
  intro w' mem
  obtain ⟨w, memw, same⟩ := named w' mem
  rw [← same]
  exact recorded w memw

theorem record_map_iff {f : Workload L V → Workload L V} (named : ∀ w, (f w).name = w.name) :
    record (ws.map f) = record ws ↔ ∀ w ∈ ws, (f w).setting = w.setting := by
  simp [record, named]

theorem pause_name : (pause rest missed w).name = w.name := by
  unfold pause
  split <;> rfl

theorem pause_labels : (pause rest missed w).labels = w.labels := by
  unfold pause
  split <;> rfl

theorem pause_nothing_missed : (pause rest [] w).setting = rest := by
  simp [pause]

theorem pause_unchanged (resting : ∀ w ∈ ws, w.name ∉ missed → w.setting = rest) : ws.map (pause rest missed) = ws := by
  refine (map_congr_left ?_).trans (map_id ws)
  intro w mem
  unfold Pausing.pause
  split
  · rfl
  rename_i reached
  rw [← resting w mem reached]
  rfl

theorem Between.pause (between : Between rest original ws) : Between rest original (ws.map (pause rest missed)) := by
  intro w' mem
  obtain ⟨w, memw, rfl⟩ := mem_map.mp mem
  unfold Pausing.pause
  split
  · exact between w memw
  · exact .inl rfl

variable [DecidableEq V]

theorem resumeOne_name (rest : V) (missed : List String) (w : Workload L V)
    (entry : String × V) : (resumeOne rest missed w entry).name = w.name := by
  unfold resumeOne
  split <;> rfl

theorem resume_name (rest : V) (missed : List String) (snap : List (String × V))
    (w : Workload L V) : (resume rest missed snap w).name = w.name := by
  induction snap generalizing w with
  | nil => rfl
  | cons entry tail ih => exact (ih _).trans (resumeOne_name rest missed w entry)

theorem resumeOne_labels (rest : V) (missed : List String) (w : Workload L V)
    (entry : String × V) : (resumeOne rest missed w entry).labels = w.labels := by
  unfold resumeOne
  split <;> rfl

theorem resume_labels (rest : V) (missed : List String) (snap : List (String × V))
    (w : Workload L V) : (resume rest missed snap w).labels = w.labels := by
  induction snap generalizing w with
  | nil => rfl
  | cons entry tail ih => exact (ih _).trans (resumeOne_labels rest missed w entry)

variable {entry : String × V}

theorem resumeOne_between (between : w.setting = rest ∨ w.setting = original w.name)
    (sound : entry.2 = rest ∨ entry.2 = original entry.1) : (resumeOne rest missed w entry).setting = rest ∨
      (resumeOne rest missed w entry).setting = original (resumeOne rest missed w entry).name := by
  unfold resumeOne
  split
  · exact between
  rename_i taken
  push Not at taken
  rw [← taken.2.2]
  exact sound

theorem resume_between (between : w.setting = rest ∨ w.setting = original w.name) (sound : Sound rest original snap) :
    (resume rest missed snap w).setting = rest ∨ (resume rest missed snap w).setting = original w.name := by
  rw [← resume_name rest missed snap w]
  induction snap generalizing w with
  | nil => exact between
  | cons entry tail ih =>
    refine ih ?_ (fun e mem => sound e (mem_cons_of_mem entry mem))
    exact resumeOne_between between (sound entry mem_cons_self)

theorem resumeOne_kept (kept : w.setting = original w.name) (sound : entry.2 = rest ∨ entry.2 = original entry.1) :
    (resumeOne rest missed w entry).setting = original (resumeOne rest missed w entry).name := by
  unfold resumeOne
  split
  · exact kept
  rename_i taken
  push Not at taken
  rw [← taken.2.2]
  exact sound.resolve_left taken.1

theorem resume_kept (kept : w.setting = original w.name) (sound : Sound rest original snap) :
    (resume rest missed snap w).setting = original w.name := by
  rw [← resume_name rest missed snap w]
  induction snap generalizing w with
  | nil => exact kept
  | cons entry tail ih =>
    refine ih ?_ (fun e mem => sound e (mem_cons_of_mem entry mem))
    exact resumeOne_kept kept (sound entry mem_cons_self)

theorem resumeOne_own (between : w.setting = rest ∨ w.setting = original w.name) (reached : w.name ∉ missed) :
    (resumeOne rest missed w (w.name, original w.name)).setting = original w.name := by
  unfold resumeOne
  split
  · rename_i skipped
    rcases skipped with atRest | missing | other
    · have same : original w.name = rest := atRest
      rcases between with setting | setting
      · exact setting.trans same.symm
      · exact setting
    · exact absurd missing reached
    · exact absurd rfl other
  · rfl

theorem resume_recorded (between : w.setting = rest ∨ w.setting = original w.name)
    (sound : Sound rest original snap) (recorded : (w.name, original w.name) ∈ snap)
    (reached : w.name ∉ missed) : (resume rest missed snap w).setting = original w.name := by
  induction snap generalizing w with
  | nil => exact absurd recorded not_mem_nil
  | cons entry tail ih =>
    have soundTail : Sound rest original tail := fun e mem => sound e (mem_cons_of_mem entry mem)
    have name : (resumeOne rest missed w entry).name = w.name := resumeOne_name rest missed w entry
    have tailed : (resume rest missed tail (resumeOne rest missed w entry)).setting =
        original (resumeOne rest missed w entry).name := by
      rcases mem_cons.mp recorded with own | later
      · have kept := resumeOne_own between reached
        rw [own, ← name] at kept
        exact resume_kept kept soundTail
      refine ih (resumeOne_between between (sound entry mem_cons_self)) soundTail ?_ ?_
      · rw [name]
        exact later
      · rw [name]
        exact reached
    rw [name] at tailed
    exact tailed

theorem resumeOne_rest (resting : w.setting = rest) :
    (resumeOne rest [] w entry).setting = rest ↔ (entry.1 = w.name → entry.2 = rest) := by
  unfold resumeOne
  split
  · rename_i skipped
    simp only [not_mem_nil, false_or] at skipped
    refine iff_of_true resting ?_
    intro same
    exact skipped.resolve_right (fun other => other same)
  · rename_i taken
    push Not at taken
    exact ⟨fun same _ => same, fun same => same taken.2.2⟩

theorem resumeOne_moved (moved : w.setting ≠ rest) : (resumeOne rest missed w entry).setting ≠ rest := by
  unfold resumeOne
  split
  · exact moved
  rename_i taken
  push Not at taken
  exact taken.1

theorem resume_moved (moved : w.setting ≠ rest) : (resume rest missed snap w).setting ≠ rest := by
  induction snap generalizing w with
  | nil => exact moved
  | cons entry tail ih => exact ih (resumeOne_moved moved)

theorem resume_rest_iff (resting : w.setting = rest) :
    (resume rest [] snap w).setting = rest ↔ ∀ entry ∈ snap, entry.1 = w.name → entry.2 = rest := by
  induction snap generalizing w with
  | nil => simp [resume, resting]
  | cons entry tail ih =>
    have step : resume rest [] (entry :: tail) w = resume rest [] tail (resumeOne rest [] w entry) :=
      rfl
    rw [step, forall_mem_cons]
    by_cases still : (resumeOne rest [] w entry).setting = rest
    · rw [ih still, resumeOne_name]
      exact ⟨fun later => ⟨(resumeOne_rest resting).mp still, later⟩, And.right⟩
    refine iff_of_false (resume_moved still) ?_
    rintro ⟨first, _⟩
    exact still ((resumeOne_rest resting).mpr first)

theorem Between.resume (between : Between rest original ws) (sound : Sound rest original snap) :
    Between rest original (ws.map (resume rest missed snap)) := by
  intro w' mem
  obtain ⟨w, memw, rfl⟩ := mem_map.mp mem
  rw [resume_name]
  exact resume_between (between w memw) sound

theorem Between.restored (between : Between rest original ws) (sound : Sound rest original snap)
    (recorded : Recorded original snap ws) (spares : Spares rest missed snap ws) :
    Intact original (ws.map (Pausing.resume rest missed snap)) := by
  intro w' mem
  obtain ⟨w, memw, rfl⟩ := mem_map.mp mem
  rw [resume_name]
  by_cases reached : w.name ∈ missed
  · refine resume_kept ?_ sound
    rcases spares w memw reached _ (recorded w memw) rfl with needless | same
    · exact (between w memw).elim (fun setting => setting.trans needless.symm) id
    · exact same.symm
  · exact resume_recorded (between w memw) sound (recorded w memw) reached

end Lemmas

end HostingPlatform.Pausing
