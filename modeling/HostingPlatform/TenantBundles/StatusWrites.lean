import HostingPlatform.TenantBundles.Retention

/-! Who writes the status of a bundle: any number of orchestrators, each of which may end at any
statement, and the sweeps. The log keeps the writes, the newest first. -/
namespace HostingPlatform.TenantBundles.StatusWrites

open Option Table List Transition Orchestrator Retention

def terminal : BundleStatus → Bool
  | .pending | .running => false
  | .completed | .partialBundle | .failed | .expired => true

abbrev Outcome : Type := {r : Result // r.status = .completed ∨ r.status = .partialBundle}

/- how far runBundle is; `failing` is the handler of a run in the background, which the route has
answered already -/
inductive Phase where
  | inserted | reserved | running
  | captured (r : Outcome)
  | failing (message : String)
  deriving DecidableEq

structure Run where
  id : Nat
  background : Bool
  phase : Phase

inductive Writer where
  | sweep | orchestrator

structure Write where
  writer : Writer
  id : Nat
  status : BundleStatus

/- `selected`: the candidates of sweeps that are under way; `issued`: the ids there have been, none
of which randomUUID gives again -/
structure Platform where
  jobs : BackupJobs
  runs : Table Run Run.id
  selected : List Nat
  log : List Write
  issued : List Nat

def Platform.initial : Platform := ⟨Table.empty, Table.empty, [], [], []⟩

/- each statement with whether it goes through; `kill` is the end of a process without one -/
inductive Action where
  | begin (id : Nat) (w : World) (input : RunBundleInput) (background : Bool)
  | reserve (id : Nat) (ok : Bool)
  | setRunning (id : Nat) (ok : Bool)
  | capture (id : Nat) (r : Outcome)
  | throw (id : Nat) (message : String)
  | finish (id : Nat) (ok : Bool) (message : String)
  | markFailed (id : Nat) (ok : Bool) (now : Int)
  | kill (id : Nat)
  | importBundle (job : BackupJob)
  | delete (id : Nat)
  | select (now : Int) (order : List BackupJob)
  | expire (id : Nat)
  | leave (id : Nat)
  | reap (now : Int)

/- an UPDATE of one row, which sets its status -/
structure Setter where
  status : BundleStatus
  set : BackupJob → BackupJob
  keeps : ∀ job, (set job).id = job.id
  sets : ∀ job, (set job).status = status

def runningSetter : Setter := ⟨.running, setRunning, fun _ => rfl, fun _ => rfl⟩

def finalSetter (r : Outcome) : Setter := ⟨r.val.status, finalize r.val, fun _ => rfl, fun _ => rfl⟩

def expiredSetter : Setter := ⟨.expired, markExpired, fun _ => rfl, fun _ => rfl⟩

/- what the handler of a run in the background writes -/
def failedSetter (message : String) (now : Int) : Setter :=
  ⟨.failed, fun job => { job with status := .failed, lastError := some message, finishedAt := some now },
    fun _ => rfl, fun _ => rfl⟩

def named (id : Nat) (job : BackupJob) : Bool := job.id == id

/- an UPDATE that finds no row writes nothing -/
def Platform.write (s : Platform) (writer : Writer) (id : Nat) (setter : Setter) : Platform :=
  { s with
    jobs := s.jobs.update (named id) setter.set setter.keeps
    log := if s.jobs.rows.any (named id) then ⟨writer, id, setter.status⟩ :: s.log else s.log }

def advanced (phase : Phase) (r : Run) : Run := { r with phase }

theorem advanced_id (phase : Phase) (r : Run) : (advanced phase r).id = r.id := rfl

def Platform.advance (s : Platform) (id : Nat) (phase : Phase) : Platform :=
  { s with runs := s.runs.update (fun r => r.id == id) (advanced phase) (advanced_id phase) }

def Platform.ended (s : Platform) (id : Nat) : Platform :=
  { s with runs := s.runs.delete (fun r => r.id == id) }

def Platform.find (s : Platform) (id : Nat) : Option Run := s.runs.select (fun r => r.id == id)

/- runBundle throws after the bundle is reserved -/
def Platform.throws (s : Platform) (r : Run) (message : String) : Platform :=
  if r.background then s.advance r.id (.failing message) else s.ended r.id

section sweeps

variable (stuckMs : Int) (stuckErr : String)

def isStuck (now : Int) (job : BackupJob) : Bool :=
  job.status == .running && job.startedAt.any (fun startedAt => decide (startedAt < now - stuckMs))

/- `finished_at` is kept where it is set -/
def reaped (now : Int) (job : BackupJob) : BackupJob :=
  { job with
    status := .failed
    lastError := some stuckErr
    finishedAt := some (job.finishedAt.getD now) }

theorem reaped_id (now : Int) (job : BackupJob) : (reaped stuckErr now job).id = job.id := rfl

def Platform.reap (s : Platform) (now : Int) : Platform :=
  { s with
    jobs := s.jobs.update (isStuck stuckMs now) (reaped stuckErr now) (reaped_id stuckErr now)
    log := (s.jobs.selectAll (isStuck stuckMs now)).map (fun job => ⟨.sweep, job.id, .failed⟩) ++ s.log }

def step (s : Platform) : Action → Option Platform
  | .begin id w input background =>
    if id ∈ s.issued then none
    else
      (s.jobs.insert (newJob w id input)).bind fun jobs =>
        (s.runs.insert ⟨id, background, .inserted⟩).map fun runs =>
          { s with jobs, runs, issued := id :: s.issued }
  | .reserve id ok => (s.find id).bind fun r =>
    if r.phase = .inserted then some (if ok then s.advance id .reserved else s.ended id) else none
  | .setRunning id ok => (s.find id).bind fun r =>
    if r.phase = .reserved then
      some (if ok then (s.write .orchestrator id runningSetter).advance id .running else s.ended id)
    else none
  | .capture id result => (s.find id).bind fun r =>
    if r.phase = .running then some (s.advance id (.captured result)) else none
  | .throw id message => (s.find id).bind fun r =>
    match r.phase with
    | .running | .captured _ => some (s.throws r message)
    | .inserted | .reserved | .failing _ => none
  | .finish id ok message => (s.find id).bind fun r =>
    match r.phase with
    | .captured result =>
      some (if ok then (s.write .orchestrator id (finalSetter result)).ended id
        else s.throws r message)
    | .inserted | .reserved | .running | .failing _ => none
  | .markFailed id ok now => (s.find id).bind fun r =>
    match r.phase with
    | .failing message =>
      some ((if ok then s.write .orchestrator id (failedSetter message now) else s).ended id)
    | .inserted | .reserved | .running | .captured _ => none
  | .kill id => (s.find id).map fun _ => s.ended id
  | .importBundle job =>
    if job.id ∈ s.issued ∨ job.status ≠ .completed then none
    else (s.jobs.insert job).map fun jobs => { s with jobs, issued := job.id :: s.issued }
  | .delete id => some { s with jobs := s.jobs.delete (named id) }
  | .select now order =>
    if order.Perm s.jobs.rows then
      some { s with selected := (expiredCandidates now order).map BackupJob.id ++ s.selected }
    else none
  | .expire id =>
    if id ∈ s.selected then
      some { s.write .sweep id expiredSetter with selected := s.selected.erase id }
    else none
  | .leave id => if id ∈ s.selected then some { s with selected := s.selected.erase id } else none
  | .reap now => some (s.reap stuckMs stuckErr now)

end sweeps

/-- No orchestrator gives another terminal status to a row that a sweep gave one. -/
def Settled (log : List Write) : Prop :=
  log.Pairwise (fun later earlier => earlier.writer = .sweep → later.writer = .orchestrator →
    later.id = earlier.id → terminal earlier.status = true → terminal later.status = true →
      later.status = earlier.status)

/-- No bundle that began before the cutoff and has lost its orchestrator is still open. -/
def Cleared (stuckMs now : Int) (s : Platform) : Prop :=
  ∀ job ∈ s.jobs, job.startedAt.any (fun startedAt => decide (startedAt < now - stuckMs)) = true →
    (∀ r ∈ s.runs, r.id ≠ job.id) → terminal job.status = true

/- the row of a run that has come no further is pending -/
def early (r : Run) : Bool := r.phase == .inserted || r.phase == .reserved

/-- A run does not end before its row is `running`, and what it writes at its end, it writes on a row
that is open. -/
def Undisturbed (s : Platform) : Action → Prop
  | .kill id => ∀ r ∈ s.runs.rows, r.id = id → early r = false
  | .reserve _ ok => ok = true
  | .setRunning _ ok => ok = true
  | .finish id ok _ => ok = true → ∀ job ∈ s.jobs.rows, job.id = id → terminal job.status = false
  | .markFailed id ok _ => ok = true → ∀ job ∈ s.jobs.rows, job.id = id → terminal job.status = false
  | _ => True

structure Sound (s : Platform) : Prop where
  pending : ∀ job ∈ s.jobs, job.status = .pending → ∃ r ∈ s.runs, r.id = job.id ∧ early r = true
  early : ∀ r ∈ s.runs, early r = true → ∀ job ∈ s.jobs, job.id = r.id → job.status = .pending
  swept : ∀ e ∈ s.log, e.writer = .sweep → ∀ job ∈ s.jobs, job.id = e.id → terminal job.status = true
  settled : Settled s.log
  selected : ∀ id ∈ s.selected, ∀ job ∈ s.jobs, job.id = id → terminal job.status = true
  chosen : ∀ id ∈ s.selected, id ∈ s.issued
  jobs : ∀ job ∈ s.jobs, job.id ∈ s.issued
  runs : ∀ r ∈ s.runs, r.id ∈ s.issued
  logged : ∀ e ∈ s.log, e.id ∈ s.issued

theorem sound_initial : Sound Platform.initial where
  pending := fun _ mem => absurd mem (not_mem_empty _)
  early := fun _ mem => absurd mem (not_mem_empty _)
  swept := fun _ mem => absurd mem not_mem_nil
  settled := .nil
  selected := fun _ mem => absurd mem not_mem_nil
  chosen := fun _ mem => absurd mem not_mem_nil
  jobs := fun _ mem => absurd mem (not_mem_empty _)
  runs := fun _ mem => absurd mem (not_mem_empty _)
  logged := fun _ mem => absurd mem not_mem_nil

structure Others (id : Nat) (before after : Table Run Run.id) : Prop where
  kept : ∀ r ∈ before, r.id ≠ id → r ∈ after
  only : ∀ r ∈ after, r.id ≠ id → r ∈ before

theorem others_advance (s : Platform) (id : Nat) (phase : Phase) : Others id s.runs (s.advance id phase).runs where
  kept := fun _ mem other => (mem_update (advanced_id phase)).mpr (.inl ⟨mem, by simpa using other⟩)
  only := by
    intro r mem other
    rcases (mem_update (advanced_id phase)).mp mem with ⟨old, _⟩ | ⟨r', _, own, rfl⟩
    · exact old
    · exact absurd (eq_of_beq own) other

theorem others_ended (s : Platform) (id : Nat) : Others id s.runs (s.ended id).runs where
  kept := fun _ mem other => mem_delete.mpr ⟨mem, by simpa using other⟩
  only := fun _ mem _ => (mem_delete.mp mem).1

variable {s : Platform} {id : Nat} {phase : Phase} {r : Run} {runs : Table Run Run.id} {writer : Writer}
  {setter : Setter} {now : Int} {job : BackupJob} {jobs : BackupJobs}

theorem phase_advance (mem : r ∈ (s.advance id phase).runs) (own : r.id = id) : r.phase = phase := by
  rcases (mem_update (advanced_id phase)).mp mem with ⟨_, other⟩ | ⟨_, _, _, rfl⟩
  · simp [own] at other
  · rfl

theorem not_mem_ended (mem : r ∈ (s.ended id).runs) : r.id ≠ id := by
  simpa using (mem_delete.mp mem).2

theorem mem_find (found : s.find id = some r) : r ∈ s.runs ∧ r.id = id := by
  obtain ⟨mem, own⟩ := mem_of_select found
  exact ⟨mem, eq_of_beq own⟩

theorem Sound.runs_changed (sound : Sound s) (issued : id ∈ s.issued) (others : Others id s.runs runs)
    (opened : ∀ job ∈ s.jobs, job.id = id → job.status ≠ .pending)
    (late : ∀ r ∈ runs, r.id = id → StatusWrites.early r = false) : Sound { s with runs } where
  pending := by
    intro job mem isPending
    obtain ⟨r, there, own, isEarly⟩ := sound.pending job mem isPending
    refine ⟨r, others.kept r there ?_, own, isEarly⟩
    intro same
    exact opened job mem (own.symm.trans same) isPending
  early := by
    intro r mem isEarly
    refine sound.early r (others.only r mem ?_) isEarly
    intro same
    rw [late r mem same] at isEarly
    contradiction
  swept := sound.swept
  settled := sound.settled
  selected := sound.selected
  chosen := sound.chosen
  jobs := sound.jobs
  runs := by
    intro r mem
    by_cases same : r.id = id
    · exact same ▸ issued
    · exact sound.runs r (others.only r mem same)
  logged := sound.logged

section

variable {s : Platform} {writer : Writer} {id : Nat} {setter : Setter}

theorem mem_write {job : BackupJob} : job ∈ (s.write writer id setter).jobs ↔
      job ∈ s.jobs ∧ job.id ≠ id ∨ ∃ old ∈ s.jobs, old.id = id ∧ setter.set old = job := by
  simp [Platform.write, mem_update, named]

theorem status_write {job : BackupJob}
    (mem : job ∈ (s.write writer id setter).jobs) (own : job.id = id) : job.status = setter.status := by
  rcases mem_write.mp mem with ⟨_, other⟩ | ⟨old, _, _, rfl⟩
  · exact absurd own other
  · exact setter.sets old

theorem mem_log_write {e : Write} (mem : e ∈ (s.write writer id setter).log) :
    e ∈ s.log ∨ e = ⟨writer, id, setter.status⟩ ∧ ∃ job ∈ s.jobs, job.id = id := by
  unfold Platform.write at mem
  split at mem
  · rename_i found
    rcases mem_cons.mp mem with rfl | old
    · obtain ⟨job, there, own⟩ := any_eq_true.mp found
      exact .inr ⟨rfl, job, there, eq_of_beq own⟩
    · exact .inl old
  · exact .inl mem

end

theorem log_write (settled : Settled s.log)
    (fresh : writer = .orchestrator → ∀ job ∈ s.jobs, job.id = id → ∀ e ∈ s.log, e.writer = .sweep →
      e.id ≠ id) : Settled (s.write writer id setter).log := by
  unfold Platform.write
  split
  · rename_i found
    obtain ⟨job, there, own⟩ := any_eq_true.mp found
    refine pairwise_cons.mpr ⟨?_, settled⟩
    intro e mem sweep orchestrator same _ _
    exact absurd same.symm (fresh orchestrator job there (eq_of_beq own) e mem sweep)
  · exact settled

theorem Sound.written (sound : Sound s) (issued : id ∈ s.issued) (others : Others id s.runs runs)
    (late : ∀ r ∈ runs, r.id = id → StatusWrites.early r = true → ∀ job ∈ s.jobs, job.id ≠ id)
    (notPending : setter.status ≠ .pending)
    (opened : writer = .orchestrator → ∀ job ∈ s.jobs, job.id = id → terminal job.status = false)
    (closing : writer = .sweep → terminal setter.status = true) : Sound { s.write writer id setter with runs } := by
  -- what was closed before stays closed
  have closed : ∀ i, (∀ job ∈ s.jobs, job.id = i → terminal job.status = true) →
      ∀ job ∈ (s.write writer id setter).jobs, job.id = i → terminal job.status = true := by
    intro i before job mem own
    rcases (@mem_write s writer id setter job).mp mem with ⟨old, _⟩ | ⟨old, there, named, rfl⟩
    · exact before job old own
    rw [setter.keeps] at own
    have wasClosed := before old there own
    cases writer with
    | orchestrator =>
      rw [opened rfl old there named] at wasClosed
      contradiction
    | sweep =>
      rw [setter.sets]
      exact closing rfl
  constructor
  · intro job mem isPending
    have other : job.id ≠ id := by
      intro own
      rw [@status_write s writer id setter job mem own] at isPending
      exact notPending isPending
    rcases (@mem_write s writer id setter job).mp mem with ⟨old, _⟩ | ⟨old, _, named, rfl⟩
    · obtain ⟨r, there, own, isEarly⟩ := sound.pending job old isPending
      exact ⟨r, others.kept r there (own ▸ other), own, isEarly⟩
    · exact absurd ((setter.keeps old).trans named) other
  · intro r mem isEarly job there own
    by_cases same : r.id = id
    · rcases (@mem_write s writer id setter job).mp there with ⟨_, other⟩ | ⟨old, was, named, rfl⟩
      · exact absurd (own.trans same) other
      · exact absurd named (late r mem same isEarly old was)
    · rcases (@mem_write s writer id setter job).mp there with ⟨old, _⟩ | ⟨old, _, named, rfl⟩
      · exact sound.early r (others.only r mem same) isEarly job old own
      · exact absurd (own.symm.trans ((setter.keeps old).trans named)) same
  · intro e mem sweep job there own
    rcases @mem_log_write s writer id setter e mem with old | ⟨rfl, _⟩
    · exact closed e.id (sound.swept e old sweep) job there own
    · rw [@status_write s writer id setter job there own]
      exact closing sweep
  · refine log_write sound.settled ?_
    intro orchestrator job there own e mem sweep same
    have wasClosed := sound.swept e mem sweep job there (own.trans same.symm)
    rw [opened orchestrator job there own] at wasClosed
    contradiction
  · exact fun i mem => closed i (sound.selected i mem)
  · exact sound.chosen
  · intro job mem
    rcases (@mem_write s writer id setter job).mp mem with ⟨old, _⟩ | ⟨old, there, _, rfl⟩
    · exact sound.jobs job old
    · rw [setter.keeps]
      exact sound.jobs old there
  · intro r mem
    by_cases same : r.id = id
    · exact same ▸ issued
    · exact sound.runs r (others.only r mem same)
  · intro e mem
    rcases @mem_log_write s writer id setter e mem with old | ⟨rfl, _⟩
    · exact sound.logged e old
    · exact issued

theorem Sound.inserted {s : Platform} (sound : Sound s) {new : BackupJob} {jobs : BackupJobs}
    {runs : Table Run Run.id} (fresh : new.id ∉ s.issued) (insert : s.jobs.insert new = some jobs)
    (kept : ∀ r ∈ s.runs, r ∈ runs) (only : ∀ r ∈ runs, r ∈ s.runs ∨ r.id = new.id ∧ new.status = .pending)
    (begun : new.status = .pending → ∃ r ∈ runs, r.id = new.id ∧ StatusWrites.early r = true) :
    Sound { s with jobs, runs, issued := new.id :: s.issued } := by
  have old : ∀ i ∈ s.issued, ∀ job ∈ jobs, job.id = i → job ∈ s.jobs := by
    intro i known job mem own
    rcases (mem_insert insert).mp mem with rfl | old
    · exact absurd (own ▸ known) fresh
    · exact old
  constructor
  · intro job mem isPending
    rcases (mem_insert insert).mp mem with rfl | was
    · exact begun isPending
    · obtain ⟨r, there, own⟩ := sound.pending job was isPending
      exact ⟨r, kept r there, own⟩
  · intro r mem isEarly job there own
    rcases only r mem with was | ⟨same, isPending⟩
    · exact sound.early r was isEarly job (old r.id (sound.runs r was) job there own) own
    rcases (mem_insert insert).mp there with rfl | known
    · exact isPending
    · exact absurd ((own.trans same) ▸ sound.jobs job known) fresh
  · intro e mem sweep job there own
    exact sound.swept e mem sweep job (old e.id (sound.logged e mem) job there own) own
  · exact sound.settled
  · intro i mem job there own
    exact sound.selected i mem job (old i (sound.chosen i mem) job there own) own
  · exact fun i mem => mem_cons_of_mem _ (sound.chosen i mem)
  · intro job mem
    rcases (mem_insert insert).mp mem with rfl | was
    · exact mem_cons_self
    · exact mem_cons_of_mem _ (sound.jobs job was)
  · intro r mem
    rcases only r mem with was | ⟨same, _⟩
    · exact mem_cons_of_mem _ (sound.runs r was)
    · exact same ▸ mem_cons_self
  · exact fun e mem => mem_cons_of_mem _ (sound.logged e mem)

theorem sound_delete (sound : Sound s) (id : Nat) : Sound { s with jobs := s.jobs.delete (named id) } where
  pending := fun job mem => sound.pending job (mem_delete.mp mem).1
  early := fun r mem isEarly job there => sound.early r mem isEarly job (mem_delete.mp there).1
  swept := fun e mem sweep job there => sound.swept e mem sweep job (mem_delete.mp there).1
  settled := sound.settled
  selected := fun i mem job there => sound.selected i mem job (mem_delete.mp there).1
  chosen := sound.chosen
  jobs := fun job mem => sound.jobs job (mem_delete.mp mem).1
  runs := sound.runs
  logged := sound.logged

theorem Sound.selecting (sound : Sound s) {selected : List Nat}
    (closed : ∀ id ∈ selected, ∀ job ∈ s.jobs, job.id = id → terminal job.status = true)
    (issued : ∀ id ∈ selected, id ∈ s.issued) : Sound { s with selected } :=
  { sound with selected := closed, chosen := issued }

theorem terminal_of_isExpired (expired : isExpired now job = true) : terminal job.status = true := by
  unfold isExpired at expired
  cases status : job.status <;> simp_all [terminal]

theorem sound_select (sound : Sound s) {order : List BackupJob} (perm : order.Perm s.jobs.rows) :
    Sound { s with selected := (expiredCandidates now order).map BackupJob.id ++ s.selected } := by
  have candidate : ∀ c ∈ expiredCandidates now order, c ∈ s.jobs ∧ isExpired now c = true := by
    intro c mem
    obtain ⟨there, expired⟩ := mem_filter.mp (mem_of_mem_take mem)
    exact ⟨perm.mem_iff.mp there, expired⟩
  apply sound.selecting
  · intro id mem job there own
    rcases mem_append.mp mem with new | old
    · obtain ⟨c, chosen, rfl⟩ := mem_map.mp new
      obtain ⟨was, expired⟩ := candidate c chosen
      rw [s.jobs.eq_of_key there was own]
      exact terminal_of_isExpired expired
    · exact sound.selected id old job there own
  · intro id mem
    rcases mem_append.mp mem with new | old
    · obtain ⟨c, chosen, rfl⟩ := mem_map.mp new
      exact sound.jobs c (candidate c chosen).1
    · exact sound.chosen id old

theorem mem_reap {stuckMs : Int} {stuckErr : String} :
    job ∈ (s.reap stuckMs stuckErr now).jobs ↔ job ∈ s.jobs ∧ isStuck stuckMs now job = false ∨
      ∃ old ∈ s.jobs, isStuck stuckMs now old = true ∧ reaped stuckErr now old = job :=
  mem_update (reaped_id stuckErr now)

theorem running_of_isStuck {stuckMs : Int} (stuck : isStuck stuckMs now job = true) : job.status = .running :=
  eq_of_beq (Bool.and_eq_true_iff.mp stuck).1

theorem sound_reap (sound : Sound s) (stuckMs now : Int) (stuckErr : String) : Sound (s.reap stuckMs stuckErr now) := by
  have closed : ∀ i, (∀ job ∈ s.jobs, job.id = i → terminal job.status = true) →
      ∀ job ∈ (s.reap stuckMs stuckErr now).jobs, job.id = i → terminal job.status = true := by
    intro i before job mem own
    rcases mem_reap.mp mem with ⟨old, _⟩ | ⟨old, _, _, rfl⟩
    · exact before job old own
    · rfl
  constructor
  · intro job mem isPending
    rcases mem_reap.mp mem with ⟨old, _⟩ | ⟨_, _, _, rfl⟩
    · exact sound.pending job old isPending
    · contradiction
  · intro r mem isEarly job there own
    rcases mem_reap.mp there with ⟨old, _⟩ | ⟨old, was, stuck, rfl⟩
    · exact sound.early r mem isEarly job old own
    have isPending := sound.early r mem isEarly old was own
    rw [running_of_isStuck stuck] at isPending
    contradiction
  · intro e mem sweep job there own
    rcases mem_append.mp mem with new | old
    · obtain ⟨stuck, chosen, rfl⟩ := mem_map.mp new
      obtain ⟨was, isStuck⟩ := mem_selectAll.mp chosen
      rcases mem_reap.mp there with ⟨old, notStuck⟩ | ⟨_, _, _, rfl⟩
      · rw [s.jobs.eq_of_key old was own, isStuck] at notStuck
        contradiction
      · rfl
    · exact closed e.id (sound.swept e old sweep) job there own
  · refine pairwise_append.mpr ⟨?_, sound.settled, ?_⟩
    · refine pairwise_map.mpr (pairwise_of_forall ?_)
      intro _ _ _ orchestrator
      contradiction
    · intro later mem _ _ _ orchestrator
      obtain ⟨_, _, rfl⟩ := mem_map.mp mem
      contradiction
  · exact fun i mem => closed i (sound.selected i mem)
  · exact sound.chosen
  · intro job mem
    rcases mem_reap.mp mem with ⟨old, _⟩ | ⟨old, was, _, rfl⟩
    · exact sound.jobs job old
    · exact sound.jobs old was
  · exact sound.runs
  intro e mem
  rcases mem_append.mp mem with new | old
  · obtain ⟨job, chosen, rfl⟩ := mem_map.mp new
    exact sound.jobs job (mem_selectAll.mp chosen).1
  · exact sound.logged e old

theorem Outcome.not_pending (r : Outcome) : (finalSetter r).status ≠ .pending := by
  intro same
  rcases r.property with completed | isPartial
  · exact absurd (completed.symm.trans same) (by decide)
  · exact absurd (isPartial.symm.trans same) (by decide)

theorem run_eq {r' : Run} (found : s.find id = some r) (mem : r' ∈ s.runs) (own : r'.id = id) : r' = r := by
  obtain ⟨there, named⟩ := mem_find found
  exact s.runs.eq_of_key mem there (own.trans named.symm)

section

variable (sound : Sound s) (found : s.find id = some r)
include sound found

theorem Sound.not_pending (late : StatusWrites.early r = false) : ∀ job ∈ s.jobs, job.id = id → job.status ≠ .pending := by
  intro job mem own isPending
  obtain ⟨r', there, named, isEarly⟩ := sound.pending job mem isPending
  rw [run_eq found there (named.trans own), late] at isEarly
  contradiction

theorem Sound.is_pending (isEarly : StatusWrites.early r = true) : ∀ job ∈ s.jobs, job.id = id → job.status = .pending := by
  obtain ⟨there, named⟩ := mem_find found
  exact fun job mem own => sound.early r there isEarly job mem (own.trans named.symm)

theorem Sound.find_issued : id ∈ s.issued := by
  obtain ⟨there, named⟩ := mem_find found
  exact named ▸ sound.runs r there

theorem sound_ended (late : early r = false) : Sound (s.ended id) := by
  apply sound.runs_changed (sound.find_issued found) (others_ended s id)
  · exact sound.not_pending found late
  · exact fun _ mem own => absurd own (not_mem_ended mem)

theorem sound_advance (late : early r = false)
    (stays : ∀ r' : Run, r'.phase = phase → early r' = false) : Sound (s.advance id phase) := by
  apply sound.runs_changed (sound.find_issued found) (others_advance s id phase)
  · exact sound.not_pending found late
  · exact fun r' mem own => stays r' (phase_advance mem own)

end

section

variable (sound : Sound s)
include sound

theorem sound_throws (message : String) (found : s.find id = some r)
    (late : early r = false) : Sound (s.throws r message) := by
  obtain ⟨_, rfl⟩ := mem_find found
  unfold Platform.throws
  split
  · exact sound_advance sound found late (fun r' now => by simp [early, now])
  · exact sound_ended sound found late

theorem sound_reserved (found : s.find id = some r) (isEarly : early r = true) : Sound (s.advance id .reserved) where
  pending := by
    intro job mem isPending
    obtain ⟨r', there, own, was⟩ := sound.pending job mem isPending
    by_cases same : r'.id = id
    · refine ⟨advanced .reserved r', ?_, own, rfl⟩
      exact (mem_update (advanced_id .reserved)).mpr (.inr ⟨r', there, by simp [same], rfl⟩)
    · exact ⟨r', (others_advance s id .reserved).kept r' there same, own, was⟩
  early := by
    intro r' mem was job there own
    by_cases same : r'.id = id
    · exact sound.is_pending found isEarly job there (own.trans same)
    · exact sound.early r' ((others_advance s id .reserved).only r' mem same) was job there own
  swept := sound.swept
  settled := sound.settled
  selected := sound.selected
  chosen := sound.chosen
  jobs := sound.jobs
  runs := by
    intro r' mem
    by_cases same : r'.id = id
    · rw [same]
      exact sound.find_issued found
    · exact sound.runs r' ((others_advance s id .reserved).only r' mem same)
  logged := sound.logged

theorem sound_orchestrator (found : s.find id = some r) (others : Others id s.runs runs)
    (late : ∀ r' ∈ runs, r'.id = id → early r' = false) (notPending : setter.status ≠ .pending)
    (opened : ∀ job ∈ s.jobs, job.id = id → terminal job.status = false) :
    Sound { s.write .orchestrator id setter with runs } := by
  apply sound.written (sound.find_issued found) others
  · intro r' mem own isEarly
    rw [late r' mem own] at isEarly
    contradiction
  · exact notPending
  · exact fun _ => opened
  · exact fun sweep => by contradiction

theorem sound_setRunning (found : s.find id = some r) (isEarly : early r = true) :
    Sound ((s.write .orchestrator id runningSetter).advance id .running) := by
  apply sound_orchestrator sound found (others_advance s id .running)
  · intro r' mem own
    have now := phase_advance mem own
    simp [early, now]
  · exact fun same => by contradiction
  intro job mem own
  rw [sound.is_pending found isEarly job mem own]
  rfl

theorem sound_last (found : s.find id = some r) (notPending : setter.status ≠ .pending)
    (opened : ∀ job ∈ s.jobs, job.id = id → terminal job.status = false) :
    Sound ((s.write .orchestrator id setter).ended id) := by
  apply sound_orchestrator sound found (others_ended s id)
  · exact fun r' mem own => absurd own (not_mem_ended mem)
  · exact notPending
  · exact opened

theorem sound_expire (chosen : id ∈ s.selected) :
    Sound { s.write .sweep id expiredSetter with selected := s.selected.erase id } := by
  have written : Sound { s.write .sweep id expiredSetter with runs := s.runs } := by
    apply sound.written (sound.chosen id chosen) ⟨fun _ mem _ => mem, fun _ mem _ => mem⟩
    · intro r mem own isEarly job there named
      have closed := sound.selected id chosen job there named
      rw [sound.early r mem isEarly job there (named.trans own.symm)] at closed
      contradiction
    · exact fun same => by contradiction
    · exact fun orchestrator => by contradiction
    · exact fun _ => rfl
  apply written.selecting
  · exact fun i mem => written.selected i (mem_of_mem_erase mem)
  · exact fun i mem => written.chosen i (mem_of_mem_erase mem)

theorem sound_leave (id : Nat) : Sound { s with selected := s.selected.erase id } := by
  apply sound.selecting
  · exact fun i mem => sound.selected i (mem_of_mem_erase mem)
  · exact fun i mem => sound.chosen i (mem_of_mem_erase mem)

theorem sound_begin {w : World} {input : RunBundleInput} {background : Bool}
    (fresh : id ∉ s.issued) (insertJob : s.jobs.insert (newJob w id input) = some jobs)
    (insertRun : s.runs.insert ⟨id, background, .inserted⟩ = some runs) :
    Sound { s with jobs, runs, issued := id :: s.issued } := by
  apply @Sound.inserted s sound (newJob w id input) jobs runs fresh insertJob
  · exact fun r mem => (mem_insert insertRun).mpr (.inr mem)
  · intro r mem
    rcases (mem_insert insertRun).mp mem with rfl | old
    · exact .inr ⟨rfl, rfl⟩
    · exact .inl old
  · exact fun _ => ⟨_, (mem_insert insertRun).mpr (.inl rfl), rfl, rfl⟩

theorem sound_import (fresh : job.id ∉ s.issued) (completed : job.status = .completed)
    (insert : s.jobs.insert job = some jobs) : Sound { s with jobs, issued := job.id :: s.issued } := by
  apply @Sound.inserted s sound job jobs s.runs fresh insert
  · exact fun _ mem => mem
  · exact fun _ mem => .inl mem
  intro isPending
  rw [completed] at isPending
  contradiction

end

theorem sound_step (stuckMs : Int) (stuckErr : String) (s : Platform) (action : Action) (t : Platform)
    (sound : Sound s) (undisturbed : Undisturbed s action)
    (taken : step stuckMs stuckErr s action = some t) : Sound t := by
  cases action with
  | begin id w input background =>
    dsimp only [step] at taken
    split at taken
    · contradiction
    rename_i fresh
    obtain ⟨jobs, insertJob, later⟩ := bind_eq_some_iff.mp taken
    obtain ⟨runs, insertRun, rfl⟩ := map_eq_some_iff.mp later
    exact sound_begin sound fresh insertJob insertRun
  | reserve id ok =>
    obtain ⟨r, found, later⟩ := bind_eq_some_iff.mp taken
    split at later
    · rename_i inserted
      cases later
      rw [show ok = true from undisturbed]
      exact sound_reserved sound found (by simp [early, inserted])
    · contradiction
  | setRunning id ok =>
    obtain ⟨r, found, later⟩ := bind_eq_some_iff.mp taken
    split at later
    · rename_i reserved
      cases later
      rw [show ok = true from undisturbed]
      exact sound_setRunning sound found (by simp [early, reserved])
    · contradiction
  | capture id result =>
    obtain ⟨r, found, later⟩ := bind_eq_some_iff.mp taken
    split at later
    · rename_i captured
      cases later
      exact sound_advance sound found (by simp [early, captured]) (fun r' now => by simp [early, now])
    · contradiction
  | throw id message =>
    obtain ⟨r, found, later⟩ := bind_eq_some_iff.mp taken
    split at later
    case h_1 | h_2 =>
      rename_i phase
      cases later
      exact sound_throws sound message found (by simp [early, phase])
    all_goals contradiction
  | finish id ok message =>
    obtain ⟨r, found, later⟩ := bind_eq_some_iff.mp taken
    split at later
    · rename_i result phase
      cases later
      split
      · rename_i done
        exact sound_last sound found result.not_pending (undisturbed done)
      · exact sound_throws sound message found (by simp [early, phase])
    all_goals contradiction
  | markFailed id ok now =>
    obtain ⟨r, found, later⟩ := bind_eq_some_iff.mp taken
    split at later
    case h_1 =>
      rename_i message phase
      cases later
      split
      · rename_i done
        exact sound_last sound found (fun same => by contradiction) (undisturbed done)
      · exact sound_ended sound found (by simp [early, phase])
    all_goals contradiction
  | kill id =>
    obtain ⟨r, found, rfl⟩ := map_eq_some_iff.mp taken
    obtain ⟨mem, own⟩ := mem_find found
    exact sound_ended sound found (undisturbed r mem own)
  | importBundle job =>
    dsimp only [step] at taken
    split at taken
    · contradiction
    rename_i ready
    obtain ⟨fresh, completed⟩ := not_or.mp ready
    obtain ⟨jobs, insert, rfl⟩ := map_eq_some_iff.mp taken
    exact sound_import sound fresh (not_not.mp completed) insert
  | delete id =>
    cases taken
    exact sound_delete sound id
  | select now order =>
    dsimp only [step] at taken
    split at taken
    · rename_i perm
      cases taken
      exact sound_select sound perm
    · contradiction
  | expire id =>
    dsimp only [step] at taken
    split at taken
    · rename_i chosen
      cases taken
      exact sound_expire sound chosen
    · contradiction
  | leave id =>
    dsimp only [step] at taken
    split at taken
    · cases taken
      exact sound_leave sound id
    · contradiction
  | reap now =>
    cases taken
    exact sound_reap sound stuckMs now stuckErr

theorem sound_run (stuckMs : Int) (stuckErr : String) {actions : List Action}
    (guarded : Guarded (step stuckMs stuckErr) Undisturbed .initial actions)
    (run : exec (step stuckMs stuckErr) .initial actions = some s) : Sound s :=
  guarded_invariant (sound_step stuckMs stuckErr) sound_initial guarded run

theorem Sound.cleared (sound : Sound s) (stuckMs now : Int) (stuckErr : String) :
    Cleared stuckMs now (s.reap stuckMs stuckErr now) := by
  intro job mem old lost
  rcases mem_reap.mp mem with ⟨was, notStuck⟩ | ⟨_, _, _, rfl⟩
  · cases status : job.status with
    | pending =>
      obtain ⟨r, there, own, _⟩ := sound.pending job was status
      exact absurd own (lost r there)
    | running => simp [isStuck, status, old] at notStuck
    | completed | partialBundle | failed | expired => rfl
  · rfl

instance decUndisturbed : ∀ (s : Platform) (action : Action), Decidable (Undisturbed s action)
  | s, .kill id => inferInstanceAs (Decidable (∀ r ∈ s.runs.rows, r.id = id → early r = false))
  | _, .reserve _ ok | _, .setRunning _ ok => inferInstanceAs (Decidable (ok = true))
  | s, .finish id ok _ | s, .markFailed id ok _ =>
    inferInstanceAs (Decidable (ok = true → ∀ job ∈ s.jobs.rows, job.id = id → terminal job.status = false))
  | _, .begin _ _ _ _ | _, .capture _ _ | _, .throw _ _ | _, .importBundle _ | _, .delete _
  | _, .select _ _ | _, .expire _ | _, .leave _ | _, .reap _ => isTrue trivial

/-- In every run in which the orchestrators are undisturbed. -/
theorem settled_when_undisturbed (stuckMs : Int) (stuckErr : String) (actions : List Action) (s : Platform)
    (guarded : Guarded (step stuckMs stuckErr) Undisturbed .initial actions)
    (run : exec (step stuckMs stuckErr) .initial actions = some s) : Settled s.log ∧
      ∀ now s', step stuckMs stuckErr s (.reap now) = some s' → Cleared stuckMs now s' := by
  have sound := sound_run stuckMs stuckErr guarded run
  constructor
  · exact sound.settled
  intro now s' taken
  cases taken
  exact sound.cleared stuckMs now stuckErr

def aWorld (startedAt : Int) : World where
  rejects := fun _ => none
  kubernetesNamespace := .ok "tenant-a"
  k8s := true
  platformApiUrl := true
  pvc := .ok true
  filesJob := .ok ⟨1024, 3, some "f00d", []⟩
  configDump := .ok ⟨512, 12, none, []⟩
  secretTypes := .ok ["kubernetes.io/tls"]
  secretsDump := .ok ⟨256, 1, none, []⟩
  mailboxCount := .ok 1
  mailboxesJob := .ok ⟨128, 1, none, ["info@example.org"]⟩
  startedAt := startedAt
  finishedAt := startedAt + 60000
  arrival := componentNames
  arrives := List.Perm.refl componentNames

def aBundle : RunBundleInput := ⟨1, 30, some 1, fun _ => true, none⟩

def captured : Outcome := ⟨⟨.completed, 1920, 60000, [], none⟩, Or.inl rfl⟩

def hour : Int := 3600000

/- one bundle is completed; the orchestrator of another is killed, and its row is reaped -/
def twoBundles : List Action :=
  [.begin 1 (aWorld 0) aBundle false, .reserve 1 true, .begin 2 (aWorld 0) aBundle true,
    .setRunning 1 true, .reserve 2 true, .setRunning 2 true, .kill 2, .capture 1 captured,
    .finish 1 true "", .reap (2 * hour)]

theorem settled_when_undisturbed_two : ∃ s s', exec (step hour "stuck") .initial twoBundles = some s ∧
      step hour "stuck" s (.reap (3 * hour)) = some s' ∧ Settled s.log ∧ Cleared hour (3 * hour) s' := by
  refine ⟨_, _, rfl, rfl, ?_⟩
  have settled := settled_when_undisturbed hour "stuck" twoBundles _ (by decide) rfl
  exact ⟨settled.1, settled.2 (3 * hour) _ rfl⟩

/- reserveBundle throws -/
def unreserved : List Action := [.begin 1 (aWorld 0) aBundle false, .reserve 1 false]

/- the bundle takes longer than the cutoff, and is completed after it was reaped -/
def slowBundle : List Action :=
  [.begin 1 (aWorld 0) aBundle false, .reserve 1 true, .setRunning 1 true, .reap (2 * hour),
    .capture 1 captured, .finish 1 true ""]

/-- A bundle that was not reserved stays pending, and a bundle that was reaped is completed. -/
theorem stays_pending_and_reopened : (¬ ∀ actions s, exec (step hour "stuck") .initial actions = some s →
      ∀ now s', step hour "stuck" s (.reap now) = some s' → Cleared hour now s') ∧
      ¬ ∀ actions s, exec (step hour "stuck") .initial actions = some s → Settled s.log := by
  constructor
  · intro cleared
    have pending := cleared unreserved _ rfl (2 * hour) _ rfl (newJob (aWorld 0) 1 aBundle)
      (mem_cons_self ..) (by decide) (by decide)
    contradiction
  · intro settled
    have reopened := rel_of_pairwise_cons (settled slowBundle _ rfl) (mem_cons_self ..) rfl rfl rfl rfl rfl
    contradiction

end HostingPlatform.TenantBundles.StatusWrites
