import HostingPlatform.CronJobs.Scheduler

/-! The executions of the jobs along a run: one at a time, not before the job is due again, and
none is left out. -/
namespace HostingPlatform.CronJobs

open Table List Js Transition

def lastEnd (jobId : Nat) : List Event → Option Int
  | [] => none
  | .started _ _ :: earlier => lastEnd jobId earlier
  | .ended other time :: earlier => if other = jobId then some time else lastEnd jobId earlier

def Spaced (jobs : Jobs) : List Event → Prop
  | [] => True
  | .started jobId time :: earlier =>
    (∀ job ∈ jobs.rows, job.id = jobId → ∀ last ∈ lastEnd jobId earlier,
      due job.schedule (some last) time = true) ∧ Spaced jobs earlier
  | .ended _ _ :: earlier => Spaced jobs earlier

def Idle (w : World) (jobId : Nat) : Prop := ∀ e ∈ w.executions.rows, e.jobId ≠ jobId

def Completed (w : World) (pollId : Nat) : Prop :=
  ∃ p ∈ w.polls.rows, p.id = pollId ∧ p.remaining = [] ∧ p.stopped = false

/-- A poll that begins here and goes through finds every job that is due and idle claimed, by itself
or by another. -/
def Claims (w : World) : Prop :=
  ∀ job ∈ webcrons w.jobs, due job.schedule job.lastRunAt w.clock = true → Idle w job.id →
    ∀ (pollId : Nat) (actions : List Action) (after : World),
      exec step w (.poll pollId :: actions) = some after → Completed after pollId →
        ∃ later time, after.log = later ++ w.log ∧ .started job.id time ∈ later

structure Orderly (w : World) : Prop where
  apart : (w.executions.rows.map Execution.jobId).Nodup
  spaced : Spaced w.jobs w.log
  claims : Claims w

/-- The rows and the log agree, an execution in progress has its row, and of the webcron jobs each has
a status, with an execution where it is running. -/
structure Sound (w : World) : Prop where
  apart : (w.executions.rows.map Execution.jobId).Nodup
  spaced : Spaced w.jobs w.log
  held : ∀ e ∈ w.executions, ∃ job ∈ w.jobs, job.id = e.jobId ∧ job.lastRunStatus = some .running
  ends : ∀ job ∈ w.jobs, job.lastRunStatus ≠ some .running → lastEnd job.id w.log = job.lastRunAt
  results : ∀ e ∈ w.executions, ∀ result ∈ e.result, lastEnd e.jobId w.log = some result.1
  ready : ∀ job ∈ webcrons w.jobs, job.lastRunStatus ≠ none ∧
    (job.lastRunStatus = some .running → ¬ Idle w job.id)

/-- What a poll claims is still due on the row as it is now, and no execution is lost. -/
def Safe (w : World) : Action → Prop
  | .next pollId _ => ∀ p ∈ w.polls.rows, p.id = pollId → p.stopped = false → ∀ job ∈ p.remaining.head?,
      due job.schedule job.lastRunAt p.now = true → job.lastRunStatus ≠ some .running →
        ∀ row ∈ w.jobs.rows, claimable job.id row = true → due row.schedule row.lastRunAt w.clock = true
  | .die executionId => ∀ e ∈ w.executions.rows, e.id ≠ executionId
  | _ => True

theorem Spaced.mono {jobs jobs' : Jobs} {log : List Event}
    (same : ∀ row ∈ jobs', ∃ job ∈ jobs, job.id = row.id ∧ job.schedule = row.schedule)
    (spaced : Spaced jobs log) : Spaced jobs' log := by
  induction log with
  | nil => trivial
  | cons event earlier ih =>
    cases event with
    | started jobId time =>
      refine ⟨fun row mem its last ended => ?_, ih spaced.2⟩
      obtain ⟨job, there, id, schedule⟩ := same row mem
      rw [← schedule]
      exact spaced.1 job there (id.trans its) last ended
    | ended jobId time => exact ih spaced

variable {job row : CronJob} {w after : World} {rest : List CronJob} {executionId pollId : Nat}
  {e : Execution} {ok : Bool} {action : Action}

theorem mem_webcrons {jobs : Jobs} : job ∈ webcrons jobs ↔ job ∈ jobs ∧ job.type = .webcron ∧ job.enabled = 1 := by
  simp [webcrons, mem_selectAll]

theorem claimable_iff {jobId : Nat} : claimable jobId row = true ↔ row.id = jobId ∧
      row.lastRunStatus ≠ none ∧ row.lastRunStatus ≠ some .running := by
  unfold claimable
  rw [Bool.and_eq_true, beq_iff_eq]
  refine and_congr_right fun _ => ?_
  cases row.lastRunStatus with
  | none => simp
  | some status => simp

theorem visit_cases {p : Poll} (visited : visit w p job rest executionId = some after) : (after = { w with
        polls := w.polls.update (fun q => q.id == p.id) (advance rest) (advance_id rest) } ∧
      (due job.schedule job.lastRunAt p.now = true → job.lastRunStatus ≠ some .running →
        ∀ row ∈ w.jobs.rows, claimable job.id row = false)) ∨
    (due job.schedule job.lastRunAt p.now = true ∧ job.lastRunStatus ≠ some .running ∧
      (∃ row ∈ w.jobs.rows, claimable job.id row = true) ∧
      ∃ executions, w.executions.insert ⟨executionId, job.id, none⟩ = some executions ∧
        after =
          { clock := w.clock
            jobs := w.jobs.update (claimable job.id) claimed claimed_id
            polls := w.polls.update (fun q => q.id == p.id) (advance rest) (advance_id rest)
            executions
            log := .started job.id w.clock :: w.log }) := by
  unfold visit at visited
  split at visited
  · rename_i early
    refine .inl ⟨(Option.some.inj visited).symm, fun now => ?_⟩
    rw [now] at early
    cases early
  rename_i now
  split at visited
  · rename_i running
    exact .inl ⟨(Option.some.inj visited).symm, fun _ other => absurd running other⟩
  rename_i other
  split at visited
  · rename_i found
    obtain ⟨executions, inserted, same⟩ := Option.map_eq_some_iff.mp visited
    refine .inr ⟨by simpa using now, other, any_eq_true.mp found, executions, inserted, same.symm⟩
  · rename_i nothing
    refine .inl ⟨(Option.some.inj visited).symm, fun _ _ row mem => ?_⟩
    rw [Bool.eq_false_iff]
    exact fun is => nothing (any_eq_true.mpr ⟨row, mem, is⟩)

theorem Sound.jobs_apart (sound : Sound w) {x : Execution} (mem : e ∈ w.executions)
    (mem' : x ∈ w.executions) (same : x.jobId = e.jobId) : x = e :=
  inj_on_of_nodup_map sound.apart mem' mem same

theorem Sound.onward (sound : Sound w) (clock : Int) (polls : Table Poll Poll.id) : Sound { w with clock, polls } :=
  ⟨sound.apart, sound.spaced, sound.held, sound.ends, sound.results, sound.ready⟩

theorem Sound.claim {executions : Table Execution Execution.id} (sound : Sound w) (mem : row ∈ w.jobs)
    (is : claimable job.id row = true) (still : due row.schedule row.lastRunAt w.clock = true)
    (inserted : w.executions.insert ⟨executionId, job.id, none⟩ = some executions) (polls : Table Poll Poll.id) : Sound
      { clock := w.clock
        jobs := w.jobs.update (claimable job.id) claimed claimed_id
        polls
        executions
        log := .started job.id w.clock :: w.log } := by
  obtain ⟨its, some, stopped⟩ := claimable_iff.mp is
  have only : ∀ other ∈ w.jobs, other.id = job.id → other = row :=
    fun other there key => w.jobs.eq_of_key there mem (key.trans its.symm)
  have idle : ∀ e ∈ w.executions, e.jobId ≠ job.id := by
    intro e there same
    obtain ⟨held, memHeld, id, running⟩ := sound.held e there
    rw [only held memHeld (id.trans same)] at running
    exact stopped running
  have rows := rows_insert inserted
  constructor
  · rw [rows, map_cons, nodup_cons]
    refine ⟨fun again => ?_, sound.apart⟩
    obtain ⟨e, there, same⟩ := mem_map.mp again
    exact idle e there same
  · have same : ∀ other ∈ w.jobs.update (claimable job.id) claimed claimed_id,
        ∃ old ∈ w.jobs, old.id = other.id ∧ old.schedule = other.schedule := by
      intro other there
      rcases (mem_update claimed_id).mp there with ⟨old, _⟩ | ⟨old, memOld, _, rfl⟩
      · exact ⟨other, old, rfl, rfl⟩
      · exact ⟨old, memOld, rfl, rfl⟩
    refine ⟨fun other there key last ended => ?_, sound.spaced.mono same⟩
    obtain ⟨old, memOld, id, schedule⟩ := same other there
    rw [← schedule, only old memOld (id.trans key)]
    have before := sound.ends row mem stopped
    rw [its, Option.mem_def.mp ended] at before
    rwa [← before] at still
  · intro e there
    rcases (mem_insert inserted).mp there with rfl | old
    · exact ⟨claimed row, (mem_update claimed_id).mpr (.inr ⟨row, mem, is, rfl⟩), its, rfl⟩
    obtain ⟨held, memHeld, id, running⟩ := sound.held e old
    refine ⟨held, (mem_update claimed_id).mpr (.inl ⟨memHeld, ?_⟩), id, running⟩
    rw [Bool.eq_false_iff]
    exact fun other => (claimable_iff.mp other).2.2 running
  · intro other there quiet
    rcases (mem_update claimed_id).mp there with ⟨old, _⟩ | ⟨old, _, _, rfl⟩
    · exact sound.ends other old quiet
    · exact absurd rfl quiet
  · intro e there result known
    rcases (mem_insert inserted).mp there with rfl | old
    · cases known
    · exact sound.results e old result known
  intro other there
  obtain ⟨there, webcron⟩ := mem_webcrons.mp there
  rcases (mem_update claimed_id).mp there with ⟨old, _⟩ | ⟨old, memOld, isOld, rfl⟩
  · obtain ⟨status, busy⟩ := sound.ready other (mem_webcrons.mpr ⟨old, webcron⟩)
    refine ⟨status, fun running quiet => busy running (fun e mem => ?_)⟩
    exact quiet e (rows ▸ mem_cons_of_mem _ mem)
  · refine ⟨Option.some_ne_none _, fun _ quiet => ?_⟩
    exact quiet ⟨executionId, job.id, none⟩ (rows ▸ mem_cons_self) (claimable_iff.mp isOld).1.symm

theorem Sound.respond (sound : Sound w) (mem : e ∈ w.executions) (its : e.id = executionId) : Sound
      { w with
        executions := w.executions.update (fun x => x.id == executionId) (respond (w.clock, ok)) (respond_id _)
        log := .ended e.jobId w.clock :: w.log } := by
  have same : ∀ x ∈ w.executions.update (fun x => x.id == executionId)
      (CronJobs.respond (w.clock, ok)) (respond_id _),
        x ∈ w.executions ∧ x.id ≠ executionId ∨ x = CronJobs.respond (w.clock, ok) e := by
    intro x there
    rcases (mem_update (respond_id _)).mp there with ⟨old, other⟩ | ⟨old, memOld, is, rfl⟩
    · exact .inl ⟨old, by simpa using other⟩
    · rw [w.executions.eq_of_key memOld mem ((beq_iff_eq.mp is).trans its.symm)]
      exact .inr rfl
  have others : ∀ jobId, jobId ≠ e.jobId → lastEnd jobId (.ended e.jobId w.clock :: w.log) = lastEnd jobId w.log :=
    fun jobId differs => if_neg (fun back => differs back.symm)
  constructor
  · have column : (w.executions.update (fun x => x.id == executionId)
        (CronJobs.respond (w.clock, ok)) (respond_id _)).rows.map Execution.jobId =
          w.executions.rows.map Execution.jobId := by
      have kept : Execution.jobId ∘ apply (fun x => x.id == executionId)
          (CronJobs.respond (w.clock, ok)) = Execution.jobId :=
        funext (apply_column Execution.jobId _ _ (fun _ => rfl))
      simp [update, kept]
    rw [column]
    exact sound.apart
  · exact sound.spaced
  · intro x there
    rcases same x there with ⟨old, _⟩ | rfl
    · exact sound.held x old
    · exact sound.held e mem
  · intro job there quiet
    obtain ⟨held, memHeld, id, running⟩ := sound.held e mem
    have differs : job.id ≠ e.jobId := by
      intro back
      rw [w.jobs.eq_of_key there memHeld (back.trans id.symm)] at quiet
      exact quiet running
    rw [others job.id differs]
    exact sound.ends job there quiet
  · intro x there result known
    rcases same x there with ⟨old, apart⟩ | rfl
    · have differs : x.jobId ≠ e.jobId := by
        intro back
        rw [sound.jobs_apart mem old back] at apart
        exact apart its
      rw [others x.jobId differs]
      exact sound.results x old result known
    · rw [← Option.some.inj known]
      exact if_pos rfl
  · intro job there
    obtain ⟨status, busy⟩ := sound.ready job there
    refine ⟨status, fun running quiet => busy running (fun x old => ?_)⟩
    have kept := quiet _ (apply_mem_update (t := w.executions) (p := fun x => x.id == executionId)
      (f := CronJobs.respond (w.clock, ok)) (respond_id _) old)
    rwa [apply_column Execution.jobId _ (CronJobs.respond (w.clock, ok)) (fun _ => rfl)] at kept

theorem Sound.record {result : Int × Bool} (sound : Sound w) (mem : e ∈ w.executions)
    (its : e.id = executionId) (known : e.result = some result) : Sound
      { w with
        jobs := w.jobs.update (fun row => row.id == e.jobId) (recorded result) (recorded_id result)
        executions := w.executions.delete (fun x => x.id == executionId) } := by
  have left : ∀ x ∈ w.executions.delete (fun x => x.id == executionId),
      x ∈ w.executions ∧ x.jobId ≠ e.jobId := by
    intro x there
    obtain ⟨old, other⟩ := mem_delete.mp there
    refine ⟨old, fun back => ?_⟩
    rw [sound.jobs_apart mem old back] at other
    simp [its] at other
  have rows : ∀ job ∈ w.jobs.update (fun row => row.id == e.jobId) (recorded result) (recorded_id result),
      (job ∈ w.jobs ∧ job.id ≠ e.jobId) ∨ ∃ old ∈ w.jobs, old.id = e.jobId ∧ recorded result old = job := by
    intro job there
    rcases (mem_update (recorded_id result)).mp there with ⟨old, other⟩ | ⟨old, memOld, is, rfl⟩
    · exact .inl ⟨old, by simpa using other⟩
    · exact .inr ⟨old, memOld, beq_iff_eq.mp is, rfl⟩
  constructor
  · exact sound.apart.sublist (filter_sublist.map _)
  · refine sound.spaced.mono (fun job there => ?_)
    rcases rows job there with ⟨old, _⟩ | ⟨old, memOld, _, rfl⟩
    · exact ⟨job, old, rfl, rfl⟩
    · exact ⟨old, memOld, rfl, rfl⟩
  · intro x there
    obtain ⟨old, differs⟩ := left x there
    obtain ⟨held, memHeld, id, running⟩ := sound.held x old
    refine ⟨held, (mem_update (recorded_id result)).mpr (.inl ⟨memHeld, ?_⟩), id, running⟩
    simpa [id] using differs
  · intro job there quiet
    rcases rows job there with ⟨old, _⟩ | ⟨old, memOld, is, rfl⟩
    · exact sound.ends job old quiet
    have last := sound.results e mem result known
    rw [← is] at last
    exact last
  · intro x there
    exact sound.results x (left x there).1
  intro job there
  obtain ⟨there, webcron⟩ := mem_webcrons.mp there
  rcases rows job there with ⟨old, differs⟩ | ⟨old, memOld, is, rfl⟩
  · obtain ⟨status, busy⟩ := sound.ready job (mem_webcrons.mpr ⟨old, webcron⟩)
    refine ⟨status, fun running quiet => busy running (fun x there' same => ?_)⟩
    refine quiet x (mem_delete.mpr ⟨there', ?_⟩) same
    have other : x.id ≠ executionId := by
      intro back
      rw [w.executions.eq_of_key there' mem (back.trans its.symm)] at same
      exact differs same.symm
    simpa using other
  · refine ⟨Option.some_ne_none _, fun running => ?_⟩
    have ended := Option.some.inj running
    split at ended <;> cases ended

theorem next_cases (taken : step w (.next pollId executionId) = some after) :
    ∃ p ∈ w.polls, p.id = pollId ∧ p.stopped = false ∧
      ∃ job rest, p.remaining = job :: rest ∧ visit w p job rest executionId = some after := by
  simp only [step] at taken
  split at taken
  · cases taken
  rename_i p found
  obtain ⟨mem, its⟩ := mem_of_select found
  simp only [Bool.and_eq_true, beq_iff_eq, Bool.not_eq_true'] at its
  split at taken
  · cases taken
  · rename_i job rest remaining
    exact ⟨p, mem, its.1, its.2, job, rest, remaining, taken⟩

theorem respond_cases (taken : step w (.respond executionId ok) = some after) : ∃ e ∈ w.executions, e.id = executionId ∧
      after =
        { w with
          executions := w.executions.update (fun x => x.id == executionId) (respond (w.clock, ok)) (respond_id _)
          log := .ended e.jobId w.clock :: w.log } := by
  simp only [step] at taken
  split at taken
  · cases taken
  rename_i e found
  obtain ⟨mem, its⟩ := mem_of_select found
  rw [Bool.and_eq_true, beq_iff_eq] at its
  exact ⟨e, mem, its.1, (Option.some.inj taken).symm⟩

theorem record_cases (taken : step w (.record executionId) = some after) :
    ∃ e ∈ w.executions, e.id = executionId ∧ ∃ result, e.result = some result ∧
      after =
        { w with
          jobs := w.jobs.update (fun row => row.id == e.jobId) (recorded result) (recorded_id result)
          executions := w.executions.delete (fun x => x.id == executionId) } := by
  simp only [step] at taken
  split at taken
  · cases taken
  rename_i e found
  obtain ⟨mem, its⟩ := mem_of_select found
  obtain ⟨result, known, same⟩ := Option.map_eq_some_iff.mp taken
  exact ⟨e, mem, beq_iff_eq.mp its, result, known, same.symm⟩

theorem Sound.step (sound : Sound w) (safe : Safe w action) (taken : step w action = some after) : Sound after := by
  cases action with
  | wait ms =>
    rw [← Option.some.inj taken]
    exact sound.onward _ w.polls
  | poll id =>
    obtain ⟨polls, _, rfl⟩ := Option.map_eq_some_iff.mp taken
    exact sound.onward w.clock polls
  | next pollId executionId =>
    obtain ⟨p, mem, its, runs, job, rest, remaining, visited⟩ := next_cases taken
    rcases visit_cases visited with ⟨rfl, _⟩ | ⟨now, quiet, ⟨row, there, is⟩, executions, inserted, rfl⟩
    · exact sound.onward w.clock _
    · have still := safe p mem its runs job (by simp [remaining]) now quiet row there is
      exact sound.claim there is still inserted _
  | respond executionId ok =>
    obtain ⟨e, mem, its, rfl⟩ := respond_cases taken
    exact sound.respond mem its
  | record executionId =>
    obtain ⟨e, mem, its, result, known, rfl⟩ := record_cases taken
    exact sound.record mem its known
  | stop pollId =>
    rw [← Option.some.inj taken]
    exact sound.onward w.clock _
  | die executionId =>
    rw [← Option.some.inj taken]
    have same : w.executions.delete (fun x => x.id == executionId) = w.executions := by
      have all : w.executions.rows.filter (fun x => !(x.id == executionId)) = w.executions.rows :=
        filter_eq_self.mpr (fun e mem => by simpa using safe e mem)
      simp [delete, all]
    rw [same]
    exact sound.onward w.clock w.polls

/-- Since the poll has begun the job has been claimed, or it is still to be looked at and as it was. -/
def Pending (start : World) (pollId : Nat) (job : CronJob) (w : World) : Prop :=
  ∃ later, w.log = later ++ start.log ∧
    ((∃ time, .started job.id time ∈ later) ∨
      job ∈ w.jobs ∧ Idle w job.id ∧
        ∃ p ∈ w.polls, p.id = pollId ∧ p.now = start.clock ∧ job ∈ p.remaining)

theorem log_grows (taken : step w action = some after) : ∃ more, after.log = more ++ w.log := by
  cases action with
  | wait ms | stop pollId | die executionId =>
    cases taken
    exact ⟨[], rfl⟩
  | poll id =>
    obtain ⟨polls, _, rfl⟩ := Option.map_eq_some_iff.mp taken
    exact ⟨[], rfl⟩
  | next pollId executionId =>
    obtain ⟨p, _, _, _, job, rest, _, visited⟩ := next_cases taken
    rcases visit_cases visited with ⟨rfl, _⟩ | ⟨_, _, _, executions, _, rfl⟩
    · exact ⟨[], rfl⟩
    · exact ⟨[.started job.id w.clock], rfl⟩
  | respond executionId ok =>
    obtain ⟨e, _, _, rfl⟩ := respond_cases taken
    exact ⟨[.ended e.jobId w.clock], rfl⟩
  | record executionId =>
    obtain ⟨e, _, _, result, _, rfl⟩ := record_cases taken
    exact ⟨[], rfl⟩

theorem remains_after_visit {p q : Poll} {head : CronJob} (mem : p ∈ w.polls) (visiting : q ∈ w.polls)
    (remaining : q.remaining = head :: rest) (there : job ∈ p.remaining) (later : p = q → job ≠ head) :
    ∃ p' ∈ w.polls.update (fun x => x.id == q.id) (advance rest) (advance_id rest),
      p'.id = p.id ∧ p'.now = p.now ∧ job ∈ p'.remaining := by
  by_cases same : p.id = q.id
  · have is := w.polls.eq_of_key mem visiting same
    refine ⟨advance rest p, (mem_update _).mpr (.inr ⟨p, mem, by simpa using same, rfl⟩), rfl, rfl, ?_⟩
    rw [is, remaining] at there
    exact (mem_cons.mp there).resolve_left (later is)
  · exact ⟨p, (mem_update _).mpr (.inl ⟨mem, by simpa using same⟩), rfl, rfl, there⟩

theorem pending_step {start : World} (now : due job.schedule job.lastRunAt start.clock = true)
    (status : job.lastRunStatus ≠ none) (quiet : job.lastRunStatus ≠ some .running)
    (pending : Pending start pollId job w) (taken : step w action = some after) : Pending start pollId job after := by
  obtain ⟨later, log, claimed | ⟨row, idle, p, mem, its, began, there⟩⟩ := pending
  · obtain ⟨more, grown⟩ := log_grows taken
    obtain ⟨time, started⟩ := claimed
    refine ⟨more ++ later, by rw [grown, log, append_assoc], .inl ⟨time, ?_⟩⟩
    exact mem_append_right _ started
  cases action with
  | wait ms =>
    cases taken
    exact ⟨later, log, .inr ⟨row, idle, p, mem, its, began, there⟩⟩
  | poll id =>
    obtain ⟨polls, inserted, rfl⟩ := Option.map_eq_some_iff.mp taken
    exact ⟨later, log, .inr ⟨row, idle, p, (mem_insert inserted).mpr (.inr mem), its, began, there⟩⟩
  | next otherId executionId =>
    obtain ⟨q, visiting, _, _, head, rest, remaining, visited⟩ := next_cases taken
    rcases visit_cases visited with ⟨rfl, passed⟩ | ⟨_, _, _, executions, inserted, rfl⟩
    · have apart : p = q → job ≠ head := by
        rintro rfl rfl
        rw [began] at passed
        have refused := passed now quiet job row
        rw [claimable_iff.mpr ⟨rfl, status, quiet⟩] at refused
        cases refused
      obtain ⟨p', mem', id, same, still⟩ := remains_after_visit mem visiting remaining there apart
      exact ⟨later, log, .inr ⟨row, idle, p', mem', id.trans its, same.trans began, still⟩⟩
    · by_cases this : head.id = job.id
      · refine ⟨.started job.id w.clock :: later, ?_, .inl ⟨w.clock, mem_cons_self⟩⟩
        rw [this, log]
        rfl
      have apart : p = q → job ≠ head := by
        rintro _ rfl
        exact this rfl
      obtain ⟨p', mem', id, same, still⟩ := remains_after_visit mem visiting remaining there apart
      refine ⟨.started head.id w.clock :: later, by rw [log]; rfl, .inr ⟨?_, ?_, p', mem', id.trans its,
        same.trans began, still⟩⟩
      · refine (mem_update claimed_id).mpr (.inl ⟨row, Bool.eq_false_iff.mpr ?_⟩)
        exact fun is => this (claimable_iff.mp is).1.symm
      intro e has
      rcases (mem_insert inserted).mp has with rfl | old
      · exact this
      · exact idle e old
  | respond executionId ok =>
    obtain ⟨e, _, _, rfl⟩ := respond_cases taken
    refine ⟨.ended e.jobId w.clock :: later, by rw [log]; rfl, .inr ⟨row, ?_, p, mem, its, began, there⟩⟩
    intro x has
    rcases (mem_update (respond_id _)).mp has with ⟨old, _⟩ | ⟨old, memOld, _, rfl⟩
    · exact idle x old
    · exact idle old memOld
  | record executionId =>
    obtain ⟨e, busy, _, result, _, rfl⟩ := record_cases taken
    have other := idle e busy
    refine ⟨later, log, .inr ⟨?_, fun x has => idle x (mem_delete.mp has).1, p, mem, its, began, there⟩⟩
    exact (mem_update (recorded_id result)).mpr (.inl ⟨row, by simpa using other.symm⟩)
  | stop otherId =>
    cases taken
    refine ⟨later, log, .inr ⟨row, idle, ?_⟩⟩
    by_cases this : p.id = otherId
    · exact ⟨halt p, (mem_update halt_id).mpr (.inr ⟨p, mem, by simpa using this, rfl⟩), its, began, there⟩
    · exact ⟨p, (mem_update halt_id).mpr (.inl ⟨mem, by simpa using this⟩), its, began, there⟩
  | die executionId =>
    cases taken
    exact ⟨later, log, .inr ⟨row, fun x has => idle x (mem_delete.mp has).1, p, mem, its, began, there⟩⟩

theorem Sound.claims (sound : Sound w) : Claims w := by
  intro job mem now idle pollId actions after run completed
  obtain ⟨status, busy⟩ := sound.ready job mem
  have quiet : job.lastRunStatus ≠ some .running := fun running => busy running idle
  obtain ⟨first, begun, rest⟩ := exec_cons run
  obtain ⟨polls, inserted, rfl⟩ := Option.map_eq_some_iff.mp begun
  have pending : Pending w pollId job { w with polls } := by
    refine ⟨[], rfl, .inr ⟨(mem_webcrons.mp mem).1, idle, ⟨pollId, w.clock, webcrons w.jobs, false⟩, ?_, rfl,
      rfl, mem⟩⟩
    exact (mem_insert inserted).mpr (.inl rfl)
  have always : ∀ (u : World) (a : Action), (fun (_ : World) (_ : Action) => True) u a := fun _ _ => trivial
  obtain ⟨later, log, claimed | ⟨_, _, p, there, its, _, remains⟩⟩ :=
    guarded_invariant (fun u a v pending _ taken => pending_step now status quiet pending taken) pending
      (guarded_of_forall always _ actions) rest
  · obtain ⟨time, started⟩ := claimed
    exact ⟨later, time, log, started⟩
  obtain ⟨q, visited, is, nothing, _⟩ := completed
  rw [after.polls.eq_of_key there visited (its.trans is.symm), nothing] at remains
  cases remains

instance decSpaced (jobs : Jobs) : ∀ log, Decidable (Spaced jobs log)
  | [] => isTrue trivial
  | .started jobId time :: earlier =>
    have _ := decSpaced jobs earlier
    inferInstanceAs (Decidable ((∀ job ∈ jobs.rows, job.id = jobId → ∀ last ∈ lastEnd jobId earlier,
      due job.schedule (some last) time = true) ∧ Spaced jobs earlier))
  | .ended _ _ :: earlier => decSpaced jobs earlier

instance (w : World) : ∀ action, Decidable (Safe w action)
  | .next pollId _ => inferInstanceAs (Decidable (∀ p ∈ w.polls.rows, p.id = pollId → p.stopped = false →
      ∀ job ∈ p.remaining.head?, _ → _ → ∀ row ∈ w.jobs.rows, _ → due row.schedule row.lastRunAt w.clock = true))
  | .die executionId => inferInstanceAs (Decidable (∀ e ∈ w.executions.rows, e.id ≠ executionId))
  | .wait _ | .poll _ | .respond _ _ | .record _ | .stop _ => isTrue trivial

/-- From a sound start, as long as no execution is lost and every claim is due on the row as it is
by then, the jobs run in order and none is left out. -/
theorem orderly_throughout {start : World} {actions : List Action} (sound : Sound start)
    (safe : Guarded step Safe start actions) : Always step Orderly start actions := by
  rintro front back after rfl reached
  have sound := guarded_invariant (fun w a v sound safe taken => sound.step safe taken) sound safe.front reached
  exact ⟨sound.apart, sound.spaced, sound.claims⟩

/- ten minutes after the epoch, with one job every five minutes -/
def oneJob (lastRunAt : Option Int) (lastRunStatus : Option LastRunStatus) (log : List Event) : World where
  clock := 600000
  jobs := ⟨[⟨1, .webcron, "*/5 * * * *", 1, lastRunAt, lastRunStatus⟩], by simp⟩
  polls := .empty
  executions := .empty
  log := log

def ranBefore : World := oneJob (some 0) (some .success) [.ended 1 0]

theorem ranBefore_sound : Sound ranBefore where
  apart := by decide
  spaced := trivial
  held := fun _ mem => nomatch mem
  ends := by
    intro job mem _
    cases mem_singleton.mp mem
    rfl
  results := fun _ mem => nomatch mem
  ready := by
    intro job mem
    cases mem_singleton.mp (mem_webcrons.mp mem).1
    exact ⟨nofun, nofun⟩

theorem orderly_for_a_while : Always step Orderly ranBefore
      [.poll 1, .next 1 10, .wait 1000, .respond 10 true, .poll 2, .next 2 11, .record 10, .wait 300000,
        .poll 3, .next 3 11] :=
  orderly_throughout ranBefore_sound (by decide +kernel)

/-- A job that has never run is never claimed, and one that another poll has claimed and run since it
was read runs again at once. -/
theorem left_out_or_repeated : ¬ Orderly (oneJob none none []) ∧
      ¬ Always step Orderly ranBefore
        [.poll 1, .poll 2, .next 1 10, .wait 1000, .respond 10 true, .record 10, .next 2 11] := by
  constructor
  · intro orderly
    have through : (exec step (oneJob none none []) [.poll 1, .next 1 10]).any
        (fun w => w.log = [] && w.polls.rows.any (fun p => p.id == 1 && p.remaining == [] && !p.stopped)) := by
      decide +kernel
    obtain ⟨after, run, both⟩ := (Option.any_eq_true _ _).mp through
    simp only [Bool.and_eq_true, decide_eq_true_eq, any_eq_true, beq_iff_eq, Bool.not_eq_true'] at both
    obtain ⟨log, p, mem, ⟨its, nothing⟩, runs⟩ := both
    obtain ⟨later, time, grown, started⟩ := orderly.claims ⟨1, .webcron, "*/5 * * * *", 1, none, none⟩
      (by decide) (by decide +kernel) (fun _ mem => nomatch mem) 1 [.next 1 10] after run
        ⟨p, mem, its, nothing, runs⟩
    rw [log] at grown
    rw [(append_eq_nil_iff.mp grown.symm).1] at started
    cases started
  · intro always
    have reached : (exec step ranBefore
        [.poll 1, .poll 2, .next 1 10, .wait 1000, .respond 10 true, .record 10, .next 2 11]).any
          (fun w => !decide (Spaced w.jobs w.log)) = true := by
      decide +kernel
    obtain ⟨w, run, apart⟩ := (Option.any_eq_true _ _).mp reached
    rw [Bool.not_eq_true', decide_eq_false_iff_not] at apart
    exact apart (always _ [] w (append_nil _).symm run).spaced

end HostingPlatform.CronJobs
