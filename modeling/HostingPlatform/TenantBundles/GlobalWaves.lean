import HostingPlatform.Calendar
import HostingPlatform.TenantBundles.Failures
import HostingPlatform.TenantBundles.Schedule

/-! When the global wave is started. A tick goes by the minute and the hour of the expression, within
five minutes of that time of day, and takes the time of the last write to the row for the last wave;
the row is written when the wave has ended. -/
namespace HostingPlatform.TenantBundles.GlobalScheduler

open Table List Interleaving Transition
open Scheduler (runOneScheduledBundle)

abbrev WaveWorld := World Db Task Response

structure Wave where
  (now fire : Nat)
  schedule : BackupSchedule
  deriving DecidableEq

def Task.wave : Task → Option Wave
  | .tick _ => none
  | .eligible now fire schedule | .bundle now fire schedule .. | .mark now fire schedule _ =>
    some ⟨now, fire, schedule⟩

/- the wave that a statement starts: the tenants are there -/
def waveOf (e : Event Db Task Response) : Option Wave :=
  match e.task, e.outcome with
  | .eligible now fire schedule, .next _ => some ⟨now, fire, schedule⟩
  | _, _ => none

def waves (w : WaveWorld) : List Wave := w.log.filterMap waveOf

/- what lets a tick fire, as its SELECT has read it -/
structure Justified (w : WaveWorld) (wave : Wave) : Prop where
  read : ∃ e ∈ w.log, e.task = .tick wave.now ∧ e.before.schedule = some wave.schedule
  enabled : wave.schedule.enabled = true
  cron : ∃ expr cron, wave.schedule.cronExpression = some expr ∧ parseSimpleCron expr = some cron ∧
    wave.fire = cron.fire wave.now
  window : wave.now ≤ wave.fire + windowMs ∧ wave.fire ≤ wave.now + windowMs
  fresh : wave.schedule.updatedAt + windowMs < wave.fire

/-- A tick whose row fires has started the wave, is about to, or its query has thrown. -/
def Answered (w : WaveWorld) (wave : Wave) : Prop :=
  wave ∈ waves w ∨ (∃ p ∈ w.running, p.task = .eligible wave.now wave.fire wave.schedule) ∨
    ∃ e ∈ w.log, e.task = .eligible wave.now wave.fire wave.schedule ∧ e.before.failure.isSome = true

structure Founded (w : WaveWorld) : Prop where
  waves : ∀ wave ∈ waves w, Justified w wave
  underWay : ∀ p ∈ w.running, ∀ wave ∈ p.task.wave, Justified w wave
  answered : ∀ e ∈ w.log, ∀ now, e.task = .tick now → e.before.failure = none →
    ∀ schedule ∈ e.before.schedule, ∀ fire ∈ fires schedule now, Answered w ⟨now, fire, schedule⟩

variable {schedule : BackupSchedule} {db : Db} {task : Task} {w : WaveWorld} {p : Process Task}

theorem fires_iff {now fire : Nat} : fires schedule now = some fire ↔ schedule.enabled = true ∧
      ∃ expr cron, schedule.cronExpression = some expr ∧ expr ≠ "" ∧ parseSimpleCron expr = some cron ∧
        fire = cron.fire now ∧ (now ≤ fire + windowMs ∧ fire ≤ now + windowMs) ∧
        schedule.updatedAt + windowMs < fire := by
  by_cases enabled : schedule.enabled = true
  · simp only [fires, if_pos enabled, Option.bind_eq_some_iff, Option.filter_eq_some_iff, shouldFireNow,
      decide_eq_true_eq, Option.ite_none_right_eq_some, Option.some.injEq]
    constructor
    · rintro ⟨expr, ⟨has, nonempty⟩, cron, parsed, ⟨before, after, fresh⟩, rfl⟩
      exact ⟨enabled, expr, cron, has, nonempty, parsed, rfl, ⟨before, after⟩, fresh⟩
    · rintro ⟨_, expr, cron, has, nonempty, parsed, rfl, ⟨before, after⟩, fresh⟩
      exact ⟨expr, ⟨has, nonempty⟩, cron, parsed, ⟨before, after, fresh⟩, rfl⟩
  · simp [fires, enabled]

theorem attempt_next {db' : Db} {outcome : Outcome Task Response}
    (next : (attempt db (db', outcome)).2 = .next task) : db.failure = none ∧ outcome = .next task := by
  unfold attempt at next
  split at next
  · cases next
  · rename_i calm
    exact ⟨calm, next⟩

theorem wave_next {now fire : Nat} {rest : List Nat} {result : TickResult}
    (next : wave now fire schedule rest result = .next task) :
    task.wave = some ⟨now, fire, schedule⟩ ∧ ∀ now' fire' schedule', task ≠ .eligible now' fire' schedule' := by
  cases rest <;> cases next <;> exact ⟨rfl, fun _ _ _ same => nomatch same⟩

theorem next_wave {task' : Task} (next : (advance db task).2 = .next task') :
    (∃ now fire schedule, task = .tick now ∧ task' = .eligible now fire schedule ∧ db.failure = none ∧
      db.schedule = some schedule ∧ fires schedule now = some fire) ∨
    task.wave = task'.wave ∧ (∃ wave, task.wave = some wave) ∧
      ∀ now fire schedule, task' ≠ .eligible now fire schedule := by
  cases task with
  | tick now =>
    obtain ⟨calm, next⟩ := attempt_next next
    cases row : db.schedule with
    | none =>
      rw [row] at next
      cases next
    | some schedule =>
      simp only [row] at next
      cases fired : fires schedule now with
      | none =>
        rw [fired] at next
        cases next
      | some fire =>
        rw [fired] at next
        cases next
        exact .inl ⟨now, fire, schedule, rfl, rfl, calm, rfl, fired⟩
  | eligible now fire schedule =>
    obtain ⟨same, past⟩ := wave_next (attempt_next next).2
    exact .inr ⟨same.symm, ⟨_, rfl⟩, past⟩
  | bundle now fire schedule tenantId rest result =>
    simp only [advance] at next
    split at next
    · obtain ⟨same, past⟩ := wave_next next
      exact .inr ⟨same.symm, ⟨_, rfl⟩, past⟩
    · obtain ⟨same, past⟩ := wave_next next
      exact .inr ⟨same.symm, ⟨_, rfl⟩, past⟩
  | mark now fire schedule result => cases (attempt_next next).2

def eventOf (w : WaveWorld) (p : Process Task) : Event Db Task Response :=
  ⟨w.db, p.task, (advance w.db p.task).2⟩

theorem waves_run (w : WaveWorld) (p : Process Task) :
    waves (scheduler.run w p) = (waveOf (eventOf w p)).toList ++ waves w := by
  have log : (scheduler.run w p).log = eventOf w p :: w.log := rfl
  rw [waves, log, filterMap_cons]
  cases waveOf (eventOf w p) <;> rfl

theorem waveOf_iff {wave : Wave} : waveOf (eventOf w p) = some wave ↔
      p.task = .eligible wave.now wave.fire wave.schedule ∧ w.db.failure = none := by
  cases task : p.task with
  | eligible now fire schedule =>
    obtain ⟨now', fire', schedule'⟩ := wave
    cases failure : w.db.failure with
    | some message => simp [waveOf, eventOf, task, advance, attempt, failure]
    | none =>
      cases tenants : eligible w.db <;>
        simp [waveOf, eventOf, task, advance, attempt, failure, tenants, GlobalScheduler.wave]
  | tick | bundle | mark => simp [waveOf, eventOf, task]

theorem mem_waves_run {wave : Wave} : wave ∈ waves (scheduler.run w p) ↔
      p.task = .eligible wave.now wave.fire wave.schedule ∧ w.db.failure = none ∨ wave ∈ waves w := by
  rw [waves_run, mem_append, Option.mem_toList, waveOf_iff]

theorem Justified.mono {w' : WaveWorld} {wave : Wave} (justified : Justified w wave)
    (later : ∀ e ∈ w.log, e ∈ w'.log) : Justified w' wave := by
  obtain ⟨e, mem, read⟩ := justified.read
  exact ⟨⟨e, later e mem, read⟩, justified.enabled, justified.cron, justified.window, justified.fresh⟩

theorem founded_advance (founded : Founded w) (mem : p ∈ w.running) : Founded (scheduler.run w p) := by
  have later : ∀ e ∈ w.log, e ∈ (scheduler.run w p).log := fun e => mem_cons_of_mem _
  have own : ∀ wave ∈ p.task.wave, Justified (scheduler.run w p) wave :=
    fun wave its => (founded.underWay p mem wave its).mono later
  constructor
  · intro wave started
    rcases mem_waves_run.mp started with ⟨task, _⟩ | old
    · exact own wave (by rw [task]; rfl)
    · exact (founded.waves wave old).mono later
  · intro q memq wave its
    rcases mem_resume memq with ⟨old, _⟩ | ⟨task', next, rfl⟩
    · exact (founded.underWay q old wave its).mono later
    rcases next_wave next with ⟨now, fire, schedule, task, rfl, _, row, fired⟩ | ⟨same, _⟩
    · cases its
      obtain ⟨enabled, expr, cron, has, _, parsed, its, window, fresh⟩ := fires_iff.mp fired
      exact ⟨⟨eventOf w p, mem_cons_self, task, row⟩, enabled, ⟨expr, cron, has, parsed, its⟩, window, fresh⟩
    · exact own wave (same ▸ its)
  · intro e meme now tick calm schedule row fire fired
    have answers : Answered w ⟨now, fire, schedule⟩ → Answered (scheduler.run w p) ⟨now, fire, schedule⟩ := by
      rintro (started | ⟨q, memq, waits⟩ | ⟨e', meme', asked⟩)
      · exact .inl (mem_waves_run.mpr (.inr started))
      · by_cases same : q.id = p.id
        · cases w.running.eq_of_key memq mem same
          cases failure : w.db.failure with
          | none => exact .inl (mem_waves_run.mpr (.inl ⟨waits, failure⟩))
          | some message =>
            exact .inr (.inr ⟨eventOf w p, mem_cons_self, waits, by simp [eventOf, failure]⟩)
        · exact .inr (.inl ⟨q, mem_resume_other memq same, waits⟩)
      · exact .inr (.inr ⟨e', later e' meme', asked⟩)
    rcases mem_cons.mp meme with rfl | old
    · have task : p.task = .tick now := tick
      have outcome : (advance w.db p.task).2 = .next (.eligible now fire schedule) := by
        have calm' : w.db.failure = none := calm
        have row' : w.db.schedule = some schedule := row
        have fired' : fires schedule now = some fire := fired
        simp [task, advance, attempt, calm', row', fired']
      refine .inr (.inl ⟨⟨p.id, .eligible now fire schedule⟩, ?_, rfl⟩)
      have resumed : (⟨p.id, .eligible now fire schedule⟩ : Process Task) ∈
          resume w.running p.id (.next (.eligible now fire schedule) : Outcome Task Response) :=
        mem_resume_self mem
      rw [← outcome] at resumed
      exact resumed
    · exact answers (founded.answered e old now tick calm schedule row fire fired)

theorem request_tick {now : Nat} (requested : task.isRequest now = true) : task = .tick now := by
  cases task with
  | tick started => rw [eq_of_beq requested]
  | eligible | bundle | mark => contradiction

theorem founded_arrive {running : Table (Process Task) Process.id} (founded : Founded w)
    (requested : p.task.isRequest w.db.now = true) (inserted : w.running.insert p = some running) :
    Founded { w with running } := by
  constructor
  · intro wave started
    exact (founded.waves wave started).mono (fun _ => id)
  · intro q mem wave its
    rcases (mem_insert inserted).mp mem with rfl | old
    · rw [request_tick requested] at its
      exact absurd its (Option.not_mem_none wave)
    · exact (founded.underWay q old wave its).mono (fun _ => id)
  intro e mem now tick calm schedule row fire fired
  rcases founded.answered e mem now tick calm schedule row fire fired with started | ⟨q, memq, waits⟩ | threw
  · exact .inl started
  · exact .inr (.inl ⟨q, (mem_insert inserted).mpr (.inr memq), waits⟩)
  · exact .inr (.inr threw)

theorem founded_environment (founded : Founded w) (change : Change) : Founded { w with db := change.apply w.db } where
  waves wave started := (founded.waves wave started).mono (fun _ => id)
  underWay p mem wave its := (founded.underWay p mem wave its).mono (fun _ => id)
  answered := founded.answered

theorem founded_initial (db : Db) : Founded (World.initial db : WaveWorld) where
  waves _ started := absurd started not_mem_nil
  underWay _ mem := absurd mem not_mem_nil
  answered _ mem := absurd mem not_mem_nil

theorem founded_step (w : WaveWorld) (action : Action Task Change) (w' : WaveWorld) (founded : Founded w)
    (taken : scheduler.step w action = some w') : Founded w' :=
  System.preserves_always (fun _ _ _ founded requested inserted => founded_arrive founded requested inserted)
    (fun _ _ founded mem => founded_advance founded mem)
    (fun _ change founded => founded_environment founded change) w action w' founded taken

def Task.isMark : Task → Bool
  | .mark .. => true
  | _ => false

/- every tick comes when the one before has ended, and the UPDATE that marks a wave goes through -/
def Apart (w : WaveWorld) : Action Task Change → Prop
  | .arrive _ _ => w.running.rows = []
  | .advance id => ∀ p ∈ w.running.rows, p.id = id → p.task.isMark = true → w.db.failure = none
  | .environment _ => True

instance (w : WaveWorld) (action : Action Task Change) : Decidable (Apart w action) := by
  unfold Apart
  split <;> infer_instance

def Task.started : Task → Nat
  | .tick now | .eligible now .. | .bundle now .. | .mark now .. => now

/- past the query for the tenants, and not yet marked -/
def Task.inWave : Task → Bool
  | .bundle .. | .mark .. => true
  | _ => false

structure Sequential (w : WaveWorld) : Prop where
  founded : Founded w
  alone : ∀ p ∈ w.running, ∀ q ∈ w.running, p = q
  started : ∀ p ∈ w.running, p.task.started ≤ w.db.now
  earlier : ∀ wave ∈ waves w, wave.now ≤ w.db.now ∧ ∀ p ∈ w.running, wave.now ≤ p.task.started
  marked : (∃ p ∈ w.running, p.task.inWave = true) ∨
    ∀ wave ∈ waves w, ∀ schedule ∈ w.db.schedule, wave.now ≤ schedule.updatedAt
  new : ∀ p ∈ w.running, ∀ now fire schedule, p.task = .eligible now fire schedule →
    ∀ wave ∈ waves w, wave.fire ≠ fire
  once : ((waves w).map Wave.fire).Nodup

theorem sequential_initial (db : Db) : Sequential (World.initial db : WaveWorld) where
  founded := founded_initial db
  alone _ mem := absurd mem not_mem_nil
  started _ mem := absurd mem not_mem_nil
  earlier _ started := absurd started not_mem_nil
  marked := .inr fun _ started => absurd started not_mem_nil
  new _ mem := absurd mem not_mem_nil
  once := nodup_nil

theorem sequential_arrive {w : WaveWorld} {running : Table (Process Task) Process.id} {p : Process Task}
    (seq : Sequential w) (idle : w.running.rows = []) (requested : p.task.isRequest w.db.now = true)
    (inserted : w.running.insert p = some running) : Sequential { w with running } := by
  have only : ∀ q ∈ running, q = p := by
    intro q mem
    rcases (mem_insert inserted).mp mem with own | old
    · exact own
    · rw [mem_rows, idle] at old
      exact absurd old not_mem_nil
  have task := request_tick requested
  have marked : ∀ wave ∈ waves w, ∀ schedule ∈ w.db.schedule, wave.now ≤ schedule.updatedAt := by
    rcases seq.marked with ⟨q, mem, _⟩ | marked
    · rw [mem_rows, idle] at mem
      exact absurd mem not_mem_nil
    · exact marked
  constructor
  · exact founded_arrive seq.founded requested inserted
  · intro q memq r memr
    exact (only q memq).trans (only r memr).symm
  · intro q mem
    rw [only q mem, task]
    exact Nat.le_refl _
  · intro wave started
    have before := (seq.earlier wave started).1
    refine ⟨before, ?_⟩
    intro q mem
    rw [only q mem, task]
    exact before
  · exact .inr marked
  · intro q mem now fire schedule waits
    rw [only q mem, task] at waits
    cases waits
  · exact seq.once

theorem sequential_environment (seq : Sequential w) (change : Change) :
    Sequential { w with db := change.apply w.db } := by
  have now : w.db.now ≤ (change.apply w.db).now := by
    cases change with
    | tick ms => exact Nat.le_add_right _ _
    | patch | setTenants | setAttempt | setFailure => exact Nat.le_refl _
  constructor
  · exact founded_environment seq.founded change
  · exact seq.alone
  · intro p mem
    exact Nat.le_trans (seq.started p mem) now
  · intro wave started
    obtain ⟨before, running⟩ := seq.earlier wave started
    exact ⟨Nat.le_trans before now, running⟩
  · rcases seq.marked with inWave | marked
    · exact .inl inWave
    refine .inr ?_
    cases change with
    | patch input =>
      intro wave started schedule row
      obtain ⟨before, _, rfl⟩ := Option.map_eq_some_iff.mp row
      exact (seq.earlier wave started).1
    | tick | setTenants | setAttempt | setFailure => exact marked
  · exact seq.new
  · exact seq.once

theorem advance_now (db : Db) (task : Task) : (advance db task).1.now = db.now := by
  cases task with
  | bundle => rfl
  | tick | eligible | mark =>
    simp only [advance, attempt]
    split <;> rfl

theorem advance_schedule (other : task.isMark = false) : (advance db task).1.schedule = db.schedule := by
  cases task with
  | bundle => rfl
  | mark => contradiction
  | tick | eligible =>
    simp only [advance, attempt]
    split <;> rfl

theorem next_started {task' : Task} (next : (advance db task).2 = .next task') : task'.started = task.started := by
  have wave_started : ∀ {task : Task} {wave : Wave}, task.wave = some wave → task.started = wave.now := by
    intro task wave its
    cases task <;> cases its <;> rfl
  rcases next_wave next with ⟨now, fire, schedule, rfl, rfl, _⟩ | ⟨same, ⟨wave, its⟩, _⟩
  · rfl
  · exact (wave_started (same ▸ its)).trans (wave_started its).symm

section

variable (seq : Sequential w) (mem : p ∈ w.running) (marks : p.task.isMark = true → w.db.failure = none)
include seq mem marks

theorem marked_advance : (∃ q ∈ (scheduler.run w p).running, q.task.inWave = true) ∨
      ∀ wave ∈ waves (scheduler.run w p), ∀ schedule ∈ (scheduler.run w p).db.schedule,
        wave.now ≤ schedule.updatedAt := by
  have idle : p.task.inWave = false → ∀ wave ∈ waves w, ∀ schedule ∈ w.db.schedule,
      wave.now ≤ schedule.updatedAt := by
    intro out
    refine seq.marked.resolve_left ?_
    rintro ⟨q, memq, inWave⟩
    rw [seq.alone q memq p mem, out] at inWave
    contradiction
  have goesOn : ∀ task, (advance w.db p.task).2 = .next task → task.inWave = true →
      ∃ q ∈ (scheduler.run w p).running, q.task.inWave = true := by
    intro task next inWave
    refine ⟨⟨p.id, task⟩, ?_, inWave⟩
    have resumed : (⟨p.id, task⟩ : Process Task) ∈
        resume w.running p.id (.next task : Outcome Task Response) := mem_resume_self mem
    rw [← next] at resumed
    exact resumed
  have begins : ∀ now fire schedule rest result,
      ∃ task, wave now fire schedule rest result = .next task ∧ task.inWave = true := by
    intro now fire schedule rest result
    cases rest <;> exact ⟨_, rfl, rfl⟩
  cases task : p.task with
  | tick now =>
    refine .inr ?_
    intro wave started schedule row
    rw [show (scheduler.run w p).db.schedule = w.db.schedule from advance_schedule (by rw [task]; rfl)] at row
    rcases mem_waves_run.mp started with ⟨other, _⟩ | old
    · cases task.symm.trans other
    · exact idle (by rw [task]; rfl) wave old schedule row
  | eligible now fire schedule =>
    cases failure : w.db.failure with
    | none =>
      obtain ⟨task', next, inWave⟩ := begins now fire schedule (eligible w.db) ⟨true, (eligible w.db).length, 0, 0⟩
      exact .inl (goesOn task' (by simp only [task, advance, attempt, failure]; exact next) inWave)
    | some message =>
      refine .inr ?_
      intro wave started schedule row
      rw [show (scheduler.run w p).db.schedule = w.db.schedule from advance_schedule (by rw [task]; rfl)] at row
      rcases mem_waves_run.mp started with ⟨_, calm⟩ | old
      · rw [failure] at calm
        contradiction
      · exact idle (by rw [task]; rfl) wave old schedule row
  | bundle now fire schedule tenantId rest result =>
    refine .inl ?_
    cases ran : runOneScheduledBundle w.db.attempt tenantId (schedule.retentionDays.getD 30) with
    | ok bundle =>
      obtain ⟨task', next, inWave⟩ := begins now fire schedule rest
        { result with tenantsRan := result.tenantsRan + 1 }
      exact goesOn task' (by simp only [task, advance, ran]; exact next) inWave
    | error message =>
      obtain ⟨task', next, inWave⟩ := begins now fire schedule rest { result with errors := result.errors + 1 }
      exact goesOn task' (by simp only [task, advance, ran]; exact next) inWave
  | mark now fire schedule result =>
    refine .inr ?_
    intro wave started schedule' row
    have calm : w.db.failure = none := marks (by rw [task]; rfl)
    have written : (scheduler.run w p).db.schedule = w.db.schedule.map ({ · with updatedAt := now }) := by
      show (advance w.db p.task).1.schedule = _
      rw [task, advance, attempt, calm]
    rw [written] at row
    obtain ⟨_, _, rfl⟩ := Option.map_eq_some_iff.mp row
    rcases mem_waves_run.mp started with ⟨other, _⟩ | old
    · cases task.symm.trans other
    have before := (seq.earlier wave old).2 p mem
    rw [task] at before
    exact before

theorem sequential_advance : Sequential (scheduler.run w p) := by
  have goesOn : ∀ q ∈ (scheduler.run w p).running, ∃ task, (advance w.db p.task).2 = .next task ∧
      q = ⟨p.id, task⟩ := by
    intro q memq
    rcases mem_resume memq with ⟨old, other⟩ | own
    · exact absurd (congrArg Process.id (seq.alone q old p mem)) other
    · exact own
  have now : (scheduler.run w p).db.now = w.db.now := advance_now w.db p.task
  have bound : ∀ wave ∈ waves (scheduler.run w p), wave.now ≤ p.task.started := by
    intro wave started
    rcases mem_waves_run.mp started with ⟨task, _⟩ | old
    · rw [task]
      exact Nat.le_refl _
    · exact (seq.earlier wave old).2 p mem
  constructor
  · exact founded_advance seq.founded mem
  · intro q memq r memr
    obtain ⟨task, next, rfl⟩ := goesOn q memq
    obtain ⟨task', next', rfl⟩ := goesOn r memr
    cases next.symm.trans next'
    rfl
  · intro q memq
    obtain ⟨task, next, rfl⟩ := goesOn q memq
    rw [now, next_started next]
    exact seq.started p mem
  · intro wave started
    refine ⟨Nat.le_trans (bound wave started) (now ▸ seq.started p mem), ?_⟩
    intro q memq
    obtain ⟨task, next, rfl⟩ := goesOn q memq
    rw [next_started next]
    exact bound wave started
  · exact marked_advance seq mem marks
  · intro q memq now fire schedule waits wave started
    obtain ⟨task, next, rfl⟩ := goesOn q memq
    rcases next_wave next with ⟨now', fire', schedule', task, rfl, _, row, fired⟩ | ⟨_, _, past⟩
    · cases waits
      -- the row is read while nobody is in a wave, so every wave has marked it
      have notStarted : wave ∈ waves w := by
        rcases mem_waves_run.mp started with ⟨other, _⟩ | old
        · cases task.symm.trans other
        · exact old
      have idle : ¬ ∃ q ∈ w.running, q.task.inWave = true := by
        rintro ⟨q, memq, inWave⟩
        rw [seq.alone q memq p mem, task] at inWave
        contradiction
      have marked := seq.marked.resolve_left idle wave notStarted schedule row
      obtain ⟨_, _, _, _, _, _, _, _, fresh⟩ := fires_iff.mp fired
      have window := (seq.founded.waves wave notStarted).window
      omega
    · exact absurd waits (past now fire schedule)
  · rw [waves_run]
    cases starts : waveOf (eventOf w p) with
    | none => exact seq.once
    | some wave =>
      have task := (waveOf_iff.mp starts).1
      refine nodup_cons.mpr ⟨?_, seq.once⟩
      intro again
      obtain ⟨other, started, same⟩ := mem_map.mp again
      exact seq.new p mem wave.now wave.fire wave.schedule task other started same

end

theorem sequential_step (w : WaveWorld) (action : Action Task Change) (w' : WaveWorld) (seq : Sequential w)
    (apart : Apart w action) (taken : scheduler.step w action = some w') : Sequential w' := by
  cases action with
  | arrive id task =>
    simp only [System.step] at taken
    split at taken
    · rename_i requested
      obtain ⟨running, inserted, rfl⟩ := Option.map_eq_some_iff.mp taken
      exact @sequential_arrive w running ⟨id, task⟩ seq apart requested inserted
    · contradiction
  | advance id =>
    obtain ⟨p, selected, rfl⟩ := Option.map_eq_some_iff.mp taken
    obtain ⟨mem, same⟩ := mem_of_select selected
    exact sequential_advance seq mem (apart p mem (eq_of_beq same))
  | environment change =>
    cases taken
    exact sequential_environment seq change

/- an expression that was set at midnight of 1 January 1970, a Thursday -/
def rowWith (expr : String) : BackupSchedule := ⟨true, some expr, some 30, 0⟩

def dbWith (expr : String) (now : Nat) : Db where
  schedule := some (rowWith expr)
  tenants := [⟨1, none, true⟩]
  attempt := ⟨.ok none, true, true, Failures.aWorld fun _ => none, 1⟩
  failure := none
  now := now

/- a tick from its start to its end, with a tenant to back up where it fires -/
def wholeTick (id now steps : Nat) : List (Action Task Change) :=
  .arrive id (.tick now) :: List.replicate steps (.advance id)

/- two ticks in one window, three minutes apart -/
def twoTicks : List (Action Task Change) :=
  List.flatten [wholeTick 1 10620000 4, [.environment (.tick 180000)], wholeTick 2 10800000 1]

/-- A wave in every minute in which a tick reads an enabled row whose expression matches it, and in
no other minute. -/
def WaveEachMatch (w : WaveWorld) : Prop :=
  (∀ wave ∈ waves w, ∀ expr ∈ wave.schedule.cronExpression,
    Cron.isMatch expr (wave.now / 60000) = true) ∧
  ∀ e ∈ w.log, ∀ now, e.task = .tick now → ∀ schedule ∈ e.before.schedule, schedule.enabled = true →
    ∀ expr ∈ schedule.cronExpression, Cron.isMatch expr (now / 60000) = true →
      ((waves w).filter (fun wave => wave.now / 60000 == now / 60000)).length = 1

theorem after_tick {expr : String} {now steps : Nat} {p : WaveWorld → Bool}
    (ends : (exec scheduler.step (World.initial (dbWith expr now)) (wholeTick 1 now steps)).any
      (fun w => w.running.rows.isEmpty && p w) = true) :
    ∃ w, exec scheduler.step (World.initial (dbWith expr now)) (wholeTick 1 now steps) = some w ∧
      w.running.rows = [] ∧ p w = true := by
  obtain ⟨w, run, both⟩ := (Option.any_eq_true _ _).mp ends
  rw [Bool.and_eq_true] at both
  exact ⟨w, run, isEmpty_iff.mp both.1, both.2⟩

end HostingPlatform.TenantBundles.GlobalScheduler
