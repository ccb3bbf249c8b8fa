import HostingPlatform.Js.Text
import HostingPlatform.Table
import HostingPlatform.Transition

/-! The scheduler of webcron jobs. A poll reads the jobs once and then claims them one by one, and
every claim starts an execution, which asks for the job's URL and records how that went. Polls and
executions run on any number of replicas. Instants are milliseconds since the epoch. What is
recorded of a run besides its end and its status is left out. -/
namespace HostingPlatform.CronJobs

open Js

inductive CronJobType where
  | webcron
  | deployment
  deriving DecidableEq

inductive LastRunStatus where
  | success
  | failed
  | running
  deriving DecidableEq

structure CronJob where
  id : Nat
  type : CronJobType
  schedule : String
  enabled : Int
  lastRunAt : Option Int
  lastRunStatus : Option LastRunStatus
  deriving DecidableEq

/- `new Date(t)`, unless that is an invalid date -/
def date (t : Int) : Option Int := if t.natAbs ≤ 8640000000000000 then some t else none

/- `parseInt(…) || 1` after a step, in minutes -/
def interval (minute : String) : Number :=
  if startsWith minute "*/" then
    let n := parseInt (String.ofList (minute.toList.drop 2))
    if n = .nan ∨ n = 0 then 1 else n
  else 1

def getNextRunTime (schedule : String) (lastRunAt : Option Int) : Option Int :=
  match blankSeparated schedule.toList with
  | [minute, _, _, _, _] =>
    match interval (String.ofList minute) with
    | .finite q => date (lastRunAt.getD 0 + q.num * 60000)
    | _ => none
  | _ => some 0

/- `nextRun > now` is false of an invalid date -/
def due (schedule : String) (lastRunAt : Option Int) (now : Int) : Bool :=
  (getNextRunTime schedule lastRunAt).all (· ≤ now)

/- a poll with the rows that it has read and not looked at yet -/
structure Poll where
  id : Nat
  now : Int
  remaining : List CronJob
  stopped : Bool

/- the end, and whether it went well, are known before they are recorded -/
structure Execution where
  (id jobId : Nat)
  result : Option (Int × Bool)

inductive Event where
  | started (jobId : Nat) (time : Int)
  | ended (jobId : Nat) (time : Int)

abbrev Jobs := Table CronJob CronJob.id

/- the newest event comes first -/
structure World where
  clock : Int
  jobs : Jobs
  polls : Table Poll Poll.id
  executions : Table Execution Execution.id
  log : List Event

/-- Executions are in progress until they have recorded their end. A poll that fails stops where it
is, and what is in progress on a process that dies, or fails to record, is dropped. -/
inductive Action where
  | wait (ms : Nat)
  | poll (id : Nat)
  | next (pollId executionId : Nat)
  | respond (executionId : Nat) (ok : Bool)
  | record (executionId : Nat)
  | stop (pollId : Nat)
  | die (executionId : Nat)

def webcrons (jobs : Jobs) : List CronJob := jobs.selectAll (fun j => j.type == .webcron && j.enabled == 1)

/- `last_run_status != 'running'` is not true of a row without a status -/
def claimable (jobId : Nat) (row : CronJob) : Bool :=
  row.id == jobId && row.lastRunStatus.any (· != .running)

def claimed (row : CronJob) : CronJob := { row with lastRunStatus := some .running }

theorem claimed_id (row : CronJob) : (claimed row).id = row.id := rfl

def advance (rest : List CronJob) (p : Poll) : Poll := { p with remaining := rest }

def halt (p : Poll) : Poll := { p with stopped := true }

def respond (result : Int × Bool) (e : Execution) : Execution := { e with result := some result }

def recorded (result : Int × Bool) (row : CronJob) : CronJob :=
  { row with
    lastRunAt := some result.1
    lastRunStatus := some (if result.2 then .success else .failed) }

theorem respond_id (result : Int × Bool) (e : Execution) : (respond result e).id = e.id := rfl

theorem recorded_id (result : Int × Bool) (row : CronJob) : (recorded result row).id = row.id := rfl

theorem advance_id (rest : List CronJob) (p : Poll) : (advance rest p).id = p.id := rfl

theorem halt_id (p : Poll) : (halt p).id = p.id := rfl

/- the job at which a poll is, as the poll has read it -/
def visit (w : World) (p : Poll) (job : CronJob) (rest : List CronJob) (executionId : Nat) : Option World :=
  let polls := w.polls.update (fun q => q.id == p.id) (advance rest) (advance_id rest)
  if !due job.schedule job.lastRunAt p.now then some { w with polls }
  else if job.lastRunStatus = some .running then some { w with polls }
  else if w.jobs.rows.any (claimable job.id) then
    (w.executions.insert ⟨executionId, job.id, none⟩).map (fun executions =>
      { clock := w.clock
        jobs := w.jobs.update (claimable job.id) claimed claimed_id
        polls
        executions
        log := .started job.id w.clock :: w.log })
  else some { w with polls }

def step (w : World) : Action → Option World
  | .wait ms => some { w with clock := w.clock + ms }
  | .poll id => (w.polls.insert ⟨id, w.clock, webcrons w.jobs, false⟩).map (fun polls => { w with polls })
  | .next pollId executionId =>
    match w.polls.select (fun p => p.id == pollId && !p.stopped) with
    | none => none
    | some p =>
      match p.remaining with
      | [] => none
      | job :: rest => visit w p job rest executionId
  | .respond executionId ok =>
    match w.executions.select (fun e => e.id == executionId && e.result.isNone) with
    | none => none
    | some e =>
      some
        { w with
          executions := w.executions.update (fun x => x.id == executionId) (respond (w.clock, ok)) (respond_id _)
          log := .ended e.jobId w.clock :: w.log }
  | .record executionId =>
    match w.executions.select (fun e => e.id == executionId) with
    | none => none
    | some e => e.result.map (fun result =>
      { w with
        jobs := w.jobs.update (fun row => row.id == e.jobId) (recorded result) (recorded_id result)
        executions := w.executions.delete (fun x => x.id == executionId) })
  | .stop pollId =>
    some { w with polls := w.polls.update (fun p => p.id == pollId) halt halt_id }
  | .die executionId => some { w with executions := w.executions.delete (fun x => x.id == executionId) }

end HostingPlatform.CronJobs
