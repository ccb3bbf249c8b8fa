import HostingPlatform.Interleaving
import HostingPlatform.Shared
import HostingPlatform.TenantBundles.Orchestrator
import Mathlib.Data.List.Sort

/-! The scheduler of `tenant_backup_schedules`: ticks on any number of replicas, statement by
statement, and what each scheduled bundle comes to. Times are in microseconds, as the database
keeps them. Whether the next statement throws, or the pod of its replica is killed first, is part
of the state. Notifications of a failure are left out, as is the logging. -/
namespace HostingPlatform.TenantBundles.Scheduler

open Interleaving

inductive Frequency where
  | daily | weekly | monthly
  deriving DecidableEq

structure TenantBackupSchedule where
  tenantId : Nat
  enabled : Bool
  frequency : Frequency
  retentionDays : Nat
  lastRunAt : Option Nat
  lastRunStatus : Option BundleStatus
  deriving DecidableEq

abbrev Schedules : Type := Table TenantBackupSchedule TenantBackupSchedule.tenantId

structure BackupConfiguration where
  id : Nat
  storageType : String
  hasSshFields : Bool
  /- what `decrypt` throws of its credentials -/
  decrypts : Except String Unit

/- what a scheduled bundle finds: the active target, the key, and how each call of the capture
turns out -/
structure Attempt where
  cfg : Except String (Option BackupConfiguration)
  (configuredKey production : Bool)
  world : Orchestrator.World
  bundleId : Nat

structure Db where
  schedules : Schedules
  tenantStatus : Nat → TenantStatus
  attempt : Attempt
  failure : Option String
  killed : Bool
  now : Nat

def hour : Nat := 3600000000

def SLACK_HOURS : Nat := 1

def Frequency.interval : Frequency → Nat
  | .daily => (24 - SLACK_HOURS) * hour
  | .weekly => (7 * 24 - SLACK_HOURS) * hour
  | .monthly => (30 * 24 - SLACK_HOURS) * hour

/- the last run began longer ago than the frequency asks for -/
def elapsed (now : Nat) (s : TenantBackupSchedule) : Bool :=
  s.lastRunAt.any (fun lastRunAt => lastRunAt + s.frequency.interval < now)

def isDue (db : Db) (s : TenantBackupSchedule) : Bool :=
  s.enabled && db.tenantStatus s.tenantId == .active && (s.lastRunAt.isNone || elapsed db.now s)

/- a row of the SELECT -/
structure Due where
  tenantId : Nat
  frequency : Frequency
  retentionDays : Nat
  lastRunAt : Option Nat

def TenantBackupSchedule.due (s : TenantBackupSchedule) : Due :=
  ⟨s.tenantId, s.frequency, s.retentionDays, s.lastRunAt⟩

/- NULLS FIRST -/
def runsBefore (s s' : TenantBackupSchedule) : Bool :=
  match s.lastRunAt, s'.lastRunAt with
  | none, _ => true
  | some _, none => false
  | some lastRunAt, some lastRunAt' => lastRunAt ≤ lastRunAt'

def dueSchedules (db : Db) : List Due :=
  (((db.schedules.selectAll (isDue db)).insertionSort (fun s s' => runsBefore s s' = true)).take 50).map
    TenantBackupSchedule.due

structure ScheduleTickResult where
  (considered ranBundles errors : Nat)

inductive Task where
  | tick
  | claim (row : Due) (rest : List Due) (result : ScheduleTickResult)
  | run (row : Due) (rest : List Due) (result : ScheduleTickResult)
  | markCompleted (row : Due) (rest : List Due) (result : ScheduleTickResult)
  | markFailed (row : Due) (rest : List Due) (result : ScheduleTickResult)

inductive Response where
  | done (result : ScheduleTickResult)
  | threw (message : String)
  | killed

/- the loop over the due rows -/
def next (rest : List Due) (result : ScheduleTickResult) : Outcome Task Response :=
  match rest with
  | [] => .answer (.done result)
  | row :: rest => .next (.claim row rest { result with considered := result.considered + 1 })

/- `AND (last_run_at IS NULL OR last_run_at = …)`; nothing equals a NULL that was read -/
def unclaimed (row : Due) (s : TenantBackupSchedule) : Bool :=
  s.tenantId == row.tenantId && (s.lastRunAt.isNone || s.lastRunAt == row.lastRunAt)

def setRunning (now : Nat) (s : TenantBackupSchedule) : TenantBackupSchedule :=
  { s with lastRunAt := some now, lastRunStatus := some .running }

theorem setRunning_key (now : Nat) (s : TenantBackupSchedule) : (setRunning now s).tenantId = s.tenantId := rfl

def setStatus (status : BundleStatus) (s : TenantBackupSchedule) : TenantBackupSchedule :=
  { s with lastRunStatus := some status }

theorem setStatus_key (status : BundleStatus) (s : TenantBackupSchedule) :
    (setStatus status s).tenantId = s.tenantId := rfl

def claim (db : Db) (row : Due) : Db :=
  { db with schedules := db.schedules.update (unclaimed row) (setRunning db.now) (setRunning_key db.now) }

def mark (db : Db) (tenantId : Nat) (status : BundleStatus) : Db :=
  { db with
    schedules := db.schedules.update (fun s => s.tenantId == tenantId) (setStatus status)
      (setStatus_key status) }

def openStore (cfg : BackupConfiguration) : Except String Unit :=
  if cfg.storageType = "s3" then cfg.decrypts
  else if cfg.storageType = "ssh" then
    if cfg.hasSshFields then cfg.decrypts else .error s!"SSH target {cfg.id} missing required fields"
  else .error ("Unsupported storage type '" ++ cfg.storageType ++ "' for scheduled bundle")

/- what it captures; that runBundle reports a bundle as partial is not an error -/
def runOneScheduledBundle (attempt : Attempt) (tenantId retentionDays : Nat) :
    Except String Orchestrator.Bundle :=
  match attempt.cfg with
  | .error message => .error message
  | .ok none => .error "no active backup target — schedule cannot fire"
  | .ok (some cfg) =>
    if !attempt.configuredKey && attempt.production then
      .error "PLATFORM_ENCRYPTION_KEY required in production for scheduled bundles"
    else
      match openStore cfg with
      | .error message => .error message
      | .ok () =>
        let bundle := Orchestrator.runBundle attempt.world attempt.bundleId
          ⟨tenantId, retentionDays, some cfg.id, fun _ => true, none⟩
        match bundle.threw with
        | some message => .error message
        | none => .ok bundle

/- a statement, unless the pod is killed before it or it throws -/
def attempt (db : Db) (caught : String → Outcome Task Response) (done : Db × Outcome Task Response) :
    Db × Outcome Task Response :=
  if db.killed then (db, .answer .killed)
  else
    match db.failure with
    | some message => (db, caught message)
    | none => done

def throws (message : String) : Outcome Task Response := .answer (.threw message)

def advance (db : Db) : Task → Db × Outcome Task Response
  | .tick => attempt db throws (db, next (dueSchedules db) ⟨0, 0, 0⟩)
  | .claim row rest result =>
    attempt db throws
      (if db.schedules.rows.any (unclaimed row) then (claim db row, .next (.run row rest result))
       else (db, next rest result))
  | .run row rest result =>
    (db,
      if db.killed then .answer .killed
      else
        match runOneScheduledBundle db.attempt row.tenantId row.retentionDays with
        | .error _ => .next (.markFailed row rest { result with errors := result.errors + 1 })
        | .ok _ => .next (.markCompleted row rest result))
  | .markCompleted row rest result =>
    attempt db (fun _ => .next (.markFailed row rest { result with errors := result.errors + 1 }))
      (mark db row.tenantId .completed, next rest { result with ranBundles := result.ranBundles + 1 })
  -- in the catch block
  | .markFailed row rest result =>
    attempt db throws (mark db row.tenantId .failed, next rest result)

def Task.isRequest : Task → Bool
  | .tick => true
  | _ => false

inductive Change where
  | tick (us : Nat)
  | upsert (tenantId : Nat) (enabled : Bool) (frequency : Frequency) (retentionDays : Nat)
  | setTenant (tenantId : Nat) (status : TenantStatus)
  | setAttempt (attempt : Attempt)
  | setFailure (failure : Option String)
  | setKilled (killed : Bool)

def edit (enabled : Bool) (frequency : Frequency) (retentionDays : Nat) (s : TenantBackupSchedule) :
    TenantBackupSchedule :=
  { s with enabled, frequency, retentionDays }

theorem edit_key (enabled : Bool) (frequency : Frequency) (retentionDays : Nat) (s : TenantBackupSchedule) :
    (edit enabled frequency retentionDays s).tenantId = s.tenantId := rfl

/- the PUT of a schedule leaves its last run as it is -/
def putSchedule (schedules : Schedules) (tenantId : Nat) (enabled : Bool)
    (frequency : Frequency) (retentionDays : Nat) : Schedules :=
  match schedules.insert ⟨tenantId, enabled, frequency, retentionDays, none, none⟩ with
  | some inserted => inserted
  | none =>
    schedules.update (fun s => s.tenantId == tenantId) (edit enabled frequency retentionDays)
      (edit_key enabled frequency retentionDays)

def Change.apply (db : Db) : Change → Db
  | .tick us => { db with now := db.now + us }
  | .upsert tenantId enabled frequency retentionDays =>
    { db with schedules := putSchedule db.schedules tenantId enabled frequency retentionDays }
  | .setTenant tenantId status =>
    { db with tenantStatus := fun id => if id = tenantId then status else db.tenantStatus id }
  | .setAttempt attempt => { db with attempt }
  | .setFailure failure => { db with failure }
  | .setKilled killed => { db with killed }

def scheduler : System Db Task Response Change where
  request := fun _ task => task.isRequest
  advance := advance
  environment := Change.apply

end HostingPlatform.TenantBundles.Scheduler

/-! The global scheduler: one row of `backup_schedules` for all tenants, read by the ticks of every replica.
-/
namespace HostingPlatform.TenantBundles.GlobalScheduler

open Interleaving
open Scheduler (Attempt runOneScheduledBundle)

structure BackupSchedule where
  enabled : Bool
  cronExpression : Option String
  retentionDays : Option Nat
  updatedAt : Nat
  deriving DecidableEq

structure Tenant where
  id : Nat
  includeInScheduledBundlesOverride : Option Bool
  /- of its plan -/
  includeInScheduledBundles : Bool

structure Db where
  schedule : Option BackupSchedule
  tenants : List Tenant
  attempt : Attempt
  failure : Option String
  now : Nat

def FIRE_WINDOW_MIN : Nat := 5

structure SimpleCron where
  (minute hour : Nat)

/- a whole number within bounds -/
def within (low high : Nat) (part : String) : Option Nat :=
  (Js.toInteger (Js.toNumber part)).bind (fun n =>
    if n < low ∨ (high : Int) < n then none else some n.toNat)

/- the minute and the hour only; of the other fields nothing but that there are three -/
def parseSimpleCron (expr : String) : Option SimpleCron :=
  match Js.words expr with
  | [minute, hour, _, _, _] =>
    (within 0 59 minute).bind (fun minute => (within 0 23 hour).map (fun hour => ⟨minute, hour⟩))
  | _ => none

def dayMs : Nat := 86400000

def windowMs : Nat := FIRE_WINDOW_MIN * 60000

/- today's fire instant -/
def SimpleCron.fire (cron : SimpleCron) (now : Nat) : Nat :=
  now / dayMs * dayMs + cron.hour * 3600000 + cron.minute * 60000

/- the fire instant whose window this is, unless the window has been fired already -/
def shouldFireNow (cronExpr : String) (lastRun now : Nat) : Option Nat :=
  (parseSimpleCron cronExpr).bind (fun cron =>
    if now ≤ cron.fire now + windowMs ∧ cron.fire now ≤ now + windowMs ∧
        lastRun + windowMs < cron.fire now then some (cron.fire now)
    else none)

structure TickResult where
  fired : Bool
  (tenantsConsidered tenantsRan errors : Nat)

/- what an enabled row says of a tick: the instant it fires for -/
def fires (schedule : BackupSchedule) (now : Nat) : Option Nat :=
  if schedule.enabled then
    (schedule.cronExpression.filter (fun expr => expr ≠ "")).bind (fun expr =>
      shouldFireNow expr schedule.updatedAt now)
  else none

inductive Task where
  | tick (now : Nat)
  | eligible (now fire : Nat) (schedule : BackupSchedule)
  | bundle (now fire : Nat) (schedule : BackupSchedule) (tenantId : Nat) (rest : List Nat)
      (result : TickResult)
  | mark (now fire : Nat) (schedule : BackupSchedule) (result : TickResult)

inductive Response where
  | done (result : TickResult)
  | threw (message : String)

def notFired : TickResult := ⟨false, 0, 0, 0⟩

def eligible (db : Db) : List Nat :=
  (db.tenants.filter (fun t =>
    t.includeInScheduledBundlesOverride.getD t.includeInScheduledBundles)).map Tenant.id

/- the loop over the eligible tenants -/
def wave (now fire : Nat) (schedule : BackupSchedule) (rest : List Nat) (result : TickResult) :
    Outcome Task Response :=
  match rest with
  | [] => .next (.mark now fire schedule result)
  | tenantId :: rest => .next (.bundle now fire schedule tenantId rest result)

def attempt (db : Db) (done : Db × Outcome Task Response) : Db × Outcome Task Response :=
  match db.failure with
  | some message => (db, .answer (.threw message))
  | none => done

def advance (db : Db) : Task → Db × Outcome Task Response
  | .tick now =>
    attempt db (db,
      match db.schedule with
      | none => .answer (.done notFired)
      | some schedule =>
        match fires schedule now with
        | none => .answer (.done notFired)
        | some fire => .next (.eligible now fire schedule))
  -- the wave is fired once the tenants are there
  | .eligible now fire schedule =>
    attempt db (db, wave now fire schedule (eligible db) ⟨true, (eligible db).length, 0, 0⟩)
  | .bundle now fire schedule tenantId rest result =>
    (db,
      match runOneScheduledBundle db.attempt tenantId (schedule.retentionDays.getD 30) with
      | .ok _ => wave now fire schedule rest { result with tenantsRan := result.tenantsRan + 1 }
      | .error _ => wave now fire schedule rest { result with errors := result.errors + 1 })
  | .mark now _ _ result =>
    attempt db ({ db with schedule := db.schedule.map ({ · with updatedAt := now }) }, .answer (.done result))

/- the fields of a PATCH; an absent one is `none` -/
structure UpdateBackupScheduleInput where
  enabled : Option Bool
  cronExpression : Option (Option String)
  retentionDays : Option (Option Nat)

def updateSchedule (input : UpdateBackupScheduleInput) (now : Nat) (schedule : BackupSchedule) :
    BackupSchedule where
  enabled := input.enabled.getD schedule.enabled
  cronExpression := input.cronExpression.getD schedule.cronExpression
  retentionDays := input.retentionDays.getD schedule.retentionDays
  updatedAt := now

inductive Change where
  | tick (ms : Nat)
  | patch (input : UpdateBackupScheduleInput)
  | setTenants (tenants : List Tenant)
  | setAttempt (attempt : Attempt)
  | setFailure (failure : Option String)

def Change.apply (db : Db) : Change → Db
  | .tick ms => { db with now := db.now + ms }
  | .patch input => { db with schedule := db.schedule.map (updateSchedule input db.now) }
  | .setTenants tenants => { db with tenants }
  | .setAttempt attempt => { db with attempt }
  | .setFailure failure => { db with failure }

/- a tick takes the time when it starts -/
def Task.isRequest (now : Nat) : Task → Bool
  | .tick started => started == now
  | _ => false

def scheduler : System Db Task Response Change where
  request := fun w task => task.isRequest w.db.now
  advance := advance
  environment := Change.apply

end HostingPlatform.TenantBundles.GlobalScheduler
