import HostingPlatform.MailImapsync.Orderly
import Mathlib.Data.Fintype.EquivFin

/-! A whole cycle frees a row that has no active Job, and with that what every run keeps. -/
namespace HostingPlatform.MailImapsync

open Table List Interleaving Transition

/- so many statements of a cycle, none of which fails -/
def cycleSteps : Nat → Store → Cycle → Option (Store × Cycle)
  | 0, s, c => some (s, c)
  | n + 1, s, c =>
    match cycleStatement s true c with
    | (e, .next next) => cycleSteps n (e.run s) next
    | (_, .answer _) => none

variable {s s' : Store} {c : Setup} {w : World} {name : JobName} {row : ImapSyncJob}

theorem cycleSteps_add {n m : Nat} {c c' : Cycle} (first : cycleSteps n s c = some (s', c')) :
    cycleSteps (n + m) s c = cycleSteps m s' c' := by
  induction n generalizing s c with
  | zero =>
    cases first
    rw [Nat.zero_add]
  | succ n ih =>
    rw [Nat.succ_add]
    simp only [cycleSteps] at first ⊢
    split at first
    · exact ih first
    · cases first

theorem exec_cycleSteps {id n : Nat} {cycle cycle' : Cycle} (mem : (⟨id, cycle⟩ : Process Cycle) ∈ w.cycles)
    (steps : cycleSteps n w.store cycle = some (s', cycle')) :
    ∃ after, exec (step c) w (replicate n (.reconcile id true)) = some after ∧ after.store = s' := by
  induction n generalizing w cycle with
  | zero =>
    cases steps
    exact ⟨w, rfl, rfl⟩
  | succ n ih =>
    simp only [cycleSteps] at steps
    split at steps
    · rename_i e next ran
      let after : World := { w with
          store := e.run w.store
          cycles := resume w.cycles id (.next next : Outcome Cycle Unit) }
      have taken : step c w (.reconcile id true) = some after := by
        simp [step, select_key mem, ran, after]
      obtain ⟨last, run, same⟩ := ih (w := after) (mem_resume_self (R := Unit) mem) steps
      exact ⟨last, by simp [replicate_succ, exec, taken, run], same⟩
    · cases steps

theorem cycle_begins (w : World) : ∃ id after, exec (step c) w [.cycle id, .reconcile id true] = some after ∧
    after.store = w.store ∧
      (⟨id, ⟨w.store.rows.selectAll (fun row => row.status.active), .look⟩⟩ : Process Cycle) ∈ after.cycles := by
  obtain ⟨id, fresh⟩ := Infinite.exists_notMem_finset (w.cycles.rows.map Process.id).toFinset
  rw [mem_toFinset] at fresh
  obtain ⟨cycles, inserted⟩ : ∃ cycles, w.cycles.insert ⟨id, Cycle.begin⟩ = some cycles := ⟨_, dif_pos fresh⟩
  have mem : (⟨id, Cycle.begin⟩ : Process Cycle) ∈ cycles := (mem_insert inserted).mpr (.inl rfl)
  let read : Cycle := ⟨w.store.rows.selectAll (fun row => row.status.active), .look⟩
  have selected := select_key mem
  have begins : step c w (.cycle id) = some { w with cycles } := by
    simp [step, inserted]
  have reads : step c { w with cycles } (.reconcile id true) =
      some { w with cycles := resume cycles id (.next read : Outcome Cycle Unit) } := by
    simp only [step]
    rw [selected]
    rfl
  refine ⟨id, { w with cycles := resume cycles id (.next read : Outcome Cycle Unit) }, ?_, rfl,
    mem_resume_self (R := Unit) mem⟩
  simp [exec, begins, reads]

theorem activeJob_deleteJob {other : JobName} (idle : activeJob s name = false) :
    activeJob ((Effect.deleteJob other).run s) name = false := by
  refine Bool.eq_false_iff.mpr (fun active => Bool.eq_false_iff.mp idle ?_)
  obtain ⟨job, there, its⟩ := activeJob_iff.mp active
  exact activeJob_iff.mpr ⟨job, (mem_filter.mp there).1, its⟩

theorem passes_over (s : Store) (x : ImapSyncJob) (rest : List ImapSyncJob) :
    ∃ n s', cycleSteps n s ⟨x :: rest, .look⟩ = some (s', ⟨rest, .look⟩) ∧
      (∀ row ∈ s.rows, row.id ≠ x.id → row ∈ s'.rows) ∧ ∀ name, activeJob s name = false → activeJob s' name = false := by
  have ended : ∀ (status : Status) (row : ImapSyncJob), row ∈ s.rows → row.id ≠ x.id →
      row ∈ ((Effect.finish x.id status).run s).rows := fun status row mem other =>
    mem_updated (setStatus_id status) mem (fun same => absurd same other)
  cases its : x.k8sJobName with
  | none => exact ⟨1, s, by simp [cycleSteps, cycleStatement, its, Cycle.at, Effect.run], fun _ mem _ => mem, fun _ idle => idle⟩
  | some name =>
    cases found : s.jobs.find? (fun job => job.name == name) with
    | none =>
      refine ⟨3, (Effect.deleteSecret name).run ((Effect.finish x.id .failed).run s), ?_, ended .failed, fun _ idle => idle⟩
      simp [cycleSteps, cycleStatement, its, found, Cycle.at, Effect.run]
    | some job =>
      cases state : job.state with
      | active =>
        refine ⟨1, s, ?_, fun _ mem _ => mem, fun _ idle => idle⟩
        simp [cycleSteps, cycleStatement, its, found, state, Cycle.at, Effect.run]
      | succeeded =>
        refine ⟨4, (Effect.deleteSecret name).run ((Effect.deleteJob name).run ((Effect.finish x.id .succeeded).run s)),
          ?_, ended .succeeded, fun _ idle => activeJob_deleteJob idle⟩
        simp [cycleSteps, cycleStatement, its, found, state, Cycle.at, Effect.run]
      | failed =>
        refine ⟨4, (Effect.deleteSecret name).run ((Effect.deleteJob name).run ((Effect.finish x.id .failed).run s)),
          ?_, ended .failed, fun _ idle => activeJob_deleteJob idle⟩
        simp [cycleSteps, cycleStatement, its, found, state, Cycle.at, Effect.run]

theorem ends_row (rest : List ImapSyncJob) (its : row.k8sJobName = some name) (idle : activeJob s name = false) :
    ∃ n s' c', cycleSteps n s ⟨row :: rest, .look⟩ = some (s', c') ∧
      ∀ row' ∈ s'.rows, row'.id = row.id → row'.status.active = false := by
  have ended : ∀ status : Status, status.active = false → ∀ row' ∈ ((Effect.finish row.id status).run s).rows,
      row'.id = row.id → row'.status.active = false := by
    intro status over_ row' there same
    rcases (mem_update (setStatus_id status)).mp there with ⟨_, other⟩ | ⟨old, _, _, rfl⟩
    · exact absurd (beq_iff_eq.mpr same) (Bool.eq_false_iff.mp other)
    · exact over_
  cases found : s.jobs.find? (fun job => job.name == name) with
  | none =>
    refine ⟨2, (Effect.finish row.id .failed).run s, ⟨rest, .deleteSecret name⟩, ?_, ended .failed rfl⟩
    simp [cycleSteps, cycleStatement, its, found, Cycle.at, Effect.run]
  | some job =>
    cases state : job.state with
    | active =>
      have there := mem_of_find?_eq_some found
      have same : job.name = name := by simpa using find?_some found
      rw [activeJob_iff.mpr ⟨job, there, same, state⟩] at idle
      cases idle
    | succeeded =>
      refine ⟨2, (Effect.finish row.id .succeeded).run s, ⟨rest, .deleteJob name⟩, ?_, ended .succeeded rfl⟩
      simp [cycleSteps, cycleStatement, its, found, state, Cycle.at, Effect.run]
    | failed =>
      refine ⟨2, (Effect.finish row.id .failed).run s, ⟨rest, .deleteJob name⟩, ?_, ended .failed rfl⟩
      simp [cycleSteps, cycleStatement, its, found, state, Cycle.at, Effect.run]

theorem cycle_ends {remaining : List ImapSyncJob} (mem : row ∈ s.rows) (its : row.k8sJobName = some name)
    (idle : activeJob s name = false) (listed : row ∈ remaining) (keyed : ∀ x ∈ remaining, x.id = row.id → x = row) :
    ∃ n s' c', cycleSteps n s ⟨remaining, .look⟩ = some (s', c') ∧
      ∀ row' ∈ s'.rows, row'.id = row.id → row'.status.active = false := by
  induction remaining generalizing s with
  | nil => cases listed
  | cons x rest ih =>
    by_cases same : x.id = row.id
    · rw [keyed x mem_cons_self same]
      exact ends_row rest its idle
    have later : row ∈ rest := by
      rcases mem_cons.mp listed with rfl | later
      · exact absurd rfl same
      · exact later
    obtain ⟨n, between, first, kept, still⟩ := passes_over s x rest
    obtain ⟨m, s', c', second, ended⟩ := ih (kept row mem (Ne.symm same)) (still name idle) later
      (fun y there => keyed y (mem_cons_of_mem _ there))
    exact ⟨n + m, s', c', (cycleSteps_add first).trans second, ended⟩

theorem later_cycle (mem : row ∈ w.store.rows) (active : row.status.active = true)
    (its : row.k8sJobName = some name) (idle : activeJob w.store name = false) :
    ∃ actions after, (∀ a ∈ actions, isCycle a = true) ∧ exec (step c) w actions = some after ∧
      ∀ row' ∈ after.store.rows, row'.id = row.id → row'.status.active = false := by
  obtain ⟨id, begun, first, same, there⟩ := cycle_begins (c := c) w
  obtain ⟨n, s', cycle', steps, ended⟩ := cycle_ends mem its idle (mem_selectAll (p := fun x => x.status.active).mpr ⟨mem, active⟩)
    (fun x listed own => w.store.rows.eq_of_key (mem_selectAll.mp listed).1 mem own)
  obtain ⟨after, second, rfl⟩ := exec_cycleSteps (c := c) there (by rw [same]; exact steps)
  refine ⟨[.cycle id, .reconcile id true] ++ replicate n (.reconcile id true), after, ?_, ?_, ended⟩
  · intro a listed
    rcases mem_append.mp listed with two | more
    · rcases mem_pair.mp two with rfl | rfl <;> rfl
    · rw [eq_of_mem_replicate more]
      rfl
  · obtain ⟨one, begins, first⟩ := exec_cons first
    obtain ⟨two, reads, first⟩ := exec_cons first
    cases first
    simp [exec, begins, reads, second]

theorem Steady.orderly (steady : Steady w) : Orderly c w where
  final := steady.rows.final
  owned := by
    intro none job there active
    rcases steady.held job there active with belongs | ⟨r, mem, _⟩
    · exact belongs
    · rw [mem_rows, none] at mem
      cases mem
  freed := by
    intro none row mem active
    cases its : row.k8sJobName with
    | none =>
      cases status : row.status with
      | pending =>
        obtain ⟨r, there, _⟩ := steady.waiting row mem status its
        rw [mem_rows, none] at there
        cases there
      | running => exact absurd its (steady.rows.running row mem status)
      | _ =>
        rw [status] at active
        cases active
    | some name =>
      cases idle : activeJob w.store name with
      | false => exact .inr (later_cycle mem active its idle)
      | true =>
        obtain ⟨job, there, rfl, runs⟩ := activeJob_iff.mp idle
        rcases steady.held job there runs with ⟨other, mem', running, named, secret⟩ | ⟨r, there', _⟩
        · have same : other.id = row.id :=
            (steady.rows.named other mem' job.name named).symm.trans (steady.rows.named row mem job.name its)
          rw [w.store.rows.eq_of_key mem' mem same] at running
          exact .inl ⟨job.name, running, rfl, idle, secret⟩
        · rw [mem_rows, none] at there'
          cases there'
  limited := steady.rows.limited

theorem noJobs_steady : Steady noJobs where
  rows := ⟨nofun, nofun, nofun, nofun, fun _ => Nat.zero_le _⟩
  waiting := nofun
  held := nofun
  named := nofun

/-- In every run whose writes find the rows as they should be, and in which no request dies with a row or
a Job that only it knows of, the jobs stay in order. -/
theorem jobs_orderly_throughout {c : Setup} {actions : List Action} (safe : Guarded (step c) (Safe c) noJobs actions) :
    Always (step c) (Orderly c) noJobs actions := by
  rintro front back w rfl run
  refine Steady.orderly (guarded_invariant (fun w action after steady safe taken => ?_) noJobs_steady safe.front run)
  exact steady.step safe taken

instance decEffectSafe (s : Store) : (e : Effect) → Decidable (e.Safe s)
  | .insert row => inferInstanceAs (Decidable (activeCount s row.tenantId < maxActiveImapsyncJobs))
  | .finish id status => inferInstanceAs (Decidable (∀ row ∈ s.rows.rows, row.id = id → row.status = status ∨
      row.status.active = true ∧ ∀ name ∈ row.k8sJobName, activeJob s name = false))
  | .markRunning id name => inferInstanceAs (Decidable (∃ row ∈ s.rows.rows, row.id = id ∧ row.status = .pending ∧
      row.k8sJobName = name.announced ∧ (activeJob s name = true → hasSecret s name = true)))
  | .reset id _ => inferInstanceAs (Decidable (∀ row ∈ s.rows.rows, row.id = id →
      row.status.active = false ∧ activeCount s row.tenantId < maxActiveImapsyncJobs))
  | .deleteRow id => inferInstanceAs (Decidable (∀ row ∈ s.rows.rows, row.id = id → row.status.active = false))
  | .deleteSecret name => inferInstanceAs (Decidable (activeJob s name = false))
  | .nothing | .createSecret _ | .createJob _ | .own _ | .deleteJob _ => isTrue trivial

instance decSafe (c : Setup) (w : World) : (action : Action) → Decidable (Safe c w action) := by
  intro _
  unfold Safe
  split <;> infer_instance

/- every mailbox is of the tenant 1 -/
def oneTenant : Setup := ⟨fun _ => some 1⟩

/- so many statements of a request, or of a cycle none of which fails -/
def requesting (id : Nat) (route : Route) (statements : Nat) (d : Draw) : List Action :=
  .route id route :: List.replicate statements (.request id d)

def cycling (id statements : Nat) : List Action := .cycle id :: List.replicate statements (.reconcile id true)

theorem jobs_orderly_for_a_while : Always (step oneTenant) (Orderly oneTenant) noJobs
      (requesting 1 (.create 1 10) 10 ⟨7, 0, true⟩ ++ [.finishJob ⟨7, none⟩ false] ++ cycling 1 6 ++
        requesting 1 (.resync 1 7) 10 ⟨0, 500, true⟩ ++ cycling 1 3 ++ requesting 2 (.cancel 1 7) 5 ⟨0, 0, true⟩ ++
        requesting 1 (.purge 1 7) 4 ⟨0, 0, true⟩) :=
  jobs_orderly_throughout (by decide +kernel)

/-- A cancellation before the last write of a creation; a creation that dies before it; two resyncs at
once; and two creations at once, with two jobs that are active. -/
def cancelledAndRunning : List Action :=
  requesting 1 (.create 1 10) 8 ⟨7, 0, true⟩ ++ requesting 2 (.cancel 1 7) 3 ⟨0, 0, true⟩ ++ [.request 1 ⟨0, 0, true⟩]

def diedUnwritten : List Action := requesting 1 (.create 1 10) 7 ⟨7, 0, true⟩ ++ [.die 1]

def resyncedTwice : List Action :=
  requesting 1 (.create 1 10) 10 ⟨7, 0, true⟩ ++ [.finishJob ⟨7, none⟩ true] ++ cycling 1 6 ++
    requesting 1 (.resync 1 7) 2 ⟨0, 500, true⟩ ++ requesting 2 (.resync 1 7) 10 ⟨0, 600, true⟩ ++
    List.replicate 8 (.request 1 ⟨0, 700, true⟩)

def oneTooMany : List Action :=
  requesting 1 (.create 1 10) 10 ⟨7, 0, true⟩ ++ requesting 1 (.create 1 11) 10 ⟨8, 0, true⟩ ++
    requesting 1 (.create 1 12) 3 ⟨0, 0, true⟩ ++ requesting 2 (.create 1 13) 3 ⟨0, 0, true⟩ ++
    [.request 1 ⟨9, 0, true⟩, .request 2 ⟨10, 0, true⟩]

/- what a run ends with that is out of order -/
def reopened (s : Store) : Bool :=
  s.changes.any (fun x => !x.before.active && x.after != x.before && !x.resync)

def unowned (w : World) : Bool :=
  w.requests.rows.isEmpty && w.store.jobs.any (fun job => job.state == .active &&
    w.store.rows.rows.all (fun row => row.status != .running || row.k8sJobName != some job.name))

theorem disordered
    (found : (reopened w.store || unowned w || decide (maxActiveImapsyncJobs < activeCount w.store 1)) = true) :
    ¬ Orderly c w := by
  intro orderly
  simp only [Bool.or_eq_true, decide_eq_true_eq] at found
  rcases found with (found | found) | found
  · simp only [reopened, any_eq_true, Bool.and_eq_true, Bool.not_eq_true', bne_iff_ne] at found
    obtain ⟨x, mem, ⟨ended, differs⟩, other⟩ := found
    have resync := orderly.final x mem ended differs
    rw [other] at resync
    cases resync
  · simp only [unowned, any_eq_true, Bool.and_eq_true, List.isEmpty_iff, beq_iff_eq, all_eq_true,
      Bool.or_eq_true, bne_iff_ne] at found
    obtain ⟨none, job, mem, active, others⟩ := found
    obtain ⟨row, there, running, named, _⟩ := orderly.owned none job mem active
    rcases others row there with not | not
    · exact not running
    · exact not named
  · exact Nat.not_lt.mpr (orderly.limited 1) found

/-- Each of four short runs ends out of order. -/
theorem not_orderly : ¬ Always (step oneTenant) (Orderly oneTenant) noJobs cancelledAndRunning ∧
      ¬ Always (step oneTenant) (Orderly oneTenant) noJobs diedUnwritten ∧
      ¬ Always (step oneTenant) (Orderly oneTenant) noJobs resyncedTwice ∧
      ¬ Always (step oneTenant) (Orderly oneTenant) noJobs oneTooMany := by
  have reached : ∀ actions ∈ [cancelledAndRunning, diedUnwritten, resyncedTwice, oneTooMany],
      (exec (step oneTenant) noJobs actions).any (fun w =>
        reopened w.store || unowned w || decide (maxActiveImapsyncJobs < activeCount w.store 1)) = true := by
    decide +kernel
  have lost : ∀ actions ∈ [cancelledAndRunning, diedUnwritten, resyncedTwice, oneTooMany],
      ¬ Always (step oneTenant) (Orderly oneTenant) noJobs actions := by
    intro actions mem always
    obtain ⟨w, run, found⟩ := (Option.any_eq_true _ _).mp (reached actions mem)
    exact disordered found (always actions [] w (append_nil actions).symm run)
  exact ⟨lost _ (by simp), lost _ (by simp), lost _ (by simp), lost _ (by simp)⟩

end HostingPlatform.MailImapsync
