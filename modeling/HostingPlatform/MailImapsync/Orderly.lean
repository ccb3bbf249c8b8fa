import HostingPlatform.MailImapsync.Service

/-! What the routes and the cycles owe each other: a status that ends a job, a row for each active Job, a
cycle that frees what is left over, and a limit for each tenant. -/
namespace HostingPlatform.MailImapsync

open Option Table List Interleaving Transition

def activeJob (s : Store) (name : JobName) : Bool :=
  s.jobs.any (fun job => job.name == name && job.state == .active)

def Belongs (s : Store) (name : JobName) : Prop :=
  ∃ row ∈ s.rows, row.status = .running ∧ row.k8sJobName = some name ∧ hasSecret s name = true

def isCycle : Action → Bool
  | .cycle _ | .reconcile .. => true
  | _ => false

structure Orderly (c : Setup) (w : World) : Prop where
  /- a job that has ended changes its status through a resync only -/
  final : ∀ x ∈ w.store.changes, x.before.active = false → x.after ≠ x.before → x.resync = true
  owned : w.requests.rows = [] → ∀ job ∈ w.store.jobs, job.state = .active → Belongs w.store job.name
  freed : w.requests.rows = [] → ∀ row ∈ w.store.rows, row.status.active = true →
    (∃ name, row.status = .running ∧ row.k8sJobName = some name ∧ activeJob w.store name = true ∧
      hasSecret w.store name = true) ∨
    ∃ actions after, (∀ a ∈ actions, isCycle a = true) ∧ exec (step c) w actions = some after ∧
      ∀ row' ∈ after.store.rows, row'.id = row.id → row'.status.active = false
  limited : ∀ tenantId, activeCount w.store tenantId ≤ maxActiveImapsyncJobs

/-- A row is ended while it is active and its Job is not, or with the status that it has already; it is
started while it is pending as its creation or resync has left it; it is reset or deleted once it has
ended, reset and inserted below the limit; and no Secret of an active Job is deleted. -/
def Effect.Safe (s : Store) : Effect → Prop
  | .insert row => activeCount s row.tenantId < maxActiveImapsyncJobs
  | .finish id status => ∀ row ∈ s.rows.rows, row.id = id → row.status = status ∨
    row.status.active = true ∧ ∀ name ∈ row.k8sJobName, activeJob s name = false
  | .markRunning id name => ∃ row ∈ s.rows.rows, row.id = id ∧ row.status = .pending ∧
    row.k8sJobName = name.announced ∧ (activeJob s name = true → hasSecret s name = true)
  | .reset id _ => ∀ row ∈ s.rows.rows, row.id = id →
    row.status.active = false ∧ activeCount s row.tenantId < maxActiveImapsyncJobs
  | .deleteRow id => ∀ row ∈ s.rows.rows, row.id = id → row.status.active = false
  | .deleteSecret name => activeJob s name = false
  | _ => True

/- the row that a creation has inserted and not given a status yet -/
def starting : Request → Option Nat
  | .start t next =>
    match next with
    | .reread | .cleanJob | .cleanSecret => none
    | _ => if t.resync then none else some t.id
  | _ => none

/- the Job that has been created and not written into its row yet -/
def holding : Request → Option JobName
  | .start t .patch | .start t .mark => some t.name
  | _ => none

def Safe (c : Setup) (w : World) : Action → Prop
  | .request id d => ∀ r ∈ w.requests.rows, r.id = id → ∀ x ∈ statement c w.store d r.task, x.1.Safe w.store
  | .die id => ∀ r ∈ w.requests.rows, r.id = id → starting r.task = none ∧ holding r.task = none
  | .reconcile id ok => ∀ r ∈ w.cycles.rows, r.id = id → (cycleStatement w.store ok r.task).1.Safe w.store
  | _ => True

structure Rows (s : Store) : Prop where
  ids : ∀ row ∈ s.rows, row.id ∈ s.ids
  named : ∀ row ∈ s.rows, ∀ name, row.k8sJobName = some name → name.jobId = row.id
  running : ∀ row ∈ s.rows, row.status = .running → row.k8sJobName ≠ none
  final : ∀ x ∈ s.changes, x.before.active = false → x.after ≠ x.before → x.resync = true
  limited : ∀ tenantId, activeCount s tenantId ≤ maxActiveImapsyncJobs

def Effect.Fits (s : Store) : Effect → Prop
  | .insert row => row.id ∉ s.ids ∧ row.status = .pending ∧ row.k8sJobName = none
  | .finish _ status => status.active = false
  | .markRunning id name | .reset id name => name.jobId = id
  | _ => True

variable {s : Store} {row : ImapSyncJob} {e : Effect} {id : Nat} {f : ImapSyncJob → ImapSyncJob}
  {name : JobName} {job : K8sJob} {c : Setup} {d : Draw} {r : Request} {after : After} {t : Start}
  {at_ : StartAt}

theorem mem_inserted {new : ImapSyncJob} (mem : row ∈ (Effect.run s (.insert new)).rows) :
    row = new ∨ row ∈ s.rows := by
  simp only [Effect.run] at mem
  cases inserted : s.rows.insert new with
  | none =>
    rw [inserted] at mem
    exact .inr mem
  | some rows =>
    rw [inserted] at mem
    exact (mem_insert inserted).mp mem

def Effect.starts : Effect → Option JobName
  | .markRunning _ name | .reset _ name => some name
  | _ => none

theorem row_cases (mem : row ∈ (e.run s).rows) :
    e = .insert row ∨ (row ∈ s.rows ∧ ∀ x, e.writes = some x → x.1 ≠ row.id) ∨
      ∃ old ∈ s.rows, ∃ resync, e.writes = some (row.id, row.status, resync) ∧ old.id = row.id ∧
        old.tenantId = row.tenantId ∧ row.k8sJobName = e.starts.or old.k8sJobName := by
  have written : ∀ {id : Nat} {status : Status} {resync : Bool} {f : ImapSyncJob → ImapSyncJob}
      (keeps : ∀ row, (f row).id = row.id), (∀ row, (f row).status = status ∧ (f row).tenantId = row.tenantId ∧
        (f row).k8sJobName = e.starts.or row.k8sJobName) → e.writes = some (id, status, resync) →
      row ∈ s.rows.update (fun row => row.id == id) f keeps →
      (row ∈ s.rows ∧ ∀ x, e.writes = some x → x.1 ≠ row.id) ∨
        ∃ old ∈ s.rows, ∃ resync, e.writes = some (row.id, row.status, resync) ∧ old.id = row.id ∧
          old.tenantId = row.tenantId ∧ row.k8sJobName = e.starts.or old.k8sJobName := by
    intro id status resync f keeps sets writes mem
    rcases (mem_update keeps).mp mem with ⟨old, other⟩ | ⟨old, there, its, rfl⟩
    · refine .inl ⟨old, fun x its same => ?_⟩
      cases some.inj (writes.symm.trans its)
      exact Bool.eq_false_iff.mp other (beq_iff_eq.mpr same.symm)
    · obtain ⟨status_, tenant, name⟩ := sets old
      refine .inr ⟨old, there, resync, ?_, (keeps old).symm, tenant.symm, name⟩
      rw [writes, keeps, status_, beq_iff_eq.mp its]
  cases e with
  | insert new =>
    rcases mem_inserted mem with rfl | old
    · exact .inl rfl
    · exact .inr (.inl ⟨old, nofun⟩)
  | deleteRow id => exact .inr (.inl ⟨(mem_delete.mp mem).1, nofun⟩)
  | finish id status => exact .inr (written (setStatus_id status) (fun _ => ⟨rfl, rfl, rfl⟩) rfl mem)
  | markRunning id name =>
    exact .inr (written (setStarted_id .running name) (fun _ => ⟨rfl, rfl, rfl⟩) rfl mem)
  | reset id name => exact .inr (written (setStarted_id .pending name) (fun _ => ⟨rfl, rfl, rfl⟩) rfl mem)
  | _ => exact .inr (.inl ⟨mem, nofun⟩)

theorem countP_le_add {α : Type} {a b c : α → Bool} {l : List α}
    (covered : ∀ x ∈ l, a x = true → b x = true ∨ c x = true) : l.countP a ≤ l.countP b + l.countP c := by
  induction l with
  | nil => exact Nat.zero_le _
  | cons x rest ih =>
    have tail := ih (fun y mem => covered y (mem_cons_of_mem _ mem))
    have head := covered x mem_cons_self
    simp only [countP_cons]
    split
    · rename_i counts
      rcases head counts with other | other
      · rw [if_pos other]
        omega
      · rw [if_pos other]
        omega
    · omega

theorem activeCount_update (keeps : ∀ row, (f row).id = row.id)
    (tenant : ∀ row, (f row).tenantId = row.tenantId) (tenantId : Nat) :
    ((s.rows.update (fun row => row.id == id) f keeps).selectAll (activeOf tenantId)).length ≤
      activeCount s tenantId + (s.rows.selectAll (fun row => row.id == id && row.tenantId == tenantId &&
        (f row).status.active && !row.status.active)).length := by
  simp only [activeCount, selectAll, update, ← countP_eq_length_filter, countP_map]
  refine countP_le_add (fun row _ active => ?_)
  simp only [Function.comp_apply, apply] at active
  split at active
  · rename_i its
    simp only [activeOf, tenant, Bool.and_eq_true] at active ⊢
    cases was : row.status.active with
    | true => exact .inl ⟨active.1, rfl⟩
    | false => exact .inr (by simp [its, active])
  · exact .inl active

theorem activeCount_run (fits : e.Fits s) (safe : e.Safe s) (tenantId : Nat)
    (limited : activeCount s tenantId ≤ maxActiveImapsyncJobs) :
    activeCount (e.run s) tenantId ≤ maxActiveImapsyncJobs := by
  have none : ∀ {q : ImapSyncJob → Bool}, (∀ row ∈ s.rows, q row = false) → (s.rows.selectAll q).length = 0 := by
    intro q never
    rw [length_eq_zero_iff, selectAll, filter_eq_nil_iff]
    exact fun row mem => Bool.eq_false_iff.mp (never row mem)
  cases e with
  | insert new =>
    simp only [activeCount, Effect.run]
    cases inserted : s.rows.insert new with
    | none => exact limited
    | some rows =>
      rw [getD_some, length_selectAll_insert inserted]
      cases counts : activeOf tenantId new with
      | false => exact limited
      | true =>
        simp only [activeOf, Bool.and_eq_true, beq_iff_eq] at counts
        rw [← counts.1]
        exact safe
  | deleteRow id => exact Nat.le_trans length_selectAll_delete limited
  | finish id status =>
    refine Nat.le_trans (activeCount_update (setStatus_id status) (fun _ => rfl) tenantId) ?_
    rw [none (fun row _ => by simp [setStatus, show status.active = false from fits])]
    exact limited
  | markRunning id name =>
    obtain ⟨pending, there, its, waits, _⟩ := safe
    refine Nat.le_trans (activeCount_update (setStarted_id .running name) (fun _ => rfl) tenantId) ?_
    rw [none (fun row mem => ?_)]
    · exact limited
    by_cases same : row.id = id
    · rw [s.rows.eq_of_key mem there (same.trans its.symm), waits]
      simp [Status.active]
    · simp [same]
  | reset id name =>
    refine Nat.le_trans (activeCount_update (setStarted_id .pending name) (fun _ => rfl) tenantId) ?_
    by_cases own : ∃ row ∈ s.rows, row.id = id ∧ row.tenantId = tenantId
    · obtain ⟨row, mem, its, rfl⟩ := own
      have below := (safe row mem its).2
      have one : (s.rows.selectAll (fun other => other.id == id && other.tenantId == row.tenantId &&
          (setStarted .pending name other).status.active && !other.status.active)).length ≤ 1 := by
        refine selectAll_length_le_one (fun x there y there' selected selected' => ?_)
        simp only [Bool.and_eq_true, beq_iff_eq] at selected selected'
        exact s.rows.eq_of_key there there' (selected.1.1.1.trans selected'.1.1.1.symm)
      omega
    · rw [none (fun row mem => ?_)]
      · exact limited
      by_cases same : row.id = id
      · have other : row.tenantId ≠ tenantId := fun its => own ⟨row, mem, same, its⟩
        simp [other]
      · simp [same]
  | _ => exact limited

theorem changes_run {x : Change} (mem : x ∈ (e.run s).changes) :
    x ∈ s.changes ∨ ∃ row ∈ s.rows, x.id = row.id ∧ x.before = row.status ∧ e.writes = some (row.id, x.after, x.resync) := by
  have new : x ∈ e.changes s ++ s.changes → x ∈ s.changes ∨
      ∃ row ∈ s.rows, x.id = row.id ∧ x.before = row.status ∧ e.writes = some (row.id, x.after, x.resync) := by
    intro mem
    rcases mem_append.mp mem with recorded | old
    · unfold Effect.changes at recorded
      split at recorded
      · cases recorded
      rename_i id after resync writes
      obtain ⟨row, selected, rfl⟩ := mem_map.mp recorded
      obtain ⟨there, its⟩ := mem_selectAll.mp selected
      cases beq_iff_eq.mp its
      exact .inr ⟨row, there, rfl, rfl, writes⟩
    · exact .inl old
  cases e with
  | finish | markRunning | reset => exact new mem
  | _ => exact .inl mem

theorem Rows.run (rows : Rows s) (fits : e.Fits s) (safe : e.Safe s) : Rows (e.run s) where
  ids := by
    have grown : ∀ id ∈ s.ids, id ∈ (e.run s).ids := by
      intro id mem
      cases e <;> simp [Effect.run, mem]
    intro row mem
    rcases row_cases mem with rfl | ⟨old, _⟩ | ⟨old, there, _, _, same, _⟩
    · exact mem_cons_self
    · exact grown row.id (rows.ids row old)
    · exact grown row.id (same ▸ rows.ids old there)
  named := by
    intro row mem name its
    rcases row_cases mem with rfl | ⟨old, _⟩ | ⟨old, there, _, writes, same, _, named⟩
    · rw [fits.2.2] at its
      cases its
    · exact rows.named row old name its
    rw [its] at named
    cases e with
    | finish => exact (rows.named old there name named.symm).trans same
    | markRunning | reset =>
      rw [some.inj named]
      exact fits.trans (Prod.mk.inj (some.inj writes)).1
    | _ => cases writes
  running := by
    intro row mem running
    rcases row_cases mem with rfl | ⟨old, _⟩ | ⟨old, there, _, writes, _, _, named⟩
    · rw [fits.2.1] at running
      cases running
    · exact rows.running row old running
    rw [running] at writes
    cases e with
    | finish =>
      cases some.inj writes
      cases fits
    | markRunning =>
      intro unnamed
      rw [unnamed] at named
      cases named
    | _ => cases writes
  final := by
    intro x mem ended differs
    rcases changes_run mem with old | ⟨row, there, _, before, writes⟩
    · exact rows.final x old ended differs
    rw [before] at ended differs
    cases e with
    | finish id status =>
      obtain ⟨its, rest⟩ := Prod.mk.inj (some.inj writes)
      rcases safe row there its.symm with same | ⟨active, _⟩
      · exact absurd ((Prod.mk.inj rest).1.symm.trans same.symm) differs
      · rw [ended] at active
        cases active
    | markRunning id name =>
      obtain ⟨pending, there', its', waits, _⟩ := safe
      obtain ⟨its, _⟩ := Prod.mk.inj (some.inj writes)
      rw [s.rows.eq_of_key there there' (its.symm.trans its'.symm), waits] at ended
      cases ended
    | reset id name => exact (Prod.mk.inj (Prod.mk.inj (some.inj writes)).2).2.symm
    | _ => cases writes
  limited := fun tenantId => activeCount_run fits safe tenantId (rows.limited tenantId)

theorem activeJob_iff : activeJob s name = true ↔ ∃ job ∈ s.jobs, job.name = name ∧ job.state = .active := by
  simp [activeJob]

theorem mem_updated (keeps : ∀ row, (f row).id = row.id) (mem : row ∈ s.rows)
    (kept : row.id = id → f row = row) : row ∈ s.rows.update (fun row => row.id == id) f keeps := by
  by_cases its : row.id = id
  · exact (mem_update keeps).mpr (.inr ⟨row, mem, beq_iff_eq.mpr its, kept its⟩)
  · exact (mem_update keeps).mpr (.inl ⟨mem, beq_eq_false_iff_ne.mpr its⟩)

theorem Belongs.run (belongs : Belongs s name) (active : activeJob s name = true) (safe : e.Safe s) :
    Belongs (e.run s) name := by
  obtain ⟨row, mem, running, named, secret⟩ := belongs
  cases e with
  | nothing | createJob | deleteJob => exact ⟨row, mem, running, named, secret⟩
  | insert new =>
    refine ⟨row, ?_, running, named, secret⟩
    simp only [Effect.run]
    cases inserted : s.rows.insert new with
    | none => exact mem
    | some rows => exact (mem_insert inserted).mpr (.inr mem)
  | createSecret other =>
    refine ⟨row, mem, running, named, ?_⟩
    simp only [hasSecret, Effect.run, any_cons, Bool.or_eq_true]
    exact .inr secret
  | own other =>
    refine ⟨row, mem, running, named, ?_⟩
    obtain ⟨found, there, its⟩ := any_eq_true.mp secret
    refine any_eq_true.mpr ⟨setOwned other found, mem_map_of_mem there, ?_⟩
    unfold setOwned
    split
    · exact its
    · exact its
  | deleteSecret other =>
    refine ⟨row, mem, running, named, ?_⟩
    obtain ⟨found, there, its⟩ := any_eq_true.mp secret
    refine any_eq_true.mpr ⟨found, mem_filter.mpr ⟨there, bne_iff_ne.mpr (fun same => ?_)⟩, its⟩
    have none : activeJob s other = false := safe
    rw [← same, beq_iff_eq.mp its, active] at none
    cases none
  | finish id status =>
    refine ⟨row, mem_updated (setStatus_id status) mem (fun its => ?_), running, named, secret⟩
    rcases safe row mem its with same | ⟨_, idle⟩
    · rw [← same]
      rfl
    have none := idle name named
    rw [active] at none
    cases none
  | markRunning id other =>
    obtain ⟨pending, there, its', waits, _⟩ := safe
    refine ⟨row, mem_updated (setStarted_id .running other) mem (fun its => ?_), running, named, secret⟩
    rw [s.rows.eq_of_key there mem (its'.trans its.symm), running] at waits
    cases waits
  | reset id other =>
    refine ⟨row, mem_updated (setStarted_id .pending other) mem (fun its => ?_), running, named, secret⟩
    have ended := (safe row mem its).1
    rw [running] at ended
    cases ended
  | deleteRow id =>
    refine ⟨row, mem_delete.mpr ⟨mem, beq_eq_false_iff_ne.mpr (fun its => ?_)⟩, running, named, secret⟩
    have ended := safe row mem its
    rw [running] at ended
    cases ended

theorem belongs_started (safe : (Effect.markRunning id name).Safe s) (active : activeJob s name = true) :
    Belongs ((Effect.markRunning id name).run s) name := by
  obtain ⟨row, mem, its, _, _, secret⟩ := safe
  refine ⟨setStarted .running name row, ?_, rfl, rfl, secret active⟩
  exact (mem_update (setStarted_id .running name)).mpr (.inr ⟨row, mem, beq_iff_eq.mpr its, rfl⟩)

theorem job_cases (mem : job ∈ (e.run s).jobs) : e = .createJob job.name ∨ job ∈ s.jobs := by
  cases e with
  | createJob name =>
    rcases mem_cons.mp mem with rfl | old
    · exact .inl rfl
    · exact .inr old
  | deleteJob name => exact .inr (mem_filter.mp mem).1
  | _ => exact .inr mem

def named : Request → Prop
  | .start t _ => t.name.jobId = t.id
  | _ => True

def plain : Request → Bool
  | .createInsert .. | .start .. | .resyncReset _ => false
  | _ => true

theorem statement_plain (idle : plain r = true) (taken : statement c s d r = some (e, after)) :
    (∀ t at_, after ≠ .next (.start t at_)) ∧ (∀ id, e.writes = some id → e = .finish id.1 .cancelled) ∧
      (∀ row, e ≠ .insert row) ∧ ∀ name, e ≠ .createJob name := by
  have kept : e = .nothing → (∀ id, e.writes = some id → e = .finish id.1 .cancelled) ∧
      (∀ row, e ≠ .insert row) ∧ ∀ name, e ≠ .createJob name := by
    rintro rfl
    exact ⟨nofun, nofun, nofun⟩
  cases r with
  | createInsert | start | resyncReset => cases idle
  | createTotal | createActive | createOwner | resyncActive =>
    simp only [statement, some.injEq, Prod.mk.injEq] at taken
    refine ⟨?_, kept taken.1.symm⟩
    rw [← taken.2]
    split <;> nofun
  | cancelFetch =>
    simp only [statement, some.injEq, Prod.mk.injEq] at taken
    refine ⟨?_, kept taken.1.symm⟩
    rw [← taken.2]
    split
    · nofun
    split
    · split <;> nofun
    · nofun
  | purgeFetch | resyncFetch =>
    simp only [statement, some.injEq, Prod.mk.injEq] at taken
    refine ⟨?_, kept taken.1.symm⟩
    rw [← taken.2]
    split
    · nofun
    · split <;> nofun
  | cancelSelect =>
    simp only [statement, some.injEq, Prod.mk.injEq] at taken
    exact ⟨taken.2 ▸ nofun, kept taken.1.symm⟩
  | cancelUpdate id =>
    simp only [statement, some.injEq, Prod.mk.injEq] at taken
    rw [← taken.1, ← taken.2]
    exact ⟨nofun, fun x writes => by rw [← some.inj writes], nofun, nofun⟩
  | purgeRow id name =>
    simp only [statement, some.injEq, Prod.mk.injEq] at taken
    rw [← taken.1, ← taken.2]
    refine ⟨?_, nofun, nofun, nofun⟩
    split <;> nofun
  | cancelJob | cancelSecret | purgeJob | purgeSecret =>
    simp only [statement, some.injEq, Prod.mk.injEq] at taken
    rw [← taken.1, ← taken.2]
    refine ⟨nofun, ?_⟩
    split <;> exact ⟨nofun, nofun, nofun⟩

theorem startStatement_next (c : Setup) (s : Store) (ok : Bool) (t : Start) (at_ : StartAt) :
    (startStatement c s ok t at_).2 = .answer () ∨ ∃ next, (startStatement c s ok t at_).2 = .next (.start t next) := by
  cases at_ with
  | secret | job =>
    simp only [startStatement]
    split <;> exact .inr ⟨_, rfl⟩
  | failUpdate cleanup => cases cleanup <;> simp [startStatement]
  | reread | cleanSecret => exact .inl rfl
  | _ => exact .inr ⟨_, rfl⟩

theorem startStatement_effect {ok : Bool} (its : (startStatement c s ok t at_).1 = e) :
    e = .nothing ∨ e = .createSecret t.name ∨ e = .own t.name ∨
      e = .deleteJob t.name ∨ e = .deleteSecret t.name ∨ (e = .finish t.id .failed ∧ ∃ cleanup, at_ = .failUpdate cleanup) ∨
      (e = .markRunning t.id t.name ∧ at_ = .mark) ∨
      (e = .createJob t.name ∧ (startStatement c s ok t at_).2 = .next (.start t .patch)) := by
  cases at_ with
  | secret | job =>
    simp only [startStatement] at its ⊢
    split at its <;> simp_all
  | patch | cleanJob | cleanSecret =>
    simp only [startStatement] at its
    split at its <;> simp [← its]
  | _ => simp [← its, startStatement]

theorem statement_start (taken : statement c s d (.start t at_) = some (e, after)) :
    startStatement c s d.ok t at_ = (e, after) :=
  some.inj taken

theorem statement_fits (own : named r) (taken : statement c s d r = some (e, after)) : e.Fits s := by
  cases idle : plain r with
  | true =>
    obtain ⟨_, ends, inserts, _⟩ := statement_plain idle taken
    cases e with
    | insert row => exact absurd rfl (inserts row)
    | finish id status =>
      cases ends _ rfl
      rfl
    | markRunning | reset => cases ends _ rfl
    | _ => trivial
  | false =>
    cases r with
    | createInsert tenantId mailboxId =>
      simp only [statement] at taken
      split at taken
      · cases taken
      rename_i fresh
      cases taken
      exact ⟨fresh, rfl, rfl⟩
    | start t at_ =>
      have effect := startStatement_effect (congrArg Prod.fst (statement_start taken))
      rcases effect with rfl | rfl | rfl | rfl | rfl | ⟨rfl, _⟩ | ⟨rfl, _⟩ | ⟨rfl, _⟩
      case inr.inr.inr.inr.inr.inl => rfl
      case inr.inr.inr.inr.inr.inr.inl => exact own
      all_goals trivial
    | resyncReset id =>
      cases taken
      rfl
    | _ => cases idle

theorem statement_named {next : Request} (own : named r) (taken : statement c s d r = some (e, .next next)) :
    named next := by
  cases idle : plain r with
  | true =>
    have other := (statement_plain idle taken).1
    cases next with
    | start t at_ => exact absurd rfl (other t at_)
    | _ => trivial
  | false =>
    cases r with
    | createInsert tenantId mailboxId =>
      simp only [statement] at taken
      split at taken
      · cases taken
      · cases taken
        rfl
    | start t at_ =>
      have both := statement_start taken
      rcases startStatement_next c s d.ok t at_ with ends | ⟨at', goes⟩
      · rw [both] at ends
        cases ends
      rw [both] at goes
      cases goes
      exact own
    | resyncReset id =>
      simp only [statement, some.injEq, Prod.mk.injEq] at taken
      have goes := taken.2
      split at goes
      · cases goes
        rfl
      · cases goes
    | _ => cases idle

theorem statement_starting (own : starting r = some id) (taken : statement c s d r = some (e, after)) :
    (∃ next, after = .next next ∧ starting next = some id) ∨ ∃ x, e.writes = some x ∧ x.1 = id := by
  cases r with
  | start t at_ =>
    have both := statement_start taken
    cases at_ with
    | reread | cleanJob | cleanSecret => cases own
    | mailbox =>
      cases both
      refine .inl ⟨_, rfl, ?_⟩
      cases (c.tenantOf t.mailboxId).isNone <;> cases t.resync <;> exact own
    | decrypt =>
      cases both
      refine .inl ⟨_, rfl, ?_⟩
      cases d.ok <;> exact own
    | secret | job =>
      simp only [startStatement] at both
      split at both <;>
      · cases both
        exact .inl ⟨_, rfl, own⟩
    | patch | failSelect =>
      cases both
      exact .inl ⟨_, rfl, own⟩
    | mark | failUpdate =>
      cases both
      refine .inr ⟨_, rfl, ?_⟩
      simp only [starting] at own
      split at own
      · cases own
      · exact some.inj own
  | _ => cases own

theorem statement_holding (own : holding r = some name) (taken : statement c s d r = some (e, after)) :
    (∃ next, after = .next next ∧ holding next = some name) ∨ ∃ id, e = .markRunning id name := by
  cases r with
  | start t at_ =>
    cases at_ with
    | patch =>
      cases statement_start taken
      exact .inl ⟨_, rfl, own⟩
    | mark =>
      cases statement_start taken
      cases own
      exact .inr ⟨_, rfl⟩
    | _ => cases own
  | _ => cases own

theorem statement_inserts (taken : statement c s d r = some (.insert row, after)) :
    ∃ next, after = .next next ∧ starting next = some row.id := by
  cases idle : plain r with
  | true => exact absurd rfl ((statement_plain idle taken).2.2.1 row)
  | false =>
    cases r with
    | createInsert tenantId mailboxId =>
      simp only [statement] at taken
      split at taken
      · cases taken
      · cases taken
        exact ⟨_, rfl, rfl⟩
    | start t at_ =>
      have effect := startStatement_effect (congrArg Prod.fst (statement_start taken))
      simp at effect
    | resyncReset id => cases taken
    | _ => cases idle

theorem statement_creates (taken : statement c s d r = some (.createJob name, after)) :
    ∃ next, after = .next next ∧ holding next = some name := by
  cases idle : plain r with
  | true => exact absurd rfl ((statement_plain idle taken).2.2.2 name)
  | false =>
    cases r with
    | createInsert tenantId mailboxId =>
      simp only [statement] at taken
      split at taken <;> cases taken
    | start t at_ =>
      have both := statement_start taken
      have effect := startStatement_effect (congrArg Prod.fst both)
      rw [both] at effect
      simp only [reduceCtorEq, false_and, false_or, Effect.createJob.injEq] at effect
      obtain ⟨rfl, goes⟩ := effect
      exact ⟨_, goes, rfl⟩
    | resyncReset id => cases taken
    | _ => cases idle

structure Steady (w : World) : Prop where
  rows : Rows w.store
  waiting : ∀ row ∈ w.store.rows, row.status = .pending → row.k8sJobName = none →
    ∃ r ∈ w.requests, starting r.task = some row.id
  held : ∀ job ∈ w.store.jobs, job.state = .active →
    Belongs w.store job.name ∨ ∃ r ∈ w.requests, holding r.task = some job.name
  named : ∀ r ∈ w.requests, named r.task

theorem waiting_run (fits : e.Fits s) (mem : row ∈ (e.run s).rows) (pending : row.status = .pending)
    (unnamed : row.k8sJobName = none) : e = .insert row ∨ row ∈ s.rows ∧ ∀ x, e.writes = some x → x.1 ≠ row.id := by
  rcases row_cases mem with new | old | ⟨old, there, _, writes, _, _, named⟩
  · exact .inl new
  · exact .inr old
  rw [pending] at writes
  cases e with
  | finish id status =>
    have ended : status.active = false := fits
    rw [(Prod.mk.inj (Prod.mk.inj (some.inj writes)).2).1] at ended
    cases ended
  | markRunning => cases writes
  | reset =>
    rw [unnamed] at named
    cases named
  | _ => cases writes

theorem Steady.request {w after : World} (steady : Steady w) (safe : Safe c w (.request id d))
    (taken : step c w (.request id d) = some after) : Steady after := by
  obtain ⟨r, selected, ran⟩ := bind_eq_some_iff.mp taken
  obtain ⟨⟨e, goes⟩, stated, rfl⟩ := map_eq_some_iff.mp ran
  obtain ⟨mem, its⟩ := mem_of_select selected
  have its := beq_iff_eq.mp its
  have safe : e.Safe w.store := safe r mem its (e, goes) stated
  have fits := statement_fits (steady.named r mem) stated
  have kept : ∀ {q : Process Request} {next : Request}, q ∈ w.requests → q.id = id → goes = .next next →
      (⟨id, next⟩ : Process Request) ∈ resume w.requests id goes := by
    rintro q next old rfl rfl
    exact mem_resume_self (R := Unit) old
  have same : ∀ {q : Process Request}, q ∈ w.requests → q.id = id → q = r :=
    fun old own => w.requests.eq_of_key old mem (own.trans its.symm)
  refine ⟨steady.rows.run fits safe, ?_, ?_, ?_⟩
  · intro row there pending unnamed
    rcases waiting_run fits there pending unnamed with rfl | ⟨old, others⟩
    · obtain ⟨next, rfl, starts⟩ := statement_inserts stated
      exact ⟨_, kept mem its rfl, starts⟩
    obtain ⟨q, old', starts⟩ := steady.waiting row old pending unnamed
    by_cases own : q.id = id
    · rw [same old' own] at starts
      rcases statement_starting starts stated with ⟨next, rfl, goesOn⟩ | ⟨x, writes, row'⟩
      · exact ⟨_, kept mem its rfl, goesOn⟩
      · exact absurd row' (others x writes)
    · exact ⟨q, mem_resume_other old' own, starts⟩
  · intro job there active
    rcases job_cases there with rfl | old
    · obtain ⟨next, rfl, holds⟩ := statement_creates stated
      exact .inr ⟨_, kept mem its rfl, holds⟩
    have running : activeJob w.store job.name = true := activeJob_iff.mpr ⟨job, old, rfl, active⟩
    rcases steady.held job old active with belongs | ⟨q, old', holds⟩
    · exact .inl (belongs.run running safe)
    by_cases own : q.id = id
    · rw [same old' own] at holds
      rcases statement_holding holds stated with ⟨next, rfl, goesOn⟩ | ⟨row, rfl⟩
      · exact .inr ⟨_, kept mem its rfl, goesOn⟩
      · exact .inl (belongs_started safe running)
    · exact .inr ⟨q, mem_resume_other old' own, holds⟩
  · intro q there
    rcases mem_resume there with ⟨old, _⟩ | ⟨next, rfl, rfl⟩
    · exact steady.named q old
    · exact statement_named (steady.named r mem) stated

theorem Steady.effect {w : World} (steady : Steady w) (fits : e.Fits w.store) (safe : e.Safe w.store)
    (insertsNone : ∀ row, e ≠ .insert row) (createsNone : ∀ name, e ≠ .createJob name)
    (cycles : Table (Process Cycle) Process.id) : Steady { w with
        store := e.run w.store
        cycles } where
  rows := steady.rows.run fits safe
  waiting := by
    intro row there pending unnamed
    rcases waiting_run fits there pending unnamed with new | ⟨old, _⟩
    · exact absurd new (insertsNone row)
    · exact steady.waiting row old pending unnamed
  held := by
    intro job there active
    rcases job_cases there with new | old
    · exact absurd new (createsNone job.name)
    · have running : activeJob w.store job.name = true := activeJob_iff.mpr ⟨job, old, rfl, active⟩
      exact (steady.held job old active).imp (fun belongs => belongs.run running safe) (fun holds => holds)
  named := steady.named

theorem cycleStatement_fits (s : Store) (ok : Bool) (c : Cycle) : (cycleStatement s ok c).1.Fits s ∧
    (∀ row, (cycleStatement s ok c).1 ≠ .insert row) ∧ ∀ name, (cycleStatement s ok c).1 ≠ .createJob name := by
  unfold cycleStatement
  cases c.next with
  | select | look => exact ⟨trivial, nofun, nofun⟩
  | finish row name succeeded =>
    cases ok with
    | false => exact ⟨trivial, nofun, nofun⟩
    | true =>
      refine ⟨?_, nofun, nofun⟩
      cases succeeded <;> rfl
  | deleteJob | deleteSecret => cases ok <;> exact ⟨trivial, nofun, nofun⟩
  | missing row name =>
    cases ok with
    | false => exact ⟨trivial, nofun, nofun⟩
    | true => exact ⟨rfl, nofun, nofun⟩

theorem activeJob_endJob {state : JobState} (ended : state ≠ .active)
    (mem : job ∈ s.jobs.map (endJob name state)) (active : job.state = .active) : job ∈ s.jobs := by
  obtain ⟨old, there, rfl⟩ := mem_map.mp mem
  unfold endJob at active ⊢
  split at active
  · exact absurd active ended
  rename_i same
  rw [if_neg same]
  exact there

theorem Steady.step {w after : World} {action : Action} (steady : Steady w) (safe : Safe c w action)
    (taken : MailImapsync.step c w action = some after) : Steady after := by
  cases action with
  | route id route =>
    obtain ⟨requests, inserted, rfl⟩ := map_eq_some_iff.mp taken
    have more : ∀ r ∈ w.requests, r ∈ requests := fun r old => (mem_insert inserted).mpr (.inr old)
    refine ⟨steady.rows, fun row there pending unnamed => ?_, fun job there active => ?_, fun r there => ?_⟩
    · obtain ⟨r, old, starts⟩ := steady.waiting row there pending unnamed
      exact ⟨r, more r old, starts⟩
    · refine (steady.held job there active).imp (fun belongs => belongs) ?_
      rintro ⟨r, old, holds⟩
      exact ⟨r, more r old, holds⟩
    · rcases (mem_insert inserted).mp there with rfl | old
      · cases route <;> trivial
      · exact steady.named r old
  | request id d => exact steady.request safe taken
  | die id =>
    rw [← some.inj taken]
    have stays : ∀ r ∈ w.requests, starting r.task ≠ none ∨ holding r.task ≠ none →
        r ∈ w.requests.delete (fun r => r.id == id) := by
      intro r old needed
      refine mem_delete.mpr ⟨old, beq_eq_false_iff_ne.mpr (fun its => ?_)⟩
      obtain ⟨none, none'⟩ := safe r old its
      rcases needed with some | some
      · exact some none
      · exact some none'
    refine ⟨steady.rows, fun row there pending unnamed => ?_, fun job there active => ?_, fun r there => ?_⟩
    · obtain ⟨r, old, starts⟩ := steady.waiting row there pending unnamed
      exact ⟨r, stays r old (.inl (starts ▸ nofun)), starts⟩
    · refine (steady.held job there active).imp (fun belongs => belongs) ?_
      rintro ⟨r, old, holds⟩
      exact ⟨r, stays r old (.inr (holds ▸ nofun)), holds⟩
    · exact steady.named r (mem_delete.mp there).1
  | cycle id =>
    obtain ⟨cycles, _, rfl⟩ := map_eq_some_iff.mp taken
    exact ⟨steady.rows, steady.waiting, steady.held, steady.named⟩
  | reconcile id ok =>
    obtain ⟨r, selected, rfl⟩ := map_eq_some_iff.mp taken
    obtain ⟨mem, its⟩ := mem_of_select selected
    obtain ⟨fits, insertsNone, createsNone⟩ := cycleStatement_fits w.store ok r.task
    exact steady.effect fits (safe r mem (beq_iff_eq.mp its)) insertsNone createsNone _
  | cycleDies id =>
    rw [← some.inj taken]
    exact ⟨steady.rows, steady.waiting, steady.held, steady.named⟩
  | finishJob name succeeds =>
    rw [← some.inj taken]
    refine ⟨⟨steady.rows.ids, steady.rows.named, steady.rows.running, steady.rows.final, steady.rows.limited⟩,
      steady.waiting, fun job there active => ?_, steady.named⟩
    refine steady.held job (activeJob_endJob ?_ there active) active
    cases succeeds <;> nofun
  | expireJob name =>
    simp only [MailImapsync.step] at taken
    split at taken
    · cases taken
    · rw [← some.inj taken]
      exact steady.effect (e := .deleteJob name) trivial trivial nofun nofun w.cycles
  | collect name =>
    simp only [MailImapsync.step] at taken
    split at taken
    · cases taken
    rename_i none
    rw [← some.inj taken]
    refine ⟨⟨steady.rows.ids, steady.rows.named, steady.rows.running, steady.rows.final, steady.rows.limited⟩,
      steady.waiting, fun job there active => ?_, steady.named⟩
    refine (steady.held job there active).imp ?_ (fun holds => holds)
    rintro ⟨row, mem, running, named, secret⟩
    refine ⟨row, mem, running, named, ?_⟩
    obtain ⟨found, its, same⟩ := any_eq_true.mp secret
    refine any_eq_true.mpr ⟨found, mem_filter.mpr ⟨its, ?_⟩, same⟩
    refine Bool.or_eq_true_iff.mpr (.inl (bne_iff_ne.mpr (fun gone => none ?_)))
    exact any_eq_true.mpr ⟨job, there, beq_iff_eq.mpr ((beq_iff_eq.mp same).symm.trans gone)⟩

end HostingPlatform.MailImapsync
