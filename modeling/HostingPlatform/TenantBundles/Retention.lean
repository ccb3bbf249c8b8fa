import HostingPlatform.TenantBundles.Orchestrator
import HostingPlatform.Transition

/-! The sweep that expires bundles. The database may return the rows of a SELECT without an
ORDER BY in any order; a target either takes every call or rejects every call. -/
namespace HostingPlatform.TenantBundles.Retention

open List Transition

/- the bundles of a target are named by target and bundle -/
structure Site where
  jobs : BackupJobs
  stored : List (Nat × Nat)

def isExpired (now : Int) (job : BackupJob) : Bool :=
  job.expiresAt.any (fun expiresAt => decide (expiresAt < now)) &&
    (job.status == .completed || job.status == .partialBundle || job.status == .failed)

def perTick : Nat := 50

/- SELECT … LIMIT 50 -/
def expiredCandidates (now : Int) (order : List BackupJob) : List BackupJob :=
  (order.filter (isExpired now)).take perTick

def markExpired (job : BackupJob) : BackupJob := { job with status := .expired }

theorem markExpired_id (job : BackupJob) : (markExpired job).id = job.id := rfl

def setExpired (jobs : BackupJobs) (id : Nat) : BackupJobs :=
  jobs.update (fun job => job.id == id) markExpired markExpired_id

/- a bundle that the target no longer has is expired all the same; where a call is rejected the
row is left for the next tick -/
def expireOne (reachable : Nat → Bool) (s : Site) (candidate : BackupJob) : Site :=
  match candidate.targetConfigId with
  | none => { s with jobs := setExpired s.jobs candidate.id }
  | some target =>
    if reachable target then
      { jobs := setExpired s.jobs candidate.id
        stored := s.stored.filter (fun bundle => bundle != (target, candidate.id)) }
    else s

def expireAll (reachable : Nat → Bool) (s : Site) (candidates : List BackupJob) : Site :=
  candidates.foldl (expireOne reachable) s

/- the part of runRetentionSweep that expires bundles -/
def sweep (reachable : Nat → Bool) (now : Int) (s : Site) (order : List BackupJob) : Site :=
  expireAll reachable s (expiredCandidates now order)

def step (reachable : Nat → Bool) (now : Int) (s : Site) (order : List BackupJob) : Option Site :=
  if order.Perm s.jobs.rows then some (sweep reachable now s order) else none

/- a bundle that the sweep need not reach anything for, or can -/
def expirable (reachable : Nat → Bool) (job : BackupJob) : Bool := job.targetConfigId.all reachable

/- the expired bundles that the sweep can expire, and those that it cannot -/
def healthy (reachable : Nat → Bool) (now : Int) (jobs : List BackupJob) : List BackupJob :=
  jobs.filter (fun job => isExpired now job && expirable reachable job)

def stuck (reachable : Nat → Bool) (now : Int) (jobs : List BackupJob) : List BackupJob :=
  jobs.filter (fun job => isExpired now job && !expirable reachable job)

/-- Every expired bundle of a reachable target is expired once there were enough sweeps. -/
def EventuallyExpired (reachable : Nat → Bool) (now : Int) (s : Site) : Prop :=
  ∃ enough, ∀ orders s', orders.length = enough → exec (step reachable now) s orders = some s' →
    ∀ job ∈ s'.jobs, ∀ target, job.targetConfigId = some target → reachable target = true →
      isExpired now job = false

def marked (ids : List Nat) (job : BackupJob) : BackupJob :=
  if job.id ∈ ids then markExpired job else job

theorem marked_nil : marked [] = id := by
  funext job
  simp [marked]

theorem marked_marked (ids ids' : List Nat) (job : BackupJob) :
    marked ids' (marked ids job) = marked (ids ++ ids') job := by
  unfold marked
  by_cases first : job.id ∈ ids <;> by_cases second : job.id ∈ ids' <;>
    simp [first, markExpired]

theorem isExpired_markExpired (now : Int) (job : BackupJob) : isExpired now (markExpired job) = false := by
  simp [isExpired, markExpired]

variable {now : Int} {ids : List Nat} {reachable : Nat → Bool} {candidate : BackupJob}
  {candidates order : List BackupJob} {A : Type} {p : A → Bool} {f : A → A} {s : Site}

theorem marked_eq_self {job : BackupJob} (expired : isExpired now (marked ids job) = true) : marked ids job = job := by
  unfold marked at expired ⊢
  split
  · rename_i mem
    rw [if_pos mem, isExpired_markExpired] at expired
    contradiction
  · rfl

theorem rows_setExpired (jobs : BackupJobs) (id : Nat) : (setExpired jobs id).rows = jobs.rows.map (marked [id]) := by
  simp only [setExpired, Table.update]
  congr 1
  funext job
  simp [Table.apply, marked]

theorem expireOne_left (left : expirable reachable candidate = false) (s : Site) :
    expireOne reachable s candidate = s := by
  unfold expirable at left
  unfold expireOne
  cases target : candidate.targetConfigId with
  | none =>
    rw [target] at left
    contradiction
  | some target' =>
    rw [target] at left
    have rejected : reachable target' = false := left
    simp [rejected]

theorem rows_expireOne (taken : expirable reachable candidate = true) (s : Site) :
    (expireOne reachable s candidate).jobs.rows = s.jobs.rows.map (marked [candidate.id]) := by
  unfold expirable at taken
  unfold expireOne
  cases target : candidate.targetConfigId with
  | none => exact rows_setExpired s.jobs candidate.id
  | some target' =>
    rw [target] at taken
    have reached : reachable target' = true := taken
    simp [reached, rows_setExpired]

theorem expireAll_left (left : ∀ c ∈ candidates, expirable reachable c = false) (s : Site) :
    expireAll reachable s candidates = s := by
  unfold expireAll
  induction candidates with
  | nil => rfl
  | cons c rest ih =>
    rw [foldl_cons, expireOne_left (left c mem_cons_self)]
    exact ih (fun c mem => left c (mem_cons_of_mem _ mem))

theorem rows_expireAll (reachable : Nat → Bool) (s : Site) (candidates : List BackupJob) :
    (expireAll reachable s candidates).jobs.rows =
      s.jobs.rows.map (marked ((candidates.filter (expirable reachable)).map BackupJob.id)) := by
  unfold expireAll
  induction candidates generalizing s with
  | nil => simp [marked_nil]
  | cons c rest ih =>
    rw [foldl_cons, ih]
    by_cases taken : expirable reachable c = true
    · rw [rows_expireOne taken, filter_cons_of_pos taken, map_map]
      congr 1
      funext job
      exact marked_marked [c.id] _ job
    · rw [expireOne_left (by simpa using taken), filter_cons_of_neg taken]

theorem filter_map_le (l : List A) (fewer : ∀ a, p (f a) = true → p a = true) :
    ((l.map f).filter p).length ≤ (l.filter p).length := by
  rw [filter_map, length_map]
  exact (monotone_filter_right l fewer).length_le

theorem filter_map_lt {l : List A} {a : A} (fewer : ∀ a, p (f a) = true → p a = true) (mem : a ∈ l)
    (before : p a = true) (after : p (f a) = false) : ((l.map f).filter p).length < (l.filter p).length := by
  have nested : l.filter (p ∘ f) = (l.filter p).filter (p ∘ f) := by
    rw [filter_filter]
    congr 1
    funext b
    cases kept : p (f b) with
    | false => simp [kept]
    | true => simp [fewer b kept]
  rw [filter_map, length_map, nested]
  refine length_filter_lt_length_iff_exists.mpr ⟨a, mem_filter.mpr ⟨mem, before⟩, ?_⟩
  simp [after]

theorem fewer_expired (q : BackupJob → Bool) (job : BackupJob)
    (after : (isExpired now (marked ids job) && q (marked ids job)) = true) : (isExpired now job && q job) = true := by
  have same := marked_eq_self (Bool.and_eq_true_iff.mp after).1
  rwa [same] at after

theorem stuck_expireAll (reachable : Nat → Bool) (now : Int) (s : Site) (candidates : List BackupJob) :
    (stuck reachable now (expireAll reachable s candidates).jobs.rows).length ≤
      (stuck reachable now s.jobs.rows).length := by
  rw [rows_expireAll]
  exact filter_map_le s.jobs.rows (fewer_expired fun job => !expirable reachable job)

theorem healthy_expireAll (reachable : Nat → Bool) (now : Int) (s : Site) (candidates : List BackupJob) :
    (healthy reachable now (expireAll reachable s candidates).jobs.rows).length ≤
      (healthy reachable now s.jobs.rows).length := by
  rw [rows_expireAll]
  exact filter_map_le s.jobs.rows (fewer_expired (expirable reachable))

theorem healthy_expireAll_lt {c : BackupJob} (chosen : c ∈ candidates) (mem : c ∈ s.jobs.rows)
    (expired : isExpired now c = true) (taken : expirable reachable c = true) :
    (healthy reachable now (expireAll reachable s candidates).jobs.rows).length <
      (healthy reachable now s.jobs.rows).length := by
  have marks : c.id ∈ (candidates.filter (expirable reachable)).map BackupJob.id :=
    mem_map.mpr ⟨c, mem_filter.mpr ⟨chosen, taken⟩, rfl⟩
  rw [rows_expireAll]
  apply filter_map_lt (fewer_expired (expirable reachable)) mem
  · rw [expired, taken]
    rfl
  · rw [marked, if_pos marks, isExpired_markExpired, Bool.false_and]

theorem exists_taken {rows : List BackupJob} (perm : order.Perm rows)
    (few : (stuck reachable now rows).length < perTick) (some : 0 < (healthy reachable now rows).length) :
    ∃ c ∈ expiredCandidates now order, expirable reachable c = true := by
  by_contra none
  push Not at none
  have refused : ∀ c ∈ expiredCandidates now order, (!expirable reachable c) = true := by
    intro c mem
    simpa using none c mem
  have within : (expiredCandidates now order).length ≤ (stuck reachable now order).length := by
    have sub : (expiredCandidates now order).Sublist (order.filter (isExpired now)) := take_sublist perTick _
    have kept := sub.filter (fun c => !expirable reachable c)
    rw [filter_eq_self.mpr refused] at kept
    refine Nat.le_trans kept.length_le (Nat.le_of_eq ?_)
    simp [stuck, Bool.and_comm]
  have short : (expiredCandidates now order).length < perTick := by
    refine Nat.lt_of_le_of_lt within ?_
    rwa [stuck, (perm.filter _).length_eq]
  have all : expiredCandidates now order = order.filter (isExpired now) := by
    refine take_of_length_le ?_
    unfold expiredCandidates at short
    rw [length_take] at short
    omega
  obtain ⟨c, mem⟩ := exists_mem_of_length_pos some
  obtain ⟨there, kind⟩ := mem_filter.mp mem
  obtain ⟨expired, taken⟩ := Bool.and_eq_true_iff.mp kind
  have chosen : c ∈ expiredCandidates now order := by
    rw [all]
    exact mem_filter.mpr ⟨perm.mem_iff.mpr there, expired⟩
  exact none c chosen taken

theorem healthy_sweep (perm : order.Perm s.jobs.rows) (few : (stuck reachable now s.jobs.rows).length < perTick) :
    (healthy reachable now (sweep reachable now s order).jobs.rows).length ≤
      (healthy reachable now s.jobs.rows).length - 1 := by
  by_cases some : 0 < (healthy reachable now s.jobs.rows).length
  · obtain ⟨c, chosen, taken⟩ := exists_taken perm few some
    obtain ⟨there, expired⟩ := mem_filter.mp (mem_of_mem_take chosen)
    have less := healthy_expireAll_lt chosen (perm.mem_iff.mp there) expired taken
    exact Nat.le_sub_one_of_lt less
  · have kept := healthy_expireAll reachable now s (expiredCandidates now order)
    rw [sweep]
    omega

theorem healthy_sweeps {s' : Site} {orders : List (List BackupJob)}
    (few : (stuck reachable now s.jobs.rows).length < perTick) (run : exec (step reachable now) s orders = some s') :
    (healthy reachable now s'.jobs.rows).length ≤ (healthy reachable now s.jobs.rows).length - orders.length := by
  induction orders generalizing s with
  | nil =>
    cases run
    exact Nat.le_refl _
  | cons order rest ih =>
    obtain ⟨between, taken, tail⟩ := exec_cons run
    unfold step at taken
    split at taken
    · rename_i perm
      cases taken
      have fewer := stuck_expireAll reachable now s (expiredCandidates now order)
      have first := healthy_sweep perm few
      have later := ih (Nat.lt_of_le_of_lt fewer few) tail
      rw [← sweep] at later
      rw [length_cons]
      omega
    · contradiction

def stuckFirst (reachable : Nat → Bool) (now : Int) (jobs : List BackupJob) : List BackupJob :=
  stuck reachable now jobs ++ jobs.filter (fun job => !(isExpired now job && !expirable reachable job))

theorem stuckFirst_perm (reachable : Nat → Bool) (now : Int) (jobs : List BackupJob) :
    (stuckFirst reachable now jobs).Perm jobs :=
  filter_append_perm _ jobs

theorem step_stuckFirst (many : perTick ≤ (stuck reachable now s.jobs.rows).length) :
    step reachable now s (stuckFirst reachable now s.jobs.rows) = some s := by
  have all : (stuck reachable now s.jobs.rows).filter (isExpired now) = stuck reachable now s.jobs.rows := by
    refine filter_eq_self.mpr ?_
    intro c mem
    exact (Bool.and_eq_true_iff.mp (mem_filter.mp mem).2).1
  have first : expiredCandidates now (stuckFirst reachable now s.jobs.rows) =
      (stuck reachable now s.jobs.rows).take perTick := by
    rw [expiredCandidates, stuckFirst, filter_append, all, take_append_of_le_length many]
  rw [step, if_pos (stuckFirst_perm reachable now s.jobs.rows), sweep, first, expireAll_left]
  intro c mem
  have kind := (mem_filter.mp (mem_of_mem_take mem)).2
  simpa using (Bool.and_eq_true_iff.mp kind).2

theorem exec_stuckFirst (many : perTick ≤ (stuck reachable now s.jobs.rows).length) (n : Nat) :
    exec (step reachable now) s (replicate n (stuckFirst reachable now s.jobs.rows)) = some s := by
  induction n with
  | zero => rfl
  | succ n ih =>
    rw [replicate_succ, exec, step_stuckFirst many]
    exact ih

/-- Every bundle of a reachable target is expired after a bounded number of sweeps, whatever the
order of the rows, if and only if fewer bundles than a sweep takes are stuck, or there is nothing
to expire. -/
theorem eventually_expired_iff (reachable : Nat → Bool) (now : Int) (s : Site) : EventuallyExpired reachable now s ↔
      (stuck reachable now s.jobs.rows).length < perTick ∨
        ∀ job ∈ s.jobs, ∀ target, job.targetConfigId = some target → reachable target = true →
          isExpired now job = false := by
  constructor
  · rintro ⟨enough, expired⟩
    by_cases few : (stuck reachable now s.jobs.rows).length < perTick
    · exact .inl few
    · have stays := exec_stuckFirst (Nat.le_of_not_lt few) enough
      exact .inr (expired _ s length_replicate stays)
  rintro (few | nothing)
  · refine ⟨(healthy reachable now s.jobs.rows).length, ?_⟩
    intro orders s' length run job mem target own reached
    have none := healthy_sweeps few run
    cases expired : isExpired now job with
    | false => rfl
    | true =>
      have taken : expirable reachable job = true := by
        rw [expirable, own]
        exact reached
      have there : job ∈ healthy reachable now s'.jobs.rows :=
        mem_filter.mpr ⟨mem, Bool.and_eq_true_iff.mpr ⟨expired, taken⟩⟩
      have some := length_pos_of_mem there
      omega
  · refine ⟨0, ?_⟩
    intro orders s' length run
    rw [length_eq_zero_iff.mp length] at run
    cases run
    exact nothing

/- bundles that expired at time 0, the first on target 1 and all others on target 2 -/
def aJob (id : Nat) : BackupJob where
  id := id
  tenantId := 1
  status := .completed
  targetConfigId := some (if id = 0 then 1 else 2)
  retentionDays := 30
  expiresAt := some 0
  startedAt := some 0
  finishedAt := some 0
  sizeBytes := 0
  exportArtifact := none
  lastError := none

theorem aJob_id : BackupJob.id ∘ aJob = id := rfl

def aSite (bundles : Nat) : Site where
  jobs := ⟨(List.range bundles).map aJob, by
    rw [List.map_map, aJob_id, List.map_id]
    exact List.nodup_range⟩
  stored := (List.range bundles).map (fun id => (if id = 0 then 1 else 2, id))

/-- Fifty bundles of a target that rejects every call keep the one of another target for good. -/
theorem unreachable_target_blocks :
    ¬ ∀ (reachable : Nat → Bool) (now : Int) (s : Site), EventuallyExpired reachable now s := by
  intro always
  obtain ⟨enough, expired⟩ := always (fun target => target == 1) 5 (aSite 51)
  have many : perTick ≤ (stuck (fun target => target == 1) 5 (aSite 51).jobs.rows).length := by decide
  have stays := exec_stuckFirst many enough
  have blocked := expired _ _ length_replicate stays (aJob 0) (mem_cons_self ..) 1 rfl rfl
  exact Bool.noConfusion blocked

end HostingPlatform.TenantBundles.Retention
