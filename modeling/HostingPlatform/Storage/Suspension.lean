import HostingPlatform.Storage.Effects

/-! The three ways into suspension, and the resume after each. Only the request to suspend
scales down what is not a custom deployment, and no resume knows the replicas of one that is. -/
namespace HostingPlatform.Storage

open List Pausing Programs Transition

def suspendActions : List Move :=
  .call .suspendTenant :: List.replicate suspendTenant.body.length (.advance .smooth)

def resumeActions : List Move :=
  .call .resumeTenant :: List.replicate resumeTenant.body.length (.advance .smooth)

/- a request, a bulk operation, and the subscription that has run out, each without an error -/
def suspensions : List (List Move) :=
  [suspendActions, [.bulkUpdateTenantStatus .suspend .smooth], [.suspendExpiredTenants .smooth]]

def AtRest (state : QuiesceSnapshot) : Prop :=
  (∀ entry ∈ state.deployments, entry.2 = 0) ∧ ∀ entry ∈ state.cronJobs, entry.2 = true

/-- A way into suspension leaves the tenant suspended and its workloads in the state `down`,
and a resume after it brings them back to what they were. -/
def Suspends (s : Site) (down : QuiesceSnapshot) (path : List Move) : Prop :=
  ∃ w, exec Work.step (Work.begin s) path = some w ∧ w.site.tenant.status = .suspended ∧
    w.site.workloads = down ∧
    ∃ w', exec Work.step w resumeActions = some w' ∧ w'.site.tenant.status = .active ∧
      w'.site.workloads = s.workloads

/-- All of them lead to the same state of the workloads, with none of them up. -/
def SuspensionsAgree (s : Site) : Prop :=
  ∃ down, AtRest down ∧ ∀ path ∈ suspensions, Suspends s down path

def Site.lastRecord (s : Site) : QuiesceSnapshot :=
  (s.lastSuspend.bind (·.quiesceSnapshot)).getD ⟨[], []⟩

/-- Nothing but custom deployments is up, each with a single replica, nothing is the private
workers', and the last suspension on record left nothing else to bring up. -/
structure OnlyCustomUp (s : Site) : Prop where
  workers : ∀ d ∈ s.deployments, d.name ≠ FRPS_DEPLOYMENT_NAME
  custom : ∀ d ∈ s.deployments, d.labels.custom = true → d.setting = 1
  others : ∀ d ∈ s.deployments, d.labels.custom = false → d.setting = 0
  cronJobs : ∀ c ∈ s.cronJobs, c.setting = true
  lastDeployments : ∀ d ∈ s.deployments, d.labels.custom = false →
    ∀ entry ∈ s.lastRecord.deployments, entry.1 = d.name → entry.2 = 0
  lastCronJobs : ∀ c ∈ s.cronJobs, ∀ entry ∈ s.lastRecord.cronJobs, entry.1 = c.name → entry.2 = true

/- a suspended tenant at rest: its workloads, and the record that a resume goes by -/
structure Suspended (deployments : List Deployment) (cronJobs : List CronJob)
    (snap : QuiesceSnapshot) (w : Work) : Prop where
  status : w.site.tenant.status = .suspended
  idle : w.site.tenant.storageLifecycleState = .idle
  none : w.running = none
  kept : w.deleted = false
  deployments : w.site.deployments = deployments
  cronJobs : w.site.cronJobs = cronJobs
  last : w.site.lastRecord = snap

def cascadeDown (deployments : List Deployment) : List Deployment :=
  (tearDown .smooth deployments).map (scaleCustomK8sDeployments 0 .smooth)

def broughtUp (snap : QuiesceSnapshot) (deployments : List Deployment) : List Deployment :=
  (deployments.map (resume 0 [] snap.deployments)).map (scaleCustomK8sDeployments 1 .smooth)

section Runs
variable {s : Site}

theorem suspend_run (active : s.tenant.status = .active)
    (idle : s.tenant.storageLifecycleState = .idle) (own : s.isSystem = false) :
    ∃ w, exec Work.step (Work.begin s) suspendActions = some w ∧
      Suspended (cascadeDown (s.deployments.map (pause 0 []))) (s.cronJobs.map (pause true [])) s.workloads w := by
  have admitted : s.accept .suspendTenant = some ⟨suspendTenant, none, none⟩ := by
    simp [Site.accept, active]
  have called : Work.step (Work.begin s) (.call .suspendTenant) =
      some ⟨(s.claim ⟨suspendTenant, none, none⟩).1, suspendTenant.program.map
        (fun p => ⟨(s.claim ⟨suspendTenant, none, none⟩).2, p⟩), false⟩ := by
    simp [Work.step, Work.begin, Work.call, idle, admitted]
  have calm : statements.Calm .smooth (s.claim ⟨suspendTenant, none, none⟩) suspendTenant.body :=
    ⟨rfl, rfl, rfl, rfl, trivial⟩
  refine ⟨⟨(statements.after .smooth (s.claim ⟨suspendTenant, none, none⟩) suspendTenant.body).1,
    none, false⟩, ?_, ?_⟩
  · rw [suspendActions, exec, called]
    exact exec_calm calm
  constructor <;>
    simp [Language.after, suspendTenant, statements, Step.act, Site.cascade, Site.claim, own,
      Site.quiesce, Site.write, Fate.takes, Fate.smooth, setStatus, release,
      Site.updateOperation, Step.note, Site.lastRecord, Site.lastSuspend, Table.apply,
      setQuiesceSnapshot, Site.workloads, cascadeDown]

theorem suspended_by_cascade (idle : s.tenant.storageLifecycleState = .idle) (own : s.isSystem = false) :
    Suspended (cascadeDown s.deployments) s.cronJobs s.lastRecord ⟨s.cascade .suspended .smooth, none, false⟩ := by
  constructor <;>
    simp [Site.cascade, own, Fate.takes, Fate.smooth, setStatus, idle, Site.lastRecord,
      Site.lastSuspend, cascadeDown]

theorem bulk_run (idle : s.tenant.storageLifecycleState = .idle) (own : s.isSystem = false) :
    ∃ w, exec Work.step (Work.begin s) [.bulkUpdateTenantStatus .suspend .smooth] = some w ∧
      Suspended (cascadeDown s.deployments) s.cronJobs s.lastRecord w := by
  refine ⟨⟨s.cascade .suspended .smooth, none, false⟩, ?_, suspended_by_cascade idle own⟩
  simp [exec, Work.step, Work.begin, Site.bulkUpdateTenantStatus, own]

theorem expiry_run (active : s.tenant.status = .active)
    (idle : s.tenant.storageLifecycleState = .idle) (own : s.isSystem = false)
    (expired : s.subscriptionExpired = true) :
    ∃ w, exec Work.step (Work.begin s) [.suspendExpiredTenants .smooth] = some w ∧
      Suspended (cascadeDown s.deployments) s.cronJobs s.lastRecord w := by
  refine ⟨⟨s.cascade .suspended .smooth, none, false⟩, ?_, suspended_by_cascade idle own⟩
  simp [exec, Work.step, Work.begin, Site.suspendExpiredTenants, active, own, expired]

end Runs

theorem unquiesced_deployments (s : Site) (snap : Option QuiesceSnapshot) (o : Fate) :
    (snap.elim s (s.unquiesce · o)).deployments =
      s.deployments.map (resume 0 o.missed (snap.getD ⟨[], []⟩).deployments) := by
  cases snap with
  | none => exact (map_id s.deployments).symm
  | some snap => rfl

theorem unquiesced_cronJobs (s : Site) (snap : Option QuiesceSnapshot) (o : Fate) :
    (snap.elim s (s.unquiesce · o)).cronJobs =
      s.cronJobs.map (resume true o.missedJobs (snap.getD ⟨[], []⟩).cronJobs) := by
  cases snap with
  | none => exact (map_id s.cronJobs).symm
  | some snap => rfl

variable {deployments : List Deployment} {cronJobs : List CronJob} {snap : QuiesceSnapshot}

theorem resume_run {w : Work} (suspended : Suspended deployments cronJobs snap w) :
    ∃ w', exec Work.step w resumeActions = some w' ∧ w'.site.tenant.status = .active ∧
      w'.site.deployments = broughtUp snap deployments ∧
      w'.site.cronJobs = cronJobs.map (resume true [] snap.cronJobs) := by
  obtain ⟨s, running, deleted⟩ := w
  obtain ⟨status, idle, rfl, rfl, rfl, rfl, rfl⟩ := suspended
  dsimp only at status idle ⊢
  let a : Admission := ⟨resumeTenant, none, s.lastSuspend.bind (·.quiesceSnapshot)⟩
  have admitted : s.accept .resumeTenant = some a := by simp [Site.accept, status, a]
  have called : Work.step ⟨s, none, false⟩ (.call .resumeTenant) =
      some ⟨(s.claim a).1, resumeTenant.program.map (fun p => ⟨(s.claim a).2, p⟩), false⟩ := by
    simp [Work.step, Work.call, idle, admitted, a]
  have calm : statements.Calm .smooth (s.claim a) resumeTenant.body := ⟨rfl, rfl, rfl, rfl, trivial⟩
  refine ⟨⟨(statements.after .smooth (s.claim a) resumeTenant.body).1, none, false⟩, ?_, ?_⟩
  · rw [resumeActions, exec, called]
    exact exec_calm calm
  refine ⟨?_, ?_, ?_⟩ <;>
    simp [Language.after, resumeTenant, statements, Step.act, Site.claim, a,
      unquiesced_deployments, unquiesced_cronJobs, Site.cascade, Site.write, Fate.takes,
      Fate.smooth, setStatus, release, Site.updateOperation, Site.lastRecord, broughtUp]

theorem suspends_iff {s : Site} {down : QuiesceSnapshot} {path : List Move}
    (run : ∃ w, exec Work.step (Work.begin s) path = some w ∧ Suspended deployments cronJobs snap w) :
    Suspends s down path ↔ ⟨record deployments, record cronJobs⟩ = down ∧
      record (broughtUp snap deployments) = record s.deployments ∧
      record (cronJobs.map (resume true [] snap.cronJobs)) = record s.cronJobs := by
  obtain ⟨w, ran, suspended⟩ := run
  obtain ⟨w', resumed, active, up, jobsUp⟩ := resume_run suspended
  have workloads : w.site.workloads = ⟨record deployments, record cronJobs⟩ := by
    rw [Site.workloads, suspended.deployments, suspended.cronJobs]
  have back : w'.site.workloads = s.workloads ↔ record (broughtUp snap deployments) = record s.deployments ∧
      record (cronJobs.map (resume true [] snap.cronJobs)) = record s.cronJobs := by
    rw [Site.workloads, Site.workloads, QuiesceSnapshot.mk.injEq, up, jobsUp]
  rw [← workloads, ← back]
  constructor
  · rintro ⟨v, ranAlso, _, same, v', resumedAlso, _, kept⟩
    cases ran.symm.trans ranAlso
    cases resumed.symm.trans resumedAlso
    exact ⟨same, kept⟩
  · rintro ⟨same, kept⟩
    exact ⟨w, ran, suspended.status, same, w', resumed, active, kept⟩

section Deployments
variable {deployments : List Deployment}

variable {w : Deployment}

theorem scaleCustom_custom (replicas : Nat) (custom : w.labels.custom = true) :
    (scaleCustomK8sDeployments replicas .smooth w).setting = replicas := by
  simp [scaleCustomK8sDeployments, custom, Fate.smooth]

theorem scaleCustom_other (replicas : Nat) (o : Fate) (other : w.labels.custom = false) :
    scaleCustomK8sDeployments replicas o w = w := by
  simp [scaleCustomK8sDeployments, other]

theorem tearDown_none (workers : ∀ d ∈ deployments, d.name ≠ FRPS_DEPLOYMENT_NAME) :
    tearDown .smooth deployments = deployments := by
  refine filter_eq_self.mpr ?_
  intro d mem
  simp [workers d mem]

theorem tearDown_lost {f : Deployment → Deployment}
    (same : record ((tearDown .smooth deployments).map f) = record deployments) :
    ∀ d ∈ deployments, d.name ≠ FRPS_DEPLOYMENT_NAME := by
  have length : (tearDown .smooth deployments).length = deployments.length := by
    simpa [record] using congrArg length same
  intro d mem
  have kept := length_filter_eq_length_iff.mp length d mem
  simpa [Fate.smooth] using kept

theorem brought_up_setting (snap : List (String × Nat)) (d : Deployment) : (scaleCustomK8sDeployments 1 .smooth
      (resume 0 [] snap (scaleCustomK8sDeployments 0 .smooth d))).setting =
      if d.labels.custom = true then 1 else (resume 0 [] snap d).setting := by
  by_cases custom : d.labels.custom = true
  · rw [if_pos custom]
    refine scaleCustom_custom 1 ?_
    rw [resume_labels, scaleCustom_labels]
    exact custom
  · have other : d.labels.custom = false := by simpa using custom
    rw [if_neg custom, scaleCustom_other 0 .smooth other, scaleCustom_other]
    rw [resume_labels]
    exact other

theorem broughtUp_map (snap : QuiesceSnapshot) (f : Deployment → Deployment) (named : ∀ d, (f d).name = d.name)
    (workers : ∀ d ∈ deployments, d.name ≠ FRPS_DEPLOYMENT_NAME) :
    record (broughtUp snap (cascadeDown (deployments.map f))) = record deployments ↔
      ∀ d ∈ deployments, (if (f d).labels.custom = true then 1
        else (resume 0 [] snap.deployments (f d)).setting) = d.setting := by
  have kept : tearDown .smooth (deployments.map f) = deployments.map f := by
    refine tearDown_none ?_
    intro d mem
    obtain ⟨w, memw, rfl⟩ := mem_map.mp mem
    rw [named]
    exact workers w memw
  rw [broughtUp, cascadeDown, kept, map_map, map_map, map_map, record_map_iff]
  · simp [brought_up_setting]
  intro d
  simp only [Function.comp_apply]
  rw [scaleCustom_name, resume_name, scaleCustom_name, named]

end Deployments

section Agreement
variable {s : Site}

theorem agree_onlyCustomUp (idle : s.tenant.storageLifecycleState = .idle) (own : s.isSystem = false)
    (agree : SuspensionsAgree s) : OnlyCustomUp s := by
  obtain ⟨down, atRest, all⟩ := agree
  obtain ⟨rfl, back, jobsBack⟩ :=
    (suspends_iff (bulk_run idle own)).mp (all [.bulkUpdateTenantStatus .suspend .smooth] (by simp [suspensions]))
  have workers : ∀ d ∈ s.deployments, d.name ≠ FRPS_DEPLOYMENT_NAME := by
    refine tearDown_lost (f := scaleCustomK8sDeployments 1 .smooth ∘
      resume 0 [] s.lastRecord.deployments ∘ scaleCustomK8sDeployments 0 .smooth) ?_
    simpa [broughtUp, cascadeDown] using back
  have up := (broughtUp_map s.lastRecord id (fun _ => rfl) workers).mp (by rwa [map_id])
  have others : ∀ d ∈ s.deployments, d.labels.custom = false → d.setting = 0 := by
    intro d mem other
    refine atRest.1 (d.name, d.setting) ?_
    rw [cascadeDown, tearDown_none workers]
    refine mem_map.mpr ⟨d, ?_, rfl⟩
    exact mem_map.mpr ⟨d, mem, scaleCustom_other 0 .smooth other⟩
  have cronJobs : ∀ c ∈ s.cronJobs, c.setting = true :=
    fun c mem => atRest.2 (c.name, c.setting) (mem_map.mpr ⟨c, mem, rfl⟩)
  refine ⟨workers, ?_, others, cronJobs, ?_, ?_⟩
  · intro d mem custom
    have one := up d mem
    rw [id_eq, if_pos custom] at one
    exact one.symm
  · intro d mem other
    have kept := up d mem
    rw [if_neg (by simp [other])] at kept
    exact (resume_rest_iff (others d mem other)).mp (kept.trans (others d mem other))
  · intro c mem
    have kept := (record_map_iff (fun c => resume_name true [] s.lastRecord.cronJobs c)).mp jobsBack c mem
    exact (resume_rest_iff (cronJobs c mem)).mp (kept.trans (cronJobs c mem))

section

variable (only : OnlyCustomUp s)
include only

theorem OnlyCustomUp.down {d : Deployment} (mem : d ∈ s.deployments) :
    (scaleCustomK8sDeployments 0 .smooth d).setting = 0 := by
  by_cases custom : d.labels.custom = true
  · exact scaleCustom_custom 0 custom
  · rw [scaleCustom_other 0 .smooth (by simpa using custom)]
    exact only.others d mem (by simpa using custom)

theorem OnlyCustomUp.paused_down :
    record (cascadeDown (s.deployments.map (pause 0 []))) = record (cascadeDown s.deployments) := by
  have workers : ∀ d ∈ s.deployments.map (pause 0 []), d.name ≠ FRPS_DEPLOYMENT_NAME := by
    intro d mem
    obtain ⟨w, memw, rfl⟩ := mem_map.mp mem
    exact only.workers w memw
  rw [cascadeDown, cascadeDown, tearDown_none workers, tearDown_none only.workers, record, record,
    map_map, map_map, map_map]
  refine map_congr_left ?_
  intro d mem
  have zero : (scaleCustomK8sDeployments 0 .smooth (pause 0 [] d)).setting = 0 := by
    unfold scaleCustomK8sDeployments
    split
    · rfl
    · exact pause_nothing_missed
  simp [scaleCustom_name, pause_name, zero, only.down mem]

theorem OnlyCustomUp.atRest : AtRest ⟨record (cascadeDown s.deployments), record s.cronJobs⟩ := by
  refine ⟨?_, ?_⟩
  · intro entry mem
    rw [cascadeDown, tearDown_none only.workers] at mem
    obtain ⟨w, memw, rfl⟩ := mem_map.mp mem
    obtain ⟨d, memd, rfl⟩ := mem_map.mp memw
    exact only.down memd
  · intro entry mem
    obtain ⟨c, memc, rfl⟩ := mem_map.mp mem
    exact only.cronJobs c memc

theorem OnlyCustomUp.cascade {path : List Move} (run : ∃ w, exec Work.step (Work.begin s) path = some w ∧
      Suspended (cascadeDown s.deployments) s.cronJobs s.lastRecord w) :
    Suspends s ⟨record (cascadeDown s.deployments), record s.cronJobs⟩ path := by
  refine (suspends_iff run).mpr ⟨rfl, ?_, ?_⟩
  · have up := broughtUp_map s.lastRecord id (fun _ => rfl) only.workers
    rw [map_id] at up
    refine up.mpr ?_
    intro d mem
    split
    · rename_i custom
      exact (only.custom d mem custom).symm
    rename_i other
    have rests := only.others d mem (by simpa using other)
    rw [rests]
    exact (resume_rest_iff rests).mpr (only.lastDeployments d mem (by simpa using other))
  · refine (record_map_iff (fun c => resume_name true [] s.lastRecord.cronJobs c)).mpr ?_
    intro c mem
    have rests := only.cronJobs c mem
    rw [rests]
    exact (resume_rest_iff rests).mpr (only.lastCronJobs c mem)

theorem OnlyCustomUp.quiesced (distinct : (s.deployments.map (·.name)).Nodup)
    (run : ∃ w, exec Work.step (Work.begin s) suspendActions = some w ∧
      Suspended (cascadeDown (s.deployments.map (pause 0 []))) (s.cronJobs.map (pause true []))
        s.workloads w) : Suspends s ⟨record (cascadeDown s.deployments), record s.cronJobs⟩ suspendActions := by
  have jobs : record (s.cronJobs.map (pause true [])) = record s.cronJobs := by
    refine (record_map_iff (fun _ => pause_name)).mpr ?_
    intro c mem
    rw [only.cronJobs c mem]
    exact pause_nothing_missed
  refine (suspends_iff run).mpr ⟨?_, ?_, ?_⟩
  · rw [QuiesceSnapshot.mk.injEq]
    exact ⟨only.paused_down, jobs⟩
  · refine (broughtUp_map s.workloads (pause 0 []) (fun _ => pause_name) only.workers).mpr ?_
    intro d mem
    rw [pause_labels]
    split
    · rename_i custom
      exact (only.custom d mem custom).symm
    rename_i other
    have rests := only.others d mem (by simpa using other)
    rw [rests]
    refine (resume_rest_iff pause_nothing_missed).mpr ?_
    intro entry recorded same
    obtain ⟨d', mem', rfl⟩ := mem_map.mp recorded
    rw [inj_on_of_nodup_map distinct mem' mem same]
    exact rests
  · rw [map_map]
    refine (record_map_iff ?_).mpr ?_
    · intro c
      rw [Function.comp_apply, resume_name, pause_name]
    intro c mem
    rw [only.cronJobs c mem]
    refine (resume_rest_iff pause_nothing_missed).mpr ?_
    intro entry recorded _
    obtain ⟨c', mem', rfl⟩ := mem_map.mp recorded
    exact only.cronJobs c' mem'

end

end Agreement

/-- The three ways agree, and a resume undoes each of them, if and only if nothing but custom
deployments with a single replica was up. The names of the Deployments of a namespace are
distinct. -/
theorem suspensions_agree_iff (s : Site) (active : s.tenant.status = .active)
    (idle : s.tenant.storageLifecycleState = .idle) (own : s.isSystem = false)
    (expired : s.subscriptionExpired = true) (distinct : (s.deployments.map (·.name)).Nodup) :
    SuspensionsAgree s ↔ OnlyCustomUp s := by
  constructor
  · exact agree_onlyCustomUp idle own
  intro only
  refine ⟨_, only.atRest, ?_⟩
  simp only [suspensions, mem_cons, not_mem_nil, or_false, forall_eq_or_imp, forall_eq]
  exact ⟨only.quiesced distinct (suspend_run active idle own), only.cascade (bulk_run idle own),
    only.cascade (expiry_run active idle own expired)⟩

/- one replica of a custom deployment, a CronJob that is suspended anyway -/
def customDemo : Site :=
  { demo with
    subscriptionExpired := true
    deployments := [⟨"web", ⟨true, true⟩, 1⟩]
    cronJobs := [⟨"nightly", ⟨false, true⟩, true⟩] }

theorem custom_suspensions_agree : SuspensionsAgree customDemo := by
  refine (suspensions_agree_iff customDemo rfl rfl rfl rfl (by decide)).mpr ?_
  constructor <;> simp [customDemo, Site.lastRecord, Site.lastSuspend, demo, FRPS_DEPLOYMENT_NAME]

/-- Three replicas of a catalog deployment: a bulk suspension leaves them up. -/
theorem catalog_suspensions_differ : ¬ SuspensionsAgree { demo with subscriptionExpired := true } := by
  rintro ⟨down, atRest, all⟩
  obtain ⟨w, ran, _, rfl, _⟩ := all [.bulkUpdateTenantStatus .suspend .smooth] (by simp [suspensions])
  cases ran
  exact absurd (atRest.1 ("web", 3) (by decide)) (by decide)

end HostingPlatform.Storage
