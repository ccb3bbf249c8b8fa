import HostingPlatform.TenantBundles.Orchestrator

/-! What a bundle says of the components that were asked for. A branch reports its failure, or
the failure is lost with its promise, or its row is settled. -/
namespace HostingPlatform.TenantBundles.Failures

open List Orchestrator

def ComponentRow.settled (r : ComponentRow) : Bool := r.status == .completed || r.status == .skipped

/- the branch comes to the INSERT of its row -/
def starts (w : World) : ComponentName → Bool
  | .files => w.k8s
  | .config => true
  | .secrets => w.k8s
  | .mailboxes => w.k8s && w.platformApiUrl

def inserted (w : World) (c : ComponentName) : Bool := (w.rejects (.insertRow c)).isNone

/- the branch is to mark its row skipped -/
def nothingToCapture (w : World) : ComponentName → Bool
  | .files => w.platformApiUrl && (match w.pvc with
    | .ok false => true
    | _ => false)
  | .config => false
  | .secrets => !tenantNamespaceHasSecrets w
  | .mailboxes => countTenantMailboxes w == 0

def captureFails (w : World) : ComponentName → Bool
  | .files => !w.platformApiUrl || (match w.pvc, w.filesJob with
    | .ok true, .ok _ => false
    | _, _ => true)
  | .config => w.configDump.toOption.isNone
  | .secrets => w.secretsDump.toOption.isNone
  | .mailboxes => w.mailboxesJob.toOption.isNone

/- a failure that the branch pushes on the list of errors -/
def reports (w : World) (c : ComponentName) : Bool :=
  !starts w c ||
    inserted w c && !nothingToCapture w c && (captureFails w c || (w.rejects (.markDone c)).isSome)

/- a failure that nothing catches: of the INSERT of the row, or of the UPDATE to `skipped` -/
def loses (w : World) (c : ComponentName) : Bool :=
  starts w c && (!inserted w c || nothingToCapture w c && (w.rejects (.markSkipped c)).isSome)

def isSkip : Except CaptureError Captured → Bool
  | .error (.skipped _) => true
  | .error (.failed _) | .ok _ => false

def isFailure : Except CaptureError Captured → Bool
  | .ok _ => false
  | .error _ => true

variable {w : World} {row : ComponentRow}
  {reason artifactName message rowMessage kubernetesNamespace : String} {c : ComponentName}
  {skip : Option String} {attempt : Except CaptureError Captured} {written stored : List Artifact}
  {result : Option Captured} {input : RunBundleInput} {job : BackupJob} {bs : List Branch} {r : Result}

theorem skipRow_error : (skipRow w row reason).error = none := by
  unfold skipRow
  split <;> rfl

theorem failRow_error {w : World} {row : ComponentRow} {message : String} {result : Option Captured}
    {written : List Artifact} : (failRow w row message result written).error.isSome = true := by
  unfold failRow
  split <;> rfl

theorem unavailable_error {w : World} {c : ComponentName} {artifactName message rowMessage : String} :
    (unavailable w c artifactName message rowMessage).error.isSome = true := by
  unfold unavailable
  split <;> rfl

theorem captureComponent_error {nothing fails : Bool} (skips : nothing = (skip.isSome || isSkip attempt))
    (failing : nothing = false → fails = isFailure attempt) :
    (captureComponent w c artifactName skip attempt written).error.isSome =
      (inserted w c && !nothing && (fails || (w.rejects (.markDone c)).isSome)) := by
  unfold captureComponent inserted
  cases insert : w.rejects (.insertRow c) with
  | some message => rfl
  | none =>
    cases skip with
    | some reason =>
      subst skips
      simp [skipRow_error]
    | none =>
      cases attempt with
      | error e =>
        cases e with
        | skipped reason =>
          subst skips
          simp [skipRow_error, isSkip]
        | failed message =>
          subst skips
          simp [failRow_error, isFailure, isSkip, failing rfl]
      | ok captured =>
        subst skips
        cases done : w.rejects (.markDone c) with
        | none => simp [isFailure, failing rfl]
        | some message => simp [failRow_error, isSkip]

def Branch.settled (b : Branch) : Bool := b.row.any ComponentRow.settled

theorem unavailable_settled : Branch.settled (unavailable w c artifactName message rowMessage) = false := by
  unfold unavailable
  split <;> rfl

theorem skipRow_settled (running : row.status = .running) :
    Branch.settled (skipRow w row reason) = (w.rejects (.markSkipped row.component)).isNone := by
  unfold skipRow
  split
  · rename_i done
    rw [done]
    rfl
  · rename_i message failed
    rw [failed]
    simp [Branch.settled, ComponentRow.settled, running]

theorem failRow_settled (running : row.status = .running) :
    Branch.settled (failRow w row message result written) = false := by
  unfold failRow
  split
  · rfl
  · simp [Branch.settled, ComponentRow.settled, running]

theorem captureComponent_settled {nothing fails : Bool} (skips : nothing = (skip.isSome || isSkip attempt))
    (failing : nothing = false → fails = isFailure attempt) :
    Branch.settled (captureComponent w c artifactName skip attempt written) =
      (inserted w c && (if nothing then (w.rejects (.markSkipped c)).isNone
        else !fails && (w.rejects (.markDone c)).isNone)) := by
  unfold captureComponent inserted
  cases insert : w.rejects (.insertRow c) with
  | some message => rfl
  | none =>
    cases skip with
    | some reason =>
      subst skips
      simp [skipRow_settled]
    | none =>
      cases attempt with
      | error e =>
        cases e with
        | skipped reason =>
          subst skips
          simp [skipRow_settled, isSkip]
        | failed message =>
          subst skips
          simp [failRow_settled, isFailure, isSkip, failing rfl]
      | ok captured =>
        subst skips
        cases done : w.rejects (.markDone c) with
        | none => simp [isFailure, isSkip, failing rfl, Branch.settled, ComponentRow.settled]
        | some message => simp [failRow_settled, isSkip]

/-- A branch that reports nothing is rejected exactly when its row is not settled. -/
def Branch.Plain (b : Branch) : Prop := b.error = none → b.rejected = !Branch.settled b

theorem unavailable_plain : Branch.Plain (unavailable w c artifactName message rowMessage) := by
  intro none
  have some := @unavailable_error w c artifactName message rowMessage
  rw [none] at some
  contradiction

theorem skipRow_plain (running : row.status = .running) : Branch.Plain (skipRow w row reason) := by
  intro _
  rw [skipRow_settled running]
  unfold skipRow
  split
  · rename_i done
    rw [done]
    rfl
  · rename_i failed
    rw [failed]
    rfl

theorem failRow_plain : Branch.Plain (failRow w row message result written) := by
  intro none
  have some := @failRow_error w row message result written
  rw [none] at some
  contradiction

theorem captureComponent_plain : Branch.Plain (captureComponent w c artifactName skip attempt written) := by
  unfold captureComponent
  split
  · exact fun _ => rfl
  split
  · exact skipRow_plain rfl
  · exact skipRow_plain rfl
  · exact failRow_plain
  split
  · exact fun _ => rfl
  · exact failRow_plain

theorem captureComponent_component :
    ∀ r ∈ (captureComponent w c artifactName skip attempt written).row, r.component = c := by
  unfold captureComponent skipRow failRow
  grind

theorem unavailable_component : ∀ r ∈ (unavailable w c artifactName message rowMessage).row, r.component = c := by
  unfold unavailable
  grind

/- how what a branch leaves follows from the world -/
structure Fate (w : World) (c : ComponentName) (b : Branch) : Prop where
  error : b.error.isSome = reports w c
  settled : Branch.settled b = (!reports w c && !loses w c)
  plain : Branch.Plain b
  component : ∀ r ∈ b.row, r.component = c

theorem fate_unavailable (unavailableThere : starts w c = false) :
    Fate w c (unavailable w c artifactName message rowMessage) where
  error := by simp [reports, unavailableThere, unavailable_error]
  settled := by simp [reports, unavailableThere, unavailable_settled]
  plain := unavailable_plain
  component := unavailable_component

theorem fate_captureComponent (started : starts w c = true)
    (skips : nothingToCapture w c = (skip.isSome || isSkip attempt))
    (failing : nothingToCapture w c = false → captureFails w c = isFailure attempt) :
    Fate w c (captureComponent w c artifactName skip attempt written) where
  error := by
    rw [captureComponent_error skips failing, reports, started]
    rfl
  settled := by
    rw [captureComponent_settled skips failing, reports, loses, started]
    cases inserted w c <;> cases nothingToCapture w c <;> cases captureFails w c <;>
      cases w.rejects (.markDone c) <;> cases w.rejects (.markSkipped c) <;> rfl
  plain := captureComponent_plain
  component := captureComponent_component

theorem isFailure_attempted (e : Except String Captured) : isFailure (attempted e) = e.toOption.isNone := by
  cases e <;> rfl

theorem isSkip_attempted (e : Except String Captured) : isSkip (attempted e) = false := by
  cases e <;> rfl

/- the name in the row of a component, and what the component writes to the store -/
def rowArtifact : ComponentName → String
  | .files => "archive.tar.gz"
  | .config => "db-rows.json.gz"
  | .secrets => "tls.json.gz.enc"
  | .mailboxes => "__pending__"

def writes : ComponentName → List Artifact
  | .config => [(.config, "db-rows.json.gz")]
  | .secrets => [(.secrets, "tls.json.gz.enc")]
  | .files | .mailboxes => []

/-- A branch that has started, as a capture, which the world decides. -/
def Started (w : World) (c : ComponentName) (b : Branch) : Prop :=
  ∃ skip attempt, b = captureComponent w c (rowArtifact c) skip attempt (writes c) ∧
    nothingToCapture w c = (skip.isSome || isSkip attempt) ∧
    (nothingToCapture w c = false → captureFails w c = isFailure attempt)

def Unavailable (w : World) (c : ComponentName) (b : Branch) : Prop :=
  ∃ message rowMessage, b = unavailable w c (rowArtifact c) message rowMessage

theorem files_starts (kubernetesNamespace : String) (started : w.k8s = true) :
    Started w .files (filesBranch w kubernetesNamespace) := by
  unfold filesBranch
  rw [if_pos started]
  refine ⟨_, _, rfl, ?_, ?_⟩
  · cases url : w.platformApiUrl with
    | false => simp [nothingToCapture, url, isSkip]
    | true =>
      rcases pvc : w.pvc with message | (_ | _)
      · simp [nothingToCapture, captureFilesComponent, pvc, isSkip]
      · simp [nothingToCapture, url, captureFilesComponent, pvc, isSkip]
      · simp [nothingToCapture, captureFilesComponent, pvc, isSkip_attempted]
  · intro something
    cases url : w.platformApiUrl with
    | false => simp [captureFails, url, isFailure]
    | true =>
      rcases pvc : w.pvc with message | (_ | _)
      · simp [captureFails, captureFilesComponent, pvc, isFailure]
      · simp [nothingToCapture, url, pvc] at something
      · cases job : w.filesJob <;>
          simp [captureFails, url, captureFilesComponent, pvc, job, attempted, isFailure]

theorem config_starts (w : World) : Started w .config (configBranch w) :=
  ⟨none, _, rfl, (isSkip_attempted w.configDump).symm, fun _ => (isFailure_attempted w.configDump).symm⟩

theorem secrets_starts (kubernetesNamespace : String) (started : w.k8s = true) :
    Started w .secrets (secretsBranch w kubernetesNamespace) := by
  unfold secretsBranch
  rw [if_pos started]
  refine ⟨_, _, rfl, ?_, fun _ => (isFailure_attempted w.secretsDump).symm⟩
  rw [isSkip_attempted, nothingToCapture]
  cases tenantNamespaceHasSecrets w <;> rfl

theorem mailboxes_starts (k8s : w.k8s = true) (url : w.platformApiUrl = true) :
    Started w .mailboxes (mailboxesBranch w) := by
  unfold mailboxesBranch
  rw [k8s, url]
  refine ⟨_, _, rfl, ?_, fun _ => (isFailure_attempted w.mailboxesJob).symm⟩
  rw [isSkip_attempted, nothingToCapture]
  by_cases empty : countTenantMailboxes w = 0 <;> simp [empty]

theorem branch_cases (w : World) (kubernetesNamespace : String) (c : ComponentName) :
    starts w c = true ∧ Started w c (branch w kubernetesNamespace c) ∨
      starts w c = false ∧ Unavailable w c (branch w kubernetesNamespace c) := by
  cases c with
  | files =>
    cases k8s : w.k8s with
    | true => exact .inl ⟨k8s, files_starts kubernetesNamespace k8s⟩
    | false => exact .inr ⟨k8s, _, _, by simp [branch, filesBranch, k8s]; rfl⟩
  | config => exact .inl ⟨rfl, config_starts w⟩
  | secrets =>
    cases k8s : w.k8s with
    | true => exact .inl ⟨k8s, secrets_starts kubernetesNamespace k8s⟩
    | false => exact .inr ⟨k8s, _, _, by simp [branch, secretsBranch, k8s]; rfl⟩
  | mailboxes =>
    cases k8s : w.k8s with
    | false =>
      exact .inr ⟨by simp [starts, k8s], _, _, by simp [branch, mailboxesBranch, k8s]; rfl⟩
    | true =>
      cases url : w.platformApiUrl with
      | true => exact .inl ⟨by simp [starts, k8s, url], mailboxes_starts k8s url⟩
      | false =>
        exact .inr ⟨by simp [starts, url], _, _, by simp [branch, mailboxesBranch, k8s, url]; rfl⟩

theorem fate_branch (w : World) (kubernetesNamespace : String) (c : ComponentName) :
    Fate w c (branch w kubernetesNamespace c) := by
  rcases branch_cases w kubernetesNamespace c with
    ⟨started, _, _, same, skips, failing⟩ | ⟨missing, _, _, same⟩
  · rw [same]
    exact fate_captureComponent started skips failing
  · rw [same]
    exact fate_unavailable missing

theorem mem_branches {b : Branch} : b ∈ branches w kubernetesNamespace input ↔
      ∃ c, input.components c = true ∧ branch w kubernetesNamespace c = b := by
  have every : ∀ c, c ∈ w.arrival := by
    intro c
    rw [w.arrives.mem_iff]
    cases c <;> simp [componentNames]
  simp [branches, every]

theorem errors_nil_iff : errors (branches w kubernetesNamespace input) = [] ↔
      ∀ c, input.components c = true → reports w c = false := by
  unfold errors
  rw [filterMap_eq_nil_iff]
  constructor
  · intro none c asked
    have quiet := none _ (mem_branches.mpr ⟨c, asked, rfl⟩)
    rw [← (fate_branch w kubernetesNamespace c).error, quiet]
    rfl
  intro none b mem
  obtain ⟨c, asked, rfl⟩ := mem_branches.mp mem
  have quiet := (fate_branch w kubernetesNamespace c).error
  rw [none c asked] at quiet
  simpa using quiet

def AllSettled (input : RunBundleInput) (rows : List ComponentRow) : Prop :=
  ∀ c, input.components c = true → ∃ r ∈ rows, r.component = c ∧ ComponentRow.settled r = true

theorem allSettled_iff {w : World} {kubernetesNamespace : String} {input : RunBundleInput}
    (quiet : ∀ c, input.components c = true → reports w c = false) :
    AllSettled input (rows (branches w kubernetesNamespace input)) ↔
      ∀ c, input.components c = true → loses w c = false := by
  have settledOf : ∀ c, input.components c = true →
      Branch.settled (branch w kubernetesNamespace c) = !loses w c := by
    intro c asked
    rw [(fate_branch w kubernetesNamespace c).settled, quiet c asked]
    rfl
  constructor
  · intro all c asked
    obtain ⟨r, mem, own, settled⟩ := all c asked
    obtain ⟨b, there, row⟩ := mem_filterMap.mp mem
    obtain ⟨c', asked', rfl⟩ := mem_branches.mp there
    have same : c' = c := ((fate_branch w kubernetesNamespace c').component r row).symm.trans own
    subst same
    have fate := settledOf c' asked
    rw [Branch.settled, row, Option.any_some, settled] at fate
    simpa using fate.symm
  · intro kept c asked
    have fate := settledOf c asked
    rw [kept c asked] at fate
    obtain ⟨r, row, settled⟩ := Option.any_eq_true _ _ |>.mp fate
    refine ⟨r, mem_filterMap.mpr ⟨_, mem_branches.mpr ⟨c, asked, rfl⟩, row⟩, ?_, settled⟩
    exact (fate_branch w kubernetesNamespace c).component r row

/- what a run says is true: a bundle is completed, and has a meta.json, only where every component
that was asked for is settled, and a failure of a branch shows -/
structure Truthful (w : World) (input : RunBundleInput) (b : Bundle) : Prop where
  complete : (b.job.any (fun job => job.status == .completed) = true ∨ b.metaJson.isSome = true) →
    AllSettled input b.rows
  failing : ∀ kubernetesNamespace, w.kubernetesNamespace = .ok kubernetesNamespace →
    ∀ c, input.components c = true →
      ((branch w kubernetesNamespace c).error.isSome = true ∨
        (branch w kubernetesNamespace c).rejected = true) →
      b.threw.isSome = true ∨ b.job.any (fun job => job.status == .partialBundle) = true

/- a call that is no branch's rejects before the last UPDATE -/
def stops (w : World) : Bool :=
  w.kubernetesNamespace.toOption.isNone || (w.rejects .insertJob).isSome ||
    (w.rejects .reserveBundle).isSome || (w.rejects .setRunning).isSome ||
    (w.rejects .summaries).isSome || (w.rejects .putMeta).isSome

theorem truthful_of_threw {b : Bundle} (threw : b.threw.isSome = true) (none : b.metaJson = none)
    (open' : b.job.any (fun job => job.status == .completed) = false) : Truthful w input b where
  complete := by
    rintro (completed | written)
    · rw [open'] at completed
      contradiction
    · rw [none] at written
      contradiction
  failing := fun _ _ _ _ _ => Or.inl threw

theorem finish_rows {metaJson : Option Meta} : (finish w job bs metaJson r stored).rows = rows bs ∧
      (finish w job bs metaJson r stored).metaJson = metaJson := by
  unfold finish
  split
  · exact ⟨rfl, rfl⟩
  · exact ⟨rfl, rfl⟩

theorem finishCompleted_rows {w : World} {job : BackupJob} {bs : List Branch} {written : Meta}
    {input : RunBundleInput} : (finishCompleted w job bs written input).rows = rows bs ∧
      (finishCompleted w job bs written input).metaJson = some written := by
  unfold finishCompleted
  split
  · exact finish_rows
  split
  · exact finish_rows
  · exact finish_rows

theorem partial_truthful (running : job.status = .running) (isPartial : r.status = .partialBundle) :
    Truthful w input (finish w job bs none r stored) := by
  unfold finish
  split
  · exact truthful_of_threw rfl rfl (by simp [running])
  constructor
  · simp [finalize, isPartial]
  · intro _ _ _ _ _
    exact .inr (by simp [finalize, isPartial])

theorem truthful_completed {written : Meta} (resolved : w.kubernetesNamespace = .ok kubernetesNamespace)
    (quiet : ∀ c, input.components c = true → reports w c = false) :
    Truthful w input (finishCompleted w job (branches w kubernetesNamespace input) written input) ↔
      ∀ c, input.components c = true → loses w c = false := by
  obtain ⟨sameRows, sameMeta⟩ := @finishCompleted_rows w job (branches w kubernetesNamespace input) written input
  rw [← @allSettled_iff w kubernetesNamespace input quiet]
  constructor
  · intro truthful
    have settled := truthful.complete (.inr (by rw [sameMeta]; rfl))
    rwa [sameRows] at settled
  intro settled
  constructor
  · intro _
    rwa [sameRows]
  intro ns same c asked fails
  rw [resolved] at same
  cases same
  have fate := fate_branch w kubernetesNamespace c
  have silent : (branch w kubernetesNamespace c).error = none := by
    have none := fate.error
    rw [quiet c asked] at none
    simpa using none
  have kept : Branch.settled (branch w kubernetesNamespace c) = true := by
    rw [fate.settled, quiet c asked, (allSettled_iff quiet).mp settled c asked]
    rfl
  have unrejected := fate.plain silent
  rw [kept] at unrejected
  rcases fails with reported | rejected
  · rw [silent] at reported
    contradiction
  · rw [unrejected] at rejected
    contradiction

theorem truthful_settle (resolved : w.kubernetesNamespace = .ok kubernetesNamespace) (running : job.status = .running) :
    Truthful w input (settle w job (branches w kubernetesNamespace input) input) ↔
      (w.rejects .summaries).isSome = true ∨ (w.rejects .putMeta).isSome = true ∨
        (∃ c, input.components c = true ∧ reports w c = true) ∨
        ∀ c, input.components c = true → loses w c = false := by
  unfold settle
  cases summaries : w.rejects .summaries with
  | some message =>
    exact iff_of_true (truthful_of_threw rfl rfl (by simp [running])) (.inl rfl)
  | none =>
    by_cases quiet : errors (branches w kubernetesNamespace input) = []
    · have silent := errors_nil_iff.mp quiet
      cases putMeta : w.rejects .putMeta with
      | some message =>
        simp only [quiet]
        exact iff_of_true (truthful_of_threw rfl rfl (by simp [running])) (Or.inr (.inl rfl))
      | none =>
        simp only [quiet, if_true]
        rw [truthful_completed resolved silent]
        constructor
        · exact fun kept => .inr (.inr (.inr kept))
        rintro (stopped | stopped | ⟨c, asked, reported⟩ | kept)
        · contradiction
        · contradiction
        · rw [silent c asked] at reported
          contradiction
        · exact kept
    · rw [if_neg quiet]
      refine iff_of_true (partial_truthful running rfl) (.inr (.inr (.inl ?_)))
      by_contra none
      push Not at none
      exact quiet (errors_nil_iff.mpr (fun c asked => Bool.eq_false_iff.mpr (none c asked)))

/-- A bundle says what became of its components if and only if no branch loses a failure, or some
branch reports one, or the run is stopped elsewhere. -/
theorem truthful_iff (w : World) (id : Nat) (input : RunBundleInput) : Truthful w input (runBundle w id input) ↔
      stops w = true ∨ (∃ c, input.components c = true ∧ reports w c = true) ∨
        ∀ c, input.components c = true → loses w c = false := by
  unfold runBundle stops
  cases resolved : w.kubernetesNamespace with
  | error message => exact iff_of_true (truthful_of_threw rfl rfl rfl) (Or.inl rfl)
  | ok kubernetesNamespace =>
    cases insertJob : w.rejects .insertJob with
    | some message => exact iff_of_true (truthful_of_threw rfl rfl rfl) (.inl rfl)
    | none =>
      cases reserve : w.rejects .reserveBundle with
      | some message => exact iff_of_true (truthful_of_threw rfl rfl rfl) (Or.inl rfl)
      | none =>
        cases running : w.rejects .setRunning with
        | some message => exact iff_of_true (truthful_of_threw rfl rfl rfl) (.inl rfl)
        | none =>
          rw [truthful_settle resolved rfl]
          simp [Except.toOption, or_assoc]

/- a tenant with a volume, a Secret and a mailbox, for whom every capture goes well -/
def aWorld (rejects : Call → Option String) : World where
  rejects := rejects
  kubernetesNamespace := .ok "tenant-a"
  k8s := true
  platformApiUrl := true
  pvc := .ok true
  filesJob := .ok ⟨1024, 3, some "f00d", []⟩
  configDump := .ok ⟨512, 12, none, []⟩
  secretTypes := .ok ["kubernetes.io/tls"]
  secretsDump := .ok ⟨256, 1, none, []⟩
  mailboxCount := .ok 1
  mailboxesJob := .ok ⟨128, 1, none, ["info@example.org"]⟩
  startedAt := 0
  finishedAt := 60000
  arrival := componentNames
  arrives := List.Perm.refl componentNames

def everything : RunBundleInput where
  tenantId := 1
  retentionDays := 30
  targetConfigId := some 1
  components := fun _ => true
  exportPassphrase := none

/-- The row of a component is not inserted, and the bundle is completed without it. -/
theorem lost_insert_completes :
    ¬ ∀ (w : World) (id : Nat) (input : RunBundleInput), Truthful w input (runBundle w id input) := by
  intro truthful
  have settled := (truthful (aWorld fun call => if call = .insertRow .config then some "timeout" else none)
    1 everything).complete (.inr rfl) .config rfl
  obtain ⟨r, mem, own, _⟩ := settled
  have none : ∀ r ∈ (runBundle (aWorld fun call =>
      if call = .insertRow .config then some "timeout" else none) 1 everything).rows,
      r.component ≠ .config := by decide
  exact none r mem own

end HostingPlatform.TenantBundles.Failures

namespace HostingPlatform.TenantBundles.Artifacts

open List Orchestrator Failures

def flatNameChar (c : Char) : Bool :=
  c.isAlphanum || c == '.' || c == '_' || c == '@' || c == '-'

/- the file names that the download route takes -/
def flatName (name : String) : Bool :=
  name != "." && name != ".." && name != "" && name.toList.all flatNameChar

/- GET /internal/bundles/:bundleId/components/:component/:artifactName with a token for it -/
def download (stored : List Artifact) (c : ComponentName) (name : String) : Bool :=
  flatName name && stored.contains (c, name)

/- the archive that the restore of files downloads -/
def archiveFilename : String := "archive.tar.gz"

def mailboxArtifact (address : String) : String := address ++ ".mbox.tar.gz"

def configArtifact : String := "db-rows.json.gz"

def Meta.addresses (m : Meta) : List String :=
  m.components.flatMap (fun info => if info.1 = .mailboxes then info.2.addresses else [])

structure Restorable (b : Bundle) : Prop where
  files : ∀ r ∈ b.rows, r.component = .files → r.status = .completed →
    download b.artifacts .files archiveFilename = true
  mailboxes : ∀ r ∈ b.rows, r.component = .mailboxes → r.status = .completed →
    ∀ m ∈ b.metaJson, ∀ address ∈ Meta.addresses m,
      download b.artifacts .mailboxes (mailboxArtifact address) = true
  config : ∀ r ∈ b.rows, r.component = .config → r.status = .completed →
    (.config, configArtifact) ∈ b.artifacts
  exported : wrapped b.artifacts (componentsToWrap b.rows) = componentsToWrap b.rows

/- the component is captured, and its row marked so -/
def captures (w : World) (c : ComponentName) : Bool :=
  starts w c && inserted w c && !nothingToCapture w c && !captureFails w c &&
    (w.rejects (.markDone c)).isNone

def completedRow (r : ComponentRow) : Bool := r.status == .completed

/- what a branch leaves in the store, and that a completed row names it -/
structure Leaves (w : World) (c : ComponentName) (b : Branch) : Prop where
  completed : b.row.any completedRow = captures w c
  artifacts : b.artifacts ⊆ writes c
  named : ∀ r ∈ b.row, r.status = .completed → r.artifactName ≠ "" ∧ b.artifacts = writes c ∧
    ∀ a ∈ writes c, a = (c, r.artifactName)

variable {w : World} {c : ComponentName} {artifactName message : String} {row : ComponentRow}
  {job : BackupJob} {bs : List Branch} {stored : List Artifact} {id : Nat} {input : RunBundleInput}

theorem leaves_open {b : Branch} (failed : captures w c = false) (artifacts : b.artifacts ⊆ writes c)
    (rowOpen : ∀ r ∈ b.row, r.status ≠ .completed) : Leaves w c b where
  completed := by
    rw [failed]
    cases row : b.row with
    | none => rfl
    | some r => simpa [completedRow] using rowOpen r row
  artifacts := artifacts
  named := fun r mem completed => absurd completed (rowOpen r mem)

theorem leaves_unavailable {rowMessage : String} (unavailableThere : starts w c = false) :
    Leaves w c (unavailable w c artifactName message rowMessage) := by
  have failed : captures w c = false := by simp [captures, unavailableThere]
  unfold unavailable
  split
  · exact leaves_open failed (nil_subset _) (by simp)
  · exact leaves_open failed (nil_subset _) (by simp)

theorem leaves_skipRow {reason : String} (running : row.status = .running) (failed : captures w c = false) :
    Leaves w c (skipRow w row reason) := by
  unfold skipRow
  split
  · exact leaves_open failed (nil_subset _) (by simp)
  · exact leaves_open failed (nil_subset _) (by simp [running])

theorem leaves_failRow {result : Option Captured} {written : List Artifact}
    (running : row.status = .running) (failed : captures w c = false) (within : written ⊆ writes c) :
    Leaves w c (failRow w row message result written) := by
  unfold failRow
  split
  · exact leaves_open failed within (by simp)
  · exact leaves_open failed within (by simp [running])

theorem leaves_captureComponent {skip : Option String} {attempt : Except CaptureError Captured}
    (started : starts w c = true) (skips : nothingToCapture w c = (skip.isSome || isSkip attempt))
    (failing : nothingToCapture w c = false → captureFails w c = isFailure attempt)
    (nonempty : artifactName ≠ "") (written : ∀ a ∈ writes c, a = (c, artifactName)) :
    Leaves w c (captureComponent w c artifactName skip attempt (writes c)) := by
  unfold captureComponent
  cases insert : w.rejects (.insertRow c) with
  | some message =>
    exact leaves_open (by simp [captures, inserted, insert]) (nil_subset _) (by simp)
  | none =>
    cases skip with
    | some reason => exact leaves_skipRow rfl (by simp [captures, skips])
    | none =>
      cases attempt with
      | error e =>
        cases e with
        | skipped reason => exact leaves_skipRow rfl (by simp [captures, skips, isSkip])
        | failed message =>
          have fails := failing (by simp [skips, isSkip])
          exact leaves_failRow rfl (by simp [captures, fails, isFailure]) (nil_subset _)
      | ok captured =>
        have fails := failing (by simp [skips, isSkip])
        cases done : w.rejects (.markDone c) with
        | none =>
          constructor
          · simp [captures, started, inserted, insert, skips, isSkip, fails, isFailure, done, completedRow]
          · simp
          intro r mem _
          simp only [Option.mem_def, Option.some.injEq] at mem
          subst mem
          exact ⟨nonempty, by simp, written⟩
        | some message =>
          exact leaves_failRow rfl (by simp [captures, done]) (Subset.refl _)

theorem leaves_branch (w : World) (kubernetesNamespace : String) (c : ComponentName) :
    Leaves w c (branch w kubernetesNamespace c) := by
  have nonempty : rowArtifact c ≠ "" := by cases c <;> decide
  have written : ∀ a ∈ writes c, a = (c, rowArtifact c) := by cases c <;> simp [writes, rowArtifact]
  rcases branch_cases w kubernetesNamespace c with
    ⟨started, _, _, same, skips, failing⟩ | ⟨missing, _, _, same⟩
  · rw [same]
    exact leaves_captureComponent started skips failing nonempty written
  · rw [same]
    exact leaves_unavailable missing

/- what a completed bundle has of its branches, and of the export beside them -/
structure FromBranches (b : Bundle) (id : Nat) (bs : List Branch) : Prop where
  rows : b.rows = Orchestrator.rows bs
  kept : Orchestrator.artifacts bs ⊆ b.artifacts
  only : ∀ a ∈ b.artifacts, a ∈ Orchestrator.artifacts bs ∨ a.1 = .config

theorem finish_fromBranches {metaJson : Option Meta} {r : Result} (kept : Orchestrator.artifacts bs ⊆ stored)
    (only : ∀ a ∈ stored, a ∈ Orchestrator.artifacts bs ∨ a.1 = .config) :
    FromBranches (finish w job bs metaJson r stored) id bs := by
  unfold finish
  split
  · exact ⟨rfl, kept, only⟩
  · exact ⟨rfl, kept, only⟩

theorem finishCompleted_fromBranches {written : Meta} :
    FromBranches (finishCompleted w job bs written input) id bs := by
  unfold finishCompleted
  split
  · exact finish_fromBranches (Subset.refl _) (fun _ mem => .inl mem)
  split
  · exact finish_fromBranches (Subset.refl _) (fun _ mem => .inl mem)
  refine finish_fromBranches (subset_append_left _ _) ?_
  intro a mem
  rcases mem_append.mp mem with own | exported
  · exact .inl own
  · rw [mem_singleton.mp exported]
    exact .inr rfl

def completed (b : Bundle) : Bool := b.job.any (fun job => job.status == .completed)

theorem settle_completed (running : job.status = .running) (done : completed (settle w job bs input) = true) :
    FromBranches (settle w job bs input) id bs := by
  unfold settle at done ⊢
  cases summaries : w.rejects .summaries with
  | some message => simp [summaries, completed, running] at done
  | none =>
    simp only [summaries] at done ⊢
    by_cases quiet : errors bs = []
    · simp only [quiet] at done ⊢
      cases putMeta : w.rejects .putMeta with
      | some message => simp [putMeta, completed, running] at done
      | none => exact finishCompleted_fromBranches
    simp only [quiet, if_false] at done
    unfold finish at done
    split at done
    · simp [completed, running] at done
    · simp [completed, finalize] at done

theorem runBundle_completed (done : completed (runBundle w id input) = true) : ∃ kubernetesNamespace,
      FromBranches (runBundle w id input) id (branches w kubernetesNamespace input) := by
  unfold runBundle at done ⊢
  cases resolved : w.kubernetesNamespace with
  | error message => simp [resolved, completed] at done
  | ok kubernetesNamespace =>
    simp only [resolved] at done ⊢
    cases insertJob : w.rejects .insertJob with
    | some message => simp [insertJob, completed] at done
    | none =>
      simp only [insertJob] at done ⊢
      cases reserve : w.rejects .reserveBundle with
      | some message => simp [reserve, completed, newJob] at done
      | none =>
        simp only [reserve] at done ⊢
        cases running : w.rejects .setRunning with
        | some message => simp [running, completed, newJob] at done
        | none =>
          simp only [running] at done ⊢
          exact ⟨kubernetesNamespace, settle_completed rfl done⟩

section branches

variable {w : World} {id : Nat} {input : RunBundleInput} {kubernetesNamespace : String} {b : Bundle}

section

variable (from' : FromBranches b id (branches w kubernetesNamespace input))
include from'

theorem artifact_component {a : Artifact} (mem : a ∈ b.artifacts) : a.1 = .config ∨ a.1 = .secrets := by
  rcases from'.only a mem with own | config
  · obtain ⟨b', there, own⟩ := mem_flatMap.mp own
    obtain ⟨c, _, rfl⟩ := mem_branches.mp there
    have written := (leaves_branch w kubernetesNamespace c).artifacts own
    cases c with
    | config => exact .inl (by simpa [writes] using congrArg Prod.fst (mem_singleton.mp written))
    | secrets => exact .inr (by simpa [writes] using congrArg Prod.fst (mem_singleton.mp written))
    | files | mailboxes => exact absurd written not_mem_nil
  · exact .inl config

theorem exists_completed {c : ComponentName} (asked : input.components c = true) (captured : captures w c = true) :
    ∃ r ∈ b.rows, r.component = c ∧ r.status = .completed := by
  have leaves := leaves_branch w kubernetesNamespace c
  have some := leaves.completed
  rw [captured] at some
  obtain ⟨r, row, done⟩ := (Option.any_eq_true _ _).mp some
  refine ⟨r, ?_, (fate_branch w kubernetesNamespace c).component r row, by simpa [completedRow] using done⟩
  rw [from'.rows]
  exact mem_filterMap.mpr ⟨_, mem_branches.mpr ⟨c, asked, rfl⟩, row⟩

theorem completed_row {r : ComponentRow} (mem : r ∈ b.rows) (done : r.status = .completed) :
    input.components r.component = true ∧ captures w r.component = true ∧ r.artifactName ≠ "" ∧
      (writes r.component ⊆ b.artifacts) ∧
      ∀ a ∈ writes r.component, a = (r.component, r.artifactName) := by
  rw [from'.rows] at mem
  obtain ⟨b', there, row⟩ := mem_filterMap.mp mem
  obtain ⟨c, asked, rfl⟩ := mem_branches.mp there
  have own := (fate_branch w kubernetesNamespace c).component r row
  have leaves := leaves_branch w kubernetesNamespace c
  obtain ⟨nonempty, written, named⟩ := leaves.named r row done
  subst own
  refine ⟨asked, ?_, nonempty, ?_, named⟩
  · rw [← leaves.completed, row]
    simp [completedRow, done]
  rw [← written]
  intro a mem
  exact from'.kept (mem_flatMap.mpr ⟨_, there, mem⟩)

end

end branches

theorem mem_componentsToWrap {rows : List ComponentRow} {a : Artifact} : a ∈ componentsToWrap rows ↔
      ∃ r ∈ rows, r.status = .completed ∧ r.artifactName ≠ "" ∧ (r.component, r.artifactName) = a := by
  simp [componentsToWrap, and_assoc]

theorem wrapped_iff {pairs : List Artifact} : wrapped stored pairs = pairs ↔ ∀ a ∈ pairs, a ∈ stored := by
  simp [wrapped]

/-- A completed bundle can be restored and exported if and only if neither files nor mailboxes
were captured. -/
theorem restorable_iff (w : World) (id : Nat) (input : RunBundleInput)
    (done : completed (runBundle w id input) = true) : Restorable (runBundle w id input) ↔
      (input.components .files = true → captures w .files = false) ∧
        (input.components .mailboxes = true → captures w .mailboxes = false) := by
  obtain ⟨kubernetesNamespace, from'⟩ := runBundle_completed done
  constructor
  · intro restorable
    -- no pair of these components is in the store
    have unread : ∀ c, c ≠ .config → c ≠ .secrets → input.components c = true → captures w c = false := by
      intro c notConfig notSecrets asked
      by_contra captured
      obtain ⟨r, mem, own, done⟩ := exists_completed from' asked (by simpa using captured)
      obtain ⟨_, _, nonempty, _⟩ := completed_row from' mem done
      have stored := wrapped_iff.mp restorable.exported (r.component, r.artifactName)
        (mem_componentsToWrap.mpr ⟨r, mem, done, nonempty, rfl⟩)
      rcases artifact_component from' stored with config | secrets
      · exact notConfig (own.symm.trans config)
      · exact notSecrets (own.symm.trans secrets)
    exact ⟨unread .files (by decide) (by decide), unread .mailboxes (by decide) (by decide)⟩
  · rintro ⟨noFiles, noMailboxes⟩
    have captured : ∀ r ∈ (runBundle w id input).rows, r.status = .completed →
        r.component ≠ .files ∧ r.component ≠ .mailboxes := by
      intro r mem done
      obtain ⟨asked, captured, _⟩ := completed_row from' mem done
      constructor
      · intro files
        rw [files] at asked captured
        rw [noFiles asked] at captured
        contradiction
      · intro mailboxes
        rw [mailboxes] at asked captured
        rw [noMailboxes asked] at captured
        contradiction
    constructor
    · exact fun r mem files done => absurd files (captured r mem done).1
    · exact fun r mem mailboxes done => absurd mailboxes (captured r mem done).2
    · intro r mem config done
      obtain ⟨_, _, _, stored, _⟩ := completed_row from' mem done
      rw [config] at stored
      exact stored mem_cons_self
    refine wrapped_iff.mpr ?_
    intro a mem
    obtain ⟨r, there, done, _, rfl⟩ := mem_componentsToWrap.mp mem
    obtain ⟨_, _, _, stored, named⟩ := completed_row from' there done
    have own : writes r.component ≠ [] := by
      cases component : r.component <;> simp_all [writes]
    obtain ⟨a, written⟩ := exists_mem_of_ne_nil _ own
    rw [← named a written]
    exact stored written

def databaseOnly : RunBundleInput :=
  { everything with components := fun c => c == .config || c == .secrets }

theorem restorable_iff_database_only : completed (runBundle (aWorld fun _ => none) 1 databaseOnly) = true ∧
      Restorable (runBundle (aWorld fun _ => none) 1 databaseOnly) :=
  ⟨rfl, (restorable_iff (aWorld fun _ => none) 1 databaseOnly rfl).mpr
    ⟨by simp [databaseOnly], by simp [databaseOnly]⟩⟩

/-- A bundle whose captures all went well is completed, and its archive is not in the store. -/
theorem completed_without_archive : ¬ ∀ (w : World) (id : Nat) (input : RunBundleInput),
      completed (runBundle w id input) = true → Restorable (runBundle w id input) := by
  intro always
  have restorable := always (aWorld fun _ => none) 1 everything rfl
  have row : (⟨.files, "archive.tar.gz", .completed, 1024, some "f00d", none⟩ : ComponentRow) ∈
      (runBundle (aWorld fun _ => none) 1 everything).rows := mem_cons_self
  have found := restorable.files _ row rfl rfl
  contradiction

end HostingPlatform.TenantBundles.Artifacts
