import HostingPlatform.Table
import HostingPlatform.Js.Text

/-! The rows of a bundle: its job and its components. -/
namespace HostingPlatform.TenantBundles

inductive BundleStatus where
  | pending | running | completed | partialBundle | failed | expired
  deriving DecidableEq

inductive ComponentStatus where
  | pending | running | completed | skipped | failed
  deriving DecidableEq

inductive ComponentName where
  | files | mailboxes | config | secrets
  deriving DecidableEq

/- times in milliseconds -/
structure BackupJob where
  (id tenantId : Nat)
  status : BundleStatus
  targetConfigId : Option Nat
  retentionDays : Nat
  (expiresAt startedAt finishedAt : Option Int)
  sizeBytes : Nat
  (exportArtifact lastError : Option String)
  deriving DecidableEq

structure ComponentRow where
  component : ComponentName
  artifactName : String
  status : ComponentStatus
  sizeBytes : Nat
  (sha256 lastError : Option String)

abbrev BackupJobs : Type := Table BackupJob BackupJob.id

end HostingPlatform.TenantBundles

/-! The capture of a bundle. A world says how each call of one run turns out; the four branches
run at the same time, each on a row of its own, and report to one list of errors in any order.
What a branch does beside its component, where a failure is only logged, is left out. -/
namespace HostingPlatform.TenantBundles.Orchestrator

/- the calls that may reject, one run makes each at most once -/
inductive Call where
  | insertJob | reserveBundle | setRunning | summaries | putMeta | selectRows | wrapBundle | finalUpdate
  | insertRow (c : ComponentName)
  | insertFailedRow (c : ComponentName)
  | markDone (c : ComponentName)
  | markFailed (c : ComponentName)
  | markSkipped (c : ComponentName)
  deriving DecidableEq

/- `count`: of the files, the rows, the Secrets or the mailboxes -/
structure Captured where
  (sizeBytes count : Nat)
  sha256 : Option String
  addresses : List String

inductive CaptureError where
  | skipped (reason : String)
  | failed (message : String)

def componentNames : List ComponentName := [.files, .config, .secrets, .mailboxes]

def ComponentName.text : ComponentName → String
  | .files => "files"
  | .mailboxes => "mailboxes"
  | .config => "config"
  | .secrets => "secrets"

/-- A call that rejects does so with a message. `k8s` and `platformApiUrl` are what the caller
passes; `pvc`, `secretTypes` and `mailboxCount` are what the cluster and the database answer; the
jobs and the dumps are what the captures come to. -/
structure World where
  rejects : Call → Option String
  kubernetesNamespace : Except String String
  (k8s platformApiUrl : Bool)
  pvc : Except String Bool
  (filesJob configDump : Except String Captured)
  secretTypes : Except String (List String)
  secretsDump : Except String Captured
  mailboxCount : Except String Nat
  mailboxesJob : Except String Captured
  (startedAt finishedAt : Int)
  arrival : List ComponentName
  arrives : arrival.Perm componentNames

structure RunBundleInput where
  (tenantId retentionDays : Nat)
  targetConfigId : Option Nat
  components : ComponentName → Bool
  exportPassphrase : Option String

abbrev Artifact : Type := ComponentName × String

/- what a branch leaves: its row, what it pushed on the list of errors, whether its promise was
rejected, what it captured, its entry in meta.json and what it wrote to the store -/
structure Branch where
  row : Option ComponentRow
  error : Option String
  rejected : Bool
  (result info : Option Captured)
  artifacts : List Artifact

def errorText (c : ComponentName) (message : String) : String := ComponentName.text c ++ ": " ++ message

/- before there is a row: the error is reported, and a failed row inserted -/
def unavailable (w : World) (c : ComponentName) (artifactName message rowMessage : String) : Branch :=
  match w.rejects (.insertFailedRow c) with
  | none => ⟨some ⟨c, artifactName, .failed, 0, none, some rowMessage⟩, some (errorText c message),
      false, none, none, []⟩
  | some _ => ⟨none, some (errorText c message), true, none, none, []⟩

def skipRow (w : World) (row : ComponentRow) (reason : String) : Branch :=
  match w.rejects (.markSkipped row.component) with
  | none => ⟨some { row with status := .skipped, lastError := some reason }, none, false, none, none, []⟩
  | some _ => ⟨some row, none, true, none, none, []⟩

def failRow (w : World) (row : ComponentRow) (message : String) (result : Option Captured)
    (written : List Artifact) : Branch :=
  match w.rejects (.markFailed row.component) with
  | none => ⟨some { row with status := .failed, lastError := some message },
      some (errorText row.component message), false, result, none, written⟩
  | some _ => ⟨some row, some (errorText row.component message), true, result, none, written⟩

/- the INSERT stands before the try, and a skip is never in it -/
def captureComponent (w : World) (c : ComponentName) (artifactName : String) (skip : Option String)
    (attempt : Except CaptureError Captured) (written : List Artifact) : Branch :=
  match w.rejects (.insertRow c) with
  | some _ => ⟨none, none, true, none, none, []⟩
  | none =>
    let row : ComponentRow := ⟨c, artifactName, .running, 0, none, none⟩
    match skip, attempt with
    | some reason, _ => skipRow w row reason
    | none, .error (.skipped reason) => skipRow w row reason
    | none, .error (.failed message) => failRow w row message none []
    | none, .ok captured =>
      match w.rejects (.markDone c) with
      | none => ⟨some { row with
          status := .completed, sizeBytes := captured.sizeBytes, sha256 := captured.sha256 },
          none, false, some captured, some captured, written⟩
      | some message => failRow w row message (some captured) written

def attempted (e : Except String Captured) : Except CaptureError Captured :=
  match e with
  | .ok captured => .ok captured
  | .error message => .error (.failed message)

def pvcMissing (kubernetesNamespace : String) : String :=
  "tenant data PVC '" ++ kubernetesNamespace ++ "-storage' does not exist in namespace '" ++
    kubernetesNamespace ++ "' yet"

/- the tarball goes into the restic repository, not into the store -/
def captureFilesComponent (w : World) (kubernetesNamespace : String) : Except CaptureError Captured :=
  match w.pvc with
  | .error message => .error (.failed message)
  | .ok false => .error (.skipped (pvcMissing kubernetesNamespace))
  | .ok true => attempted w.filesJob

def filesBranch (w : World) (kubernetesNamespace : String) : Branch :=
  if w.k8s then
    captureComponent w .files "archive.tar.gz" none
      (if w.platformApiUrl then captureFilesComponent w kubernetesNamespace
       else .error (.failed
        "files component requires platformApiUrl on OrchestratorDeps (Phase 3 HTTP-upload pattern)")) []
  else unavailable w .files "archive.tar.gz" "kubernetes tenant unavailable" "kubernetes tenant unavailable"

def configBranch (w : World) : Branch :=
  captureComponent w .config "db-rows.json.gz" none (attempted w.configDump)
    [(.config, "db-rows.json.gz")]

/- where the Secrets cannot be listed the capture is tried -/
def tenantNamespaceHasSecrets (w : World) : Bool :=
  match w.secretTypes with
  | .ok types => types.any (fun t => t != "kubernetes.io/service-account-token")
  | .error _ => true

def secretsBranch (w : World) (kubernetesNamespace : String) : Branch :=
  if w.k8s then
    captureComponent w .secrets "tls.json.gz.enc"
      (if tenantNamespaceHasSecrets w then none
       else some ("no secrets in namespace " ++ kubernetesNamespace))
      (attempted w.secretsDump) [(.secrets, "tls.json.gz.enc")]
  else unavailable w .secrets "tls.json.gz.enc" "kubernetes tenant unavailable" "kubernetes tenant unavailable"

/- where the mailboxes cannot be counted the capture is tried -/
def countTenantMailboxes (w : World) : Nat :=
  match w.mailboxCount with
  | .ok count => count
  | .error _ => 1

/- the Maildir of all mailboxes goes into the restic repository -/
def mailboxesBranch (w : World) : Branch :=
  if !w.k8s then
    unavailable w .mailboxes "__pending__" "kubernetes tenant unavailable" "kubernetes tenant unavailable"
  else if !w.platformApiUrl then
    unavailable w .mailboxes "__pending__" "platformApiUrl required for HTTP-upload pattern"
      "platformApiUrl missing"
  else
    captureComponent w .mailboxes "__pending__"
      (if countTenantMailboxes w = 0 then some "no mailboxes for tenant" else none)
      (attempted w.mailboxesJob) []

def branch (w : World) (kubernetesNamespace : String) : ComponentName → Branch
  | .files => filesBranch w kubernetesNamespace
  | .config => configBranch w
  | .secrets => secretsBranch w kubernetesNamespace
  | .mailboxes => mailboxesBranch w

def branches (w : World) (kubernetesNamespace : String) (input : RunBundleInput) : List Branch :=
  (w.arrival.filter input.components).map (branch w kubernetesNamespace)

def errors (bs : List Branch) : List String := bs.filterMap Branch.error

def rows (bs : List Branch) : List ComponentRow := bs.filterMap Branch.row

def artifacts (bs : List Branch) : List Artifact := bs.flatMap Branch.artifacts

def totalSize (bs : List Branch) : Nat := ((bs.filterMap Branch.result).map Captured.sizeBytes).sum

structure Meta where
  (backupId tenantId : Nat)
  components : List (ComponentName × Captured)
  retentionDays : Nat

def addDays (start : Int) (days : Nat) : Int := start + days * 86400000

def newJob (w : World) (id : Nat) (input : RunBundleInput) : BackupJob where
  id := id
  tenantId := input.tenantId
  status := .pending
  targetConfigId := input.targetConfigId
  retentionDays := input.retentionDays
  expiresAt := if input.retentionDays = 0 then none else some (addDays w.startedAt input.retentionDays)
  startedAt := some w.startedAt
  finishedAt := none
  sizeBytes := 0
  exportArtifact := none
  lastError := none

def setRunning (job : BackupJob) : BackupJob := { job with status := .running }

/- what runBundle writes last -/
structure Result where
  status : BundleStatus
  sizeBytes : Nat
  finishedAt : Int
  errors : List String
  exportArtifact : Option String
  deriving DecidableEq

def finalize (r : Result) (job : BackupJob) : BackupJob :=
  { job with
    status := r.status
    sizeBytes := r.sizeBytes
    finishedAt := some r.finishedAt
    lastError := if r.errors = [] then none else some ("; ".intercalate r.errors)
    exportArtifact := r.exportArtifact }

/- what a run leaves, and the message where it threw -/
structure Bundle where
  job : Option BackupJob
  rows : List ComponentRow
  artifacts : List Artifact
  metaJson : Option Meta
  threw : Option String

/- the pairs that wrapBundleAsDataExport is given -/
def componentsToWrap (rows : List ComponentRow) : List Artifact :=
  (rows.filter (fun r => r.status == .completed && r.artifactName != "")).map
    (fun r => (r.component, r.artifactName))

/- a pair that the store has nothing for is passed over -/
def wrapped (stored pairs : List Artifact) : List Artifact := pairs.filter (fun a => stored.contains a)

def exportName (id : Nat) : String := "data-export-" ++ toString id ++ ".tar.gz.enc"

def dataExport (w : World) (passphrase : String) : Except String Unit :=
  match w.rejects .selectRows with
  | some message => .error message
  | none =>
    if Js.length passphrase < 12 then .error "wrapBundleAsDataExport: passphrase must be ≥12 chars"
    else
      match w.rejects .wrapBundle with
      | some message => .error message
      | none => .ok ()

def finish (w : World) (job : BackupJob) (bs : List Branch) (metaJson : Option Meta) (r : Result)
    (stored : List Artifact) : Bundle :=
  match w.rejects .finalUpdate with
  | some message => ⟨some job, rows bs, stored, metaJson, some message⟩
  | none => ⟨some (finalize r job), rows bs, stored, metaJson, none⟩

/- after meta.json is written -/
def finishCompleted (w : World) (job : BackupJob) (bs : List Branch) (written : Meta)
    (input : RunBundleInput) : Bundle :=
  match input.exportPassphrase.filter (fun passphrase => passphrase != "") with
  | none => finish w job bs (some written) ⟨.completed, totalSize bs, w.finishedAt, [], none⟩ (artifacts bs)
  | some passphrase =>
    match dataExport w passphrase with
    | .error message =>
      finish w job bs (some written)
        ⟨.completed, totalSize bs, w.finishedAt, ["data_export: " ++ message], none⟩ (artifacts bs)
    | .ok () =>
      finish w job bs (some written)
        ⟨.completed, totalSize bs, w.finishedAt, [], some ("components/config/" ++ exportName job.id)⟩
        (artifacts bs ++ [(.config, exportName job.id)])

/- from the end of the branches on: their rejections are not looked at -/
def settle (w : World) (job : BackupJob) (bs : List Branch) (input : RunBundleInput) : Bundle :=
  match w.rejects .summaries with
  | some message => ⟨some job, rows bs, artifacts bs, none, some message⟩
  | none =>
    if errors bs = [] then
      match w.rejects .putMeta with
      | some message => ⟨some job, rows bs, artifacts bs, none, some message⟩
      | none =>
        finishCompleted w job bs
          ⟨job.id, job.tenantId, bs.filterMap (fun b => b.row.bind (fun r => b.info.map (r.component, ·))),
            input.retentionDays⟩ input
    else
      finish w job bs none ⟨.partialBundle, totalSize bs, w.finishedAt, errors bs, none⟩ (artifacts bs)

def runBundle (w : World) (id : Nat) (input : RunBundleInput) : Bundle :=
  match w.kubernetesNamespace with
  | .error message => ⟨none, [], [], none, some message⟩
  | .ok kubernetesNamespace =>
    match w.rejects .insertJob with
    | some message => ⟨none, [], [], none, some message⟩
    | none =>
      match w.rejects .reserveBundle with
      | some message => ⟨some (newJob w id input), [], [], none, some message⟩
      | none =>
        match w.rejects .setRunning with
        | some message => ⟨some (newJob w id input), [], [], none, some message⟩
        | none =>
          settle w (setRunning (newJob w id input)) (branches w kubernetesNamespace input) input

end HostingPlatform.TenantBundles.Orchestrator
