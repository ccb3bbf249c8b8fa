import HostingPlatform.BackupRcloneShim.Drain

/-! What the shim is configured with: the env file of its launcher, the list of its classes and the key
of an SFTP upstream, rendered from the platform's key and the targets that the classes are bound to; and
the hash by which a change of these inputs is noticed. -/
namespace HostingPlatform.BackupRcloneShim

/- 32 bytes -/
structure RawKey where
  bytes : List UInt8
  sized : bytes.length = 32

/- SHA-256 (the hex digest of a text, which is never empty) and what crypto.ts derives from the key -/
structure Crypto where
  sha256 : String → String
  digest : ∀ text, sha256 text ≠ ""
  (fingerprintRawKey deriveShimAccessKey deriveShimSecretKey : RawKey → String)

inductive StorageType where
  | s3 | ssh | cifs | nfs

def StorageType.text : StorageType → String
  | .s3 => "s3"
  | .ssh => "ssh"
  | .cifs => "cifs"
  | .nfs => "nfs"

structure BackupTargetConfig where
  (id name : String)
  storageType : StorageType
  (s3Endpoint s3Bucket s3Region s3AccessKey s3SecretKey s3Prefix : Option String)
  s3UsePathStyle : Option Bool
  sshHost : Option String
  sshPort : Option Nat
  (sshUser sshKey sshPassword sshPath cifsHost : Option String)
  cifsPort : Option Nat
  (cifsShare cifsUser cifsPassword cifsDomain cifsPath nfsServer nfsExport nfsVersion : Option String)
  (nfsOptions nfsPath : Option String)

structure ClassAssignment where
  className : BackupShimClass
  target : BackupTargetConfig

structure RenderedShimConfig where
  (upstreamEnv classesTxt configHash shimAccessKey shimSecretKey keyFingerprint : String)
  assignedClasses : List BackupShimClass
  sshKeyMaterializations : List String

def lines (parts : List String) : String := "\n".intercalate parts

/- a string that is neither null nor empty -/
def given (text : Option String) : Option String := text.filter fun text => text != ""

def renderEnvHeader : String := lines [
  "# upstream.env — backup-rclone-shim",
  "# AUTO-GENERATED by platform-api backup-rclone-shim/config-renderer.",
  "# Do NOT edit by hand. Operator changes flow via",
  "# /admin/backup-rclone-shim/... endpoints.",
  "#",
  "# Sourced by /etc/shim/launcher.sh (POSIX shell `set -a; . upstream.env; set +a`).",
  "# Values must NOT contain newlines or shell-meta chars; the renderer",
  "# enforces this via the input-validation layer (zod schemas at the",
  "# Drizzle row mapping in service.ts).",
  ""]

def escapeQuotes (value : String) : String :=
  String.ofList (value.toList.flatMap fun c => if c = '\'' then ['\'', '\\', '\'', '\''] else [c])

def shellQuote (name value : String) : Except String String :=
  if value.toList.contains (Char.ofNat 0) || value.toList.contains '\n' then
    .error ("upstream.env value for " ++ name ++ " contains illegal character (NUL or newline)")
  else .ok (name ++ "='" ++ escapeQuotes value ++ "'")

/- a line for a value that is given, and none otherwise -/
def optionalLine (name : String) (value : Option String) : Except String (List String) :=
  match given value with
  | none => .ok []
  | some value => (shellQuote name value).map fun line => [line]

def stripSlashes (text : String) : String :=
  let isSlash (c : Char) : Bool := c == '/'
  String.ofList (((text.toList.dropWhile isSlash).reverse.dropWhile isSlash).reverse)

def pathLine (name : String) (path : Option String) : Except String (List String) :=
  match given path with
  | none => .ok []
  | some path => (shellQuote name (stripSlashes path)).map fun line => [line]

def renderS3Env (t : BackupTargetConfig) (start : List String) : Except String String :=
  match given t.s3Endpoint, given t.s3AccessKey, given t.s3SecretKey with
  | some endpoint, some accessKey, some secretKey => do
    let endpoint ← shellQuote "UPSTREAM_ENDPOINT" endpoint
    let accessKey ← shellQuote "UPSTREAM_ACCESS_KEY" accessKey
    let secretKey ← shellQuote "UPSTREAM_SECRET_KEY" secretKey
    let region ← shellQuote "UPSTREAM_REGION" (t.s3Region.getD "us-east-1")
    let pathStyle ← shellQuote "UPSTREAM_USE_PATH_STYLE" (if t.s3UsePathStyle = some false then "false" else "true")
    return lines (start ++ ["UPSTREAM_TYPE=s3", endpoint, accessKey, secretKey, region, pathStyle, ""])
  | _, _, _ =>
    .error ("S3 target '" ++ t.name ++ "' is missing required fields (endpoint, access_key, secret_key)")

def renderSftpEnv (t : BackupTargetConfig) (start : List String) : Except String (String × Option String) :=
  match given t.sshHost, given t.sshUser with
  | some host, some user =>
    if (given t.sshKey).isNone && (given t.sshPassword).isNone then
      .error ("SFTP target '" ++ t.name ++ "' requires either ssh_key or ssh_password")
    else do
      let host ← shellQuote "UPSTREAM_SFTP_HOST" host
      let user ← shellQuote "UPSTREAM_SFTP_USER" user
      let port ← shellQuote "UPSTREAM_SFTP_PORT" (toString (t.sshPort.getD 22))
      let path ← pathLine "UPSTREAM_SFTP_PATH" t.sshPath
      let secret ← match given t.sshKey with
        | some _ => .ok ["UPSTREAM_SFTP_KEYFILE=/etc/rclone/ssh-keys/upstream.pem"]
        | none => optionalLine "UPSTREAM_SFTP_PASSWORD" t.sshPassword
      return (lines (start ++ ["UPSTREAM_TYPE=sftp", host, user, port] ++ path ++ secret ++ [""]), given t.sshKey)
  | _, _ => .error ("SFTP target '" ++ t.name ++ "' is missing required fields (host, user)")

def renderCifsEnv (t : BackupTargetConfig) (start : List String) : Except String String :=
  match given t.cifsHost, given t.cifsShare, given t.cifsUser, given t.cifsPassword with
  | some host, some share, some user, some password => do
    let host ← shellQuote "UPSTREAM_CIFS_HOST" host
    let share ← shellQuote "UPSTREAM_CIFS_SHARE" share
    let user ← shellQuote "UPSTREAM_CIFS_USER" user
    let password ← shellQuote "UPSTREAM_CIFS_PASSWORD" password
    let port ← optionalLine "UPSTREAM_CIFS_PORT" ((t.cifsPort.filter fun port => port != 0).map toString)
    let domain ← optionalLine "UPSTREAM_CIFS_DOMAIN" t.cifsDomain
    let path ← pathLine "UPSTREAM_CIFS_PATH" t.cifsPath
    return lines (start ++ ["UPSTREAM_TYPE=cifs", host, share, user, password] ++ port ++ domain ++ path ++ [""])
  | _, _, _, _ =>
    .error ("CIFS target '" ++ t.name ++ "' is missing required fields (host, share, user, password)")

def renderNfsEnv (t : BackupTargetConfig) (start : List String) : Except String String :=
  match given t.nfsServer, given t.nfsExport with
  | some server, some exported => do
    let server ← shellQuote "UPSTREAM_NFS_SERVER" server
    let exported ← shellQuote "UPSTREAM_NFS_EXPORT" exported
    let version ← optionalLine "UPSTREAM_NFS_VERSION" t.nfsVersion
    let options ← optionalLine "UPSTREAM_NFS_OPTIONS" t.nfsOptions
    let path ← pathLine "UPSTREAM_NFS_PATH" t.nfsPath
    return lines (start ++ ["UPSTREAM_TYPE=nfs", server, exported] ++ version ++ options ++ path ++ [""])
  | _, _ => .error ("NFS target '" ++ t.name ++ "' is missing required fields (server, export)")

/- the env file and the key, if there is one -/
def renderUpstreamEnv (t : BackupTargetConfig) (rootAccessKey rootSecretKey : String) :
    Except String (String × Option String) := do
  let accessKey ← shellQuote "ROOT_ACCESS_KEY" rootAccessKey
  let secretKey ← shellQuote "ROOT_SECRET_KEY" rootSecretKey
  let start := [accessKey, secretKey]
  match t.storageType with
  | .s3 => (renderS3Env t start).map fun env => (env, none)
  | .ssh => renderSftpEnv t start
  | .cifs => (renderCifsEnv t start).map fun env => (env, none)
  | .nfs => (renderNfsEnv t start).map fun env => (env, none)

/- the order of localeCompare -/
def BackupShimClass.rank : BackupShimClass → Nat
  | .mail => 0
  | .system => 1
  | .tenant => 2

def byClass (a b : ClassAssignment) : Prop := a.className.rank ≤ b.className.rank

instance : DecidableRel byClass := fun a b => inferInstanceAs (Decidable (a.className.rank ≤ b.className.rank))

def sortedAssignments (assignments : List ClassAssignment) : List ClassAssignment :=
  assignments.insertionSort byClass

def otherTarget (first a : ClassAssignment) : String :=
  "backup-rclone-shim: class '" ++ a.className.text ++ "' is bound to target '" ++ a.target.name ++ "' (" ++
    a.target.id ++ "), but other classes are bound to '" ++ first.target.name ++ "' (" ++ first.target.id ++
    "). All shim classes must share one upstream target. Either rebind all classes to the same target, " ++
    "or deploy separate shim DaemonSets per target."

def renderShimConfig (crypto : Crypto) (rawKey : RawKey) (assignments : List ClassAssignment) :
    Except String RenderedShimConfig :=
  let shimAccessKey := crypto.deriveShimAccessKey rawKey
  let shimSecretKey := crypto.deriveShimSecretKey rawKey
  let keyFingerprint := crypto.fingerprintRawKey rawKey
  match sortedAssignments assignments with
  | [] =>
    .ok ⟨renderEnvHeader, "", crypto.sha256 renderEnvHeader, shimAccessKey, shimSecretKey, keyFingerprint, [], []⟩
  | first :: rest =>
    match (first :: rest).find? fun a => a.target.id != first.target.id with
    | some a => .error (otherTarget first a)
    | none => do
      let (envBody, sshKey) ← renderUpstreamEnv first.target shimAccessKey shimSecretKey
      let assignedClasses := (first :: rest).map ClassAssignment.className
      let upstreamEnv := renderEnvHeader ++ envBody
      let classesTxt := lines (assignedClasses.map BackupShimClass.text) ++ "\n"
      return ⟨upstreamEnv, classesTxt, crypto.sha256 (upstreamEnv ++ "\n----\n" ++ classesTxt), shimAccessKey,
        shimSecretKey, keyFingerprint, assignedClasses, sshKey.toList⟩

def credFields (t : BackupTargetConfig) : List String :=
  [t.s3Endpoint, t.s3Bucket, t.s3Region, t.s3AccessKey, t.s3SecretKey, t.s3Prefix,
    some (if t.s3UsePathStyle = some false then "pathstyle=false" else "pathstyle=true"),
    t.sshHost, t.sshPort.map toString, t.sshUser, t.sshKey, t.sshPassword, t.sshPath,
    t.cifsHost, t.cifsPort.map toString, t.cifsShare, t.cifsUser, t.cifsPassword, t.cifsDomain, t.cifsPath,
    t.nfsServer, t.nfsExport, t.nfsVersion, t.nfsOptions, t.nfsPath].map fun v => v.getD ""

def hashed (a : ClassAssignment) : String :=
  "class=" ++ a.className.text ++ "\ntid=" ++ a.target.id ++ "\ntname=" ++ a.target.name ++ "\nttype=" ++
    a.target.storageType.text ++ "\n" ++
    String.join ((credFields a.target).map fun v => v ++ String.singleton (Char.ofNat 0))

def computeInputHash (crypto : Crypto) (rawKey : RawKey) (assignments : List ClassAssignment) : String :=
  crypto.sha256 ("v2-versitygw\nfp=" ++ crypto.fingerprintRawKey rawKey ++ "\n" ++
    String.join ((sortedAssignments assignments).map hashed))

end HostingPlatform.BackupRcloneShim

namespace HostingPlatform.BackupRcloneShim.Reconciler

/-- The ConfigMap entry classes.txt, the upstream.env Secret, the SSH-keys Secret and the config-hash
annotation of the DaemonSet. -/
inductive Object where
  | config | credentials | sshKeys | daemonSet
  deriving DecidableEq

inductive ShimState where
  | STATE_OK | STATE_MISSING_KEY | STATE_NO_ASSIGNMENTS | STATE_ERROR
  deriving DecidableEq

structure ShimStatus where
  state : ShimState
  reconciledAt : Nat
  (keyFingerprint inputHash : String)
  assignedClasses : List BackupShimClass
  errorMessage : String

structure ShimReconcileResult where
  state : ShimState
  (inputHash configHash : String)
  assignedClasses : List BackupShimClass
  skipped : Bool
  errorMessage : String

/- what a pass has rendered, and the hash of the inputs it has rendered it from -/
structure Plan where
  key : RawKey
  assignments : List ClassAssignment
  rendered : RenderedShimConfig
  inputHash : String
  state : ShimState

/- how a pass comes to write its status -/
inductive Ending where
  | missingKey (message : String)
  | loadFailed (keyFingerprint message : String)
  | unchanged (plan : Plan)
  | materialised (plan : Plan)
  | failed (plan : Plan) (message : String)

/- the call that a pass makes next -/
inductive Phase where
  | loadBackupTargetKey
  | loadShimAssignments (key : RawKey)
  | readStatusInputHash (plan : Plan)
  | read (plan : Plan) (object : Object)
  | write (plan : Plan) (object : Object) (found : Bool)
  | patchDaemonSet (plan : Plan)
  | readStatus (ending : Ending)
  | writeStatus (ending : Ending) (found : Bool)
  | done (ending : Option Ending)

structure Pass where
  (id reconciledAt : Nat)
  phase : Phase

/-- An object is absent, or has a value under its key or none; the same holds of the status. `loaded` is
what loadShimAssignments makes of the database. For the record: `plans` has every plan that was made. -/
structure Cluster where
  key : Option RawKey
  loaded : Except String (List ClassAssignment)
  objects : Object → Option (Option String)
  status : Option (Option ShimStatus)
  passes : Table Pass Pass.id
  plans : List Plan

/- a call that fails may have been carried out all the same -/
inductive Outcome where
  | answered
  | refused (message : String)
  | lost (message : String)
  deriving DecidableEq

def Outcome.applies : Outcome → Bool
  | .answered => true
  | .lost _ => true
  | .refused _ => false

inductive Action where
  | change (key : Option RawKey) (loaded : Except String (List ClassAssignment))
  | applyDaemonSet
  | start (id reconciledAt : Nat)
  | run (id : Nat) (outcome : Outcome)

def sshKeyData (pems : List String) : Option String :=
  (pems.filter fun pem => Js.trim pem != "").getLast?

def content (r : RenderedShimConfig) : Object → Option String
  | .config => some r.classesTxt
  | .credentials => some r.upstreamEnv
  | .sshKeys => sshKeyData r.sshKeyMaterializations
  | .daemonSet => some r.configHash

def emptyUpstreamEnvHeader (fingerprint : String) : String := lines [
  "# upstream.env — backup-rclone-shim (no class assignments)",
  "# key-fingerprint = " ++ fingerprint,
  "# AUTO-GENERATED. Operators assign targets via the admin panel.",
  ""]

variable (crypto : Crypto)

def hashForEmpty (fingerprint : String) : String := crypto.sha256 ("empty\n" ++ fingerprint)

def emptyRendered (key : RawKey) : RenderedShimConfig :=
  let fingerprint := crypto.fingerprintRawKey key
  ⟨emptyUpstreamEnvHeader fingerprint, "", hashForEmpty crypto fingerprint, "", "", fingerprint, [], []⟩

def Ending.status (reconciledAt : Nat) : Ending → ShimStatus
  | .missingKey message => ⟨.STATE_MISSING_KEY, reconciledAt, "", "", [], message⟩
  | .loadFailed keyFingerprint message => ⟨.STATE_ERROR, reconciledAt, keyFingerprint, "", [], message⟩
  | .unchanged plan =>
    ⟨.STATE_OK, reconciledAt, crypto.fingerprintRawKey plan.key, plan.inputHash, plan.rendered.assignedClasses, ""⟩
  | .materialised plan =>
    ⟨plan.state, reconciledAt, crypto.fingerprintRawKey plan.key, plan.inputHash, plan.rendered.assignedClasses, ""⟩
  | .failed plan message =>
    ⟨.STATE_ERROR, reconciledAt, crypto.fingerprintRawKey plan.key, "", plan.rendered.assignedClasses, message⟩

def Ending.result : Ending → ShimReconcileResult
  | .missingKey message => ⟨.STATE_MISSING_KEY, "", "", [], true, message⟩
  | .loadFailed _ message => ⟨.STATE_ERROR, "", "", [], true, message⟩
  | .unchanged plan =>
    ⟨.STATE_OK, plan.inputHash, plan.rendered.configHash, plan.rendered.assignedClasses, true, ""⟩
  | .materialised plan =>
    ⟨plan.state, plan.inputHash, plan.rendered.configHash, plan.rendered.assignedClasses, false, ""⟩
  | .failed plan message =>
    ⟨.STATE_ERROR, plan.inputHash, plan.rendered.configHash, plan.rendered.assignedClasses, false, message⟩

def missing : String :=
  "Secret platform/backup-target-key not found. Re-run bootstrap.sh or restore from the Tier-1 secrets bundle."

/- a failed read of the key is thrown to the caller -/
def afterKey (key : Option RawKey) : Outcome → Phase
  | .answered =>
    match key with
    | none => .readStatus (.missingKey missing)
    | some key => .loadShimAssignments key
  | _ => .done none

/- steps 2 to 4: the plan, or the message of the error -/
def planOf (key : RawKey) (loaded : Except String (List ClassAssignment)) : Except String Plan :=
  match loaded with
  | .error message => .error message
  | .ok [] => .ok ⟨key, [], emptyRendered crypto key, computeInputHash crypto key [], .STATE_NO_ASSIGNMENTS⟩
  | .ok (a :: rest) => (renderShimConfig crypto key (a :: rest)).map fun rendered =>
      ⟨key, a :: rest, rendered, computeInputHash crypto key (a :: rest), .STATE_OK⟩

def begins (plan : Plan) : Phase :=
  match plan.state with
  | .STATE_NO_ASSIGNMENTS => .read plan .config
  | _ => .readStatusInputHash plan

def storedHash (s : Cluster) : Option String := s.status.bind fun status => status.map ShimStatus.inputHash

/- a read of the status that fails counts as an unknown hash -/
def afterStatusHash (s : Cluster) (plan : Plan) : Outcome → Phase
  | .answered =>
    if storedHash s = some plan.inputHash then .readStatus (.unchanged plan) else .read plan .config
  | _ => .read plan .config

def afterRead (s : Cluster) (plan : Plan) (object : Object) : Outcome → Phase
  | .answered => .write plan object (s.objects object).isSome
  | .refused message => .readStatus (.failed plan message)
  | .lost message => .readStatus (.failed plan message)

def afterWrite (plan : Plan) : Object → Phase
  | .config => .read plan .credentials
  | .credentials => .read plan .sshKeys
  | .sshKeys => .patchDaemonSet plan
  | .daemonSet => .readStatus (.materialised plan)

/- a create needs an object that is absent, a patch one that is there -/
def applicable {A : Type} (found : Bool) (there : Option A) : Bool := found == there.isSome

def setObject (s : Cluster) (object : Object) (value : Option String) : Cluster :=
  { s with objects := fun o => if o = object then some value else s.objects o }

/- an error of the patch of the SSH-keys Secret is swallowed -/
def writeError (plan : Plan) (object : Object) (found : Bool) (message : String) : Phase :=
  if object = .sshKeys ∧ found = true then afterWrite plan .sshKeys else .readStatus (.failed plan message)

def write (s : Cluster) (plan : Plan) (object : Object) (found : Bool) (outcome : Outcome) : Cluster × Phase :=
  let fits := applicable found (s.objects object)
  (if fits && outcome.applies then setObject s object (content plan.rendered object) else s,
    match outcome with
    | .answered =>
      if fits then afterWrite plan object
      else writeError plan object found (if found then "not found" else "already exists")
    | .refused message => writeError plan object found message
    | .lost message => writeError plan object found message)

/- a DaemonSet that is not there yet is tolerated -/
def patchDaemonSet (s : Cluster) (plan : Plan) (outcome : Outcome) : Cluster × Phase :=
  let there := (s.objects .daemonSet).isSome
  (if there && outcome.applies then setObject s .daemonSet (content plan.rendered .daemonSet) else s,
    match outcome with
    | .answered => afterWrite plan .daemonSet
    | .refused message => .readStatus (.failed plan message)
    | .lost message => .readStatus (.failed plan message))

def afterStatusRead (s : Cluster) (ending : Ending) : Outcome → Phase
  | .answered => .writeStatus ending s.status.isSome
  | _ => .done (some ending)

def writeStatus (s : Cluster) (reconciledAt : Nat) (ending : Ending) (found : Bool) (outcome : Outcome) :
    Cluster :=
  if applicable found s.status && outcome.applies then
    { s with status := some (some (ending.status crypto reconciledAt)) }
  else s

def next (s : Cluster) (p : Pass) (outcome : Outcome) : Option (Cluster × Phase) :=
  match p.phase with
  | .loadBackupTargetKey => some (s, afterKey s.key outcome)
  | .loadShimAssignments key =>
    match outcome with
    | .answered =>
      match planOf crypto key s.loaded with
      | .ok plan => some ({ s with plans := plan :: s.plans }, begins plan)
      | .error message => some (s, .readStatus (.loadFailed (crypto.fingerprintRawKey key) message))
    | .refused message => some (s, .readStatus (.loadFailed (crypto.fingerprintRawKey key) message))
    | .lost message => some (s, .readStatus (.loadFailed (crypto.fingerprintRawKey key) message))
  | .readStatusInputHash plan => some (s, afterStatusHash s plan outcome)
  | .read plan object => some (s, afterRead s plan object outcome)
  | .write plan object found => some (write s plan object found outcome)
  | .patchDaemonSet plan => some (patchDaemonSet s plan outcome)
  | .readStatus ending => some (s, afterStatusRead s ending outcome)
  | .writeStatus ending found =>
    some (writeStatus crypto s p.reconciledAt ending found outcome, .done (some ending))
  | .done _ => none

def Pass.enter (phase : Phase) (p : Pass) : Pass := { p with phase }

theorem Pass.enter_id (phase : Phase) (p : Pass) : (p.enter phase).id = p.id := rfl

def hasId (id : Nat) (p : Pass) : Bool := p.id == id

def Cluster.enter (s : Cluster) (id : Nat) (phase : Phase) : Cluster :=
  { s with passes := s.passes.update (hasId id) (Pass.enter phase) (Pass.enter_id phase) }

def step (s : Cluster) : Action → Option Cluster
  | .change key loaded => some { s with key, loaded }
  | .applyDaemonSet => if (s.objects .daemonSet).isSome then none else some (setObject s .daemonSet none)
  | .start id reconciledAt =>
    (s.passes.insert ⟨id, reconciledAt, .loadBackupTargetKey⟩).map fun passes => { s with passes }
  | .run id outcome =>
    (s.passes.select (hasId id)).bind fun p =>
      (next crypto s p outcome).map fun after => after.1.enter id after.2

end HostingPlatform.BackupRcloneShim.Reconciler
