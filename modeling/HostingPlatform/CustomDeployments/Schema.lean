import HostingPlatform.Js.Record
import HostingPlatform.Js.Text

/-! Specs of custom deployments and the schemas that judge them. Numbers are those of the
language, so that a spec may hold what its schema refuses. -/
namespace HostingPlatform.CustomDeployments

open Js

def customSpecVersion : Nat := 1

def allowedCapAdd : List String := ["NET_BIND_SERVICE"]

def allowedSysctls : List String := ["net.ipv4.ip_unprivileged_port_start"]

/- lowercase letters, digits and inner hyphens -/
def label (longest : Nat) (s : String) : Bool :=
  let cs := s.toList
  cs.length ≤ longest && cs.head?.any isAlnum && cs.getLast?.any isAlnum &&
    cs.all (fun c => isAlnum c || c == '-')

def customNameRe (s : String) : Bool := label 63 s

def portNameRe (s : String) : Bool := label 15 s && s.toList.any Char.isLower

def volumeNameRe (s : String) : Bool :=
  match s.toList with
  | [] => false
  | c :: rest =>
    c.isLower && rest.length ≤ 62 && rest.all (fun c => isAlnum c || c == '_' || c == '-')

def envNameRe (s : String) : Bool :=
  match s.toList with
  | [] => false
  | c :: rest =>
    (c.isAlpha || c == '_') && rest.length ≤ 127 && rest.all (fun c => c.isAlphanum || c == '_')

/- one or more digits at the head, and the rest -/
def digits (cs : List Char) : Option (List Char × List Char) :=
  match cs.takeWhile Char.isDigit with
  | [] => none
  | ds => some (ds, cs.dropWhile Char.isDigit)

/- a decimal number at the head: its whole part, its fraction, and the rest -/
def decimalAt (cs : List Char) : Option (List Char × List Char × List Char) :=
  match digits cs with
  | none => none
  | some (whole, '.' :: rest) =>
    match digits rest with
    | none => some (whole, [], '.' :: rest)
    | some (fraction, rest) => some (whole, fraction, rest)
  | some (whole, rest) => some (whole, [], rest)

def quantityUnits : List String := ["m", "Ki", "Mi", "Gi", "Ti", "k", "M", "G", "T"]

def resourceQtyRe (s : String) : Bool :=
  match decimalAt s.toList with
  | some (_, _, rest) => rest == [] || String.ofList rest ∈ quantityUnits
  | none => false

def reservedRoots : List String := ["/proc", "/sys", "/dev", "/run/secrets", "/var/run/secrets"]

def reservedContainerPathRe (s : String) : Bool :=
  reservedRoots.any (fun root => s == root || startsWith s (root ++ "/"))

def uuidRe (s : String) : Bool :=
  let cs := s.toList
  let isHex (c : Char) : Bool := c.isDigit || c.toLower ∈ ['a', 'b', 'c', 'd', 'e', 'f']
  s == "00000000-0000-0000-0000-000000000000" || s == "ffffffff-ffff-ffff-ffff-ffffffffffff" ||
    (cs.splitOn '-').map List.length == [8, 4, 4, 4, 12] &&
      cs.all (fun c => isHex c || c == '-') &&
      cs[14]?.any (fun c => '1' ≤ c && c ≤ '8') &&
      cs[19]?.any (fun c => c.toLower ∈ ['8', '9', 'a', 'b'])

/- `z.number().int().min(low).max(high)` -/
def intIn (low high : Int) : Number → Bool
  | .finite q => q.den == 1 && (low ≤ q && q ≤ high)
  | _ => false

theorem intIn_whole {low high : Int} {n : Number} (whole : n.isWhole = true) :
    intIn low high n = (Number.le (.finite low) n && Number.le n (.finite high)) := by
  cases n with
  | finite q =>
    have den : (q.den == 1) = true := whole
    simp [intIn, den, Number.le]
  | nan => rfl
  | infinity negative => cases negative <;> rfl

structure Port where
  containerPort : Number
  (name protocol : String)
  (exposeAsService ingressEligible : Bool)

inductive MountKind where
  | volume | configMap | secret
  deriving DecidableEq

structure VolumeMount where
  kind : MountKind
  (name containerPath : String)
  readOnly : Bool

structure Env where
  name : String
  (value valueFromSecret valueFromConfigMap : Option String)

structure HttpHeader where
  (name value : String)

inductive Probe where
  | httpGet (path : String) (port : Number) (scheme : String) (headers : Option (List HttpHeader))
  | tcpSocket (port : Number)
  | exec (command : List String)

structure HealthCheck where
  probe : Probe
  (initialDelaySeconds periodSeconds timeoutSeconds failureThreshold successThreshold : Number)

structure Tmpfs where
  path : String
  sizeMi : Number

structure Resources where
  (cpuRequest memoryRequest : String)
  (cpuLimit memoryLimit : Option String)

/- what a lookup in a plain object may inherit is no policy -/
inductive RestartPolicy where
  | always | onFailure | never
  | inherited (key : String)
  deriving DecidableEq

structure Service where
  image : String
  (command entrypoint : Option (List String))
  env : List Env
  ports : List Port
  volumeMounts : List VolumeMount
  resources : Resources
  healthCheck : Option HealthCheck
  restartPolicy : RestartPolicy
  (runAsUser runAsGroup : Option Number)
  workingDir : Option String
  readOnlyRootFilesystem : Bool
  tmpfs : List Tmpfs
  capAdd : List String
  sysctls : Option (Record String)
  stopGracePeriodSeconds : Option Number
  dependsOn : List String
  labels : Option (Record String)

structure VolumeDef where
  sizeHint : Option String

/- an inline ConfigMap or Secret -/
structure InlineFile where
  (name content : String)
  mode : Nat

inductive SourceMode where
  | simple | compose
  deriving DecidableEq

structure Spec where
  specVersion : Nat
  sourceMode : SourceMode
  services : Record Service
  volumes : Record VolumeDef
  (configMaps secrets : List InlineFile)
  allowRoot : Bool
  pullCredentialId : Option String

inductive Severity where
  | error | warning | info
  deriving DecidableEq

structure Issue where
  severity : Severity
  (code path message : String)
  hint : Option String := none

def isError (i : Issue) : Bool := i.severity == .error

def portProtocols : List String := ["TCP", "UDP", "SCTP"]

def customPortSchema (p : Port) : Bool :=
  intIn 1 65535 p.containerPort && portNameRe p.name && !includes p.name "--" &&
    portProtocols.contains p.protocol

def containerPathSchema (path : String) : Bool :=
  2 ≤ length path && length path ≤ 4096 && startsWith path "/" &&
    !includes path "//" && !includes path "/../" && !endsWith path "/.." &&
    !includes path "/./" && !endsWith path "/." && !reservedContainerPathRe path

def customVolumeMountSchema (vm : VolumeMount) : Bool :=
  volumeNameRe vm.name && containerPathSchema vm.containerPath

def customEnvSchema (e : Env) : Bool :=
  envNameRe e.name && e.value.all (fun v => length v ≤ 32 * 1024) &&
    e.valueFromSecret.all customNameRe && e.valueFromConfigMap.all customNameRe &&
    [e.value, e.valueFromSecret, e.valueFromConfigMap].countP Option.isSome == 1

def headerNameRe (s : String) : Bool :=
  !s.isEmpty && s.toList.all (fun c => c.isAlphanum || "!#$%&'*+-.^_`|~".toList.contains c)

def httpHeaderSchema (h : HttpHeader) : Bool :=
  length h.name ≤ 255 && headerNameRe h.name && length h.value ≤ 8 * 1024 &&
    !includes h.value "\r" && !includes h.value "\n"

def argvSchema (argv : List String) : Bool :=
  argv.length ≤ 64 && argv.all (fun arg => length arg ≤ 4096)

def probeSchema : Probe → Bool
  | .httpGet path port scheme headers =>
    startsWith path "/" && length path ≤ 2048 && intIn 1 65535 port &&
      ["HTTP", "HTTPS"].contains scheme &&
      headers.all (fun hs => hs.length ≤ 20 && hs.all httpHeaderSchema)
  | .tcpSocket port => intIn 1 65535 port
  | .exec command => 1 ≤ command.length && argvSchema command

def customHealthCheckSchema (h : HealthCheck) : Bool :=
  probeSchema h.probe && intIn 0 3600 h.initialDelaySeconds && intIn 1 3600 h.periodSeconds &&
    intIn 1 60 h.timeoutSeconds && intIn 1 20 h.failureThreshold && intIn 1 10 h.successThreshold

def mountDirSchema (path : String) : Bool :=
  startsWith path "/" && length path ≤ 4096 && !reservedContainerPathRe path

def customTmpfsSchema (t : Tmpfs) : Bool := mountDirSchema t.path && intIn 1 256 t.sizeMi

def customResourcesSchema (r : Resources) : Bool :=
  resourceQtyRe r.cpuRequest && resourceQtyRe r.memoryRequest && r.cpuLimit.all resourceQtyRe &&
    r.memoryLimit.all resourceQtyRe

def uidGidSchema (n : Number) : Bool := intIn 0 65535 n

def restartPolicySchema (p : RestartPolicy) : Bool :=
  [RestartPolicy.always, .onFailure, .never].contains p

def sysctlValueRe (s : String) : Bool := !s.isEmpty && s.toList.all Char.isDigit

def sysctlsSchema (sysctls : Record String) : Bool :=
  sysctls.entries.all (fun (key, value) => allowedSysctls.contains key && sysctlValueRe value) &&
    allowedSysctls.all (fun key => sysctls.keys.contains key)

def customServiceSchema (svc : Service) : Bool :=
  1 ≤ length svc.image && length svc.image ≤ 500 &&
    svc.command.all argvSchema && svc.entrypoint.all argvSchema &&
    (svc.env.length ≤ 200 && svc.env.all customEnvSchema) &&
    (svc.ports.length ≤ 20 && svc.ports.all customPortSchema) &&
    (svc.volumeMounts.length ≤ 50 && svc.volumeMounts.all customVolumeMountSchema) &&
    customResourcesSchema svc.resources &&
    svc.healthCheck.all customHealthCheckSchema &&
    restartPolicySchema svc.restartPolicy &&
    svc.runAsUser.all uidGidSchema && svc.runAsGroup.all uidGidSchema &&
    svc.workingDir.all mountDirSchema &&
    (svc.tmpfs.length ≤ 10 && svc.tmpfs.all customTmpfsSchema) &&
    (svc.capAdd.length ≤ 1 && svc.capAdd.all allowedCapAdd.contains) &&
    svc.sysctls.all sysctlsSchema &&
    svc.stopGracePeriodSeconds.all (intIn 0 300) &&
    (svc.dependsOn.length ≤ 10 && svc.dependsOn.all customNameRe)

def customVolumeDefSchema (v : VolumeDef) : Bool := v.sizeHint.all resourceQtyRe

def inlineFileSchema (f : InlineFile) : Bool :=
  customNameRe f.name && length f.content ≤ 1024 * 1024 && f.mode ≤ 0o777

def customDeploymentSpecSchema (spec : Spec) : Bool :=
  spec.specVersion == customSpecVersion &&
    spec.services.entries.all (fun (name, svc) => customNameRe name && customServiceSchema svc) &&
    1 ≤ spec.services.keys.length && spec.services.keys.length ≤ 10 &&
    spec.volumes.entries.all (fun (name, def_) => volumeNameRe name && customVolumeDefSchema def_) &&
    (spec.configMaps.length ≤ 20 && spec.configMaps.all inlineFileSchema) &&
    (spec.secrets.length ≤ 20 && spec.secrets.all inlineFileSchema) &&
    spec.pullCredentialId.all uuidRe

structure ParsedImageReference where
  (registryHost repository : String)
  (tag digest : Option String)
  deriving DecidableEq

def digestRe (s : String) : Bool :=
  startsWith s "sha256:" && (s.toList.drop 7).length == 64 &&
    (s.toList.drop 7).all (fun c => c.isDigit || 'a' ≤ c && c ≤ 'f')

def tagRe (s : String) : Bool :=
  match s.toList with
  | [] => false
  | c :: rest =>
    (c.isAlphanum || c == '_') && rest.length ≤ 127 &&
      rest.all (fun c => c.isAlphanum || c == '_' || c == '.' || c == '-')

/- runs of letters and digits; between two of them a dot, one or two underscores, or hyphens -/
def repoSegmentRe (s : String) : Bool :=
  let cs := s.toList
  let runs := cs.splitBy (fun a b => isAlnum a == isAlnum b)
  cs.head?.any isAlnum && cs.getLast?.any isAlnum &&
    runs.all (fun run => run.all isAlnum || run.all (· == '-') ||
      [['.'], ['_'], ['_', '_']].contains run)

def splitDigest (input : String) : Option (String × Option String) :=
  match cutLast '@' input with
  | none => some (input, none)
  | some (before, digest) => if digestRe digest then some (before, some digest) else none

/- the tag stands after the last colon that comes after the last slash -/
def splitTag (beforeDigest : String) : Option (String × Option String) :=
  match cutLast ':' beforeDigest with
  | none => some (beforeDigest, none)
  | some (before, tag) =>
    if includes tag "/" then some (beforeDigest, none)
    else if tagRe tag then some (before, some tag) else none

def looksLikeHost (first : String) : Bool :=
  includes first "." || includes first ":" || first == "localhost"

def splitHost (beforeTag : String) : Option (String × String) :=
  match cut '/' beforeTag with
  | none => if repoSegmentRe beforeTag then some ("docker.io", "library/" ++ beforeTag) else none
  | some (first, rest) =>
    let (host, repository) :=
      if looksLikeHost first then (first, rest) else ("docker.io", beforeTag)
    if (split '/' repository).all repoSegmentRe then some (host, repository) else none

def parseImageReference (raw : String) : Option ParsedImageReference := do
  let input := trim raw
  if input = "" ∨ 500 < length input then none
  let (beforeDigest, digest) ← splitDigest input
  let (beforeTag, tag) ← splitTag beforeDigest
  let (registryHost, repository) ← splitHost beforeTag
  return { registryHost, repository, tag, digest }

def isPinnedReference (ref : ParsedImageReference) : Bool :=
  ref.digest.isSome || ref.tag.any (· ≠ "latest")

end HostingPlatform.CustomDeployments
