import HostingPlatform.ResourceQuantities.Parsers

/-! What a catalog entry says of a deployment, and the record that its deployer is given. -/
namespace HostingPlatform.Deployments

open Js

inductive ComponentType where
  | deployment | statefulset | cronjob | job
  deriving DecidableEq

structure ComponentPort where
  port : Nat
  protocol : String
  deriving DecidableEq

structure ComponentResources where
  (cpu memory : Option String)
  deriving DecidableEq

structure ResourceShare where
  weight : Nat
  (minCpu minMemory : Option String)
  deriving DecidableEq

structure DeployComponentInput where
  name : String
  type : ComponentType
  image : String
  ports : List ComponentPort
  optional : Bool
  schedule : Option String
  (volumes command args : Option (List String))
  resources : Option ComponentResources
  resourceShare : Option ResourceShare

def runs (c : DeployComponentInput) : Bool := c.type == .deployment || c.type == .statefulset

structure Volume where
  containerPath : String
  localPath : Option String
  deriving DecidableEq

/- a port, or a text that may be a range of ports -/
inductive UdpPort where
  | port (n : Nat)
  | range (text : String)

structure ManifestFirewall where
  tcp : List Nat
  udp : List UdpPort

inductive Protocol where
  | tcp | udp
  deriving DecidableEq

structure ManifestHostPort where
  component : String
  port : Nat
  protocol : Protocol

inductive StorageTier where
  | localDisk | ha
  deriving DecidableEq

structure DeployCatalogEntryInput where
  (deploymentName storagePath namespace_ : String)
  components : List DeployComponentInput
  volumes : List Volume
  replicaCount : Nat
  (cpuRequest memoryRequest : String)
  configuration : Option (Record Value)
  fixedEnvVars : Option (Record String)
  configurableEnvKeys : Option (List String)
  reuseExistingData : Bool
  (catalogCode passwordEnvVar timezone nodeName : Option String)
  storageTier : Option StorageTier
  firewall : Option ManifestFirewall
  hostPorts : List ManifestHostPort

/- `s.toUpperCase() === 'UDP' ? 'UDP' : 'TCP'` -/
def protocolOf (s : String) : Protocol := if toUpperCase s = "UDP" then .udp else .tcp

/- what a token at the head names, and what comes after it -/
def tokenAt (opening cs : List Char) : Option (String × List Char) :=
  if opening.isPrefixOf cs then
    let rest := cs.drop opening.length
    match rest.takeWhile (· != '}'), rest.dropWhile (· != '}') with
    | c :: name, '}' :: '}' :: tail => some (trim (String.ofList (c :: name)), tail)
    | _, _ => none
  else none

/- each token from left to right; every step takes a character at least -/
def replaceTokens (opening : List Char) (value : String → Except String String) :
    Nat → List Char → Except String (List Char)
  | 0, cs => .ok cs
  | _ + 1, [] => .ok []
  | n + 1, c :: cs =>
    match tokenAt opening (c :: cs) with
    | some (name, tail) =>
      match value name with
      | .error e => .error e
      | .ok text => (replaceTokens opening value n tail).map (text.toList ++ ·)
    | none => (replaceTokens opening value n cs).map (c :: ·)

def replaceAll (opening : String) (value : String → Except String String) (raw : String) :
    Except String String :=
  (replaceTokens opening.toList value raw.toList.length raw.toList).map String.ofList

def uriUnreserved (c : Char) : Bool := c.isAlphanum || "-_.!~*'()".toList.contains c

def hexDigit (n : Nat) : Char := "0123456789ABCDEF".toList.getD n '0'

def percent (b : UInt8) : List Char := ['%', hexDigit (b.toNat / 16), hexDigit (b.toNat % 16)]

def encodeURIComponent (s : String) : String :=
  String.ofList (s.toList.flatMap (fun c =>
    if uriUnreserved c then [c]
    else (String.singleton c).toUTF8.toList.flatMap percent))

structure TokenContext where
  deploymentName : String
  componentNames : List String
  envMap : Record String

def serviceToken (ctx : TokenContext) (name : String) : Except String String :=
  if ctx.componentNames.contains name then
    .ok (if ctx.componentNames.length ≤ 1 then ctx.deploymentName else ctx.deploymentName ++ "-" ++ name)
  else
    .error ("env template: unknown component \"" ++ name ++ "\" referenced via \x7b\x7bSERVICE:" ++ name ++
      "\x7d\x7d")

def envToken (kind : String) (encode : String → String) (ctx : TokenContext) (name : String) :
    Except String String :=
  match ctx.envMap.get name with
  | some v => .ok (encode v)
  | none =>
    .error ("env template: unknown env var \"" ++ name ++ "\" referenced via \x7b\x7b" ++ kind ++ ":" ++ name ++
      "\x7d\x7d")

def expandTokens (raw : String) (ctx : TokenContext) : Except String String := do
  let services ← replaceAll "\x7b\x7bSERVICE:" (serviceToken ctx) raw
  let encoded ← replaceAll "\x7b\x7bENV_URLSAFE:" (envToken "ENV_URLSAFE" encodeURIComponent ctx) services
  replaceAll "\x7b\x7bENV:" (envToken "ENV" id ctx) encoded

/- `String(value)` of a text, a number or a truth value -/
def plainText : Value → Option String
  | .string s => some s
  | .number n => some n.string
  | .bool b => some (if b then "true" else "false")
  | _ => none

def takeOver (allowed : Option (List String)) (envMap : Record String) (entry : String × Value) :
    Record String :=
  if envMap.keys.contains entry.1 then envMap
  else if allowed.any (fun keys => !keys.contains entry.1) then envMap
  else
    match plainText entry.2 with
    | some text => envMap.set entry.1 text
    | none => envMap

def rawEnv (fixed : Option (Record String)) (configuration : Option (Record Value))
    (configurableEnvKeys : Option (List String)) : Record String :=
  let fixed := fixed.getD .empty
  match configuration with
  | some configuration => configuration.entries.foldl (takeOver configurableEnvKeys) fixed
  | none => fixed

def buildEnvVars (fixed : Option (Record String)) (configuration : Option (Record Value))
    (deploymentName : String) (componentNames : List String)
    (configurableEnvKeys : Option (List String)) : Except String (List (String × String)) :=
  let envMap := rawEnv fixed configuration configurableEnvKeys
  envMap.entries.mapM (fun entry =>
    (expandTokens entry.2 ⟨deploymentName, componentNames, envMap⟩).map (entry.1, ·))

open ResourceQuantities

structure AllocationResult where
  (cpu memory : String)

def defaultMinCpu : String := "50m"

def defaultMinMemory : String := "64Mi"

def toCpuMilli (value : String) : Number := ((parseResourceValue value .cpu).mul 1000).round

def toMemMi (value : String) : Number := ((parseResourceValue value .memory).mul 1024).round

def formatCpuMilli (milli : Number) : String := milli.string ++ "m"

def formatMemMi (mi : Number) : String := mi.string ++ "Mi"

/- neither a job nor a component that asks for something itself -/
def bearsBudget (c : DeployComponentInput) : Bool :=
  c.type != .job && c.resources.all (fun r => r.cpu.isNone && r.memory.isNone)

structure ComponentSpec where
  name : String
  weight : Nat
  (minCpuMilli minMemMi : Number)

def componentSpec (useShares : Bool) (c : DeployComponentInput) : ComponentSpec where
  name := c.name
  weight := if useShares then (c.resourceShare.map ResourceShare.weight).getD 1 else 1
  minCpuMilli := toCpuMilli ((c.resourceShare.bind ResourceShare.minCpu).getD defaultMinCpu)
  minMemMi := toMemMi ((c.resourceShare.bind ResourceShare.minMemory).getD defaultMinMemory)

def insufficientBudget (requiredCpu requiredMem assignedCpu assignedMem : Number) : String :=
  let cpu := formatCpuMilli assignedCpu
  let memory := formatMemMi assignedMem
  let neededCpu := formatCpuMilli requiredCpu
  let neededMemory := formatMemMi requiredMem
  s!"Assigned budget (cpu={cpu}, memory={memory}) is below the sum of component minimums (cpu={neededCpu}, memory={neededMemory}). Raise the deployment's CPU or memory."

def minus (x y : Number) : Number := x.add (negate y)

/- `Math.floor((remaining * weight) / totalWeight)`; weights that sum to zero are all zero -/
def share (remaining : Number) (weight totalWeight : Nat) : Number :=
  if totalWeight = 0 then .nan
  else ((remaining.mul (.finite weight)).divide totalWeight).floor

section

/- whether one text stands before another for `localeCompare` -/
variable (localeBefore : String → String → Bool)

/- the component that is given what rounding leaves -/
def heaviest : List ComponentSpec → Option ComponentSpec
  | [] => none
  | s :: rest =>
    rest.foldl (fun best next =>
      best.map (fun b =>
        if b.weight < next.weight ∨ b.weight = next.weight ∧ localeBefore next.name b.name = true then next
        else b)) (some s)

/- one resource: the minimum of each, a share of the rest, and what rounding leaves -/
def allocate (specs : List ComponentSpec) (total : Number) (minimum : ComponentSpec → Number) :
    Record Number :=
  let totalWeight := (specs.map ComponentSpec.weight).sum
  let remaining := minus total (Number.sum (specs.map minimum))
  let given (s : ComponentSpec) := (minimum s).add (share remaining s.weight totalWeight)
  let shares := specs.foldl (fun r s => r.set s.name (given s)) Record.empty
  let remainder := minus total (Number.sum (specs.map given))
  match heaviest localeBefore specs with
  | some target =>
    if Number.lt 0 remainder then shares.set target.name (((shares.get target.name).getD 0).add remainder)
    else shares
  | none => shares

def allocateResources (cpu memory : String) (components : List DeployComponentInput) :
    Except String (Record AllocationResult) :=
  match components.filter bearsBudget with
  | [] => .ok Record.empty
  | [c] =>
    .ok (Record.empty.set c.name ⟨formatCpuMilli (toCpuMilli cpu), formatMemMi (toMemMi memory)⟩)
  | budgetComponents =>
    let totalCpuMilli := toCpuMilli cpu
    let totalMemMi := toMemMi memory
    let useShares := budgetComponents.all (fun c => c.resourceShare.isSome)
    let specs := budgetComponents.map (componentSpec useShares)
    let sumMinCpu := Number.sum (specs.map ComponentSpec.minCpuMilli)
    let sumMinMem := Number.sum (specs.map ComponentSpec.minMemMi)
    if Number.lt totalCpuMilli sumMinCpu || Number.lt totalMemMi sumMinMem then
      .error (insufficientBudget sumMinCpu sumMinMem totalCpuMilli totalMemMi)
    else
      let cpuAlloc := allocate localeBefore specs totalCpuMilli ComponentSpec.minCpuMilli
      let memAlloc := allocate localeBefore specs totalMemMi ComponentSpec.minMemMi
      .ok (specs.foldl (fun r s =>
        r.set s.name ⟨formatCpuMilli ((cpuAlloc.get s.name).getD 0),
          formatMemMi ((memAlloc.get s.name).getD 0)⟩) Record.empty)

end

/-! The objects that a catalog deployment is rendered to, in the order in which they are applied. -/

structure VolumeMount where
  (name mountPath : String)
  subPath : Option String
  deriving DecidableEq

structure ContainerPort where
  containerPort : Nat
  hostPort : Option Nat
  protocol : Protocol

structure Container where
  (name image : String)
  ports : List ContainerPort
  (cpu memory : String)
  (command args : List String)
  env : List (String × String)
  volumeMounts : List VolumeMount

inductive Engine where
  | mariadb | mysql | postgresql | mongodb
  deriving DecidableEq

/- what an init container runs: the directories it makes, or the reset of a root password -/
inductive InitScript where
  | initDirs (command : String)
  | resetRootPassword (engine : Engine) (image passwordEnvVar : String) (env : List (String × String))

structure InitContainer where
  script : InitScript
  volumeMounts : List VolumeMount

structure PodTemplate where
  annotations : List (String × String)
  initContainers : List InitContainer
  container : Container
  (claimName nodeSelector preferredNode : Option String)

structure Labels where
  (app component : String)

structure PolicyPort where
  protocol : Protocol
  port : Nat
  endPort : Option Nat
  deriving DecidableEq

inductive KubeObject where
  | deployment (name : String) (labels : Labels) (replicas : Nat) (pod : PodTemplate)
  | cronJob (name : String) (labels : Labels) (schedule : String) (pod : PodTemplate)
  | job (name : String) (labels : Labels) (pod : PodTemplate)
  | service (name : String) (selector : Labels) (ports : List (Nat × Protocol))
  | networkPolicy (name app : String) (ports : List PolicyPort)

def k8sResourceName (deploymentName componentName : String) (componentCount : Nat) : String :=
  if componentCount ≤ 1 then deploymentName else deploymentName ++ "-" ++ componentName

/- `/^[a-z][a-z0-9_-]{0,63}$/` -/
def localPathSegmentRe (s : String) : Bool :=
  match s.toList with
  | [] => false
  | c :: rest => c.isLower && rest.length ≤ 63 && rest.all (fun c => isAlnum c || c == '_' || c == '-')

/- what stands for the directory of the deployment itself -/
def isRoot (localPath : Option String) : Bool := localPath.all (fun lp => lp == "" || lp == ".")

def volumeKey (v : Volume) : Except String (Option String) :=
  if isRoot v.localPath then .ok none
  else
    let lp := v.localPath.getD ""
    if localPathSegmentRe lp then .ok (some lp)
    else .error s!"volumeKey: invalid local_path \"{lp}\" — expected \".\" or a single lowercase segment"

def filterVolumesForComponent (appVolumes : List Volume) (componentVolumes : Option (List String)) :
    List Volume :=
  match componentVolumes with
  | none => appVolumes
  | some [] => []
  | some want =>
    appVolumes.filter (fun v =>
      if isRoot v.localPath then want.contains "." else want.contains (v.localPath.getD ""))

def tenantStorage : String := "tenant-storage"

def subPathOf (storagePath : String) : Option String → Option String
  | none => if storagePath = "" then none else some storagePath
  | some key => some (if storagePath = "" then key else storagePath ++ "/" ++ key)

def mountOf (storagePath : String) (v : Volume) : Except String VolumeMount :=
  (volumeKey v).map (fun key => ⟨tenantStorage, v.containerPath, subPathOf storagePath key⟩)

def mkdirPart (m : VolumeMount) : String :=
  match m.subPath with
  | some subPath => s!"mkdir -p /data/{subPath} && chmod 777 /data/{subPath}"
  | none => "chmod 777 /data"

def initDirsContainer (mounts : List VolumeMount) : InitContainer where
  script := .initDirs (" && ".intercalate (mounts.map mkdirPart))
  volumeMounts := [⟨tenantStorage, "/data", none⟩]

/- no mounts where there are no volumes -/
def buildVolumeMountSpec (volumes : List Volume) (storagePath : String) :
    Except String (List VolumeMount) := volumes.mapM (mountOf storagePath)

def dbEngine : String → Option Engine
  | "mariadb" => some .mariadb
  | "mysql" => some .mysql
  | "postgresql" => some .postgresql
  | "mongodb-7" | "mongodb" => some .mongodb
  | _ => none

def engineMountPath : Engine → String
  | .mariadb | .mysql => "/var/lib/mysql"
  | .postgresql => "/var/lib/postgresql"
  | .mongodb => "/data/db"

def buildPasswordResetInitContainer (catalogCode image storagePath passwordEnvVar : String)
    (env : List (String × String)) : Option InitContainer :=
  if passwordEnvVar = "" then none
  else
    (dbEngine catalogCode).map (fun engine =>
      ⟨.resetRootPassword engine image passwordEnvVar env,
        [⟨tenantStorage, engineMountPath engine, some storagePath⟩]⟩)

def given (text : Option String) : Option String := text.filter (· != "")

def passwordResetContainer (input : DeployCatalogEntryInput) (env : List (String × String)) :
    Option InitContainer :=
  if input.reuseExistingData then
    match given input.catalogCode, given input.passwordEnvVar with
    | some catalogCode, some passwordEnvVar =>
      let image := (input.components.head?.map DeployComponentInput.image).getD ""
      buildPasswordResetInitContainer catalogCode image input.storagePath passwordEnvVar env
    | _, _ => none
  else none

def udpText : UdpPort → String
  | .port n => toString n
  | .range text => text

def joinPorts (ports : List String) : String := ",".intercalate (ports.filter (· != ""))

def buildFirewallAnnotations (firewall : Option ManifestFirewall) : List (String × String) :=
  match firewall with
  | none => []
  | some fw =>
    [("platform.io/firewall-tcp-ports", joinPorts (fw.tcp.map toString)),
      ("platform.io/firewall-udp-ports", joinPorts (fw.udp.map udpText))].filter (·.2 != "")

def hostPortFor (input : DeployCatalogEntryInput) (component : String) (p : ComponentPort) : Option Nat :=
  if input.hostPorts.any (fun hp =>
      hp.component == component && hp.port == p.port && hp.protocol == protocolOf p.protocol) then
    some p.port
  else none

/- only these two spellings are written -/
def containerProtocol (s : String) : Protocol := if s = "UDP" ∨ s = "udp" then .udp else .tcp

def containerPorts (input : DeployCatalogEntryInput) (component : DeployComponentInput) :
    List ContainerPort :=
  component.ports.map (fun p =>
    ⟨p.port, hostPortFor input component.name p, containerProtocol p.protocol⟩)

def buildContainer (input : DeployCatalogEntryInput) (env : List (String × String))
    (allocations : Record AllocationResult) (component : DeployComponentInput) : Container where
  name := component.name
  image := component.image
  ports := containerPorts input component
  cpu := ((component.resources.bind ComponentResources.cpu).or
    ((allocations.get component.name).map AllocationResult.cpu)).getD input.cpuRequest
  memory := ((component.resources.bind ComponentResources.memory).or
    ((allocations.get component.name).map AllocationResult.memory)).getD input.memoryRequest
  command := component.command.getD []
  args := component.args.getD []
  env := env
  volumeMounts := []

/- the template of every pod: a volume of the tenant when there is something to mount -/
def podTemplate (input : DeployCatalogEntryInput) (container : Container) (mounts : List VolumeMount) :
    PodTemplate where
  annotations := []
  initContainers := if mounts.isEmpty then [] else [initDirsContainer mounts]
  container := { container with volumeMounts := mounts }
  claimName := if mounts.isEmpty then none else some (input.namespace_ ++ "-storage")
  nodeSelector := none
  preferredNode := none

/- a pod that is kept running is pinned as well, and may reset a password first -/
def deploymentTemplate (input : DeployCatalogEntryInput) (env : List (String × String))
    (pod : PodTemplate) : PodTemplate :=
  { pod with
    annotations := buildFirewallAnnotations input.firewall
    initContainers := (passwordResetContainer input env).toList ++ pod.initContainers
    nodeSelector := if input.storageTier = some .ha then none else given input.nodeName
    preferredNode := if input.storageTier = some .ha then given input.nodeName else none }

def defaultSchedule : String := "0 * * * *"

def servicePorts (component : DeployComponentInput) : List (Nat × Protocol) :=
  component.ports.map (fun p => (p.port, protocolOf p.protocol))

def renderWorkload (input : DeployCatalogEntryInput) (env : List (String × String))
    (component : DeployComponentInput) (name : String) (labels : Labels) (pod : PodTemplate) :
    List KubeObject :=
  let service : List KubeObject :=
    if component.ports.isEmpty then [] else [.service name labels (servicePorts component)]
  match component.type with
  | .deployment | .statefulset =>
    .deployment name labels input.replicaCount (deploymentTemplate input env pod) :: service
  | .cronjob => [.cronJob name labels (component.schedule.getD defaultSchedule) pod]
  | .job => [.job name labels pod]

def renderComponent (input : DeployCatalogEntryInput) (env : List (String × String))
    (allocations : Record AllocationResult) (component : DeployComponentInput) :
    Except String (List KubeObject) := do
  let volumes := filterVolumesForComponent input.volumes component.volumes
  let mounts ← buildVolumeMountSpec volumes input.storagePath
  let name := k8sResourceName input.deploymentName component.name input.components.length
  let labels : Labels := ⟨input.deploymentName, component.name⟩
  let container := buildContainer input env allocations component
  return renderWorkload input env component name labels (podTemplate input container mounts)

/- `/^(\d+)-(\d+)$/` and `/^\d+$/` -/
def policyPortOf (text : String) : Option PolicyPort :=
  match text.toList.takeWhile Char.isDigit, text.toList.dropWhile Char.isDigit with
  | d :: ds, [] => some ⟨.udp, decimal (d :: ds), none⟩
  | d :: ds, '-' :: e :: es =>
    if (e :: es).all Char.isDigit then some ⟨.udp, decimal (d :: ds), some (decimal (e :: es))⟩ else none
  | _, _ => none

def policyPort : UdpPort → Option PolicyPort
  | .port n => some ⟨.udp, n, none⟩
  | .range text => policyPortOf text

def policyPorts (firewall : ManifestFirewall) : List PolicyPort :=
  firewall.tcp.map (fun n => ⟨.tcp, n, none⟩) ++ firewall.udp.filterMap policyPort

def firewallPolicyName (deploymentName : String) : String := "firewall-allow-" ++ deploymentName

def deployFirewallNetworkPolicy (input : DeployCatalogEntryInput) : List KubeObject :=
  match input.firewall.map policyPorts with
  | none | some [] => []
  | some entries => [.networkPolicy (firewallPolicyName input.deploymentName) input.deploymentName entries]

def withTimezone (timezone : Option String) (env : List (String × String)) : List (String × String) :=
  match given timezone with
  | some tz => if env.any (fun e => e.1 == "TZ") then env else env ++ [("TZ", tz)]
  | none => env

def deployCatalogEntry (localeBefore : String → String → Bool) (input : DeployCatalogEntryInput) :
    Except String (List KubeObject) := do
  let env ← buildEnvVars input.fixedEnvVars input.configuration input.deploymentName
    (input.components.map DeployComponentInput.name) input.configurableEnvKeys
  let env := withTimezone input.timezone env
  let allocations ← allocateResources localeBefore input.cpuRequest input.memoryRequest input.components
  let objects ← input.components.mapM (renderComponent input env allocations)
  return objects.flatten ++ deployFirewallNetworkPolicy input

end HostingPlatform.Deployments
