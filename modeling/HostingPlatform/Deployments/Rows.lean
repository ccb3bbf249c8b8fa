import HostingPlatform.Deployments.K8sDeployer
import HostingPlatform.CustomDeployments.Deployer

/-! Catalog entries with their versions, and what they come to for a deployment. -/
namespace HostingPlatform.Deployments

open Js

structure ManifestComponent where
  name : String
  type : ComponentType
  image : String
  ports : Option (List ComponentPort)
  optional : Option Bool
  schedule : Option String
  (volumes command args : Option (List String))
  resources : Option ComponentResources
  resourceShare : Option ResourceShare
  database : Option String
  deriving DecidableEq

structure VersionComponent where
  (name image : String)

structure EnvVars where
  generated : Option (List String)
  fixed : Option (Record String)
  configurable : Option (List String)

structure RawFirewall where
  tcp : Option (List Nat)
  udp : Option (List UdpPort)

structure RawHostPort where
  component : Option String
  port : Option Nat
  protocol : Option String

structure Networking where
  ingressPorts : Option (List ComponentPort)
  firewall : Option RawFirewall
  hostPorts : Option (List RawHostPort)

inductive VersionLockMode where
  | strict | advisory | unlocked

structure CatalogEntryVersion where
  version : String
  upgradeFrom : Option (List String)
  components : Option (List VersionComponent)
  volumes : Option (List Volume)
  envVars : Option EnvVars

/- with the rows of its versions, which are unique by their version -/
structure CatalogEntry where
  code : String
  image : Option String
  components : Option (List ManifestComponent)
  volumes : Option (List Volume)
  envVars : Option EnvVars
  networking : Option Networking
  defaultVersion : Option String
  versionLockMode : Option VersionLockMode
  versions : List CatalogEntryVersion

def defaultPort : ComponentPort := ⟨8080, "tcp"⟩

def resolveIngressPorts (entry : CatalogEntry) : List ComponentPort :=
  match entry.networking.bind Networking.ingressPorts with
  | none | some [] => [defaultPort]
  | some ports => ports

def imageOf (entry : CatalogEntry) : String := entry.image.getD (entry.code ++ ":latest")

def resolveComponent (versionComponents : Option (List VersionComponent)) (comp : ManifestComponent) :
    DeployComponentInput :=
  let versionImage := (versionComponents.bind (List.find? (·.name == comp.name))).map VersionComponent.image
  { name := comp.name
    type := comp.type
    image := versionImage.getD comp.image
    ports := comp.ports.getD []
    optional := comp.optional.getD false
    schedule := comp.schedule
    volumes := comp.volumes
    command := comp.command
    args := comp.args
    resources := comp.resources
    resourceShare := comp.resourceShare }

def soleComponent (name image : String) (ports : List ComponentPort) : DeployComponentInput where
  name := name
  type := .deployment
  image := image
  ports := ports
  optional := false
  schedule := none
  volumes := none
  command := none
  args := none
  resources := none
  resourceShare := none

def resolveComponents (entry : CatalogEntry) (versionComponents : Option (List VersionComponent)) :
    List DeployComponentInput :=
  match entry.components.getD [] with
  | [] =>
    let versionImage := (versionComponents.bind List.head?).map VersionComponent.image
    [soleComponent entry.code (versionImage.getD (imageOf entry)) (resolveIngressPorts entry)]
  | comps => comps.map (resolveComponent versionComponents)

structure ResolvedDeploymentConfig where
  components : List DeployComponentInput
  volumes : List Volume
  fixedEnvVars : Record String
  (generatedEnvKeys configurableEnvKeys : List String)
  installedVersion : Option String

def merge (under over_ : Option (Record String)) : Record String :=
  ((over_.getD .empty).entries.foldl (fun r e => r.set e.1 e.2)) (under.getD .empty)

def versionRecord (entry : CatalogEntry) (targetVersion : Option String) : Option CatalogEntryVersion :=
  (given (targetVersion.or entry.defaultVersion)).bind
    (fun effective => entry.versions.find? (·.version == effective))

def resolveVersionAwareDeploymentConfig (entry : CatalogEntry) (targetVersion : Option String) :
    ResolvedDeploymentConfig :=
  let version := versionRecord entry targetVersion
  let versionEnv := version.bind CatalogEntryVersion.envVars
  let generated := (entry.envVars.bind EnvVars.generated).getD []
  let configurable :=
    match versionEnv.bind EnvVars.configurable with
    | none | some [] => (entry.envVars.bind EnvVars.configurable).getD []
    | some keys => keys
  { components := resolveComponents entry (version.bind CatalogEntryVersion.components)
    volumes :=
      match version.bind CatalogEntryVersion.volumes with
      | none | some [] => entry.volumes.getD []
      | some volumes => volumes
    fixedEnvVars := merge (entry.envVars.bind EnvVars.fixed) (versionEnv.bind EnvVars.fixed)
    generatedEnvKeys := generated
    configurableEnvKeys := (configurable ++ generated).eraseDups
    installedVersion := version.map CatalogEntryVersion.version }

/- none also where both lists are empty -/
def readEntryFirewall (entry : CatalogEntry) : Option ManifestFirewall :=
  (entry.networking.bind Networking.firewall).bind (fun fw =>
    let tcp := fw.tcp.getD []
    let udp := fw.udp.getD []
    if tcp.isEmpty && udp.isEmpty then none else some ⟨tcp, udp⟩)

def readHostPort (hp : RawHostPort) : Option ManifestHostPort :=
  match hp.component, hp.port with
  | some component, some port => some ⟨component, port, protocolOf (hp.protocol.getD "TCP")⟩
  | _, _ => none

def readEntryHostPorts (entry : CatalogEntry) : List ManifestHostPort :=
  ((entry.networking.bind Networking.hostPorts).getD []).filterMap readHostPort

def resolveComponentsForReconcile (entry : CatalogEntry) : List DeployComponentInput :=
  match entry.components.getD [] with
  | [] => [soleComponent entry.code (imageOf entry) [defaultPort]]
  | comps =>
    comps.map (fun comp =>
      { name := comp.name
        type := comp.type
        image := comp.image
        ports := comp.ports.getD []
        optional := comp.optional.getD false
        schedule := comp.schedule
        volumes := none
        command := none
        args := none
        resources := none
        resourceShare := none })

export CustomDeployments (DeploymentStatus DeploymentSource)

structure DeploymentRow where
  (id tenantId : Nat)
  catalogEntryId : Option Nat
  source : DeploymentSource
  name : String
  replicaCount : Nat
  (cpuRequest memoryRequest : String)
  configuration : Option (Record Value)
  (storagePath installedVersion targetVersion previousVersion : Option String)
  status : DeploymentStatus
  (statusMessage currentNodeName : Option String)
  updatedAt : Int

inductive RequestedStatus where
  | running | stopped
  deriving DecidableEq

structure UpdateDeploymentInput where
  name : Option String
  replicaCount : Option Nat
  (cpuRequest memoryRequest : Option String)
  configuration : Option (Record Value)
  status : Option RequestedStatus

/- one that is to run is pending until a pass confirms it -/
def RequestedStatus.written : RequestedStatus → DeploymentStatus
  | .running => .pending
  | .stopped => .stopped

def UpdateDeploymentInput.isEmpty (input : UpdateDeploymentInput) : Bool :=
  input.name.isNone && input.replicaCount.isNone && input.cpuRequest.isNone && input.memoryRequest.isNone &&
    input.configuration.isNone && input.status.isNone

def UpdateDeploymentInput.assign (input : UpdateDeploymentInput) (row : DeploymentRow) : DeploymentRow :=
  { row with
    name := input.name.getD row.name
    replicaCount := input.replicaCount.getD row.replicaCount
    cpuRequest := input.cpuRequest.getD row.cpuRequest
    memoryRequest := input.memoryRequest.getD row.memoryRequest
    configuration := input.configuration.or row.configuration
    status := (input.status.map RequestedStatus.written).getD row.status }

def wordpress : CatalogEntry where
  code := "wordpress"
  image := some "wordpress:6"
  components := none
  volumes := none
  envVars := none
  networking := none
  defaultVersion := none
  versionLockMode := none
  versions := []

def blogRow : DeploymentRow where
  id := 1
  tenantId := 1
  catalogEntryId := some 1
  source := .catalog
  name := "blog"
  replicaCount := 1
  cpuRequest := "0.25"
  memoryRequest := "256Mi"
  configuration := none
  storagePath := some "application/wordpress/blog"
  installedVersion := none
  targetVersion := none
  previousVersion := none
  status := .running
  statusMessage := none
  currentNodeName := none
  updatedAt := 0

end HostingPlatform.Deployments
