import HostingPlatform.CustomDeployments.Fields

/-! The compose parser: a YAML document becomes a spec, or none, with the issues found. The
loader of the YAML library is a parameter; it fails with a message, if it fails with an
error object. -/
namespace HostingPlatform.CustomDeployments

open Js Diagnosis Diagnosed

def maxServices : Nat := 10

def maxYamlDepth : Nat := 16

def maxInlineConfigBytes : Nat := 1024 * 1024

structure ComposeParseInput where
  composeYaml : String
  envFiles : Option (Record String)

structure ComposeParseResult where
  spec : Option Spec
  issues : List Issue

/-- A mount of a config or a secret: what its kind is called, and where it goes by default. -/
structure FileMounts where
  kind : MountKind
  (title noun defaultTargetDescription : String)

def configMounts : FileMounts := ⟨.configMap, "Config", "config", "/<name>"⟩

def secretMounts : FileMounts := ⟨.secret, "Secret", "secret", "/run/secrets/<name>"⟩

/- a target that is left out or empty is that of the kind, and only configs have one -/
def fileTarget (mounts : FileMounts) (sourceName : String) (target : Option String) :
    Option String :=
  match target with
  | some target =>
    if target ≠ "" then some target
    else if mounts.kind = .configMap then some ("/" ++ sourceName) else none
  | none => if mounts.kind = .configMap then some ("/" ++ sourceName) else none

def fileMount (mounts : FileMounts) (path : String) (i : Nat) (sourceName : String)
    (target : Option String) : Parse (Option VolumeMount) :=
  match fileTarget mounts sourceName target with
  | some targetPath => pure (some ⟨mounts.kind, sourceName, targetPath, true⟩)
  | none =>
    failWithHint none "COMPOSE_FIELD_REJECTED" s!"{path}[{i}]"
      (mounts.title ++ s!" '{sourceName}' must specify an explicit target path — the compose default (" ++
        mounts.defaultTargetDescription ++ ") is a reserved system path on this platform.")
      (s!"Add 'target: /etc/app/{sourceName}' (or another non-reserved path) to mount the " ++
        mounts.noun ++ ".")

def parseFileMount (mounts : FileMounts) (path : String) (i : Nat) (entry : Value) :
    Parse (Option VolumeMount) :=
  match entry with
  | .string sourceName => fileMount mounts path i sourceName none
  | .object entry =>
    match textOf (Fields.get entry "source") with
    | some sourceName =>
      if sourceName = "" then
        fail none "COMPOSE_FIELD_TYPE" s!"{path}[{i}].source"
          s!"{path}[{i}].source must be a non-empty string."
      else fileMount mounts path i sourceName (textOf (Fields.get entry "target"))
    | none =>
      fail none "COMPOSE_FIELD_TYPE" s!"{path}[{i}].source"
        s!"{path}[{i}].source must be a non-empty string."
  | _ =>
    fail none "COMPOSE_FIELD_TYPE" s!"{path}[{i}]"
      s!"{path}[{i}] must be a string name or long-form mapping."

def parseServiceFileMounts (mounts : FileMounts) (raw : Option Value) (path : String) :
    Parse (List VolumeMount) :=
  parseList (parseFileMount mounts path) raw path

/- `configs` or `secrets` at the top level -/
structure InlineFiles where
  (topKey errCode : String)
  defaultMode : Nat

def inlineConfigs : InlineFiles := ⟨"configs", "CONFIGMAP", 0o644⟩

def inlineSecrets : InlineFiles := ⟨"secrets", "SECRET", 0o400⟩

def inlineContent (inlines : InlineFiles) (name content : String) : Parse (Option InlineFile) :=
  if maxInlineConfigBytes < byteLength content then
    fail none (inlines.errCode ++ "_TOO_LARGE") (inlines.topKey ++ s!".{name}")
      (inlines.topKey ++ s!" '{name}' exceeds the 1 MiB inline cap.")
  else pure (some ⟨name, content, inlines.defaultMode⟩)

def inlineBody (inlines : InlineFiles) (files : Option (Record String)) (name : String)
    (def_ : Fields) : Parse (Option InlineFile) :=
  match textOf (def_.get "content"), textOf (def_.get "file") with
  | some content, _ => inlineContent inlines name content
  | none, some file =>
    match upload files file with
    | .content content => inlineContent inlines name content
    | .inherited => lift (.error "The \"string\" argument must be of type string.")
    | .missing =>
      fail none (inlines.errCode ++ "_FILE_MISSING") (inlines.topKey ++ s!".{name}.file")
        (inlines.topKey ++
          s!" '{name}' references file '{file}' which was not uploaded with the compose body.")
  | none, none =>
    fail none (inlines.errCode ++ "_BODY_REQUIRED") (inlines.topKey ++ s!".{name}")
      (inlines.topKey ++ s!" '{name}' must declare 'content:' or 'file:'.")

def fieldsOf : Value → Fields
  | .object fields => fields
  | _ => []

def inlineFile (inlines : InlineFiles) (files : Option (Record String)) (entry : String × Value) :
    Parse (Option InlineFile) :=
  let name := entry.1
  let def_ := fieldsOf entry.2
  if ¬ customNameRe name then
    fail none (inlines.errCode ++ "_NAME_INVALID") (inlines.topKey ++ s!".{name}")
      (inlines.topKey ++ s!" '{name}' must match the platform name regex.")
  else if isTrue (def_.get "external") then
    fail none "COMPOSE_FIELD_REJECTED" (inlines.topKey ++ s!".{name}.external")
      ("external " ++ inlines.topKey ++
        " are not permitted; provide inline content via 'file:' or 'content:'.")
  else inlineBody inlines files name def_

def extractInlineFiles (inlines : InlineFiles) (raw : Option Value)
    (files : Option (Record String)) : Parse (List InlineFile) :=
  match raw with
  | none => pure []
  | some (.object fields) => collect (fun _ entry => inlineFile inlines files entry) 0 fields
  | some _ =>
    fail [] (inlines.errCode ++ "_FIELD_TYPE") inlines.topKey
      (inlines.topKey ++ " must be a mapping.")

def rejectHint (field : String) : Option String :=
  if field = "network_mode" then some "Tenant pods always run on the tenant's default network."
  else if field = "cap_drop" then
    some "Capabilities are dropped to PSS baseline automatically; cap_drop is unnecessary."
  else if field = "devices" then some "Host device passthrough is not permitted."
  else if field = "cgroup_parent" then some "cgroup placement is managed by Kubernetes."
  else if field = "pid" ∨ field = "ipc" ∨ field = "userns_mode" then
    some "Host namespace sharing is not permitted."
  else if field = "extends" then some "Inline all definitions; extends is not supported."
  else if field = "build" then
    some "Build images in CI (e.g. GitHub Actions to GHCR) and reference the pushed digest here."
  else if field = "external_links" ∨ field = "links" then
    some "Use `depends_on` and service-name DNS for service-to-service connections."
  else if field = "runtime" then some "Only the default container runtime is available."
  else if field = "mac_address" then some "Host network customisation is not permitted."
  else if field = "cpus" ∨ field = "mem_limit" ∨ field = "mem_reservation" ∨ field = "cpu_shares" then
    some "Use the platform's `resources` block instead of compose's legacy CPU/memory fields."
  else none

def rejectedFields : List String :=
  ["network_mode", "cgroup_parent", "pid", "ipc", "userns_mode", "extends", "build",
    "external_links", "links", "runtime", "devices", "cap_drop", "mac_address", "cpus", "mem_limit",
    "mem_reservation", "cpu_shares"]

def rejectFields (path : String) (raw : Fields) : List String → Parse Unit
  | [] => pure ()
  | field :: rest => do
    if (raw.get field).isSome then reject path field (rejectHint field) else pure ()
    rejectFields path raw rest

def rejectPrivileged (path : String) (raw : Fields) : Parse Unit :=
  if isTrue (raw.get "privileged") then
    reject path "privileged" (some "Privileged containers are not permitted on this platform.")
  else pure ()

def warnInit (path : String) (raw : Fields) : Parse Unit :=
  if isTrue (raw.get "init") then
    warn () "COMPOSE_INIT_IGNORED" s!"{path}.init"
      "`init: true` is ignored — the Kubernetes runtime already provides a proper PID 1. Tenants needing tini-like reaping should build it into the image."
  else pure ()

def nonEmpty (argv : Option (List String)) : Option (List String) :=
  match argv with
  | some (arg :: rest) => some (arg :: rest)
  | _ => none

def parseContainer (path : String) (raw : Fields) (files : Option (Record String))
    (capAdd : List String) (sysctls : Record String) (image : String) : Parse Service := do
  let entrypoint ← parseStringArray (raw.get "entrypoint") s!"{path}.entrypoint"
  let command ← parseStringArray (raw.get "command") s!"{path}.command"
  let env ← parseEnv (raw.get "environment") (raw.get "env_file") files path
  let ports ← parsePorts (raw.get "ports") s!"{path}.ports"
  let volumeMounts ← parseVolumeMounts (raw.get "volumes") s!"{path}.volumes"
  let healthCheck ← parseHealthcheck (raw.get "healthcheck") s!"{path}.healthcheck"
  let dependsOn ← parseDependsOn (raw.get "depends_on") s!"{path}.depends_on"
  let restartPolicy ← parseRestart (raw.get "restart") path
  let user ← parseUser (raw.get "user") path
  let tmpfs ← parseTmpfs (raw.get "tmpfs") s!"{path}.tmpfs"
  let stopGracePeriodSeconds ← parseStopGracePeriod (raw.get "stop_grace_period") path
  let labels ← parseLabels (raw.get "labels") s!"{path}.labels"
  let configs ← parseServiceFileMounts configMounts (raw.get "configs") s!"{path}.configs"
  let secrets ← parseServiceFileMounts secretMounts (raw.get "secrets") s!"{path}.secrets"
  pure
    { image
      command := nonEmpty command
      entrypoint := nonEmpty entrypoint
      env
      ports
      volumeMounts := volumeMounts ++ (configs ++ secrets)
      resources := ⟨"100m", "128Mi", none, none⟩
      healthCheck
      restartPolicy
      runAsUser := user.1
      runAsGroup := user.2
      workingDir := (textOf (raw.get "working_dir")).filter (· ≠ "")
      readOnlyRootFilesystem := isTrue (raw.get "read_only")
      tmpfs
      capAdd
      sysctls := if sysctls.entries = [] then none else some sysctls
      stopGracePeriodSeconds
      dependsOn
      labels }

def parseService (name : String) (raw : Value) (files : Option (Record String)) :
    Parse (Option Service) :=
  match raw with
  | .object raw => do
    let path := s!"services.{name}"
    rejectFields path raw rejectedFields
    rejectPrivileged path raw
    warnInit path raw
    let capAdd ← parseCapAdd (Fields.get raw "cap_add") path
    let sysctls ← parseSysctls (Fields.get raw "sysctls") path
    match (textOf (Fields.get raw "image")).filter (· ≠ "") with
    | none =>
      fail none "COMPOSE_IMAGE_REQUIRED" s!"{path}.image"
        s!"Service '{name}' must declare an image (build:/Dockerfile is not supported)."
    | some image => do
      let svc ← parseContainer path raw files capAdd sysctls image
      pure (some svc)
  | _ =>
    fail none "COMPOSE_SERVICE_NOT_MAP" s!"services.{name}" s!"Service '{name}' must be a mapping."

/-- The loop over the services; an entry yields its service with its name. -/
def serviceEntry (files : Option (Record String)) (entry : String × Value) :
    Parse (Option (String × Service)) :=
  let name := entry.1
  if ¬ customNameRe name then
    fail none "COMPOSE_SERVICE_NAME_INVALID" s!"services.{name}"
      s!"Service name '{name}' must match the platform DNS-label regex."
  else do
    let svc ← parseService name entry.2 files
    pure (svc.map (fun svc => (name, svc)))

def assign {V : Type} (record : Record V) (entry : String × V) : Record V :=
  record.set entry.1 entry.2

def knownTop : List String := ["services", "volumes", "configs", "secrets", "networks", "version"]

def topLevelKey (key : String) : Parse (Option Unit) :=
  if knownTop.contains key || startsWith key "x-" then pure none
  else
    failWithHint none "COMPOSE_UNKNOWN_TOP_LEVEL" key s!"Unknown top-level compose key '{key}'."
      "Use `x-...` for custom extensions if you need to keep a non-spec field in the document."

def warnNetworks (doc : Fields) : Parse Unit :=
  if (doc.get "networks").isSome then
    warn () "COMPOSE_NETWORKS_IGNORED" "networks"
      "Top-level `networks:` is ignored — every service joins the tenant namespace default network."
  else pure ()

def volumeEntry (entry : String × Value) : Parse (Option (String × VolumeDef)) :=
  let name := entry.1
  if ¬ volumeNameRe name then
    fail none "VOLUME_NAME_INVALID" s!"volumes.{name}"
      s!"Volume name '{name}' must match the platform regex (lowercase segment, max 63 chars)."
  else if isTrue ((fieldsOf entry.2).get "external") then
    failWithHint none "COMPOSE_FIELD_REJECTED" s!"volumes.{name}.external"
      "External volumes are not permitted — define a named volume that maps to a subPath on the tenant PVC."
      "Drop the `external: true` line; data persists automatically on the tenant PVC."
  else pure (some (name, ⟨none⟩))

def parseVolumes (raw : Option Value) : Parse (Record VolumeDef) :=
  match raw with
  | none => pure .empty
  | some (.object fields) => do
    let volumes ← collect (fun _ entry => volumeEntry entry) 0 fields
    pure (volumes.foldl assign .empty)
  | some _ => fail .empty "COMPOSE_VOLUMES_NOT_MAP" "volumes" "`volumes:` must be a mapping of name→\x7b\x7d."

/-- A mounted name that the volumes lack is declared; those that every object inherits are not
missed. -/
def autoDeclareMounts (svcName : String) (volumes : Record VolumeDef) :
    List VolumeMount → Parse (Record VolumeDef)
  | [] => pure volumes
  | vm :: rest =>
    if (volumes.get vm.name).isSome ∨ vm.name ∈ inherited then autoDeclareMounts svcName volumes rest
    else do
      let name := vm.name
      report
        { severity := .info
          code := "COMPOSE_VOLUME_AUTO_DECLARED"
          path := s!"services.{svcName}.volumes"
          message := s!"Volume '{name}' was used by a mount but missing from the top-level volumes block; auto-declared." }
      autoDeclareMounts svcName (volumes.set name ⟨none⟩) rest

def autoDeclare (volumes : Record VolumeDef) : List (String × Service) → Parse (Record VolumeDef)
  | [] => pure volumes
  | (svcName, svc) :: rest => do
    let volumes ← autoDeclareMounts svcName volumes svc.volumeMounts
    autoDeclare volumes rest

/- what the parser makes of a document whose services are a mapping of a fit size -/
def parseStack (doc : Fields) (services : Fields) (files : Option (Record String)) :
    Parse (Option Spec) := do
  let volumes ← parseVolumes (doc.get "volumes")
  let configMaps ← extractInlineFiles inlineConfigs (doc.get "configs") files
  let secrets ← extractInlineFiles inlineSecrets (doc.get "secrets") files
  let entries ← collect (fun _ entry => serviceEntry files entry) 0 services
  let parsedServices := entries.foldl assign .empty
  if parsedServices.entries = [] then pure none
  else do
    let volumes ← autoDeclare volumes parsedServices.entries
    pure (some
      { specVersion := customSpecVersion
        sourceMode := .compose
        services := parsedServices
        volumes
        configMaps
        secrets
        allowRoot := false
        pullCredentialId := none })

def parseServices (doc : Fields) (files : Option (Record String)) : Parse (Option Spec) :=
  match doc.get "services" with
  | some (.object services) =>
    if services.length = 0 then
      fail none "COMPOSE_SERVICES_EMPTY" "services" "`services:` is empty."
    else if maxServices < services.length then
      let count := services.length
      fail none "COMPOSE_TOO_MANY_SERVICES" "services"
        s!"compose stack has {count} services; this release allows at most {maxServices}."
    else parseStack doc services files
  | _ =>
    fail none "COMPOSE_SERVICES_MISSING" "services" "`services:` must be a non-empty mapping."

def parseDocument (doc : Value) (files : Option (Record String)) : Parse (Option Spec) :=
  match doc with
  | .object doc =>
    if maxYamlDepth < Value.depth (maxYamlDepth + 1) 0 (.object doc) then
      fail none "COMPOSE_TOO_DEEPLY_NESTED" ""
        s!"compose document exceeds the max allowed nesting depth of {maxYamlDepth}"
    else do
      warnNetworks doc
      let _ ← collect (fun _ key => topLevelKey key) 0 (Fields.keys doc)
      parseServices doc files
  | _ =>
    fail none "COMPOSE_NOT_AN_OBJECT" "" "compose document must be a YAML mapping at the top level"

/-- A load fails with the message of its error object, if it throws one. The objects that it
gives have their keys once. -/
structure YamlLoad where
  run : String → Except (Option String) Value
  keyed : ∀ yaml doc, run yaml = .ok doc → doc.keyed = true

def YamlLoad.only (yaml : String) (doc : Value) (keyed : doc.keyed = true) : YamlLoad where
  run text := if text = yaml then .ok doc else .error none
  keyed text other loaded := by
    split at loaded
    · cases loaded
      exact keyed
    · contradiction

def parse (load : YamlLoad) (input : ComposeParseInput) : Parse (Option Spec) :=
  match load.run input.composeYaml with
  | .error message =>
    fail none "COMPOSE_YAML_PARSE_ERROR" ""
      ((message.map (fun text => slice text 500)).getD "YAML parse error")
  | .ok doc => parseDocument doc input.envFiles

def parseCompose (load : YamlLoad) (input : ComposeParseInput) : Except Thrown ComposeParseResult :=
  match parse load input with
  | .error thrown => .error thrown
  | .ok (spec, issues) => .ok ⟨spec, issues⟩

end HostingPlatform.CustomDeployments
