import HostingPlatform.CustomDeployments.Validator
import HostingPlatform.CustomDeployments.ComposeParser
import HostingPlatform.Shared
import HostingPlatform.Table

/-! Previewing and creating a compose deployment. A spec is gated by the parser when it gives
none, and by the validator's verdict on the spec that it gives. -/
namespace HostingPlatform.CustomDeployments

open Js Diagnosis

structure SystemSettings where
  (customDeploymentsEnabled customDeploymentsAllowCompose customDeploymentsWarnUnpinnedTags : Bool)

structure TenantRow where
  id : Nat
  kubernetesNamespace : String
  nodeName : Option String
  storageTier : String

inductive DeploymentSource where
  | catalog | custom
  deriving DecidableEq

inductive DeploymentStatus where
  | deploying | running | stopped | failed | deleting | upgrading | pending | deleted
  deriving DecidableEq

structure DeploymentRow where
  (id tenantId : Nat)
  source : DeploymentSource
  customSpec : Option Spec
  name : String
  replicaCount : Nat
  (cpuRequest memoryRequest : String)
  storagePath : Option String
  status : DeploymentStatus
  lastError : Option String

structure Database where
  settings : SystemSettings
  tenants : Table TenantRow TenantRow.id
  deployments : Table DeploymentRow DeploymentRow.id

structure CreateComposeInput where
  name : Option String
  composeYaml : String
  envFiles : Option (Record String)
  pullCredentialId : Option String

structure DeployCustomInput where
  deploymentId : Nat
  (deploymentName namespace_ storageSubPath : String)
  spec : Spec
  hasPullCredential : Bool
  nodeName : Option String
  storageTier : String

/- an error of the API with the issues in its details, or whatever else is thrown -/
inductive Failure where
  | api (error : ApiError) (issues : List Issue)
  | thrown (message : String)

/-- What lies outside: the loader of the YAML library, the pull credential of a deployment and
the Secret made of it, the deployer. -/
structure Platform where
  load : YamlLoad
  pullCredential : Nat → Except Failure Bool
  deployCustomDeployment : DeployCustomInput → Except Failure Unit

def apiError (code message : String) (status : Nat) : Failure := .api ⟨code, message, status⟩ []

def composeDisabled : Failure :=
  apiError "COMPOSE_DEPLOYMENTS_DISABLED"
    "Compose-mode deployments are administratively disabled on this platform." 403

def composeContext (settings : SystemSettings) (role : CallerRole) (name : Option String) :
    ValidatorContext :=
  ⟨role, settings.customDeploymentsWarnUnpinnedTags, false, name⟩

structure ComposePreview where
  ok : Bool
  issues : List Issue
  spec : Option Spec

def validateComposeSpec (platform : Platform) (settings : SystemSettings)
    (input : CreateComposeInput) (role : CallerRole) : Except Failure ComposePreview :=
  if ¬ settings.customDeploymentsAllowCompose then .error composeDisabled
  else
    match parseCompose platform.load ⟨input.composeYaml, input.envFiles⟩ with
    | .error thrown => .error (.thrown thrown)
    | .ok parsed =>
      match parsed.spec with
      | none => .ok ⟨false, parsed.issues, none⟩
      | some spec =>
        let semantic := validateCustomSpec spec (composeContext settings role input.name)
        .ok ⟨semantic.ok, parsed.issues ++ semantic.issues, some spec⟩

def firstErrorIssue (issues : List Issue) : String :=
  match issues.find? isError with
  | some err => err.code ++ ": " ++ err.message
  | none => "Validation failed"

def invalidDeployment (issues : List Issue) : Failure :=
  .api ⟨"CUSTOM_DEPLOYMENT_INVALID", firstErrorIssue issues, 422⟩ issues

def parseCpuMillis (qty : String) : Number :=
  match quantity qty with
  | some (n, "m") => n.round
  | some (n, "") => (n.mul 1000).round
  | _ => 0

/- in Mi; the divisions are those of the language -/
def memMiFactor : String → Option Number
  | "" => some (.nearest (1 / 1048576))
  | "k" => some (.nearest (1000 / 1048576))
  | "M" => some (.nearest (1000000 / 1048576))
  | "G" => some (.nearest (1000000000 / 1048576))
  | "Ki" => some (.nearest (1 / 1024))
  | "Mi" => some 1
  | "Gi" => some 1024
  | "Ti" => some 1048576
  | "T" => some 1
  | _ => none

def parseMemMi (qty : String) : Number :=
  match quantity qty with
  | none => 0
  | some (n, unit) =>
    match memMiFactor unit with
    | some factor => .max 1 (n.mul factor).round
    | none => 0

/- a sum that is zero or no number gives way -/
def sumOr (sum : Number) (instead : Number) : Number :=
  if sum = 0 ∨ sum = .nan then instead else sum

structure ResourceTotals where
  (cpuRequest memoryRequest : String)

def sumResources (spec : Spec) : ResourceTotals :=
  let resources := spec.services.values.map Service.resources
  let cpuMillis := resources.foldl (fun sum r => sum.add (parseCpuMillis r.cpuRequest)) 0
  let memMi := resources.foldl (fun sum r => sum.add (parseMemMi r.memoryRequest)) 0
  ⟨(sumOr cpuMillis 100).string ++ "m", (sumOr memMi 128).string ++ "Mi"⟩

/-- What a request leaves behind: the database, and the calls of the deployer. -/
structure Outcome where
  db : Database
  deployed : List DeployCustomInput
  result : Except Failure DeploymentRow

def refused (db : Database) (failure : Failure) : Outcome := ⟨db, [], .error failure⟩

def markFailed (message : String) (row : DeploymentRow) : DeploymentRow :=
  { row with status := .failed, lastError := some message }

theorem markFailed_id (message : String) (row : DeploymentRow) : (markFailed message row).id = row.id := rfl

def failureMessage : Failure → String
  | .api error _ => error.message
  | .thrown message => message

def getCustomDeployment (db : Database) (tenantId id : Nat) : Except Failure DeploymentRow :=
  match db.deployments.select (fun r => r.id == id && r.tenantId == tenantId && r.source == .custom) with
  | some row => .ok row
  | none =>
    .error (apiError "CUSTOM_DEPLOYMENT_NOT_FOUND" s!"Custom deployment '{id}' not found" 404)

def deployToCluster (platform : Platform) (db : Database) (tenant : TenantRow) (row : DeploymentRow)
    (spec : Spec) : Outcome :=
  match platform.pullCredential row.id with
  | .error failure => refused db failure
  | .ok hasPullCredential =>
    let input : DeployCustomInput :=
      ⟨row.id, row.name, tenant.kubernetesNamespace, row.storagePath.getD "", spec, hasPullCredential,
        tenant.nodeName, tenant.storageTier⟩
    match platform.deployCustomDeployment input with
    | .ok _ => ⟨db, [input], getCustomDeployment db row.tenantId row.id⟩
    | .error failure =>
      let failed := db.deployments.update (fun r => r.id == row.id)
        (markFailed (failureMessage failure)) (markFailed_id (failureMessage failure))
      ⟨{ db with deployments := failed }, [input], .error failure⟩

def newRow (tenantId id : Nat) (name : String) (spec : Spec) : DeploymentRow :=
  let totals := sumResources spec
  { id
    tenantId
    source := .custom
    customSpec := some spec
    name
    replicaCount := 1
    cpuRequest := totals.cpuRequest
    memoryRequest := totals.memoryRequest
    storagePath := some ("custom-deployment/" ++ name)
    status := .deploying
    lastError := none }

/- the unique index is on tenant and name, so an insert past the check may still fail -/
def persistAndDeploy (platform : Platform) (db : Database) (tenant : TenantRow) (id : Nat)
    (name : String) (spec : Spec) : Outcome :=
  if (db.deployments.select (fun r => r.tenantId == tenant.id && r.name == name)).isSome then
    refused db (apiError "DEPLOYMENT_NAME_IN_USE"
      s!"A deployment named '{name}' already exists in this tenant." 409)
  else
    let row := newRow tenant.id id name spec
    match db.deployments.insert row with
    | none => refused db (.thrown "duplicate key value violates unique constraint")
    | some deployments =>
      deployToCluster platform { db with deployments } tenant row spec

def withCredential (spec : Spec) (pullCredentialId : Option String) : Spec :=
  match pullCredentialId with
  | some id => if id = "" then spec else { spec with pullCredentialId := some id }
  | none => spec

def createComposeDeployment (platform : Platform) (db : Database) (tenantId id : Nat)
    (input : CreateComposeInput) (role : CallerRole) : Outcome :=
  if ¬ db.settings.customDeploymentsEnabled then
    refused db (apiError "CUSTOM_DEPLOYMENTS_DISABLED"
      "Custom deployments are administratively disabled on this platform." 403)
  else if ¬ db.settings.customDeploymentsAllowCompose then refused db composeDisabled
  else
    match input.name.filter (· ≠ "") with
    | none =>
      refused db (apiError "MISSING_REQUIRED_FIELD" "Stack name is required to create a deployment." 400)
    | some name =>
      match db.tenants.select (fun t => t.id == tenantId) with
      | none => refused db (apiError "CLIENT_NOT_FOUND" s!"Client '{tenantId}' not found" 404)
      | some tenant =>
        match parseCompose platform.load ⟨input.composeYaml, input.envFiles⟩ with
        | .error thrown => refused db (.thrown thrown)
        | .ok parsed =>
          match parsed.spec with
          | none => refused db (invalidDeployment parsed.issues)
          | some spec =>
            let validation := validateCustomSpec spec (composeContext db.settings role (some name))
            if ¬ validation.ok then
              refused db (invalidDeployment (parsed.issues ++ validation.issues))
            else
              persistAndDeploy platform db tenant id name
                (withCredential spec input.pullCredentialId)

end HostingPlatform.CustomDeployments
