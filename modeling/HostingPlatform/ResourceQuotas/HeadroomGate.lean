import HostingPlatform.ResourceQuantities.Parsers
import HostingPlatform.Table

/-! What tenants can ask for in all, if the cluster is to survive the loss of a server. -/
namespace HostingPlatform.ResourceQuotas

open Js ResourceQuantities

structure NodeLike where
  name : Option String
  labels : List (String × String)
  (allocatableCpu allocatableMemory : Option String)
  conditions : List (Option String × Option String)
  taints : List (Option String)

structure PodLike where
  namespace_ : Option String
  containers : List (Option String × Option String)
  phase : Option String

structure ServerNodeFact where
  name : String
  (allocatableCpu allocatableMemoryGi : Number)

structure FailoverHeadroom where
  servers : List ServerNodeFact
  (totalCpu totalMemoryGi systemReservedCpu systemReservedMemoryGi failoverReservedCpu : Number)
  (failoverReservedMemoryGi tenantAvailableCpu tenantAvailableMemoryGi tenantUsedCpu : Number)
  tenantUsedMemoryGi : Number
  (singleFailureSurvivable headroomClamped : Bool)

def SYSTEM_NAMESPACES : List String :=
  ["kube-system", "calico-system", "tigera-operator", "cnpg-system", "longhorn-system", "flux-system",
    "cert-manager", "traefik", "redis-system", "platform", "platform-system", "mail", "hosting"]

def SERVER_LABEL_KEY : String := "platform.phoenix-host.net/node-role"

def SERVER_LABEL_VAL : String := "server"

def isReadyServerNode (node : NodeLike) : Bool :=
  let isServerByLabel := node.labels.lookup SERVER_LABEL_KEY == some SERVER_LABEL_VAL
  let isServerByTaint := node.taints.any (· == some "node-role.kubernetes.io/control-plane")
  if !isServerByLabel && !isServerByTaint then false
  else (node.conditions.find? (·.1 == some "Ready")).any (·.2 == some "True")

def quantity (text : Option String) : Option String := text.filter (· != "")

def requests (unit : Resource) (pod : PodLike) : List Number :=
  let texts := pod.containers.map (fun c => if unit = .cpu then c.1 else c.2)
  texts.filterMap (fun text => (quantity text).map (parseResourceValue · unit))

/- in cores, or in Gi -/
def sumPodRequests (unit : Resource) (pods : List PodLike) (namespacePredicate : String → Bool) : Number :=
  let counted := pods.filter (fun pod =>
    namespacePredicate (pod.namespace_.getD "") && pod.phase != some "Succeeded" && pod.phase != some "Failed")
  Number.sum (counted.flatMap (requests unit))

def allocatable (unit : Resource) (text : Option String) : Number :=
  ((quantity text).map (parseResourceValue · unit)).getD 0

def serverNodeFact (node : NodeLike) : ServerNodeFact where
  name := node.name.getD ""
  allocatableCpu := allocatable .cpu node.allocatableCpu
  allocatableMemoryGi := allocatable .memory node.allocatableMemory

def greatest (ns : List Number) : Number := ns.foldl Number.max 0

def computeFailoverHeadroom (nodes : List NodeLike) (pods : List PodLike) : FailoverHeadroom :=
  let servers := (nodes.filter isReadyServerNode).map serverNodeFact
  let totalCpu := Number.sum (servers.map ServerNodeFact.allocatableCpu)
  let totalMemoryGi := Number.sum (servers.map ServerNodeFact.allocatableMemoryGi)
  let failoverReservedCpu := greatest (servers.map ServerNodeFact.allocatableCpu)
  let failoverReservedMemoryGi := greatest (servers.map ServerNodeFact.allocatableMemoryGi)
  let system (unit : Resource) := sumPodRequests unit pods (fun ns => SYSTEM_NAMESPACES.contains ns)
  let tenant (unit : Resource) := sumPodRequests unit pods (fun ns => startsWith ns "tenant-")
  let rawCpu := Number.sub (Number.sub totalCpu (system .cpu)) failoverReservedCpu
  let rawMemGi := Number.sub (Number.sub totalMemoryGi (system .memory)) failoverReservedMemoryGi
  let headroomClamped := Number.le rawCpu 0 || Number.le rawMemGi 0
  let tenantAvailableCpu := Number.max 0 rawCpu
  let tenantAvailableMemoryGi := Number.max 0 rawMemGi
  { servers
    totalCpu
    totalMemoryGi
    systemReservedCpu := system .cpu
    systemReservedMemoryGi := system .memory
    failoverReservedCpu
    failoverReservedMemoryGi
    tenantAvailableCpu
    tenantAvailableMemoryGi
    tenantUsedCpu := tenant .cpu
    tenantUsedMemoryGi := tenant .memory
    singleFailureSurvivable := !headroomClamped && Number.le (tenant .cpu) tenantAvailableCpu &&
      Number.le (tenant .memory) tenantAvailableMemoryGi
    headroomClamped }

theorem tenantAvailable_onGrid (nodes : List NodeLike) (pods : List PodLike) :
    Number.OnGrid (computeFailoverHeadroom nodes pods).tenantAvailableCpu ∧
      Number.OnGrid (computeFailoverHeadroom nodes pods).tenantAvailableMemoryGi :=
  ⟨Number.max_onGrid Number.zero_onGrid (Number.add_onGrid _ _), Number.max_onGrid Number.zero_onGrid (Number.add_onGrid _ _)⟩

/-! The limits of the tenants, the gate before they change, and the request that changes them. -/

/- a column numeric(5, 2), which holds NaN as well -/
inductive Numeric where
  | value (hundredths : {k : Int // -100000 < k ∧ k < 100000})
  | nan
  deriving DecidableEq

def Numeric.number : Numeric → Number
  | .value k => .nearest (k.val / 100)
  | .nan => .nan

structure QuotaRow where
  tenantId : Nat
  cpuCoresLimit : Option Numeric
  (memoryGbLimit storageGbLimit bandwidthGbLimit : Option Int)

def DEFAULT_CPU : Number := 2

def DEFAULT_MEM : Number := 4

def cpuOf (row : QuotaRow) : Number := (row.cpuCoresLimit.map Numeric.number).getD DEFAULT_CPU

def memoryOf (row : QuotaRow) : Number := (row.memoryGbLimit.map (fun n : Int => Number.finite n)).getD DEFAULT_MEM

structure CurrentQuotas where
  (sumCpu sumMemoryGi : Number)
  selfRow : Option QuotaRow

/- a tenant has at most one row -/
def sumCurrentQuotas (rows : List QuotaRow) (excludeTenantId : Nat) : CurrentQuotas where
  sumCpu := Number.sum ((rows.filter (fun r => r.tenantId != excludeTenantId)).map cpuOf)
  sumMemoryGi := Number.sum ((rows.filter (fun r => r.tenantId != excludeTenantId)).map memoryOf)
  selfRow := rows.find? (fun r => r.tenantId == excludeTenantId)

structure QuotaGateInput where
  tenantId : Nat
  (newCpuLimit newMemoryLimitGi : Option Number)

structure QuotaGateResult where
  allowed : Bool
  (currentSumCpu currentSumMemoryGi projectedSumCpu projectedSumMemoryGi headroomCpu : Number)
  (headroomMemoryGi overByCpu overByMemoryGi : Number)
  headroomClamped : Bool

def validateQuotaFitsHeadroom (headroom : FailoverHeadroom) (rows : List QuotaRow) (input : QuotaGateInput) :
    QuotaGateResult :=
  let current := sumCurrentQuotas rows input.tenantId
  let projectedThisCpu := input.newCpuLimit.getD ((current.selfRow.map cpuOf).getD DEFAULT_CPU)
  let projectedThisMemoryGi := input.newMemoryLimitGi.getD ((current.selfRow.map memoryOf).getD DEFAULT_MEM)
  let projectedSumCpu := current.sumCpu.add projectedThisCpu
  let projectedSumMemoryGi := current.sumMemoryGi.add projectedThisMemoryGi
  let overByCpu := Number.max 0 (projectedSumCpu.sub headroom.tenantAvailableCpu)
  let overByMemoryGi := Number.max 0 (projectedSumMemoryGi.sub headroom.tenantAvailableMemoryGi)
  { allowed := overByCpu = 0 && overByMemoryGi = 0 && !headroom.headroomClamped
    currentSumCpu := current.sumCpu
    currentSumMemoryGi := current.sumMemoryGi
    projectedSumCpu
    projectedSumMemoryGi
    headroomCpu := headroom.tenantAvailableCpu
    headroomMemoryGi := headroom.tenantAvailableMemoryGi
    overByCpu
    overByMemoryGi
    headroomClamped := headroom.headroomClamped }

/-- Each row of `resource_quotas` is that of a tenant. -/
structure World where
  tenants : List Nat
  distinct : tenants.Nodup
  quotas : Table QuotaRow QuotaRow.tenantId
  known : ∀ row ∈ quotas, row.tenantId ∈ tenants

def emptyQuota (tenantId : Nat) : QuotaRow := ⟨tenantId, none, none, none, none⟩

/- a row is made for a tenant without one -/
def World.getResourceQuota (w : World) (tenantId : Nat) : Option World :=
  if w.quotas.rows.any (fun r => r.tenantId == tenantId) then some w
  else if there : tenantId ∈ w.tenants then
    some
      { w with
        quotas := w.quotas.put (emptyQuota tenantId)
        known := by
          intro row mem
          rcases Table.mem_put.mp mem with rfl | ⟨old, _⟩
          · exact there
          · exact w.known row old }
  else none

/-- What the database makes of a value: of its text for a numeric(5, 2), and as an integer or NULL. -/
structure Columns where
  numeric : Value → Option Numeric
  integer : Value → Option (Option Int)

structure UpdateQuotaInput where
  (cpuCoresLimit memoryGbLimit storageGbLimit bandwidthGbLimit : Option Value)

/- what a column is set to, if it is set -/
structure UpdateValues where
  cpuCoresLimit : Option Numeric
  (memoryGbLimit storageGbLimit bandwidthGbLimit : Option (Option Int))

def converted {A : Type} (convert : Value → Option A) : Option Value → Option (Option A)
  | none => some none
  | some v => (convert v).map some

def updateValues (columns : Columns) (input : UpdateQuotaInput) : Option UpdateValues := do
  let cpuCoresLimit ← converted columns.numeric input.cpuCoresLimit
  let memoryGbLimit ← converted columns.integer input.memoryGbLimit
  let storageGbLimit ← converted columns.integer input.storageGbLimit
  let bandwidthGbLimit ← converted columns.integer input.bandwidthGbLimit
  return ⟨cpuCoresLimit, memoryGbLimit, storageGbLimit, bandwidthGbLimit⟩

def UpdateValues.set (values : UpdateValues) (row : QuotaRow) : QuotaRow where
  tenantId := row.tenantId
  cpuCoresLimit := values.cpuCoresLimit.or row.cpuCoresLimit
  memoryGbLimit := values.memoryGbLimit.getD row.memoryGbLimit
  storageGbLimit := values.storageGbLimit.getD row.storageGbLimit
  bandwidthGbLimit := values.bandwidthGbLimit.getD row.bandwidthGbLimit

def World.update (w : World) (tenantId : Nat) (values : UpdateValues) : World :=
  { w with
    quotas := w.quotas.update (fun r => r.tenantId == tenantId) values.set (fun _ => rfl)
    known := by
      intro row mem
      obtain ⟨before, old, rfl⟩ := List.mem_map.mp mem
      have kept := Table.apply_column QuotaRow.tenantId (fun r => r.tenantId == tenantId) values.set (fun _ => rfl) before
      exact kept ▸ w.known before old }

/- `request.body`, which need not be there, and the cluster when it is handled -/
structure Request where
  tenantId : Nat
  body : Option Value
  nodes : List NodeLike
  pods : List PodLike

inductive Response where
  | refused (gate : QuotaGateResult)
  | accepted
  | failed

/- `body[key]`, where null and undefined have no properties -/
def property (key : String) : Option Value → Option (Option Value)
  | none | some .null => none
  | some (.object fields) => some (Fields.get fields key)
  | some _ => some none

def readBody (body : Option Value) : Option UpdateQuotaInput := do
  let cpuCoresLimit ← property "cpu_cores_limit" body
  let memoryGbLimit ← property "memory_gb_limit" body
  let storageGbLimit ← property "storage_gb_limit" body
  let bandwidthGbLimit ← property "bandwidth_gb_limit" body
  return ⟨cpuCoresLimit, memoryGbLimit, storageGbLimit, bandwidthGbLimit⟩

def Request.headroom (r : Request) : FailoverHeadroom := computeFailoverHeadroom r.nodes r.pods

def gateOf (w : World) (r : Request) (input : UpdateQuotaInput) : QuotaGateResult :=
  validateQuotaFitsHeadroom r.headroom w.quotas.rows
    ⟨r.tenantId, numberOf input.cpuCoresLimit, numberOf input.memoryGbLimit⟩

def gateApplies (input : UpdateQuotaInput) : Bool :=
  (numberOf input.cpuCoresLimit).isSome || (numberOf input.memoryGbLimit).isSome

/- without force; the row that is made for a tenant stays also where the values are refused -/
def patch (columns : Columns) (w : World) (r : Request) : World × Response :=
  match readBody r.body with
  | none => (w, .failed)
  | some input =>
    if gateApplies input && !(gateOf w r input).allowed then (w, .refused (gateOf w r input))
    else
      match w.getResourceQuota r.tenantId with
      | none => (w, .failed)
      | some w' =>
        match updateValues columns input with
        | none => (w', .failed)
        | some values => (w'.update r.tenantId values, .accepted)

end HostingPlatform.ResourceQuotas
