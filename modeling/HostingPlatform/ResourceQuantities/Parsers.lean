import HostingPlatform.CustomDeployments.Schema
import HostingPlatform.Js.Rounding
import HostingPlatform.Js.Value

/-! The platform's four readers of resource quantities, and the totals that are formed with
them. -/
namespace HostingPlatform.ResourceQuantities

open Js CustomDeployments

inductive Resource where
  | cpu
  | memory
  | storage
  deriving DecidableEq

/- `s.slice(0, -n)`; the last characters are single code units -/
def dropEnd (s : String) (n : Nat) : String := String.ofList (s.toList.take (s.toList.length - n))

/- cores, or Gi -/
def parseResourceValue (value : String) (unit : Resource) : Number :=
  let trimmed := trim value
  if unit = .cpu then
    if endsWith trimmed "n" then (toNumber (dropEnd trimmed 1)).divide 1000000000
    else if endsWith trimmed "m" then (toNumber (dropEnd trimmed 1)).divide 1000
    else toNumber trimmed
  else if endsWith trimmed "Gi" then toNumber (dropEnd trimmed 2)
  else if endsWith trimmed "Mi" then (toNumber (dropEnd trimmed 2)).divide 1024
  else if endsWith trimmed "Ki" then (toNumber (dropEnd trimmed 2)).divide (1024 * 1024)
  else (toNumber trimmed).divide (1024 * 1024 * 1024)

def binary : String → Option ℚ
  | "Ki" => some 1024
  | "Mi" => some (1024 ^ 2)
  | "Gi" => some (1024 ^ 3)
  | "Ti" => some (1024 ^ 4)
  | "Pi" => some (1024 ^ 5)
  | _ => none

def decimalUnit : String → Option ℚ
  | "K" => some 1000
  | "M" => some (1000 ^ 2)
  | "G" => some (1000 ^ 3)
  | "T" => some (1000 ^ 4)
  | "P" => some (1000 ^ 5)
  | "k" => some 1000
  | _ => none

/- the regular expression admits any letters as the unit -/
def parseQuantityToBytes (qty : String) : Number :=
  match decimalAt qty.toList with
  | none => 0
  | some (whole, fraction, rest) =>
    let letters := rest.dropWhile isWhite
    if letters.all Char.isAlpha then
      let value := parseFloat whole fraction
      let unit := String.ofList letters
      if unit = "" then value
      -- a method that the table inherits is found and is no number
      else if unit ∈ inherited then .nan
      else
        match (binary unit).or (decimalUnit unit) with
        | some f => value.mul (.finite f)
        | none => value
    else 0

def parseCpuMillis (qty : String) : Number :=
  match decimalAt qty.toList with
  | some (whole, fraction, []) => ((parseFloat whole fraction).mul 1000).round
  | some (whole, fraction, ['m']) => (parseFloat whole fraction).round
  | _ => 0

def memUnits : List String := ["Ki", "Mi", "Gi", "Ti", "k", "M", "G", "T"]

def factor : String → Option ℚ
  | "" => some (1 / (1024 * 1024))
  | "k" => some (1000 / (1024 * 1024))
  | "M" => some (1000000 / (1024 * 1024))
  | "G" => some (1000000000 / (1024 * 1024))
  | "Ki" => some (1 / 1024)
  | "Mi" => some 1
  | "Gi" => some 1024
  | "Ti" => some (1024 * 1024)
  | _ => none

def parseMemMi (qty : String) : Number :=
  match decimalAt qty.toList with
  | some (whole, fraction, letters) =>
    let unit := String.ofList letters
    if unit = "" ∨ unit ∈ memUnits then
      Number.max 1 ((parseFloat whole fraction).mul (.finite ((factor unit).getD 1))).round
    else 0
  | none => 0

/- `total += parse(qty)` for each of them -/
def total (parse : String → Number) (qtys : List String) : Number := Number.sum (qtys.map parse)

/- `n || d` -/
def orElse (n : Number) (d : Number) : Number := if n = 0 ∨ n = .nan then d else n

structure Resources where
  (cpuRequest memoryRequest : String)

def sumResources (services : List Resources) : Resources :=
  let cpuMillis := total parseCpuMillis (services.map Resources.cpuRequest)
  let memMi := total parseMemMi (services.map Resources.memoryRequest)
  ⟨(orElse cpuMillis 100).string ++ "m", (orElse memMi 128).string ++ "Mi"⟩

end HostingPlatform.ResourceQuantities
