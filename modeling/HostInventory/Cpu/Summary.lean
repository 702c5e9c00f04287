import HostInventory.ByteSize
import HostInventory.ByteSize.Text
import HostInventory.Cpu.Key
import HostInventory.Facts
import HostInventory.Json
import HostInventory.Text.Split

/-! The processor record with numbers in place of texts, and its lines for readers. -/
namespace HostInventory.Cpu

structure Summary where
  vendor : String
  modelName : String
  family : String
  model : String
  stepping : String
  cores : UInt64
  logicalProcessors : UInt64
  packages : UInt64
  numaNodes : UInt64
  cacheSize : UInt64
  cacheSizeL1 : UInt64
  cacheSizeL2 : UInt64
  cacheSizeL3 : UInt64
  megahertz : Option Binary64
  deriving DecidableEq

namespace Summary

/-- The bytes that a text such as `9216 KB` states: its part before the first space. -/
def cacheBytes? (text : String) : Option UInt64 :=
  let number := text.toList.takeWhile (· ≠ ' ')
  (Numeral.readCount? (String.ofList number)).map ByteSize.ofKib

/-- A missing text is empty; a number that is missing or cannot be read is zero. -/
def ofFacts (f : Facts) : Summary :=
  let text (key : String) := f.getD key ""
  let number (key : String) := (f.number? key).getD 0
  { vendor := text Key.vendor
    modelName := text Key.modelName
    family := text Key.family
    model := text Key.model
    stepping := text Key.stepping
    cores := number Key.cores
    logicalProcessors := number Key.logicalProcessors
    packages := number Key.packages
    numaNodes := number Key.numaNodes
    cacheSize := ((f.get? Key.cacheSize).bind cacheBytes?).getD 0
    cacheSizeL1 := number Key.cacheSizeL1
    cacheSizeL2 := number Key.cacheSizeL2
    cacheSizeL3 := number Key.cacheSizeL3
    megahertz := (f.get? Key.megahertz).bind Binary64.read? }

def cacheLine (name : String) (size : UInt64) : List String :=
  if size = 0 then [] else ["  " ++ name ++ " cache: " ++ ByteSize.text size]

/-- An empty stepping, an unknown frequency and a level without cache have no line. -/
def lines (s : Summary) : List String :=
  let stepping := if s.stepping.isEmpty then [] else ["  Stepping: " ++ s.stepping]
  let frequency := match s.megahertz with
    | none => []
    | some x => ["  Frequency: " ++ x.wholeText ++ " MHz"]
  ["CPU:", "  Vendor: " ++ s.vendor, "  Model: " ++ s.modelName ++ " (" ++ s.model ++ ")"] ++
    stepping ++
    ["  Packages: " ++ Numeral.decimal s.packages,
      "  Physical cores: " ++ Numeral.decimal s.cores,
      "  Logical processors: " ++ Numeral.decimal s.logicalProcessors,
      "  NUMA nodes: " ++ Numeral.decimal s.numaNodes] ++
    frequency ++
    cacheLine "L1" s.cacheSizeL1 ++ cacheLine "L2" s.cacheSizeL2 ++ cacheLine "L3" s.cacheSizeL3

def text (s : Summary) : String := Text.unlines s.lines

def fieldNames : List String := [
  "vendor_id", "model_name", "family", "model", "stepping", "cores", "logical_processors",
  "packages", "numa_nodes", "cache_size", "cache_size_l1", "cache_size_l2", "cache_size_l3", "mhz"]

def ofJson? (value : Json) : Option Summary :=
  match value.fieldValues? fieldNames with
  | some [vendor, modelName, family, model, stepping, cores, logicalProcessors, packages, numaNodes,
      cacheSize, cacheSizeL1, cacheSizeL2, cacheSizeL3, megahertz] => do
    let vendor ← Json.required? Json.text? vendor
    let modelName ← Json.required? Json.text? modelName
    let family ← Json.required? Json.text? family
    let model ← Json.required? Json.text? model
    let stepping ← Json.required? Json.text? stepping
    let cores ← Json.required? Json.word? cores
    let logicalProcessors ← Json.required? Json.word? logicalProcessors
    let packages ← Json.required? Json.word? packages
    let numaNodes ← Json.required? Json.word? numaNodes
    let cacheSize ← Json.required? Json.word? cacheSize
    let cacheSizeL1 ← Json.required? Json.word? cacheSizeL1
    let cacheSizeL2 ← Json.required? Json.word? cacheSizeL2
    let cacheSizeL3 ← Json.required? Json.word? cacheSizeL3
    let megahertz ← Json.optional? Json.real? megahertz
    some ⟨vendor, modelName, family, model, stepping, cores, logicalProcessors, packages, numaNodes,
      cacheSize, cacheSizeL1, cacheSizeL2, cacheSizeL3, megahertz⟩
  | _ => none

end Summary

end HostInventory.Cpu
