import HostInventory.ByteSize.Text
import HostInventory.Facts
import HostInventory.Json
import HostInventory.SystemRoot

/-! Memory totals: the facts that the memory file states, and their amounts in bytes. -/
namespace HostInventory

namespace Memory

def fields : List (String × String) := [("MemTotal", "total"), ("SwapTotal", "swap_total")]

def factFor? (key : List Char) : Option String := fields.lookup (String.ofList (Text.trim key))

/-- A line adds the text after its first colon without any blanks, if the name before the colon
is a known one; the last such line wins. -/
def addLine (f : Facts) (line : List Char) : Facts :=
  match Text.cut? ':' line with
  | none => f
  | some (key, value) =>
    match factFor? key with
    | none => f
    | some fact => f.insert fact (String.ofList (Text.squeeze value))

def factsOfText (text : String) : Facts := (Text.lines text.toList).foldl addLine ∅

def collect (h : Host) (r : SystemRoot) : Except Failure Facts :=
  (h.readText (r.procFile "meminfo")).map factsOfText

/-- Without every `bk` at its front. -/
def dropUnits : List Char → List Char
  | 'b' :: 'k' :: rest => dropUnits rest
  | rest => rest

/-- An amount in lower case without the units at its end. -/
def number (amount : String) : String :=
  String.ofList (dropUnits (amount.toList.map Char.toLower).reverse).reverse

/-- The bytes that an amount such as `2048kB` states, zero if it cannot be read. -/
def bytes (amount : Option String) : UInt64 :=
  match amount with
  | none => 0
  | some text =>
    match Numeral.readCount? (number text) with
    | none => 0
    | some kib => ByteSize.ofKib kib

end Memory

structure MemoryTotals where
  total : UInt64
  swapTotal : UInt64
  deriving DecidableEq

namespace MemoryTotals

def ofFacts (f : Facts) : MemoryTotals :=
  ⟨Memory.bytes (f.get? "total"), Memory.bytes (f.get? "swap_total")⟩

def lines (m : MemoryTotals) : List String :=
  ["Memory:", "  Total: " ++ ByteSize.text m.total, "  Swap: " ++ ByteSize.text m.swapTotal]

def text (m : MemoryTotals) : String := Text.unlines m.lines

def fieldNames : List String := ["total", "swap_total"]

def toJson (m : MemoryTotals) : Json :=
  .ofFields [("total", .ofWord m.total), ("swap_total", .ofWord m.swapTotal)]

def ofJson? (value : Json) : Option MemoryTotals :=
  match value.fieldValues? fieldNames with
  | some [total, swapTotal] => do
    let total ← Json.required? Json.word? total
    let swapTotal ← Json.required? Json.word? swapTotal
    some ⟨total, swapTotal⟩
  | _ => none

end MemoryTotals

end HostInventory
