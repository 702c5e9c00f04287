import HostInventory.Numeral
import HostInventory.OrderedMap

/-! Bytes of cache at each level, as running totals that stop at the largest 64-bit number. -/
namespace HostInventory.Cpu

/-- The sum, or the largest word if the sum does not fit. -/
def saturatingAdd (a b : UInt64) : UInt64 := .ofNat (min (a.toNat + b.toNat) (UInt64.size - 1))

theorem toNat_saturatingAdd (a b : UInt64) :
    (saturatingAdd a b).toNat = min (a.toNat + b.toNat) (UInt64.size - 1) :=
  UInt64.toNat_ofNat_of_lt' (by simp only [UInt64.size]; omega)

structure CacheTotals where
  levels : OrderedMap UInt64 UInt64
  deriving DecidableEq

namespace CacheTotals

def empty : CacheTotals := ⟨∅⟩

instance : EmptyCollection CacheTotals := ⟨empty⟩

def level (t : CacheTotals) (l : UInt64) : UInt64 := t.levels.getD l 0

def add (t : CacheTotals) (l size : UInt64) : CacheTotals :=
  ⟨t.levels.insert l (saturatingAdd (t.level l) size)⟩

def sum (t : CacheTotals) : UInt64 := t.level 1 + t.level 2 + t.level 3

/-- Whether nothing was added, not even a size of zero. -/
def isEmpty (t : CacheTotals) : Bool := t.levels.isEmpty

def sizeText (t : CacheTotals) : String := Numeral.decimal (t.sum / 1024) ++ " KB"

def display (t : CacheTotals) : String :=
  let shown := t.levels.entries.map fun e => Numeral.decimal e.1 ++ ": " ++ Numeral.decimal e.2
  "CacheLevelTotals \x7b levels: \x7b" ++ ", ".intercalate shown ++ "\x7d \x7d"

theorem level_add (t : CacheTotals) (l size k : UInt64) :
    (t.add l size).level k = if l = k then saturatingAdd (t.level k) size else t.level k := by
  simp only [level, add, OrderedMap.getD, OrderedMap.get?_insert]
  split <;> simp_all

end CacheTotals

end HostInventory.Cpu
