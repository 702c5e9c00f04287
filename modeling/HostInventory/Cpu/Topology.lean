import HostInventory.Cpu.CacheTotals
import HostInventory.Cpu.Survey
import HostInventory.Stanza

/-! The processor topology of a host: how many distinct core and package ids its processors
report, and the cache totals with each shared cache counted once. -/
namespace HostInventory.Cpu

structure SeenIds where
  cores : IdSet
  packages : IdSet
  deriving DecidableEq

namespace SeenIds

def none : SeenIds := ⟨∅, ∅⟩

def note (ids : IdSet) : Except Skipped UInt64 → IdSet
  | .ok id => ids.insert id
  | .error _ => ids

def record (seen : SeenIds) (s : Survey) : SeenIds :=
  ⟨note seen.cores s.core, note seen.packages s.package⟩

end SeenIds

structure Topology where
  cores : Nat
  packages : Nat
  logicalProcessors : Nat
  caches : CacheTotals
  deriving DecidableEq

namespace Topology

def countEntry (totals : CacheTotals) : CacheEntry → CacheTotals
  | .counted level size => totals.add level size
  | _ => totals

def ofSurveys (surveys : List Survey) : Topology :=
  let seen := surveys.foldl SeenIds.record .none
  { cores := seen.cores.size
    packages := seen.packages.size
    logicalProcessors := surveys.length
    caches := surveys.foldl (fun totals s => s.caches.foldl countEntry totals) ∅ }

/-- The number under which each stanza's attributes are found: its own, else its position. -/
def indices : Nat → List Stanza → List UInt64
  | _, [] => []
  | position, s :: rest => s.index?.getD (.ofNat position) :: indices (position + 1) rest

def surveys (h : Host) (r : SystemRoot) (stanzas : List Stanza) : List Survey :=
  (indices 0 stanzas).map (Survey.of h r)

def ofStanzas (h : Host) (r : SystemRoot) (stanzas : List Stanza) : Topology :=
  ofSurveys (surveys h r stanzas)

def display (t : Topology) : String :=
  "Topology: " ++ toString t.cores ++ " cores, " ++ toString t.packages ++ " packages, " ++
    toString t.logicalProcessors ++ " logical, caches " ++ t.caches.display

end Topology

end HostInventory.Cpu
