import HostInventory.Cpu.Identity
import HostInventory.Cpu.Numa
import HostInventory.Cpu.Topology

/-! The processor record of a host: identity from its first stanza, counts and cache sizes from
the attribute files. -/
namespace HostInventory.Cpu.Report

/-- The stanza's own cache text where the layout has one and no cache was counted, else the sum
of the counted caches. -/
def cacheSize (first : Stanza) (t : Topology) : String :=
  match Layout.of first, first.get? "cache size" with
  | .descriptive, some text => if t.caches.isEmpty then text else t.caches.sizeText
  | _, _ => t.caches.sizeText

def addTopology (t : Topology) (f : Facts) : Facts :=
  let f : Facts := f.insertCount Key.packages t.packages
  let f : Facts := f.insertCount Key.cores t.cores
  let f : Facts := f.insertCount Key.logicalProcessors t.logicalProcessors
  let f : Facts := f.insertNumber Key.cacheSizeL1 (t.caches.level 1)
  let f : Facts := f.insertNumber Key.cacheSizeL2 (t.caches.level 2)
  f.insertNumber Key.cacheSizeL3 (t.caches.level 3)

def facts (first : Stanza) (t : Topology) (nodes : Nat) : Facts :=
  let f : Facts := addTopology t ((Layout.of first).describe first ∅)
  let f : Facts := f.insert Key.cacheSize (cacheSize first t)
  f.insertCount Key.numaNodes nodes

/-- Fails only if the stanzas cannot be read. -/
def collect (h : Host) (r : SystemRoot) : Except Failure Facts :=
  match Stanza.readAll h r with
  | .error failure => .error failure
  | .ok stanzas =>
    .ok (facts (stanzas.headD ∅) (Topology.ofStanzas h r stanzas) (Numa.count h r))

end HostInventory.Cpu.Report
