import HostInventory.Cpu.Report
import HostInventory.Event
import HostInventory.Memory
import HostInventory.Mount
import HostInventory.Network.Report

/-! Collectors: each gathers one section of a snapshot from a machine, or fails as a whole. -/
namespace HostInventory

/-- All that a run can learn of the machine it runs on. -/
structure Machine where
  host : Host
  system : RunningSystem
  mounts : List Mount
  /-- The addresses of the interfaces, or why the system does not list them. -/
  addresses : Except String (List Network.Entry)

/-- A section or the failure that leaves it out, and the events on the way. -/
structure Outcome where
  result : Except Failure Json
  events : List Event

structure Collector where
  name : String
  run : Machine → SystemRoot → Outcome

namespace Collector

/-- The events of reading the attribute files of a host with these stanzas. -/
def cpuEvents (h : Host) (r : SystemRoot) (stanzas : List Stanza) : List Event :=
  let nodes := match Cpu.Numa.entries h r with
    | .error fault => [.noNodes r.nodeDirectory fault]
    | .ok _ => []
  let surveys := Cpu.Topology.surveys h r stanzas
  (surveys.flatMap fun s => s.skipped.map .skippedAttribute) ++
    [.topology (Cpu.Topology.ofSurveys surveys)] ++ nodes

def cpu : Collector where
  name := "cpu"
  run m r :=
    { result := (Cpu.Report.collect m.host r).map Json.ofFacts
      events := match Stanza.readAll m.host r with
        | .error _ => []
        | .ok stanzas => cpuEvents m.host r stanzas }

def filesystem : Collector where
  name := "filesystem"
  run m _ := ⟨.ok (.list (m.mounts.map Mount.toJson)), []⟩

def memory : Collector where
  name := "memory"
  run m r := ⟨(Memory.collect m.host r).map Json.ofFacts, []⟩

/-- The first entry of each interface asks for its hardware address. -/
def hardwareEvents (h : Host) (r : SystemRoot) (report : Network.Report) : List Event :=
  report.interfaces.filterMap fun i =>
    match Network.hardwareReading h r i.name with
    | .error why => some (.noHardwareAddress i.name why)
    | .ok _ => none

def network : Collector where
  name := "network"
  run m r :=
    match m.addresses with
    | .error message => ⟨.error (.collector "network" message), []⟩
    | .ok entries =>
      let report := Network.Report.ofEntries (Network.hardwareAddress? m.host r) entries
      ⟨.ok report.toJson, hardwareEvents m.host r report⟩

def platform : Collector where
  name := "platform"
  run m r :=
    let found := Platform.readings m.host r
    ⟨.ok (Json.ofFacts (Platform.factsOf m.system found)),
      (Platform.omitted m.system found).map .omittedFact⟩

/-- Every collector, in output order. -/
def all : List Collector := [cpu, filesystem, memory, network, platform]

/-- The names that a selection is made from. -/
def names : List String := ["cpu", "filesystem", "memory", "network", "platform"]

theorem map_name_all : all.map name = names := rfl

end Collector

end HostInventory
