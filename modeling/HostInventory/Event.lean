import HostInventory.Cpu.Topology
import HostInventory.Platform

/-! What a run reports of itself while it works, each event at one level of detail. -/
namespace HostInventory

inductive Level
  | error
  | warn
  | info
  | debug
  | trace
  deriving DecidableEq

namespace Level

/-- Greater ranks are more detailed. -/
def rank : Level → Nat
  | error => 1
  | warn => 2
  | info => 3
  | debug => 4
  | trace => 5

def name : Level → String
  | error => "ERROR"
  | warn => "WARN"
  | info => "INFO"
  | debug => "DEBUG"
  | trace => "TRACE"

end Level

inductive Event
  | collecting (selection : String) (top : Path)
  | failed (collector : String) (why : Failure)
  | finished (collector : String)
  | skippedAttribute (skipped : Cpu.Skipped)
  | topology (t : Cpu.Topology)
  | noNodes (directory : Path) (fault : Fault)
  | noHardwareAddress (interface : String) (why : Failure)
  | omittedFact (omitted : Platform.Omitted)

namespace Event

def level : Event → Level
  | collecting .. => .info
  | failed .. => .warn
  | finished _ | topology _ | omittedFact _ => .debug
  | skippedAttribute _ | noNodes .. | noHardwareAddress .. => .trace

/-- The text of an event. How long a collector took is not part of the event. -/
def message (elapsed : String) : Event → String
  | collecting selection top => "Collecting " ++ selection ++ " from " ++ top.text
  | failed collector why => "[" ++ collector ++ "] " ++ why.message
  | finished collector => "[" ++ collector ++ "] collected in " ++ elapsed
  | skippedAttribute skipped =>
    "Skipping attribute " ++ skipped.file ++ ": " ++ skipped.why.message
  | topology t => t.display
  | noNodes directory fault =>
    "No NUMA information at " ++ directory.text ++ ": " ++ fault.message
  | noHardwareAddress interface why =>
    "No hardware address for " ++ interface ++ ": " ++ why.message
  | omittedFact omitted => "Skipping " ++ omitted.fact ++ ": " ++ omitted.why

end Event

end HostInventory
