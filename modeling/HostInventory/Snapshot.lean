import HostInventory.Cpu.Summary
import HostInventory.Json.Outline
import HostInventory.Selection
import HostInventory.Text.UpperCase

/-! Snapshots: the sections that the selected collectors gave, by name. -/
namespace HostInventory

structure Snapshot where
  sections : OrderedMap String Json

namespace Snapshot

/-- A collection under way: the machine as it now is, the sections so far, and the events in
order. -/
structure Progress where
  machine : Machine
  sections : OrderedMap String Json
  events : List Event

/-- Reports a failure, if there was one, and then that the collector is done. -/
def closing (name : String) : Except Failure Json → List Event
  | .ok _ => [.finished name]
  | .error why => [.failed name why, .finished name]

def addSection (sections : OrderedMap String Json) (name : String) :
    Except Failure Json → OrderedMap String Json
  | .ok value => sections.insert name value
  | .error _ => sections

/-- Runs one collector. `record` says how the machine changes when events are written down. -/
def step (record : Machine → List Event → Machine) (r : SystemRoot) (p : Progress)
    (c : Collector) : Progress :=
  let outcome := c.run p.machine r
  let events := outcome.events ++ closing c.name outcome.result
  { machine := record p.machine events
    sections := addSection p.sections c.name outcome.result
    events := p.events ++ events }

def run (record : Machine → List Event → Machine) (collectors : List Collector) (r : SystemRoot)
    (selection : Selection) (m : Machine) : Progress :=
  (collectors.filter fun c => selection.includes c.name).foldl (step record r) ⟨m, ∅, []⟩

def collectWith (collectors : List Collector) (m : Machine) (r : SystemRoot)
    (selection : Selection) : Snapshot :=
  ⟨(run (fun m _ => m) collectors r selection m).sections⟩

def collect (m : Machine) (r : SystemRoot) (selection : Selection) : Snapshot :=
  collectWith Collector.all m r selection

def names (s : Snapshot) : List String := s.sections.keys

def toJson (s : Snapshot) : Json := .ofMap s.sections

def print (s : Snapshot) (pretty : Bool) : String :=
  if pretty then s.toJson.pretty else s.toJson.compact

/-- A section's lines: a summary for processor facts, an outline under a title for the rest. -/
def sectionLines (name : String) (value : Json) : List String :=
  let outlined := (Text.capitalize name ++ ":") :: value.outline 1
  if name = "cpu" then
    match value.facts? with
    | some facts => (Cpu.Summary.ofFacts facts).lines
    | none => outlined
  else outlined

def summaryLines (s : Snapshot) : List String :=
  "=== Host Facts ===" :: s.sections.entries.flatMap fun e => "" :: sectionLines e.1 e.2

def summary (s : Snapshot) : String := Text.unlines s.summaryLines

end Snapshot

end HostInventory
