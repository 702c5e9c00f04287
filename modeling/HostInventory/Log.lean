import HostInventory.Collector
import HostInventory.Json.Print
import HostInventory.Text.Control

/-! Where events go and which of them are let through. Written to a file, they become part of
the tree that later reads see. -/
namespace HostInventory

/-- Which events are let through. -/
abbrev Filter := Event → Bool

/-- The most detailed level that is let through, if any is. -/
abbrev Threshold := Option Level

namespace Threshold

def admits (t : Threshold) : Filter := fun e =>
  match t with
  | none => false
  | some level => e.level.rank ≤ level.rank

/-- The threshold that a text is a name of: a level in any letter case or its rank, or `off`. An
empty text lets errors through. -/
def named? (text : String) : Option Threshold :=
  match String.ofList (text.toList.map Char.toLower) with
  | "off" | "0" => some none
  | "" | "error" | "1" => some (some .error)
  | "warn" | "2" => some (some .warn)
  | "info" | "3" => some (some .info)
  | "debug" | "4" => some (some .debug)
  | "trace" | "5" => some (some .trace)
  | _ => none

end Threshold

/-- Filters as the library in use makes them: from the text of a list of directives, unless one of
them is not valid, and from a level. -/
structure Filters where
  read? : String → Option Filter
  ofLevel : Level → Filter

namespace Filters

/-- Directives from the environment win over the command line's level. -/
def choose (f : Filters) (directives : Option String) (level : Level) : Filter :=
  (directives.bind f.read?).getD (f.ofLevel level)

/-- Filters by level alone. Directives for single modules are not known to them. -/
def levels : Filters where
  read? text := (Threshold.named? text).map Threshold.admits
  ofLevel level := Threshold.admits (some level)

end Filters

/-- The time as log lines show it, and how they show how long a collector took. -/
structure Clock where
  now : String
  elapsed : String

inductive Sink
  | standardError
  | file (location : Location)
  deriving DecidableEq

structure Log where
  filter : Filter
  sink : Sink
  json : Bool
  clock : Clock

namespace Log

def shown (l : Log) (events : List Event) : List Event := events.filter l.filter

def levelColumn (level : Level) : String :=
  String.ofList (List.replicate (5 - level.name.length) ' ') ++ level.name

/-- An event's message as the log shows it. Structured lines need no escapes but their own. -/
def message (l : Log) (e : Event) : String :=
  let message := e.message l.clock.elapsed
  if l.json then message else Text.disarm message

/-- The colours that plain lines have on standard error are left out. -/
def line (l : Log) (e : Event) : String :=
  if l.json then
    "\x7b\"timestamp\":" ++ Json.quote l.clock.now ++ ",\"level\":" ++ Json.quote e.level.name ++
      ",\"fields\":\x7b\"message\":" ++ Json.quote (l.message e) ++ "\x7d\x7d"
  else l.clock.now ++ " " ++ levelColumn e.level ++ " " ++ l.message e

def text (l : Log) (events : List Event) : String := Text.unlines ((l.shown events).map l.line)

def record (l : Log) (m : Machine) (events : List Event) : Machine :=
  match l.sink with
  | .standardError => m
  | .file location =>
    let tree := m.host.tree.append location (Utf8.encode (l.text events))
    { m with host := { m.host with tree } }

end Log

end HostInventory
