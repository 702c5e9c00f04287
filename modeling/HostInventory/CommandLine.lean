import HostInventory.Selection

/-! What a command line asks for, and the settings of a collection that follow from it. -/
namespace HostInventory

inductive Format
  | json
  | text
  deriving DecidableEq

inductive Command
  | list
  | lookup (implementer part : String)
  deriving DecidableEq

structure CommandLine where
  root : Path
  only : List String
  exclude : List String
  format : Format
  pretty : Bool
  /-- How often more detail was asked for, up to 255. -/
  verbose : Nat
  quiet : Bool
  logFile : Option Path
  logJson : Bool
  command : Option Command
  deriving DecidableEq

/-- The most detailed level that the command line lets through. Quiet wins. -/
def CommandLine.level (c : CommandLine) : Level :=
  if c.quiet then .error
  else match c.verbose with
    | 0 => .warn
    | 1 => .info
    | 2 => .debug
    | _ => .trace

structure Settings where
  root : SystemRoot
  selection : Selection
  format : Format
  pretty : Bool
  deriving DecidableEq

namespace Settings

def standard : Settings := ⟨.standard, .all, .json, false⟩

/-- Fails on an unknown collector, and if no collector is left to run. -/
def ofCommandLine (c : CommandLine) : Except Failure Settings :=
  match Selection.make c.only c.exclude with
  | .error failure => .error failure
  | .ok selection =>
    if selection.names.isEmpty then
      .error (.settings "--only and --exclude leave no collector to run")
    else .ok ⟨⟨c.root⟩, selection, c.format, c.pretty⟩

/-- Whether two settings ask for the same; roots are compared component by component. -/
def same (s t : Settings) : Bool :=
  s.root.same t.root && s.selection = t.selection && s.format = t.format && s.pretty = t.pretty

end Settings

end HostInventory
