import HostInventory.CommandLine.Reader
import HostInventory.Log
import HostInventory.Snapshot

/-! The program as a function: from a command line and a machine to an exit status, the text on
standard output, the failure reported, and the events logged. -/
namespace HostInventory

structure Invocation where
  arguments : List String
  rootVariable : Option String
  logVariable : Option String
  filters : Filters
  clock : Clock

structure Run where
  status : Nat
  output : String
  failure : Option Failure
  events : List Event
  log : Log
  machine : Machine

namespace Run

/-- Opens the log. A log file is made anew before anything else is done. -/
def openLog (i : Invocation) (c : CommandLine) (m : Machine) : Except Failure (Log × Machine) :=
  let filter := i.filters.choose i.logVariable c.level
  match c.logFile with
  | none => .ok (⟨filter, .standardError, c.logJson, i.clock⟩, m)
  | some path =>
    match m.host.tree.create m.host.workingDirectory path with
    | .error fault => .error (.reading path fault)
    | .ok (tree, location) =>
      .ok (⟨filter, .file location, c.logJson, i.clock⟩,
        { m with host := { m.host with tree } })

/-- The names and codes of a pair, with a note if the part is not in the catalog. -/
def lookupText (implementer part : String) : Except Failure String :=
  match Numeral.read implementer with
  | .error failure => .error failure
  | .ok code =>
    match Numeral.read part with
    | .error failure => .error failure
    | .ok partCode =>
      match Catalog.resolve? implementer part with
      | none => .error (.unparsable (implementer ++ " " ++ part) .notCodePair)
      | some names =>
        let known := (Catalog.implementer? code).bind fun i => i.partName? partCode
        .ok (Text.unlines (
          ["Implementer: " ++ Numeral.hex code ++ " (" ++ names.vendor ++ ")",
            "Part:        " ++ Numeral.hex partCode ++ " (" ++ names.model ++ ")"] ++
          if known.isNone then ["Note: part not in catalog"] else []))

def commandText : Command → Except Failure String
  | .list => .ok (Text.unlines Collector.names)
  | .lookup implementer part => lookupText implementer part

def snapshotText (s : Settings) (snapshot : Snapshot) : String :=
  match s.format with
  | .json => snapshot.print s.pretty ++ "\n"
  | .text => snapshot.summary

/-- Collects as the settings say, after a first event that names the collectors. -/
def collect (l : Log) (m : Machine) (s : Settings) : Run :=
  let opening := [Event.collecting s.selection.text s.root.top]
  let done := Snapshot.run l.record Collector.all s.root s.selection (l.record m opening)
  { status := 0
    output := snapshotText s ⟨done.sections⟩
    failure := none
    events := l.shown (opening ++ done.events)
    log := l
    machine := done.machine }

def ended (l : Log) (m : Machine) : Except Failure String → Run
  | .ok output => ⟨0, output, none, [], l, m⟩
  | .error failure => ⟨1, "", some failure, [], l, m⟩

def ofCommandLine (i : Invocation) (c : CommandLine) (m : Machine) : Run :=
  match openLog i c m with
  | .error failure => ended ⟨fun _ => false, .standardError, false, i.clock⟩ m (.error failure)
  | .ok (l, m) =>
    match c.command with
    | some command => ended l m (commandText command)
    | none =>
      match Settings.ofCommandLine c with
      | .error failure => ended l m (.error failure)
      | .ok s => collect l m s

def program : String := "hostfacts"

def helpText : String := Text.unlines [
  "Collect CPU, memory, platform, filesystem and network facts",
  "",
  "Usage: " ++ program ++ " [OPTIONS] [COMMAND]",
  "",
  "Commands:",
  "  list    List the available collectors",
  "  lookup  Look up a CPU implementer and part in the hardware catalog",
  "  help    Print this message or the help of the given subcommand(s)",
  "",
  "Options:",
  "      --root <PATH>      Prefix under which /proc and /sys are read",
  "      --only <NAMES>     Run only these collectors (comma separated)",
  "      --exclude <NAMES>  Skip these collectors (comma separated)",
  "      --format <FORMAT>  Output format [possible values: json, text]",
  "      --pretty           Pretty-print JSON output",
  "  -v, --verbose...       Verbose output (can be repeated: -v, -vv, -vvv)",
  "  -q, --quiet            Quiet mode (errors only)",
  "      --log-file <PATH>  Log file path",
  "      --log-json         Emit logs as JSON lines",
  "  -h, --help             Print help",
  "  -V, --version          Print version"]

def usageText : String := "error: the arguments cannot be used; try '--help'\n"

/-- What a line that cannot be run leaves: a text that it asked for, or status 2. -/
def ofUsageFault (i : Invocation) (m : Machine) (fault : CommandLine.UsageFault) : Run :=
  let l : Log := ⟨fun _ => false, .standardError, false, i.clock⟩
  match fault with
  | .version => ended l m (.ok (program ++ " " ++ Platform.version ++ "\n"))
  | .help => ended l m (.ok helpText)
  | _ => { ended l m (.ok "") with status := 2 }

def ofInvocation (i : Invocation) (m : Machine) : Run :=
  match CommandLine.read i.arguments i.rootVariable with
  | .error fault => ofUsageFault i m fault
  | .ok c => ofCommandLine i c m

end Run

end HostInventory
