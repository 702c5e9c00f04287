import HostInventory.Run

/-! The outer layer of the program. It reads the files that a run can ask for into a tree, hands
the tree to the run, and writes what the run leaves. -/
namespace HostInventory.Program

/-- The system's number for reading a directory as a file. -/
def directoryCode : UInt32 := 21

/-- What stands at a path, if the system shows it. -/
def look (path : Path) : IO (Option Node) := do
  try
    return some (.file (← IO.FS.readBinFile path.text).toList)
  catch
  | .inappropriateType _ code _ => return if code = directoryCode then some .directory else none
  | _ => return none

def load (h : Host) (path : Path) : IO Host := do
  match ← look path with
  | none => return h
  | some node =>
    let location := FileTree.plainLocation h.workingDirectory path
    return { h with tree := h.tree.place location node }

def loadAll (h : Host) (paths : List Path) : IO Host := paths.foldlM load h

/-- The path and those of the directories above it, outermost first. -/
def withParents (path : Path) : List Path :=
  let pieces := path.pieces
  (List.range pieces.length).map fun n => ⟨"/".intercalate (pieces.take (n + 1))⟩

/-- Reads caches as long as there is a list of sharers. -/
partial def loadCaches (r : SystemRoot) (h : Host) (cpu : UInt64) (index : Nat) : IO Host := do
  let sharers := Cpu.Survey.sharersFile cpu index
  let h ← load h (r.cpuFile sharers)
  match r.idSet h sharers with
  | .error _ => return h
  | .ok _ =>
    let files := [Cpu.Survey.levelFile cpu index, Cpu.Survey.sizeFile cpu index]
    loadCaches r (← loadAll h (files.map r.cpuFile)) cpu (index + 1)

def loadProcessor (r : SystemRoot) (h : Host) (cpu : UInt64) : IO Host := do
  let files := [Cpu.Survey.coreFile cpu, Cpu.Survey.packageFile cpu]
  loadCaches r (← loadAll h (files.map r.cpuFile)) cpu 0

/-- The kernel numbers memory nodes below this. This layer cannot list a directory, so it looks for
them under the names that the kernel gives them. -/
def nodeLimit : Nat := 1024

def nodePaths (r : SystemRoot) : List Path :=
  r.nodeDirectory :: (List.range nodeLimit).map fun n => r.nodeDirectory.join ("node" ++ toString n)

/-- Reads what the collectors ask for under a root. -/
def loadRoot (r : SystemRoot) (h : Host) : IO Host := do
  let files := ["cpuinfo", "meminfo"] ++ Platform.kernelFiles.map Prod.snd
  let h ← loadAll h (files.map r.procFile)
  let h ← loadAll h (nodePaths r)
  match Stanza.readAll h r with
  | .error _ => return h
  | .ok stanzas => (Cpu.Topology.indices 0 stanzas).foldlM (loadProcessor r) h

/-- A place for relative paths that no absolute path leads to. -/
def workingDirectory : Location := ["", ""]

def blankHost : Host := ⟨FileTree.empty.makeDirectories workingDirectory, workingDirectory⟩

/-- Reads what a command line asks for. -/
def loadFor (c : CommandLine) : IO Host := do
  let h ← loadAll blankHost ((c.logFile.map withParents).getD [])
  if c.command.isSome then return h
  loadRoot ⟨c.root⟩ h

/-- The text of a file of the running system. -/
def systemText (path : String) : IO (Option String) := do
  let h ← load blankHost ⟨path⟩
  return (h.readText ⟨path⟩).toOption

def runningSystem : IO RunningSystem := do
  let kernel ← systemText "/proc/sys/kernel/ostype"
  let machine ← systemText "/proc/sys/kernel/arch"
  let hostName ← systemText "/proc/sys/kernel/hostname"
  return {
    names := kernel.bind fun kernel => machine.map fun machine => (kernel, machine)
    hostName := match hostName with
      | some name => .ok name
      | none => .error "the system has no host name"
    architecture := machine.getD "unknown" }

/-- Log lines are stamped with the seconds since the system was started. -/
def uptime : IO String := do
  let text ← systemText "/proc/uptime"
  return String.ofList ((text.getD "").toList.takeWhile (· ≠ ' '))

def machineWith (h : Host) : IO Machine := do
  return {
    host := h
    system := ← runningSystem
    mounts := []
    addresses := .error "interface addresses are not available" }

/-- Writes the log to its file or to standard error. -/
def writeLog (c : CommandLine) (done : Run) : IO Unit := do
  match done.log.sink, c.logFile with
  | .file location, some path =>
    match done.machine.host.tree.node? location with
    | some (.file content) => IO.FS.writeBinFile path.text ⟨content.toArray⟩
    | _ => return
  | _, _ => IO.eprint (done.log.text done.events)

def report (done : Run) : IO UInt32 := do
  IO.print done.output
  match done.failure with
  | some failure => IO.eprintln ("Error: " ++ failure.message)
  | none => if done.status = 2 then IO.eprint Run.usageText
  return .ofNat done.status

/-- Runs a command line that could be read. -/
def runLine (i : Invocation) (c : CommandLine) (began : Nat) : IO UInt32 := do
  let machine ← machineWith (← loadFor c)
  let elapsed := toString ((← IO.monoMsNow) - began) ++ ".00ms"
  let done := Run.ofCommandLine { i with clock := ⟨i.clock.now, elapsed⟩ } c machine
  try
    writeLog c done
    report done
  catch fault =>
    IO.eprintln ("Error: " ++ toString fault)
    return 1

end HostInventory.Program

open HostInventory in
def main (arguments : List String) : IO UInt32 := do
  let began ← IO.monoMsNow
  let i : Invocation := {
    arguments
    rootVariable := ← IO.getEnv "HOSTFACTS_ROOT"
    logVariable := ← IO.getEnv "RUST_LOG"
    filters := .levels
    clock := ⟨← Program.uptime, ""⟩ }
  match CommandLine.read i.arguments i.rootVariable with
  | .ok c => Program.runLine i c began
  | .error fault =>
    Program.report (Run.ofUsageFault i (← Program.machineWith Program.blankHost) fault)
