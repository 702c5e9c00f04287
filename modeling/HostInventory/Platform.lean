import HostInventory.Facts
import HostInventory.SystemRoot

/-! Names of kernel, host and architecture. Each fact has a source of its own, and a source that
gives nothing leaves the others as they are. -/
namespace HostInventory

structure RunningSystem where
  names : Option (String × String)
  /-- The host's name, or why there is none. -/
  hostName : Except String String
  architecture : String

namespace Platform

def version : String := "0.1.0"

def kernelFiles : List (String × String) := [
  ("kernel_name", "sys/kernel/ostype"),
  ("kernel_release", "sys/kernel/osrelease"),
  ("kernel_version", "sys/kernel/version"),
  ("hostname", "sys/kernel/hostname")]

structure Omitted where
  fact : String
  why : String

def readings (h : Host) (r : SystemRoot) : List (String × Except Failure String) :=
  kernelFiles.map fun e => (e.1, h.readText (r.procFile e.2))

/-- A file that is blank or cannot be read gives no fact. -/
def addReading (f : Facts) : String × Except Failure String → Facts
  | (fact, .ok text) => if text = "" then f else f.insert fact text
  | (_, .error _) => f

def addHostName (s : RunningSystem) (f : Facts) : Facts :=
  if f.contains "hostname" then f else f.insert? "hostname" s.hostName.toOption

def machine (s : RunningSystem) : String :=
  match s.names with
  | some (_, machine) => machine
  | none => s.architecture

def addMachine (s : RunningSystem) (f : Facts) : Facts :=
  ((f.insert "machine" (machine s)).insert "processor" (machine s)).insert "hardware_platform"
    (machine s)

def addKernelName (s : RunningSystem) (f : Facts) : Facts :=
  if f.contains "kernel_name" then f else f.insert? "kernel_name" (s.names.map Prod.fst)

/-- The names of the target that the program is built for. Here this is Linux, as for all kernel
files above. -/
def addTarget (s : RunningSystem) (f : Facts) : Facts :=
  (((f.insert "os" "GNU/Linux").insert "target_os" "linux").insert "target_arch"
    s.architecture).insert "version" version

/-- The record of a system whose kernel files say what `found` lists. -/
def factsOf (s : RunningSystem) (found : List (String × Except Failure String)) : Facts :=
  addTarget s (addKernelName s (addMachine s (addHostName s (found.foldl addReading ∅))))

def facts (s : RunningSystem) (h : Host) (r : SystemRoot) : Facts := factsOf s (readings h r)

def unread : String × Except Failure String → Option Omitted
  | (fact, .error failure) => some ⟨fact, failure.message⟩
  | (_, .ok _) => none

/-- The facts whose source failed. A host name is asked for only if no file gives one. -/
def omitted (s : RunningSystem) (found : List (String × Except Failure String)) : List Omitted :=
  let fromFiles : Facts := found.foldl addReading ∅
  let hostName := match s.hostName with
    | .error why => if fromFiles.contains "hostname" then [] else [⟨"hostname", why⟩]
    | .ok _ => []
  found.filterMap unread ++ hostName

end Platform

end HostInventory
