import HostInventory.SystemRoot

/-! What the attribute files say of one logical processor: its core and package ids, and its
caches from the first index on until one has no usable list of sharers. -/
namespace HostInventory.Cpu

structure Skipped where
  file : String
  why : Failure

/-- What one cache contributes. A cache is counted by the lowest-numbered processor that shares
it, and only with a level and a size. -/
inductive CacheEntry
  | elsewhere
  | counted (level size : UInt64)
  | skipped (reason : Skipped)

def sharedBelow (cpu : UInt64) (sharers : IdSet) : Bool :=
  match sharers.least? with
  | none => false
  | some least => decide (least < cpu)

structure Survey where
  core : Except Skipped UInt64
  package : Except Skipped UInt64
  caches : List CacheEntry
  stop : Option Skipped

namespace Survey

def cpuName (cpu : UInt64) : String := "cpu" ++ Numeral.decimal cpu

def coreFile (cpu : UInt64) : String := cpuName cpu ++ "/topology/core_id"

def packageFile (cpu : UInt64) : String := cpuName cpu ++ "/topology/physical_package_id"

def cacheName (cpu : UInt64) (index : Nat) : String :=
  cpuName cpu ++ "/cache/index" ++ toString index

def sharersFile (cpu : UInt64) (index : Nat) : String := cacheName cpu index ++ "/shared_cpu_list"

def levelFile (cpu : UInt64) (index : Nat) : String := cacheName cpu index ++ "/level"

def sizeFile (cpu : UInt64) (index : Nat) : String := cacheName cpu index ++ "/size"

def noted {α : Type} (file : String) (reading : Except Failure α) : Except Skipped α :=
  reading.mapError fun why => ⟨file, why⟩

/-- The entry of a cache whose sharers are known. Level and size are read only if they count. -/
def cacheEntry (h : Host) (r : SystemRoot) (cpu : UInt64) (index : Nat) (sharers : IdSet) :
    CacheEntry :=
  if sharedBelow cpu sharers then .elsewhere
  else
    match noted (levelFile cpu index) (r.integer h (levelFile cpu index)) with
    | .error reason => .skipped reason
    | .ok level =>
      match noted (sizeFile cpu index) (r.byteSize h (sizeFile cpu index)) with
      | .error reason => .skipped reason
      | .ok size => .counted level size

/-- The entries from an index on, at most `budget` of them, and what ended them. -/
def cacheEntries (h : Host) (r : SystemRoot) (cpu : UInt64) :
    Nat → Nat → List CacheEntry × Option Skipped
  | 0, _ => ([], none)
  | budget + 1, index =>
    match noted (sharersFile cpu index) (r.idSet h (sharersFile cpu index)) with
    | .error reason => ([], some reason)
    | .ok sharers =>
      let rest := cacheEntries h r cpu budget (index + 1)
      (cacheEntry h r cpu index sharers :: rest.1, rest.2)

/-- Each index that has a list of sharers needs an object of its own in the tree, so one index
more than the tree has objects is enough to find the end. -/
def budget (h : Host) : Nat := h.tree.nodes.length + 1

def of (h : Host) (r : SystemRoot) (cpu : UInt64) : Survey :=
  let caches := cacheEntries h r cpu (budget h) 0
  { core := noted (coreFile cpu) (r.integer h (coreFile cpu))
    package := noted (packageFile cpu) (r.integer h (packageFile cpu))
    caches := caches.1
    stop := caches.2 }

/-- The attributes that gave no value, in the order in which they were tried. -/
def skipped (s : Survey) : List Skipped :=
  let id (reading : Except Skipped UInt64) : List Skipped :=
    match reading with
    | .error reason => [reason]
    | .ok _ => []
  let cache : CacheEntry → List Skipped
    | .skipped reason => [reason]
    | _ => []
  id s.core ++ id s.package ++ s.caches.flatMap cache ++ s.stop.toList

end Survey

end HostInventory.Cpu
