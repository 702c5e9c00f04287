import HostInventory.Failure
import HostInventory.Text.Utf8

/-! A finite tree of files as one value. A path is walked from a directory name by name, through
symbolic links, as the system's own look-up does it, and every way to fail is a fault. -/
namespace HostInventory

/-- Where an object is: its name and those of the directories above it, innermost first. The top
directory is the empty list. -/
abbrev Location := List String

inductive Node
  | file (content : List UInt8)
  | directory
  | link (target : String)
  deriving DecidableEq

structure FileTree where
  nodes : List (Location × Node)
  distinct : (nodes.map Prod.fst).Nodup

namespace FileTree

def empty : FileTree := ⟨[], .nil⟩

instance : EmptyCollection FileTree := ⟨empty⟩

instance : Inhabited FileTree := ⟨empty⟩

def find? (place : Location) : List (Location × Node) → Option Node
  | [] => none
  | e :: rest => if e.1 == place then some e.2 else find? place rest

/-- The object at a location; the top is always a directory. -/
def node? (t : FileTree) : Location → Option Node
  | [] => some .directory
  | place => find? place t.nodes

theorem distinct_put {nodes : List (Location × Node)} (place : Location) (node : Node)
    (h : (nodes.map Prod.fst).Nodup) :
    (((place, node) :: nodes.filter (·.1 != place)).map Prod.fst).Nodup := by
  refine List.nodup_cons.2 ⟨?_, h.sublist (List.filter_sublist.map _)⟩
  simp

/-- The tree with `node` at a location, in place of what was there. -/
def put (t : FileTree) (place : Location) (node : Node) : FileTree :=
  ⟨(place, node) :: t.nodes.filter (·.1 != place), distinct_put place node t.distinct⟩

/-- The tree with a directory at the location and above it wherever nothing is. -/
def makeDirectories (t : FileTree) : Location → FileTree
  | [] => t
  | name :: above =>
    let t := t.makeDirectories above
    if (t.node? (name :: above)).isSome then t else t.put (name :: above) .directory

/-- The tree with `node` at a location and directories above it. A directory keeps what is in it. -/
def place (t : FileTree) (location : Location) : Node → FileTree
  | .directory => t.makeDirectories location
  | node => (t.makeDirectories location.tail).put location node

def origin (dir : Location) (text : String) : Location := if Path.isAbsolute text then [] else dir

def plainLocation (dir : Location) (path : Path) : Location :=
  path.pieces.foldl (fun location name =>
    if name = "" ∨ name = "." then location
    else if name = ".." then location.tail
    else name :: location) (origin dir path.text)

/-- Where a path ends: at an object, or at a name that a directory does not have. -/
inductive Target
  | file (location : Location) (content : List UInt8)
  | directory (location : Location)
  | vacant (location : Location)

def maxName : Nat := 255

def maxPath : Nat := 4095

def maxLinks : Nat := 40

/-- Where a walk pauses: at its end, or at a link in a directory with names still to come. -/
inductive Stop
  | target (target : Target)
  | link (dir : Location) (target : String) (rest : List String)

inductive Purpose
  | find
  | create
  deriving DecidableEq

/-- Whether a name is the last one of a path and a separator comes after it. -/
def endsInSeparator (rest : List String) : Bool := !rest.isEmpty && rest.all (· == "")

/-- Follows names from a directory as far as no link is met. An empty name or a dot stays, two
dots go up. Only a directory can be followed by a further name, and no file is created under a
name with a separator after it. -/
def follow (t : FileTree) (purpose : Purpose) (dir : Location) : List String → Except Fault Stop
  | [] => .ok (.target (.directory dir))
  | name :: rest =>
    if name = "" ∨ name = "." then t.follow purpose dir rest
    else if name = ".." then t.follow purpose dir.tail rest
    else if purpose = .create ∧ endsInSeparator rest then .error .isDirectory
    else if maxName < name.utf8ByteSize then .error .nameTooLong
    else
      match t.node? (name :: dir) with
      | none => if rest.isEmpty then .ok (.target (.vacant (name :: dir))) else .error .missing
      | some .directory => t.follow purpose (name :: dir) rest
      | some (.file content) =>
        if rest.isEmpty then .ok (.target (.file (name :: dir) content)) else .error .notDirectory
      | some (.link target) => .ok (.link dir target rest)

/-- Follows names through at most `links` links, each standing for the names of its target. -/
def walk (t : FileTree) (purpose : Purpose) (links : Nat) (dir : Location) (names : List String) :
    Except Fault Target :=
  match t.follow purpose dir names with
  | .error fault => .error fault
  | .ok (.target target) => .ok target
  | .ok (.link dir target rest) =>
    match links with
    | 0 => .error .linkLoop
    | links + 1 => t.walk purpose links (origin dir target) ((Path.mk target).pieces ++ rest)

def locate (t : FileTree) (purpose : Purpose) (dir : Location) (path : Path) :
    Except Fault Target :=
  if '\x00' ∈ path.text.toList then .error .nulInPath
  else if maxPath < path.text.utf8ByteSize then .error .nameTooLong
  else if path.text = "" then .error .missing
  else t.walk purpose maxLinks (origin dir path.text) path.pieces

def read (t : FileTree) (dir : Location) (path : Path) : Except Fault (List UInt8) :=
  match t.locate .find dir path with
  | .error fault => .error fault
  | .ok (.file _ content) => .ok content
  | .ok (.directory _) => .error .isDirectory
  | .ok (.vacant _) => .error .missing

def children (t : FileTree) (dir : Location) : List (String × Node) :=
  t.nodes.filterMap fun e =>
    match e.1 with
    | [] => none
    | name :: above => if above = dir then some (name, e.2) else none

def list (t : FileTree) (dir : Location) (path : Path) : Except Fault (List (String × Node)) :=
  match t.locate .find dir path with
  | .error fault => .error fault
  | .ok (.file ..) => .error .notDirectory
  | .ok (.directory location) => .ok (t.children location)
  | .ok (.vacant _) => .error .missing

/-- An empty file at the path, new or in place of an old one, and where it is. -/
def create (t : FileTree) (dir : Location) (path : Path) : Except Fault (FileTree × Location) :=
  match t.locate .create dir path with
  | .error fault => .error fault
  | .ok (.directory _) => .error .isDirectory
  | .ok (.file location _) | .ok (.vacant location) => .ok (t.put location (.file []), location)

def append (t : FileTree) (location : Location) (bytes : List UInt8) : FileTree :=
  match t.node? location with
  | some (.file content) => t.put location (.file (content ++ bytes))
  | _ => t

end FileTree

end HostInventory
