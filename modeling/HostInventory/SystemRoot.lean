import HostInventory.FileTree
import HostInventory.IdSet.ListText
import HostInventory.ByteSize

/-! Reading a host's kernel files. A host is a tree and the directory that relative paths start
from; a root is the path under which `proc` and `sys` are looked up. -/
namespace HostInventory

structure Host where
  tree : FileTree
  workingDirectory : Location

namespace Host

@[irreducible] def read (h : Host) (path : Path) : Except Fault (List UInt8) :=
  h.tree.read h.workingDirectory path

def list (h : Host) (path : Path) : Except Fault (List (String × Node)) :=
  h.tree.list h.workingDirectory path

def readBytes (h : Host) (path : Path) : Except Failure (List UInt8) :=
  (h.read path).mapError (Failure.reading path)

/-- The text of a file without blanks around it. The whole file has to be well-formed. -/
def readText (h : Host) (path : Path) : Except Failure String :=
  match h.read path with
  | .error fault => .error (.reading path fault)
  | .ok bytes =>
    match Utf8.decode? bytes with
    | none => .error (.reading path .notUtf8)
    | some cs => .ok (String.ofList (Text.trim cs))

end Host

structure SystemRoot where
  top : Path
  deriving DecidableEq

namespace SystemRoot

def standard : SystemRoot := ⟨⟨"/"⟩⟩

def procFile (r : SystemRoot) (rel : String) : Path := (r.top.join "proc").join rel

def cpuFile (r : SystemRoot) (rel : String) : Path :=
  (r.top.join "sys/devices/system/cpu").join rel

def nodeDirectory (r : SystemRoot) : Path := r.top.join "sys/devices/system/node"

def networkDirectory (r : SystemRoot) : Path := r.top.join "sys/class/net"

def same (r s : SystemRoot) : Bool := r.top.same s.top

def readAttribute {α : Type} (r : SystemRoot) (h : Host) (reader : String → Except Failure α)
    (rel : String) : Except Failure α :=
  match h.readText (r.cpuFile rel) with
  | .error failure => .error failure
  | .ok text => reader text

def integer (r : SystemRoot) (h : Host) (rel : String) : Except Failure UInt64 :=
  r.readAttribute h Numeral.read rel

def byteSize (r : SystemRoot) (h : Host) (rel : String) : Except Failure UInt64 :=
  r.readAttribute h ByteSize.read rel

def idSet (r : SystemRoot) (h : Host) (rel : String) : Except Failure IdSet :=
  r.readAttribute h IdSet.read rel

end SystemRoot

end HostInventory
