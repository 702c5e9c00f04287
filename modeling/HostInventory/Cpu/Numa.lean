import HostInventory.SystemRoot

/-! The number of memory nodes, which is the number of directories named for one. -/
namespace HostInventory.Cpu.Numa

def digits? : List Char → Option (List Char)
  | 'n' :: 'o' :: 'd' :: 'e' :: digits => some digits
  | _ => none

/-- Whether a name is `node` followed by decimal digits. -/
def isNodeName (name : String) : Bool :=
  match digits? name.toList with
  | none | some [] => false
  | some digits => digits.all fun c => '0' ≤ c && c ≤ '9'

/-- Links and files with such a name do not count. -/
def isNode : String × Node → Bool
  | (name, .directory) => isNodeName name
  | _ => false

/-- The entries of the node directory, or the fault that hides them. -/
def entries (h : Host) (r : SystemRoot) : Except Fault (List (String × Node)) :=
  h.list r.nodeDirectory

/-- A directory that cannot be listed has no nodes. -/
def count (h : Host) (r : SystemRoot) : Nat :=
  match entries h r with
  | .error _ => 0
  | .ok found => found.countP isNode

end HostInventory.Cpu.Numa
