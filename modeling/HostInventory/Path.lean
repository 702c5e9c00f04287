import HostInventory.Text.Split

/-! Paths as texts. Joining and comparing work on the text alone; what a path leads to is the
matter of a file tree. -/
namespace HostInventory

structure Path where
  text : String
  deriving DecidableEq, Inhabited

namespace Path

def isAbsolute (text : String) : Bool := text.toList.head? == some '/'

/-- `rel` below `p`. An absolute `rel` replaces `p`; a separator is added unless `p` is empty or
ends in one, also before an empty `rel`. -/
def join (p : Path) (rel : String) : Path :=
  if isAbsolute rel then ⟨rel⟩
  else if p.text.isEmpty || p.text.toList.getLast? == some '/' then ⟨p.text ++ rel⟩
  else ⟨p.text ++ "/" ++ rel⟩

/-- The names between separators, empty ones included. -/
def pieces (p : Path) : List String := (Text.splitAt '/' p.text.toList).map String.ofList

/-- The names that tell paths apart: without empty ones, and with `.` only where it opens a
relative path. -/
def components (p : Path) : List String :=
  match p.pieces with
  | "." :: rest => "." :: rest.filter named
  | all => all.filter named
where
  named (name : String) : Bool := name != "" && name != "."

def same (p q : Path) : Bool :=
  isAbsolute p.text == isAbsolute q.text && p.components == q.components

end Path

end HostInventory
