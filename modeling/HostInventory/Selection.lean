import HostInventory.Collector

/-! Which collectors run: all or some of them, less the excluded ones. -/
namespace HostInventory

abbrev NameSet := OrderedMap String Unit

def NameSet.ofNames (names : List String) : NameSet := .ofList (names.map fun name => (name, ()))

structure Selection where
  only : Option NameSet
  exclude : NameSet
  deriving DecidableEq

namespace Selection

def all : Selection := ⟨none, ∅⟩

/-- A selection from lists of names, all of which have to be known. No name in the first list
means all collectors. -/
def make (only exclude : List String) : Except Failure Selection :=
  match (only ++ exclude).find? fun name => !Collector.names.contains name with
  | some name => .error (.unknownCollector name)
  | none =>
    .ok ⟨if only.isEmpty then none else some (.ofNames only), .ofNames exclude⟩

def wants (s : Selection) (name : String) : Bool :=
  match s.only with
  | none => true
  | some only => only.contains name

def includes (s : Selection) (name : String) : Bool := s.wants name && !s.exclude.contains name

def names (s : Selection) : List String := Collector.names.filter s.includes

def text (s : Selection) : String := "[" ++ " ".intercalate s.names ++ "]"

end Selection

end HostInventory
