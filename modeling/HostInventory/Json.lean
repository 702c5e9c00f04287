import HostInventory.Binary64
import HostInventory.OrderedMap

/-! Structured values: the tree type, the construction of objects, and the questions that readers
of a value ask. -/
namespace HostInventory

/-- An integer from `-2 ^ 63` up to below `2 ^ 64`, or a finite double-precision number. -/
inductive JsonNumber
  | integer (n : Int)
  | real (x : Binary64)
  deriving DecidableEq

/-- Fields of an object stand in ascending order of their names. -/
inductive Json
  | null
  | bool (b : Bool)
  | number (n : JsonNumber)
  | text (s : String)
  | list (items : List Json)
  | object (fields : List (String × Json))

namespace Json

instance : Inhabited Json := ⟨.null⟩

def ofMap (m : OrderedMap String Json) : Json := .object m.entries

/-- An object of the given fields, later ones winning over earlier ones of the same name. -/
def ofFields (fields : List (String × Json)) : Json := ofMap (.ofList fields)

def ofNat (n : Nat) : Json := .number (.integer n)

def ofWord (n : UInt64) : Json := ofNat n.toNat

def ofTexts (texts : List String) : Json := .list (texts.map .text)

def ofFacts (facts : OrderedMap String String) : Json :=
  .object (facts.entries.map fun e => (e.1, .text e.2))

def text? : Json → Option String
  | .text s => some s
  | _ => none

def texts? : Json → Option (List String)
  | .list items => items.mapM text?
  | _ => none

def word? : Json → Option UInt64
  | .number (.integer n) => if 0 ≤ n then Numeral.word? n.toNat else none
  | _ => none

def real? : Json → Option Binary64
  | .number (.integer n) => some (.ofFraction (n < 0) n.natAbs 1)
  | .number (.real x) => some x
  | _ => none

def facts? : Json → Option (OrderedMap String String)
  | .object fields =>
    (fields.mapM fun e => (text? e.2).map fun value => (e.1, value)).map .ofList
  | _ => none

/-- The values of named fields: from an object, where other fields do not matter and a field may
be missing, or from a list with one item for each name. -/
def fieldValues? (names : List String) : Json → Option (List (Option Json))
  | .object fields => some (names.map fun name => OrderedMap.lookup name fields)
  | .list items => if items.length = names.length then some (items.map some) else none
  | _ => none

def required? {α : Type} (read : Json → Option α) (field : Option Json) : Option α :=
  field.bind read

/-- A field that may be missing or null; the outer option tells whether it fits. -/
def optional? {α : Type} (read : Json → Option α) : Option Json → Option (Option α)
  | none | some .null => some none
  | some value => (read value).map some

end Json

end HostInventory
