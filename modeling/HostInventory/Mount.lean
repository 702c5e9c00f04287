import HostInventory.Json

/-! Mounted filesystems. -/
namespace HostInventory

structure Mount where
  name : String
  kbSize : String
  mountedOn : String
  deriving DecidableEq

namespace Mount

/-- A mount of a size in bytes, which is kept as text in whole units of 1024 bytes. -/
def ofBytes (name : String) (bytes : UInt64) (mountedOn : String) : Mount :=
  ⟨name, Numeral.decimal (bytes / 1024), mountedOn⟩

def fieldNames : List String := ["name", "kb_size", "mounted_on"]

def toJson (m : Mount) : Json :=
  .ofFields [("name", .text m.name), ("kb_size", .text m.kbSize), ("mounted_on", .text m.mountedOn)]

def ofJson? (value : Json) : Option Mount :=
  match value.fieldValues? fieldNames with
  | some [name, kbSize, mountedOn] => do
    let name ← Json.required? Json.text? name
    let kbSize ← Json.required? Json.text? kbSize
    let mountedOn ← Json.required? Json.text? mountedOn
    some ⟨name, kbSize, mountedOn⟩
  | _ => none

end Mount

end HostInventory
