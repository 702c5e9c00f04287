import HostInventory.Numeral

/-! Sizes in bytes: read as attribute files write them, an integer with an optional binary suffix,
and converted from units of 1024 bytes. -/
namespace HostInventory.ByteSize

def scale? : Char → Option Nat
  | 'K' => some 1024
  | 'M' => some (1024 * 1024)
  | 'G' => some (1024 * 1024 * 1024)
  | _ => none

/-- The number part of a size and what its suffix multiplies it by. -/
def parts (text : String) (last : Char) : String × Nat :=
  match scale? last with
  | some scale => (String.ofList text.toList.dropLast, scale)
  | none => (text, 1)

def read (text : String) : Except Failure UInt64 :=
  match text.toList.getLast? with
  | none => .error (.unparsable text .emptySize)
  | some last =>
    let form := parts text last
    match Numeral.read form.1 with
    | .error failure => .error failure
    | .ok n =>
      match Numeral.word? (n.toNat * form.2) with
      | none => .error (.unparsable text .sizeTooLarge)
      | some size => .ok size

/-- A number of units of 1024 bytes in bytes, or the largest word if that does not fit. -/
def ofKib (kib : UInt64) : UInt64 := .ofNat (min (kib.toNat * 1024) (UInt64.size - 1))

end HostInventory.ByteSize
