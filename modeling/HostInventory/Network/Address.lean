/-! Internet addresses of both families, their texts, and the network that an address and a mask
name. -/
namespace HostInventory.Network

inductive Address
  | v4 (bits : BitVec 32)
  | v6 (bits : BitVec 128)
  deriving DecidableEq

def ones {w : Nat} (bits : BitVec w) : Nat := (List.range w).countP fun i => bits.getLsbD i

/-- `count` fields of `width` bits each, the most significant one first. -/
def fields {w : Nat} (width count : Nat) (bits : BitVec w) : List Nat :=
  (List.range count).map fun i => (bits.extractLsb' (width * (count - 1 - i)) width).toNat

namespace Address

def bytes (bits : BitVec 32) : List Nat := fields 8 4 bits

def groups (bits : BitVec 128) : List Nat := fields 16 8 bits

def textV4 (bits : BitVec 32) : String := ".".intercalate ((bytes bits).map toString)

/-- Where the longest run of zeros begins, counted from `start`, and its length; the first of
equally long ones. -/
def longestZeros (start : Nat) : List Nat → Nat × Nat
  | [] => (start, 0)
  | g :: rest =>
    let here := ((g :: rest).takeWhile (· == 0)).length
    let later := longestZeros (start + 1) rest
    if later.2 ≤ here then (start, here) else later

def hexGroups (groups : List Nat) : String :=
  ":".intercalate (groups.map fun g => String.ofList (Nat.toDigits 16 g))

/-- Groups in hexadecimal, with two colons for the longest run of at least two zeros. -/
def textGroups (groups : List Nat) : String :=
  let zeros := longestZeros 0 groups
  if 2 ≤ zeros.2 then
    hexGroups (groups.take zeros.1) ++ "::" ++ hexGroups (groups.drop (zeros.1 + zeros.2))
  else hexGroups groups

/-- An address whose groups are five zeros and `ffff` before the last two shows those two as an
address of the other family. -/
def textV6 (bits : BitVec 128) : String :=
  if (groups bits).take 6 = [0, 0, 0, 0, 0, 0xFFFF] then
    "::ffff:" ++ textV4 (bits.setWidth 32)
  else textGroups (groups bits)

def text : Address → String
  | v4 bits => textV4 bits
  | v6 bits => textV6 bits

/-- The address under the mask, and the number of ones in the mask. None if the families
differ. -/
def networkText? : Address → Address → Option String
  | v4 bits, v4 mask => some (textV4 (bits &&& mask) ++ "/" ++ toString (ones mask))
  | v6 bits, v6 mask => some (textV6 (bits &&& mask) ++ "/" ++ toString (ones mask))
  | _, _ => none

end Address

end HostInventory.Network
