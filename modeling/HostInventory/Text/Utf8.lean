/-! Bytes read as UTF-8, one byte at a time. The state says what of a character has been seen.
A byte that cannot continue it ends the damaged piece and is then read afresh, so damage never
swallows a byte that begins a character. -/
namespace HostInventory.Utf8

/-- Between characters, or inside one: the bits so far, the number of bytes still due, and the
bounds of the next of them. -/
inductive State
  | ground
  | inside (bits : Nat) (due : Nat) (low high : UInt8)
  deriving DecidableEq

/-- A character, or `none` for one damaged piece. -/
abbrev Item := Option Char

/-- The first byte of a character. The bounds on the byte after it exclude overlong forms,
surrogates and values above 10FFFF. -/
def start (b : UInt8) : List Item × State :=
  if b < 0x80 then ([some (Char.ofNat b.toNat)], .ground)
  else if b < 0xC2 then ([none], .ground)
  else if b < 0xE0 then ([], .inside (b.toNat % 32) 1 0x80 0xBF)
  else if b < 0xF0 then
    ([], .inside (b.toNat % 16) 2 (if b = 0xE0 then 0xA0 else 0x80) (if b = 0xED then 0x9F else 0xBF))
  else if b < 0xF5 then
    ([], .inside (b.toNat % 8) 3 (if b = 0xF0 then 0x90 else 0x80) (if b = 0xF4 then 0x8F else 0xBF))
  else ([none], .ground)

def feed (s : State) (b : UInt8) : List Item × State :=
  match s with
  | .ground => start b
  | .inside bits due low high =>
    if low ≤ b ∧ b ≤ high then
      let bits := bits * 64 + b.toNat % 64
      if due ≤ 1 then ([some (Char.ofNat bits)], .ground)
      else ([], .inside bits (due - 1) 0x80 0xBF)
    else
      let fresh := start b
      (none :: fresh.1, fresh.2)

/-- A character that the end of the bytes cuts short is one damaged piece. -/
def finish : State → List Item
  | .ground => []
  | .inside .. => [none]

def items : State → List UInt8 → List Item
  | s, [] => finish s
  | s, b :: bytes =>
    let next := feed s b
    next.1 ++ items next.2 bytes

def decode? (bytes : List UInt8) : Option (List Char) :=
  (items .ground bytes).mapM id

/-- The text with U+FFFD for each damaged piece. -/
def decodeLossy (bytes : List UInt8) : List Char :=
  (items .ground bytes).map fun item => item.getD '\uFFFD'

def encode (text : String) : List UInt8 := text.toUTF8.data.toList

end HostInventory.Utf8
