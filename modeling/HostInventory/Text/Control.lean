/-! Control characters that a terminal acts on, put as visible escapes. Line feed, carriage
return, tab and the other low ones pass as they are. -/
namespace HostInventory.Text

/-- Bell, backspace, form feed, escape and delete. -/
def terminalControls : List Nat := [0x07, 0x08, 0x0C, 0x1B, 0x7F]

/-- A control as two digits after `\x`, or in braces after `\u` if it lies above 7F. -/
def disarmChar (c : Char) : List Char :=
  let n := c.toNat
  let digits := Nat.toDigits 16 n
  if terminalControls.contains n then
    '\\' :: 'x' :: (List.replicate (2 - digits.length) '0' ++ digits)
  else if 0x80 ≤ n ∧ n ≤ 0x9F then '\\' :: 'u' :: '\x7b' :: (digits ++ ['\x7d'])
  else [c]

def disarm (text : String) : String := String.ofList (text.toList.flatMap disarmChar)

end HostInventory.Text
