import HostInventory.Binary64

/-! Sizes for readers: in the largest binary unit that the size reaches, with two places unless
the size is a whole number of units. -/
namespace HostInventory.ByteSize

def units : List String := ["B", "KiB", "MiB", "GiB", "TiB", "PiB", "EiB", "ZiB"]

/-- The first unit, of those from `unit` bytes up, of which `size` has less than 1024. -/
def unitFor (size unit : Nat) : List String → String × Nat
  | [] => ("", unit)
  | [name] => (name, unit)
  | name :: names => if size < 1024 * unit then (name, unit) else unitFor size (1024 * unit) names

/-- The size as a double-precision number holds it: to 53 binary digits. -/
def rounded (size : UInt64) : Nat :=
  match (Binary64.ofNat size.toNat).value with
  | .finite _ significand exponent =>
    let f := Binary64.fraction significand exponent
    f.1 / f.2
  | _ => size.toNat

/-- A fraction of a unit of at most `2 ^ -52` is not shown. -/
def text (size : UInt64) : String :=
  let n := rounded size
  let u := unitFor n 1 units
  let number := if (n % u.2) <<< 52 ≤ u.2 then toString (n / u.2) else Binary64.fixed 2 n u.2
  number ++ " " ++ u.1

end HostInventory.ByteSize
