import HostInventory.Failure

/-! Unsigned 64-bit integers as text: the `0x` form and the decimal form that attribute files
use, and the plain counts that fact records hold. -/
namespace HostInventory.Numeral

def digit? (base : Nat) (c : Char) : Option Nat :=
  let n := c.toNat
  let raw :=
    if 48 ≤ n ∧ n ≤ 57 then some (n - 48)
    else if 97 ≤ n ∧ n ≤ 102 then some (n - 87)
    else if 65 ≤ n ∧ n ≤ 70 then some (n - 55)
    else none
  raw.filter (· < base)

/-- The value of the digits, most significant first, after `acc`. -/
def accumulate (base : Nat) : Nat → List Char → Option Nat
  | acc, [] => some acc
  | acc, c :: cs => (digit? base c).bind fun d => accumulate base (acc * base + d) cs

/-- The value of a non-empty run of digits of any length. -/
def value? (base : Nat) : List Char → Option Nat
  | [] => none
  | cs => accumulate base 0 cs

def word? (n : Nat) : Option UInt64 := if n < UInt64.size then some (.ofNat n) else none

/-- The base that a text announces, and its digits. -/
def baseAndDigits : List Char → Nat × List Char
  | '0' :: 'x' :: digits => (16, digits)
  | '0' :: 'X' :: digits => (16, digits)
  | digits => (10, digits)

/-- An integer in decimal or after `0x` or `0X` in hexadecimal; no sign and no blanks. -/
def read (text : String) : Except Failure UInt64 :=
  let form := baseAndDigits text.toList
  match value? form.1 form.2 with
  | none => .error (.unparsable text .notInteger)
  | some n =>
    match word? n with
    | none => .error (.unparsable text .integerTooLarge)
    | some w => .ok w

/-- A decimal count, with one plus sign allowed before the digits. -/
def readCount? (text : String) : Option UInt64 :=
  let digits := match text.toList with
    | '+' :: cs => cs
    | cs => cs
  (value? 10 digits).bind word?

def decimal (n : UInt64) : String := toString n.toNat

def hex (n : UInt64) : String := "0x" ++ String.ofList (Nat.toDigits 16 n.toNat)

theorem word?_eq_some_iff {n : Nat} {w : UInt64} : word? n = some w ↔ n = w.toNat := by
  constructor
  · intro h
    rw [word?] at h
    split at h
    · rename_i hn
      cases h
      exact (UInt64.toNat_ofNat_of_lt' hn).symm
    · cases h
  · rintro rfl
    simp [word?, w.toNat_lt]

theorem word?_eq_none_iff {n : Nat} : word? n = none ↔ UInt64.size ≤ n := by
  simp [word?]

theorem accumulate_append (base acc : Nat) (xs ys : List Char) :
    accumulate base acc (xs ++ ys) =
      (accumulate base acc xs).bind fun n => accumulate base n ys := by
  induction xs generalizing acc with
  | nil => rfl
  | cons x xs ih => cases h : digit? base x <;> simp [accumulate, h, ih]

end HostInventory.Numeral
