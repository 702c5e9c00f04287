import HostInventory.Numeral

/-! Double-precision numbers as their 64 bits, with exact integer arithmetic in place of machine
floats: the nearest number to a fraction, decimal texts in both directions, and texts with a
fixed number of places. -/
namespace HostInventory

structure Binary64 where
  bits : UInt64
  deriving DecidableEq, Inhabited

namespace Binary64

/-- The value of the bits: `significand * 2 ^ exponent` if finite. -/
inductive Value
  | nan
  | infinite (negative : Bool)
  | finite (negative : Bool) (significand : Nat) (exponent : Int)

def value (x : Binary64) : Value :=
  let n := x.bits.toNat
  let negative := 1 <<< 63 ≤ n
  let field : Nat := n >>> 52 % 2048
  let fraction := n % 1 <<< 52
  if field = 2047 then if fraction = 0 then .infinite negative else .nan
  else if field = 0 then .finite negative fraction (-1074)
  else .finite negative (1 <<< 52 + fraction) ((field : Int) - 1075)

/-- The bits of a number without its sign, under that sign. -/
def ofMagnitude (negative : Bool) (magnitude : Nat) : Binary64 :=
  ⟨.ofNat (if negative then 1 <<< 63 + magnitude else magnitude)⟩

def infinity (negative : Bool) : Binary64 := ofMagnitude negative (2047 <<< 52)

def nan (negative : Bool) : Binary64 := ofMagnitude negative (2047 <<< 52 + 1 <<< 51)

/-- The integer nearest to `num / den`; of two, the even one. -/
def roundEven (num den : Nat) : Nat :=
  let q := num / den
  let r := num % den
  if 2 * r < den then q
  else if den < 2 * r then q + 1
  else if q % 2 = 0 then q
  else q + 1

/-- `num / den` scaled by `2 ^ shift`, as a fraction. -/
def scaled (num den : Nat) (shift : Int) : Nat × Nat :=
  if 0 ≤ shift then (num <<< shift.toNat, den) else (num, den <<< (-shift).toNat)

/-- The exponent at which `num / den` has 53 binary digits, but none below the smallest. -/
def exponentFor (num den : Nat) : Int :=
  let guess : Int := (num.log2 : Int) - den.log2 - 53
  let fits (e : Int) : Bool :=
    let f := scaled num den (-e)
    decide (f.1 < f.2 <<< 53)
  max (-1074) (if fits guess then guess else if fits (guess + 1) then guess + 1 else guess + 2)

/-- The number nearest to `num / den`; of two, the one with an even significand. A significand
that rounds up to `2 ^ 53` carries into the exponent field. -/
def ofFraction (negative : Bool) (num den : Nat) : Binary64 :=
  if num = 0 then ofMagnitude negative 0
  else
    let e := exponentFor num den
    let f := scaled num den (-e)
    let magnitude := (e + 1074).toNat <<< 52 + roundEven f.1 f.2
    if 2047 <<< 52 ≤ magnitude then infinity negative else ofMagnitude negative magnitude

def ofNat (n : Nat) : Binary64 := ofFraction false n 1

/-- The number nearest to `digits * 10 ^ exponent`, where `count` digits were written. Exponents
out of reach of every finite number are settled without computing the power. -/
def ofDecimal (negative : Bool) (digits count : Nat) (exponent : Int) : Binary64 :=
  if digits = 0 then ofMagnitude negative 0
  else if 400 < exponent then infinity negative
  else if exponent + count < -400 then ofMagnitude negative 0
  else if 0 ≤ exponent then ofFraction negative (digits * Nat.pow 10 exponent.toNat) 1
  else ofFraction negative digits (Nat.pow 10 (-exponent).toNat)

def isDigit (c : Char) : Bool := '0' ≤ c && c ≤ '9'

/-- An exponent after its letter: a sign or none, then digits to the end. -/
def exponent? (cs : List Char) : Option Int :=
  match cs with
  | '-' :: digits => (Numeral.value? 10 digits).map fun n => -(n : Int)
  | '+' :: digits => (Numeral.value? 10 digits).map fun n => (n : Int)
  | digits => (Numeral.value? 10 digits).map fun n => (n : Int)

/-- A decimal without sign: digits with at most one point among them and at least one digit,
then an exponent or nothing. -/
def decimal? (negative : Bool) (cs : List Char) : Option Binary64 :=
  let whole := cs.takeWhile isDigit
  let rest := cs.dropWhile isDigit
  let (places, rest) := match rest with
    | '.' :: rest => (rest.takeWhile isDigit, rest.dropWhile isDigit)
    | rest => ([], rest)
  (Numeral.value? 10 (whole ++ places)).bind fun digits =>
    let result (e : Int) :=
      ofDecimal negative digits (whole.length + places.length) (e - places.length)
    match rest with
    | [] => some (result 0)
    | c :: rest => if c = 'e' ∨ c = 'E' then (exponent? rest).map result else none

def unsigned? (negative : Bool) (cs : List Char) : Option Binary64 :=
  let word := String.ofList (cs.map Char.toLower)
  if word = "inf" ∨ word = "infinity" then some (infinity negative)
  else if word = "nan" then some (nan negative)
  else decimal? negative cs

/-- A number as text: a sign or none, then `inf`, `infinity` or `nan` in any letter case, or a
decimal. -/
def read? (text : String) : Option Binary64 :=
  match text.toList with
  | '-' :: cs => unsigned? true cs
  | '+' :: cs => unsigned? false cs
  | cs => unsigned? false cs

def fraction (significand : Nat) (exponent : Int) : Nat × Nat := scaled significand 1 exponent

/-- `num / den` in decimal with `places` digits after the point, ties going to the even digit. -/
def fixed (places num den : Nat) : String :=
  let n := roundEven (num * Nat.pow 10 places) den
  if places = 0 then toString n
  else
    let tail := Nat.toDigits 10 (n % Nat.pow 10 places)
    toString (n / Nat.pow 10 places) ++ "." ++
      String.ofList (List.replicate (places - tail.length) '0' ++ tail)

/-- The nearest integer as text. The sign stays on a number that rounds to zero; what is not a
number has none. -/
def wholeText (x : Binary64) : String :=
  match x.value with
  | .nan => "NaN"
  | .infinite negative => if negative then "-inf" else "inf"
  | .finite negative significand exponent =>
    let f := fraction significand exponent
    (if negative then "-" else "") ++ fixed 0 f.1 f.2

/-- Whether `digits * 10 ^ e` rounds to the bits of a positive number. -/
def readsBack (magnitude digits : Nat) (e : Int) : Bool :=
  (ofDecimal false digits 1 e).bits.toNat == magnitude

/-- Compares how far two decimals on one grid lie from `num / den`. -/
def closer (num den a b : Nat) (e : Int) : Bool :=
  let grid (d : Nat) : Nat × Nat :=
    if 0 ≤ e then (d * Nat.pow 10 e.toNat, 1) else (d, Nat.pow 10 (-e).toNat)
  let away (d : Nat) : Nat :=
    let g := grid d
    let p := g.1 * den
    let q := num * g.2
    if p ≤ q then q - p else p - q
  let da := away a
  let db := away b
  da < db || (da == db && a % 2 == 0)

/-- The two neighbours of `num / den` on the grid of multiples of `10 ^ e`: the nearer one that
reads back as `magnitude`, if any does. -/
def onGrid? (magnitude num den : Nat) (e : Int) : Option Nat :=
  let low :=
    if 0 ≤ e then num / (den * Nat.pow 10 e.toNat) else num * Nat.pow 10 (-e).toNat / den
  let down := 0 < low && readsBack magnitude low e
  let up := readsBack magnitude (low + 1) e
  match down, up with
  | true, true => some (if closer num den low (low + 1) e then low else low + 1)
  | true, false => some low
  | false, true => some (low + 1)
  | false, false => none

/-- The first grid, from coarse to fine, on which a neighbour reads back. -/
def searchGrids (magnitude num den : Nat) : Nat → Int → Nat × Int
  | 0, e => (0, e)
  | grids + 1, e =>
    match onGrid? magnitude num den e with
    | some digits => (digits, e)
    | none => searchGrids magnitude num den grids (e - 1)

/-- The exponent of the first decimal digit of `num / den`. -/
def leadingPlace (num den : Nat) : Int :=
  let guess : Int := ((num.log2 : Int) - den.log2) * 30103 / 100000
  let reaches (e : Int) : Bool :=
    if 0 ≤ e then decide (den * Nat.pow 10 e.toNat ≤ num)
    else decide (den ≤ num * Nat.pow 10 (-e).toNat)
  if reaches (guess + 1) then guess + 1 else if reaches guess then guess else guess - 1

/-- The fewest digits that read back as a positive finite number, with the exponent of the last
one. -/
def shortest (magnitude significand : Nat) (exponent : Int) : Nat × Int :=
  let f := fraction significand exponent
  searchGrids magnitude f.1 f.2 18 (leadingPlace f.1 f.2 + 1)

/-- Digits with a point: positional from `10 ^ -5` up to below `10 ^ 16` and with at least one
digit on both sides of the point, elsewhere in scientific form with a signed exponent. -/
def pointed (digits : List Char) (e : Int) : String :=
  let point := digits.length + e
  let zeros (n : Int) := List.replicate n.toNat '0'
  if 0 ≤ e ∧ point ≤ 16 then String.ofList (digits ++ zeros e ++ ['.', '0'])
  else if 0 < point ∧ point ≤ 16 then
    String.ofList (digits.take point.toNat ++ '.' :: digits.drop point.toNat)
  else if -5 < point ∧ point ≤ 0 then String.ofList ('0' :: '.' :: zeros (-point) ++ digits)
  else
    let mantissa := match digits with
      | [] => []
      | [d] => [d]
      | d :: rest => d :: '.' :: rest
    String.ofList mantissa ++ (if 0 < point then "e+" else "e") ++ toString (point - 1)

/-- The text of a number in a document: the fewest digits that read back. -/
def shortestText (x : Binary64) : String :=
  match x.value with
  | .nan | .infinite _ => "null"
  | .finite negative significand exponent =>
    let sign := if negative then "-" else ""
    if significand = 0 then sign ++ "0.0"
    else
      let r := shortest (x.bits.toNat % 1 <<< 63) significand exponent
      sign ++ pointed (Nat.toDigits 10 r.1) r.2

end Binary64

end HostInventory
