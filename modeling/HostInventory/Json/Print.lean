import HostInventory.Json

/-! The text of a structured value, on one line or indented by two blanks for each level. -/
namespace HostInventory

def JsonNumber.print : JsonNumber → String
  | .integer n => toString n
  | .real x => x.shortestText

namespace Json

/-- A character as four hexadecimal digits after `\u`. -/
def codeEscape (n : Nat) : List Char :=
  let digits := Nat.toDigits 16 n
  '\\' :: 'u' :: (List.replicate (4 - digits.length) '0' ++ digits)

/-- Quote, backslash and control characters are escaped and nothing else. -/
def escape (c : Char) : List Char :=
  if c = '"' then ['\\', '"']
  else if c = '\\' then ['\\', '\\']
  else if c = '\x08' then ['\\', 'b']
  else if c = '\t' then ['\\', 't']
  else if c = '\n' then ['\\', 'n']
  else if c = '\x0C' then ['\\', 'f']
  else if c = '\r' then ['\\', 'r']
  else if c.toNat < 0x20 then codeEscape c.toNat
  else [c]

def quote (s : String) : String := String.ofList ('"' :: (s.toList.flatMap escape ++ ['"']))

mutual

def compact : Json → String
  | .null => "null"
  | .bool b => if b then "true" else "false"
  | .number n => n.print
  | .text s => quote s
  | .list items => "[" ++ ",".intercalate (compactItems items) ++ "]"
  | .object fields => "\x7b" ++ ",".intercalate (compactFields fields) ++ "\x7d"

def compactItems : List Json → List String
  | [] => []
  | item :: items => compact item :: compactItems items

def compactFields : List (String × Json) → List String
  | [] => []
  | (name, value) :: fields => (quote name ++ ":" ++ compact value) :: compactFields fields

end

def indentation (depth : Nat) : String := String.ofList (List.replicate (2 * depth) ' ')

/-- The parts on lines of their own between two brackets; no lines if there is no part. -/
def bracketed (opening closing : String) (depth : Nat) : List String → String
  | [] => opening ++ closing
  | parts =>
    opening ++ "\n" ++ ",\n".intercalate (parts.map (indentation (depth + 1) ++ ·)) ++ "\n" ++
      indentation depth ++ closing

mutual

def prettyAt (depth : Nat) : Json → String
  | .list items => bracketed "[" "]" depth (prettyItems (depth + 1) items)
  | .object fields => bracketed "\x7b" "\x7d" depth (prettyFields (depth + 1) fields)
  | .null => compact .null
  | .bool b => compact (.bool b)
  | .number n => compact (.number n)
  | .text s => compact (.text s)

def prettyItems (depth : Nat) : List Json → List String
  | [] => []
  | item :: items => prettyAt depth item :: prettyItems depth items

def prettyFields (depth : Nat) : List (String × Json) → List String
  | [] => []
  | (name, value) :: fields =>
    (quote name ++ ": " ++ prettyAt depth value) :: prettyFields depth fields

end

def pretty (value : Json) : String := prettyAt 0 value

end Json

end HostInventory
