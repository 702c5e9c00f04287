import HostInventory.IdSet
import HostInventory.Numeral
import HostInventory.Text.Blank

/-! Id sets in list notation, such as `0-3,8,10-11`: read from any list of ids and ranges, and
written with one piece for each range. -/
namespace HostInventory.IdSet

/-- The distance between its ends from which a range is too wide. -/
def maxSpan : Nat := 1 <<< 20

/-- One piece: an id, or two ids around the first hyphen. -/
def readPiece (piece : List Char) : Except Failure IdRange :=
  match Text.cut? '-' piece with
  | none => (Numeral.read (String.ofList piece)).map IdRange.single
  | some (first, last) =>
    match Numeral.read (String.ofList first) with
    | .error failure => .error failure
    | .ok first =>
      match Numeral.read (String.ofList last) with
      | .error failure => .error failure
      | .ok last =>
        if h : first ≤ last then
          if maxSpan ≤ last.toNat - first.toNat then
            .error (.unparsable (String.ofList piece) .rangeTooWide)
          else .ok ⟨first, last, h⟩
        else .error (.unparsable (String.ofList piece) .reversedRange)

/-- The first piece that cannot be read fails them all. -/
def readPieces : List (List Char) → Except Failure (List IdRange)
  | [] => .ok []
  | piece :: pieces =>
    match readPiece piece with
    | .error failure => .error failure
    | .ok range => (readPieces pieces).map (range :: ·)

/-- A blank text is the empty set; otherwise every piece between commas has to be read. -/
def read (text : String) : Except Failure IdSet :=
  match Text.trim text.toList with
  | [] => .ok empty
  | cs => (readPieces (Text.splitAt ',' cs)).map ofRanges

def pieceText (first last : UInt64) : String :=
  if first = last then Numeral.decimal first
  else Numeral.decimal first ++ "-" ++ Numeral.decimal last

def rangeText (r : IdRange) : String := pieceText r.first r.last

def text (s : IdSet) : String := ",".intercalate (s.ranges.map rangeText)

/-- The pieces for ascending ids of which those from `first` to `last` are one run so far. -/
def runPieces (first last : UInt64) : List UInt64 → List String
  | [] => [pieceText first last]
  | id :: ids =>
    if id = last + 1 then runPieces first id ids
    else pieceText first last :: runPieces id id ids

/-- Ascending ids in list notation, from one pass over them. -/
def listText : List UInt64 → String
  | [] => ""
  | id :: ids => ",".intercalate (runPieces id id ids)

end HostInventory.IdSet
