import HostInventory.OrderedMap
import HostInventory.SystemRoot

/-! The attributes of one logical processor, and the text that lists processors one after
another with blank lines between them. -/
namespace HostInventory

abbrev Stanza := OrderedMap String String

namespace Stanza

def number? (s : Stanza) (key : String) : Option UInt64 :=
  (s.get? key).bind fun text => (Numeral.read text).toOption

def index? (s : Stanza) : Option UInt64 := s.number? "processor"

/-- What reading has made so far: finished stanzas, latest first, and the one still open. A
stanza is opened by its first attribute, so none is empty. -/
structure Draft where
  finished : List Stanza
  current : Option Stanza

namespace Draft

def start : Draft := ⟨[], none⟩

def close (d : Draft) : Draft :=
  match d.current with
  | none => d
  | some stanza => ⟨stanza :: d.finished, none⟩

/-- A blank line closes the open stanza; a line with a colon adds an attribute, in place of an
earlier one with its key; any other line is passed over. -/
def line (d : Draft) (cs : List Char) : Draft :=
  match Text.trim cs with
  | [] => d.close
  | trimmed =>
    match Text.cut? ':' trimmed with
    | none => d
    | some (key, value) =>
      let attributes := d.current.getD ∅
      ⟨d.finished, some (attributes.insert (String.ofList (Text.trim key))
        (String.ofList (Text.trim value)))⟩

end Draft

def ofLines (lines : List (List Char)) : List Stanza :=
  (lines.foldl Draft.line .start).close.finished.reverse

def ofChars (cs : List Char) : List Stanza := ofLines (Text.lines cs)

def ofText (text : String) : List Stanza := ofChars text.toList

def ofBytes (bytes : List UInt8) : List Stanza := ofChars (Utf8.decodeLossy bytes)

/-- The stanzas of a root's processor file, of which there has to be one. -/
def readAll (h : Host) (r : SystemRoot) : Except Failure (List Stanza) :=
  let path := r.procFile "cpuinfo"
  match h.readBytes path with
  | .error failure => .error failure
  | .ok bytes =>
    match ofBytes bytes with
    | [] => .error (.noProcessors path)
    | stanzas => .ok stanzas

end Stanza

end HostInventory
