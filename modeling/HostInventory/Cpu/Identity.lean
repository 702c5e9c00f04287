import HostInventory.Cpu.Catalog
import HostInventory.Cpu.Key
import HostInventory.Facts
import HostInventory.Stanza

/-! The identity of a host's processors, taken from one stanza. Stanzas come in two layouts:
numeric codes, which the catalog names, and descriptive texts, which are copied. -/
namespace HostInventory.Cpu

inductive Layout
  | codes
  | descriptive
  deriving DecidableEq

namespace Layout

/-- A stanza with an implementer code has the layout of codes. -/
def of (s : Stanza) : Layout := if s.contains "CPU implementer" then .codes else .descriptive

def stepping? (s : Stanza) : Option String :=
  match s.number? "CPU variant", s.number? "CPU revision" with
  | some variant, some revision =>
    some ("r" ++ Numeral.decimal variant ++ "p" ++ Numeral.decimal revision)
  | _, _ => none

def codeNames? (s : Stanza) : Option (String × Catalog.Names) :=
  match s.get? "CPU implementer", s.get? "CPU part" with
  | some implementer, some part =>
    (Catalog.resolve? implementer part).map fun names => (part, names)
  | _, _ => none

/-- Model, vendor and model name are written together or not at all. This layout knows no
family. -/
def describeCodes (s : Stanza) (f : Facts) : Facts :=
  let named := match codeNames? s with
    | none => f
    | some (part, names) =>
      ((f.insert Key.model part).insert Key.vendor names.vendor).insert Key.modelName names.model
  (named.insert Key.family "none").insert? Key.stepping (stepping? s)

def copied : List (String × String) := [
  ("vendor_id", Key.vendor),
  ("model name", Key.modelName),
  ("cpu family", Key.family),
  ("model", Key.model),
  ("stepping", Key.stepping),
  ("cpu MHz", Key.megahertz)]

def describeTexts (s : Stanza) (f : Facts) : Facts :=
  copied.foldl (fun f pair => f.insert? pair.2 (s.get? pair.1)) f

def describe : Layout → Stanza → Facts → Facts
  | .codes => describeCodes
  | .descriptive => describeTexts

end Layout

end HostInventory.Cpu
