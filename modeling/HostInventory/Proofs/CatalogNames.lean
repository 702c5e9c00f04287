import HostInventory.Cpu.Catalog
import HostInventory.Proofs.NumeralForms
import Mathlib.Data.List.Nodup

/-! The names for a pair of codes. The catalog has at most one name for a code, and one for a part
only under the part's own implementer. None of these names is a number, so a name that was found can
be told from the text of a code, which stands in where there is none. -/
namespace HostInventory.Catalog

def NamesImplementer (code : UInt64) (name : String) : Prop :=
  ∃ i ∈ implementers, i.code = code ∧ i.name = name

/-- The catalog lists the part under the name, among those of the implementer with the first code. -/
def NamesPart (code part : UInt64) (name : String) : Prop :=
  ∃ i ∈ implementers, i.code = code ∧ ∃ p ∈ i.parts, p.code = part ∧ p.name = name

/-- The listed name, or the text if no name is listed, and the two can be told apart. -/
structure IsName (Listed : String → Prop) (text name : String) : Prop where
  ofListed : ∀ other, Listed other → name = other
  ofText : (∀ other, ¬Listed other) → name = text
  isNumber_iff : (∃ n, Numeral.read name = .ok n) ↔ ∀ other, ¬Listed other

/-- What the names for the codes `i` and `p` have to be, whichever texts the codes have. A name that
the part has under another implementer is of no account. -/
structure Resolves (implementerText partText : String) (i p : UInt64) (names : Names) : Prop where
  vendor : IsName (NamesImplementer i) implementerText names.vendor
  model : IsName (NamesPart i p) partText names.model
  model_listed_iff : (∃ code part, NamesPart code part names.model) ↔ ∃ name, NamesPart i p name

section Listing

variable {code part : UInt64} {i : Implementer} {name : String}

theorem find?_key_eq_some_iff {α κ : Type} [DecidableEq κ] {key : α → κ} {l : List α}
    (distinct : (l.map key).Nodup) {k : κ} {x : α} :
    l.find? (fun y => key y = k) = some x ↔ x ∈ l ∧ key x = k := by
  constructor
  · intro found
    have here := List.find?_some found
    exact ⟨List.mem_of_find?_eq_some found, by simpa using here⟩
  · intro ⟨mem, here⟩
    cases found : l.find? fun y => key y = k with
    | none => exact absurd here (by simpa using List.find?_eq_none.1 found x mem)
    | some y =>
      have same : key y = k := by simpa using List.find?_some found
      rw [List.inj_on_of_nodup_map distinct (List.mem_of_find?_eq_some found) mem
        (same.trans here.symm)]

theorem nodup_codes : (implementers.map Implementer.code).Nodup := by
  decide +kernel

theorem nodup_partCodes : ∀ i ∈ implementers, (i.parts.map Part.code).Nodup := by
  decide +kernel

def vendor? (code : UInt64) : Option String := (implementer? code).map Implementer.name

def model? (code part : UInt64) : Option String :=
  (implementer? code).bind fun i => i.partName? part

theorem implementer?_eq_some_iff : implementer? code = some i ↔ i ∈ implementers ∧ i.code = code :=
  find?_key_eq_some_iff nodup_codes

theorem partName?_eq_some_iff (mem : i ∈ implementers) :
    i.partName? part = some name ↔ ∃ p ∈ i.parts, p.code = part ∧ p.name = name := by
  simp only [Implementer.partName?, Option.map_eq_some_iff,
    find?_key_eq_some_iff (nodup_partCodes i mem), and_assoc]

theorem vendor?_eq_some_iff : vendor? code = some name ↔ NamesImplementer code name := by
  simp only [vendor?, Option.map_eq_some_iff, implementer?_eq_some_iff, NamesImplementer, and_assoc]

theorem model?_eq_some_iff : model? code part = some name ↔ NamesPart code part name := by
  rw [model?, Option.bind_eq_some_iff, NamesPart]
  apply exists_congr
  intro i
  rw [implementer?_eq_some_iff, and_assoc]
  exact and_congr_right fun mem => and_congr_right fun _ => partName?_eq_some_iff mem

theorem namesOf_eq (implementerText partText : String) (i p : UInt64) :
    namesOf implementerText partText i p =
      ⟨(vendor? i).getD implementerText, (model? i p).getD partText⟩ := by
  rw [namesOf, vendor?, model?]
  cases implementer? i <;> rfl

end Listing

section Numbers

variable {code part : UInt64} {name text : String} {n : UInt64}

theorem head?_isDigit_of_read (h : Numeral.read text = .ok n) :
    text.toList.head?.any Char.isDigit := by
  have spelled := Numeral.read_eq_ok_iff.1 h
  generalize text.toList = cs at spelled
  cases spelled with
  | decimal digits =>
    obtain ⟨c, rest, rfl⟩ := List.exists_cons_of_ne_nil digits.ne_nil
    exact digits.forall_mem (fun _ _ => Numeral.IsDigitFor.isDigit) c List.mem_cons_self
  | hexadecimal => rfl

theorem head?_not_isDigit : ∀ i ∈ implementers,
    i.name.toList.head?.any Char.isDigit = false ∧
      ∀ p ∈ i.parts, p.name.toList.head?.any Char.isDigit = false := by
  decide +kernel

theorem NamesImplementer.read_ne_ok (h : NamesImplementer code name) (n : UInt64) :
    Numeral.read name ≠ .ok n := by
  obtain ⟨i, mem, -, rfl⟩ := h
  intro number
  have digit := head?_isDigit_of_read number
  rw [(head?_not_isDigit i mem).1] at digit
  cases digit

theorem NamesPart.read_ne_ok (h : NamesPart code part name) (n : UInt64) :
    Numeral.read name ≠ .ok n := by
  obtain ⟨i, mem, -, p, own, -, rfl⟩ := h
  intro number
  have digit := head?_isDigit_of_read number
  rw [(head?_not_isDigit i mem).2 p own] at digit
  cases digit

end Numbers

section Pairs

variable {implementerText partText : String} {i p : UInt64} {names : Names}

theorem resolve?_of_read (readFirst : Numeral.read implementerText = .ok i)
    (readSecond : Numeral.read partText = .ok p) :
    resolve? implementerText partText = some (namesOf implementerText partText i p) := by
  simp only [resolve?, readFirst, readSecond]

theorem exists_resolve?_iff :
    (∃ names, resolve? implementerText partText = some names) ↔
      (∃ i, Numeral.read implementerText = .ok i) ∧ ∃ p, Numeral.read partText = .ok p := by
  cases readFirst : Numeral.read implementerText with
  | error failure => simp [resolve?, readFirst]
  | ok i => cases readSecond : Numeral.read partText <;> simp [resolve?, readFirst, readSecond]

theorem isName_getD {found : Option String} {Listed : String → Prop} {text : String} {n : UInt64}
    (listed : ∀ name, found = some name ↔ Listed name)
    (noNumber : ∀ name, Listed name → ∀ n, Numeral.read name ≠ .ok n)
    (number : Numeral.read text = .ok n) : IsName Listed text (found.getD text) := by
  cases found with
  | none =>
    have none : ∀ name, ¬Listed name := fun name own => nomatch (listed name).2 own
    exact ⟨fun name own => absurd own (none name), fun _ => rfl, fun _ => none, fun _ => ⟨n, number⟩⟩
  | some name =>
    have own : Listed name := (listed name).1 rfl
    exact ⟨fun other found => Option.some.inj ((listed other).2 found),
      fun none => absurd own (none name), fun ⟨n, read⟩ => absurd read (noNumber name own n),
      fun none => absurd own (none name)⟩

theorem resolves_namesOf (readFirst : Numeral.read implementerText = .ok i)
    (readSecond : Numeral.read partText = .ok p) :
    Resolves implementerText partText i p (namesOf implementerText partText i p) := by
  have vendor : IsName (NamesImplementer i) implementerText ((vendor? i).getD implementerText) :=
    isName_getD (fun _ => vendor?_eq_some_iff) (fun _ => NamesImplementer.read_ne_ok) readFirst
  have model : IsName (NamesPart i p) partText ((model? i p).getD partText) :=
    isName_getD (fun _ => model?_eq_some_iff) (fun _ => NamesPart.read_ne_ok) readSecond
  rw [namesOf_eq]
  refine ⟨vendor, model, fun ⟨code, part, listed⟩ => ?_, fun ⟨name, listed⟩ => ?_⟩
  · by_contra none
    -- what stands in for a missing name is a number, and no part anywhere is called by one
    obtain ⟨n, read⟩ := model.isNumber_iff.2 (not_exists.1 none)
    exact listed.read_ne_ok n read
  · exact ⟨i, p, (model.ofListed name listed).symm ▸ listed⟩

/-- Two texts have names exactly if both are numbers. A listed code has the catalog's name, which is
the same for every spelling of the code and no number, and any other code has its own text for a
name. -/
theorem resolve?_names_codes (implementerText partText : String) :
    ((∃ names, resolve? implementerText partText = some names) ↔
      (∃ i, Numeral.read implementerText = .ok i) ∧ ∃ p, Numeral.read partText = .ok p) ∧
    ∀ i p, Numeral.read implementerText = .ok i → Numeral.read partText = .ok p →
      ∃ names, resolve? implementerText partText = some names ∧
        Resolves implementerText partText i p names ∧
        ∀ implementerText' partText', Numeral.Spells implementerText'.toList i.toNat →
          Numeral.Spells partText'.toList p.toNat →
          ∃ names', resolve? implementerText' partText' = some names' ∧
            ((∃ name, NamesImplementer i name) → names'.vendor = names.vendor) ∧
            ((∃ name, NamesPart i p name) → names'.model = names.model) := by
  refine ⟨exists_resolve?_iff, fun i p readFirst readSecond => ?_⟩
  have resolves := resolves_namesOf readFirst readSecond
  refine ⟨_, resolve?_of_read readFirst readSecond, resolves, ?_⟩
  intro implementerText' partText' spelledFirst spelledSecond
  have readFirst' := Numeral.read_eq_ok_iff.2 spelledFirst
  have readSecond' := Numeral.read_eq_ok_iff.2 spelledSecond
  have resolves' := resolves_namesOf readFirst' readSecond'
  refine ⟨_, resolve?_of_read readFirst' readSecond', ?_, ?_⟩
  · intro ⟨name, listed⟩
    rw [resolves.vendor.ofListed name listed, resolves'.vendor.ofListed name listed]
  · intro ⟨name, listed⟩
    rw [resolves.model.ofListed name listed, resolves'.model.ofListed name listed]

/-- A part code that two implementers have, and one that is listed under another implementer only.
Decimal texts and padded ones give the same names. -/
theorem resolve?_sharedPart :
    NamesPart 0x41 0xd01 "Cortex-A32" ∧ NamesPart 0x41 0xd0c "Neoverse-N1" ∧
    Numeral.read "0x48" = .ok 0x48 ∧ Numeral.read "0xd01" = .ok 0xd01 ∧
    (∃ names, resolve? "0x48" "0xd01" = some names ∧ names.model = "Kunpeng-920" ∧
      ∃ names', resolve? "072" "0X0D01" = some names' ∧ names'.model = "Kunpeng-920") ∧
    ∃ names, resolve? "0x48" "3340" = some names ∧ names.vendor = "HiSilicon" ∧
      names.model = "3340" := by
  have vendor : NamesImplementer 0x48 "HiSilicon" := vendor?_eq_some_iff.1 rfl
  have shared : NamesPart 0x48 0xd01 "Kunpeng-920" := model?_eq_some_iff.1 rfl
  have unlisted : ∀ name, ¬NamesPart 0x48 0xd0c name := fun name listed =>
    nomatch (model?_eq_some_iff.2 listed : none = some name)
  refine ⟨model?_eq_some_iff.1 rfl, model?_eq_some_iff.1 rfl, rfl, rfl, ?_, ?_⟩
  · obtain ⟨names, found, resolves, same⟩ :=
      (resolve?_names_codes "0x48" "0xd01").2 0x48 0xd01 rfl rfl
    have model := resolves.model.ofListed _ shared
    obtain ⟨names', found', -, model'⟩ := same "072" "0X0D01"
      (Numeral.read_eq_ok_iff.1 rfl) (Numeral.read_eq_ok_iff.1 rfl)
    exact ⟨names, found, model, names', found', (model' ⟨_, shared⟩).trans model⟩
  · obtain ⟨names, found, resolves, -⟩ :=
      (resolve?_names_codes "0x48" "3340").2 0x48 0xd0c rfl rfl
    exact ⟨names, found, resolves.vendor.ofListed _ vendor, resolves.model.ofText unlisted⟩

end Pairs

end HostInventory.Catalog
