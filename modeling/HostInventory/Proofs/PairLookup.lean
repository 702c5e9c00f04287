import HostInventory.Proofs.CatalogNames
import HostInventory.Proofs.IdentityFacts
import HostInventory.Run

/-! A pair of codes that is asked for on the command line. What is shown for it are the names that
go into a record of facts for the same two texts, and where nothing can be shown nothing is written
either. The codes are shown in hexadecimal, and asking for them again shows the same pair. -/
namespace HostInventory.Run

open Cpu

/-- The lines that show a pair of codes, the last one only for a part without a name. -/
def pairLines (i p : UInt64) (names : Catalog.Names) (unnamed : Bool) : List String :=
  ["Implementer: " ++ Numeral.hex i ++ " (" ++ names.vendor ++ ")",
    "Part:        " ++ Numeral.hex p ++ " (" ++ names.model ++ ")"] ++
  if unnamed then ["Note: part not in catalog"] else []

/-- The answer for two texts shows the names that `facts` have, and a part is unnamed if it is shown
with its own text. The answer for the two codes that are shown has the same codes and the same note,
and it is the same answer if the pair is listed. -/
structure Shows (implementer part : String) (i p : UInt64) (facts : Facts)
    (names : Catalog.Names) : Prop where
  vendor : facts.get? Key.vendor = some names.vendor
  modelName : facts.get? Key.modelName = some names.model
  answer : lookupText implementer part =
    .ok (Text.unlines (pairLines i p names (names.model = part)))
  again : ∃ names', lookupText (Numeral.hex i) (Numeral.hex p) =
    .ok (Text.unlines (pairLines i p names' (names.model = part)))
  same : (∃ name, Catalog.NamesPart i p name) →
    lookupText (Numeral.hex i) (Numeral.hex p) = lookupText implementer part

section Answers

variable {implementer part : String} {i p : UInt64}

theorem lookupText_of_read (readFirst : Numeral.read implementer = .ok i)
    (readSecond : Numeral.read part = .ok p) :
    lookupText implementer part = .ok (Text.unlines (pairLines i p
      (Catalog.namesOf implementer part i p) (Catalog.model? i p).isNone)) := by
  simp only [lookupText, readFirst, readSecond, Catalog.resolve?_of_read readFirst readSecond]
  rfl

theorem exists_lookupText_iff :
    (∃ text, lookupText implementer part = .ok text) ↔
      (∃ i, Numeral.read implementer = .ok i) ∧ ∃ p, Numeral.read part = .ok p := by
  cases readFirst : Numeral.read implementer with
  | error failure => simp [lookupText, readFirst]
  | ok i =>
    cases readSecond : Numeral.read part with
    | error failure => simp [lookupText, readFirst, readSecond]
    | ok p => simp [lookupText_of_read readFirst readSecond]

theorem read_eq_error_of_lookupText {failure : Failure}
    (failed : lookupText implementer part = .error failure) :
    Numeral.read implementer = .error failure ∨ Numeral.read part = .error failure := by
  cases readFirst : Numeral.read implementer with
  | error first =>
    simp only [lookupText, readFirst, Except.error.injEq] at failed
    exact .inl (congrArg Except.error failed)
  | ok i =>
    cases readSecond : Numeral.read part with
    | error second =>
      simp only [lookupText, readFirst, readSecond, Except.error.injEq] at failed
      exact .inr (congrArg Except.error failed)
    | ok p =>
      rw [lookupText_of_read readFirst readSecond] at failed
      cases failed

theorem isNone_model?_eq (readFirst : Numeral.read implementer = .ok i)
    (readSecond : Numeral.read part = .ok p) :
    (Catalog.model? i p).isNone = decide ((Catalog.namesOf implementer part i p).model = part) := by
  have model := (Catalog.resolves_namesOf readFirst readSecond).model
  have unlisted : (Catalog.model? i p).isNone ↔ ∀ name, ¬Catalog.NamesPart i p name := by
    simp only [← Catalog.model?_eq_some_iff]
    cases Catalog.model? i p <;> simp
  rw [Bool.eq_iff_iff, decide_eq_true_iff, unlisted]
  -- a listed name is never the text of the code, since that text is a number
  exact ⟨model.ofText, fun same => model.isNumber_iff.1 ⟨p, same.symm ▸ readSecond⟩⟩

theorem namesOf_eq_of_listed {name : String} (listed : Catalog.NamesPart i p name)
    (implementer' part' : String) :
    Catalog.namesOf implementer' part' i p = Catalog.namesOf implementer part i p := by
  have model := Catalog.model?_eq_some_iff.2 listed
  obtain ⟨own, mem, here, -⟩ := listed
  have vendor := Catalog.vendor?_eq_some_iff.2 ⟨own, mem, here, rfl⟩
  simp only [Catalog.namesOf_eq, vendor, model, Option.getD_some]

end Answers

section Facts

variable {s : Stanza} {implementer part : String} {i p : UInt64} {f : Facts}

theorem shows_describe (first : s.get? "CPU implementer" = some implementer)
    (second : s.get? "CPU part" = some part) (readFirst : Numeral.read implementer = .ok i)
    (readSecond : Numeral.read part = .ok p) :
    Shows implementer part i p (Layout.codes.describe s f)
      (Catalog.namesOf implementer part i p) := by
  have again := lookupText_of_read (Numeral.read_hex i) (Numeral.read_hex p)
  have answer := lookupText_of_read readFirst readSecond
  have note := isNone_model?_eq readFirst readSecond
  obtain ⟨vendor, -, modelName⟩ := (Layout.namesCodes_describe s f).named implementer part i p
    first second readFirst readSecond
  refine ⟨vendor, modelName, note ▸ answer, ⟨_, note ▸ again⟩, fun ⟨name, listed⟩ => ?_⟩
  rw [again, answer, namesOf_eq_of_listed listed]

/-- A pair is shown exactly if both texts are numbers. Then the names shown are those that go into
the facts of a processor with these two texts, and the note is there if the part is shown as it was
asked for. A pair that is not shown fails for one of its texts, and it leaves the three facts that
name a processor as they were. -/
theorem lookupText_agrees (first : s.get? "CPU implementer" = some implementer)
    (second : s.get? "CPU part" = some part) (f : Facts) :
    Layout.of s = .codes ∧
    ((∃ text, lookupText implementer part = .ok text) ↔
      (∃ i, Numeral.read implementer = .ok i) ∧ ∃ p, Numeral.read part = .ok p) ∧
    (∀ i p, Numeral.read implementer = .ok i → Numeral.read part = .ok p →
      ∃ names, Shows implementer part i p (Layout.codes.describe s f) names) ∧
    ∀ failure, lookupText implementer part = .error failure →
      (Numeral.read implementer = .error failure ∨ Numeral.read part = .error failure) ∧
      (∀ input, failure ≠ .unparsable input .notCodePair) ∧
      ∀ key ∈ [Key.vendor, Key.model, Key.modelName],
        (Layout.codes.describe s f).get? key = f.get? key := by
  have layout : Layout.of s = .codes := by simp [Layout.of, OrderedMap.contains, first]
  refine ⟨layout, exists_lookupText_iff, fun i p readFirst readSecond =>
    ⟨_, shows_describe first second readFirst readSecond⟩, fun failure failed => ?_⟩
  have cause := read_eq_error_of_lookupText failed
  have number : s.number? "CPU implementer" = none ∨ s.number? "CPU part" = none := by
    refine cause.imp (fun failed => ?_) fun failed => ?_
    · simp [Stanza.number?, first, failed, Except.toOption]
    · simp [Stanza.number?, second, failed, Except.toOption]
  obtain ⟨vendor, model, modelName⟩ := (Layout.namesCodes_describe s f).unnamed number
  refine ⟨cause, fun input pair => ?_, by simp [vendor, model, modelName]⟩
  subst pair
  rcases cause with failed | failed <;> rcases Numeral.read_eq_error failed with other | other <;>
    cases other

theorem lookupText_unlistedPart :
    let s : Stanza := OrderedMap.ofList [("CPU implementer", "65"), ("CPU part", "0XFFF")]
    (Layout.codes.describe s ∅).get? Key.vendor = some "ARM" ∧
    lookupText "65" "0XFFF" =
      .ok "Implementer: 0x41 (ARM)\nPart:        0xfff (0XFFF)\nNote: part not in catalog\n" ∧
    ∃ names, lookupText "0x41" "0xfff" = .ok (Text.unlines (pairLines 0x41 0xfff names true)) := by
  intro s
  have first : s.get? "CPU implementer" = some "65" := rfl
  have second : s.get? "CPU part" = some "0XFFF" := rfl
  obtain ⟨-, -, shown, -⟩ := lookupText_agrees first second ∅
  obtain ⟨⟨vendor, model⟩, shows⟩ := shown 0x41 0xfff rfl rfl
  obtain rfl : vendor = "ARM" := (Option.some.inj shows.vendor).symm
  obtain rfl : model = "0XFFF" := (Option.some.inj shows.modelName).symm
  exact ⟨shows.vendor, shows.answer, shows.again⟩

end Facts

end HostInventory.Run
