import HostInventory.Memory
import HostInventory.Proofs.DecimalText
import HostInventory.Proofs.EncodedText
import Mathlib.Algebra.Ring.Nat

/-! Amounts of memory, from the text of a memory file to bytes. Of the lines with a known name the
last one is taken, blanks do not matter wherever they stand, and a decimal amount of units of 1024
bytes, with the unit or without it, is scaled up to the largest word. -/
namespace HostInventory.Memory

/-- The line has this name before its first colon, blanks around it aside, and `amount` after it. -/
def States (name : String) (line amount : List Char) : Prop :=
  ∃ before, line = before ++ ':' :: amount ∧ ':' ∉ before ∧ Text.trim before = name.toList

def StatesLast (name text : String) (amount : List Char) : Prop :=
  ∃ earlier line later, Text.lines text.toList = earlier ++ line :: later ∧
    States name line amount ∧ ∀ other ∈ later, ∀ amount', ¬States name other amount'

def units : List (List Char) := [[], ['k', 'b'], ['k', 'B'], ['K', 'b'], ['K', 'B']]

/-- The amount is `n` in decimal with a unit after it, blanks aside. -/
def IsKib (n : Nat) (amount : List Char) : Prop :=
  ∃ digits unit, Text.squeeze amount = digits ++ unit ∧ digits ≠ [] ∧ (∀ c ∈ digits, c.isDigit) ∧
    Nat.ofDigitChars 10 digits 0 = n ∧ unit ∈ units

variable {name fact : String}

section Lines

def added? (line : List Char) : Option (String × String) :=
  (Text.cut? ':' line).bind fun parts =>
    (factFor? parts.1).map fun fact => (fact, String.ofList (Text.squeeze parts.2))

theorem addLine_eq (f : Facts) (line : List Char) :
    addLine f line = (added? line).elim f fun e => f.insert e.1 e.2 := by
  rw [addLine, added?]
  cases Text.cut? ':' line with
  | none => rfl
  | some parts => cases known : factFor? parts.1 <;> simp [known]

theorem factsOfText_eq (text : String) :
    factsOfText text = OrderedMap.ofList ((Text.lines text.toList).filterMap added?) := by
  rw [factsOfText, OrderedMap.ofList, List.foldl_filterMap]
  refine List.foldl_ext _ _ _ fun f line _ => ?_
  rw [addLine_eq]
  cases added? line <;> rfl

theorem factFor?_eq_some_iff (known : (name, fact) ∈ fields) {key : List Char} :
    factFor? key = some fact ↔ Text.trim key = name.toList := by
  rw [factFor?, ← String.toList_ofList (l := Text.trim key), String.toList_inj]
  constructor
  · intro found
    obtain ⟨before, after, whole, -⟩ := List.lookup_eq_some_iff.1 found
    have mem : (String.ofList (Text.trim key), fact) ∈ fields := by simp [whole]
    simp only [fields, List.mem_cons, List.not_mem_nil, or_false, Prod.mk.injEq] at known mem
    grind
  · rintro rfl
    revert known
    simp only [fields, List.mem_cons, List.not_mem_nil, or_false, Prod.mk.injEq]
    rintro (⟨named, rfl⟩ | ⟨named, rfl⟩) <;> rw [named] <;> rfl

theorem states_iff {line amount : List Char} :
    States name line amount ↔
      ∃ before, Text.cut? ':' line = some (before, amount) ∧ Text.trim before = name.toList := by
  constructor
  · rintro ⟨before, rfl, first, named⟩
    exact ⟨before, Text.cut?_append_cons first amount, named⟩
  · rintro ⟨before, cut, named⟩
    obtain ⟨whole, first⟩ := Text.eq_of_cut? cut
    exact ⟨before, whole, first, named⟩

theorem added?_eq_some_iff (known : (name, fact) ∈ fields) {line : List Char} {value : String} :
    added? line = some (fact, value) ↔
      ∃ amount, States name line amount ∧ String.ofList (Text.squeeze amount) = value := by
  simp only [states_iff]
  constructor
  · intro adds
    obtain ⟨⟨before, amount⟩, cut, fed⟩ := Option.bind_eq_some_iff.1 adds
    obtain ⟨fact', named, pair⟩ := Option.map_eq_some_iff.1 fed
    obtain ⟨rfl, rfl⟩ := Prod.mk.inj pair
    exact ⟨amount, ⟨before, cut, (factFor?_eq_some_iff known).1 named⟩, rfl⟩
  · rintro ⟨amount, ⟨before, cut, named⟩, rfl⟩
    rw [added?, cut, Option.bind_some, (factFor?_eq_some_iff known).2 named, Option.map_some]

theorem exists_mem_fields_of_contains {text : String} (found : (factsOfText text).contains fact) :
    ∃ name, (name, fact) ∈ fields := by
  rw [factsOfText_eq, OrderedMap.contains_ofList_filterMap_iff] at found
  obtain ⟨line, -, value, adds⟩ := found
  obtain ⟨⟨before, amount⟩, cut, fed⟩ := Option.bind_eq_some_iff.1 adds
  obtain ⟨fact', named, pair⟩ := Option.map_eq_some_iff.1 fed
  obtain ⟨rfl, rfl⟩ := Prod.mk.inj pair
  obtain ⟨earlier, later, whole, -⟩ := List.lookup_eq_some_iff.1 named
  exact ⟨String.ofList (Text.trim before), by simp [whole]⟩

theorem contains_iff (known : (name, fact) ∈ fields) (text : String) :
    (factsOfText text).contains fact ↔
      ∃ line ∈ Text.lines text.toList, ∃ amount, States name line amount := by
  rw [factsOfText_eq, OrderedMap.contains_ofList_filterMap_iff]
  simp only [added?_eq_some_iff known]
  constructor
  · rintro ⟨line, mem, _, amount, states, -⟩
    exact ⟨line, mem, amount, states⟩
  · rintro ⟨line, mem, amount, states⟩
    exact ⟨line, mem, _, amount, states, rfl⟩

theorem get?_eq_some_iff (known : (name, fact) ∈ fields) {text value : String} :
    (factsOfText text).get? fact = some value ↔
      ∃ amount, StatesLast name text amount ∧ String.ofList (Text.squeeze amount) = value := by
  rw [factsOfText_eq, OrderedMap.get?_ofList_filterMap_eq_some_iff]
  simp only [Ne, added?_eq_some_iff known]
  constructor
  · rintro ⟨earlier, line, later, lines, ⟨amount, states, value⟩, others⟩
    exact ⟨amount, ⟨earlier, line, later, lines, states,
      fun other mem amount' again => others other mem _ ⟨amount', again, rfl⟩⟩, value⟩
  · rintro ⟨amount, ⟨earlier, line, later, lines, states, others⟩, value⟩
    exact ⟨earlier, line, later, lines, ⟨amount, states, value⟩,
      fun other mem _ ⟨amount', again, _⟩ => others other mem amount' again⟩

end Lines

section Blanks

theorem added?_cons_blank {c : Char} (blank : Text.isBlank c) (line : List Char) :
    added? (c :: line) = added? line := by
  have other : c ≠ ':' := by
    rintro rfl
    exact absurd blank (by decide)
  have key (before : List Char) : factFor? (c :: before) = factFor? before := by
    rw [factFor?, factFor?, ← List.singleton_append, Text.trim_blanks_append (by simpa using blank)]
  rw [added?, added?, Text.cut?, if_neg other]
  cases Text.cut? ':' line with
  | none => rfl
  | some parts => simp only [Option.map_some, Option.bind_some, key]

theorem added?_append_blank {c : Char} (blank : Text.isBlank c) (line : List Char) :
    added? (line ++ [c]) = added? line := by
  by_cases colon : ':' ∈ line
  · obtain ⟨before, after, rfl, first⟩ := List.eq_append_cons_of_mem colon
    have same : Text.squeeze (after ++ [c]) = Text.squeeze after := by simp [Text.squeeze, blank]
    rw [List.append_assoc, List.cons_append, added?, added?, Text.cut?_append_cons first,
      Text.cut?_append_cons first, Option.bind_some, Option.bind_some, same]
  · have other : ':' ∉ line ++ [c] := by
      have : ':' ≠ c := by
        rintro rfl
        exact absurd blank (by decide)
      simp [colon, this]
    rw [added?, added?, Text.cut?_of_not_mem colon, Text.cut?_of_not_mem other]

theorem filterMap_added?_cons_blank {c : Char} (blank : Text.isBlank c) (cs : List Char) :
    (Text.lines (c :: cs)).filterMap added? = (Text.lines cs).filterMap added? := by
  obtain ⟨line, lines, found⟩ := List.exists_cons_of_ne_nil (Text.splitAt_ne_nil '\n' cs)
  rw [Text.lines, Text.lines, Text.splitAt, found]
  split
  · rfl
  · simp only [List.filterMap_cons, added?_cons_blank blank]

theorem filterMap_added?_append_blank {c : Char} (blank : Text.isBlank c) (cs : List Char) :
    (Text.lines (cs ++ [c])).filterMap added? = (Text.lines cs).filterMap added? := by
  by_cases newline : c = '\n'
  · rw [newline, Text.lines, Text.splitAt_append_cons, List.filterMap_append, ← Text.lines]
    exact List.append_nil _
  · obtain ⟨front, last, lines, grown⟩ := Text.exists_splitAt_append '\n' cs
    rw [Text.lines, Text.lines, grown [c] (by simpa using Ne.symm newline), lines,
      List.filterMap_append, List.filterMap_append]
    simp only [List.filterMap_cons, added?_append_blank blank]

theorem filterMap_added?_trimLeft (cs : List Char) :
    (Text.lines (Text.trimLeft cs)).filterMap added? = (Text.lines cs).filterMap added? := by
  induction cs with
  | nil => rfl
  | cons c cs ih =>
    by_cases blank : Text.isBlank c
    · rw [filterMap_added?_cons_blank blank, ← ih, Text.trimLeft, List.dropWhile_cons_of_pos blank,
        Text.trimLeft]
    · rw [Text.trimLeft, List.dropWhile_cons_of_neg blank]

theorem filterMap_added?_trimRight (cs : List Char) :
    (Text.lines (Text.trimRight cs)).filterMap added? = (Text.lines cs).filterMap added? := by
  have whole (cs : List Char) : Text.trimRight cs = cs.rdropWhile Text.isBlank := rfl
  induction cs using List.reverseRecOn with
  | nil => rfl
  | append_singleton cs c ih =>
    by_cases blank : Text.isBlank c
    · rw [filterMap_added?_append_blank blank, ← ih, whole, whole, List.rdropWhile_concat,
        if_pos blank]
    · rw [whole, List.rdropWhile_concat, if_neg blank]

theorem factsOfText_trim (text : String) :
    factsOfText (String.ofList (Text.trim text.toList)) = factsOfText text := by
  rw [factsOfText_eq, factsOfText_eq, String.toList_ofList, Text.trim, filterMap_added?_trimRight,
    filterMap_added?_trimLeft]

end Blanks

section Amounts

theorem toLower_of_isDigit {c : Char} (digit : c.isDigit) : c.toLower = c := by
  have bounds := Numeral.toNat_of_isDigit digit
  refine dif_neg ?_
  rintro ⟨upper, -⟩
  have : 65 ≤ c.toNat := upper
  omega

theorem dropUnits_of_isDigit {cs : List Char} (decimal : ∀ c ∈ cs, c.isDigit) :
    dropUnits cs = cs := by
  unfold dropUnits
  split
  · exact absurd (decimal 'b' List.mem_cons_self) (by decide)
  · rfl

theorem number_append_unit {digits unit : List Char} (decimal : ∀ c ∈ digits, c.isDigit)
    (known : unit ∈ units) : number (String.ofList (digits ++ unit)) = String.ofList digits := by
  have lower : digits.map Char.toLower = digits.map id :=
    List.map_congr_left fun c mem => toLower_of_isDigit (decimal c mem)
  have kept : dropUnits digits.reverse = digits.reverse :=
    dropUnits_of_isDigit fun c mem => decimal c (List.mem_reverse.1 mem)
  have dropped : dropUnits ((digits ++ unit).map Char.toLower).reverse = digits.reverse := by
    rw [List.map_append, lower, List.map_id, List.reverse_append]
    simp only [units, List.mem_cons, List.not_mem_nil, or_false] at known
    rcases known with rfl | rfl | rfl | rfl | rfl <;> exact kept
  rw [number, String.toList_ofList, dropped, List.reverse_reverse]

theorem toNat_bytes_of_isKib {n : Nat} {amount : List Char} (kib : IsKib n amount)
    (fits : n < 2 ^ 64) :
    (bytes (some (String.ofList (Text.squeeze amount)))).toNat = min (1024 * n) (2 ^ 64 - 1) := by
  obtain ⟨digits, unit, squeezed, filled, decimal, rfl, known⟩ := kib
  obtain ⟨word, value⟩ : ∃ word, Numeral.word? (Nat.ofDigitChars 10 digits 0) = some word :=
    ⟨_, if_pos fits⟩
  have read : Numeral.readCount? (number (String.ofList (Text.squeeze amount))) = some word := by
    rw [squeezed, number_append_unit decimal known, Numeral.readCount?_of_isDigit decimal filled,
      value]
  have scaled : min (word.toNat * 1024) (UInt64.size - 1) < UInt64.size :=
    Nat.lt_of_le_of_lt (Nat.min_le_right ..) (by decide)
  simp only [bytes, read, ByteSize.ofKib, UInt64.toNat_ofNat_of_lt' scaled]
  rw [Numeral.word?_eq_some_iff.1 value, Nat.mul_comm]
  exact congrArg (min (1024 * word.toNat)) (by decide)

end Amounts

/-- What becomes of the lines of one name: a fact that is there if there is such a line, with the
amount of the last one, and a number of bytes. -/
structure Takes (text name fact : String) (f : Facts) (bytes : UInt64) : Prop where
  present : f.contains fact ↔ ∃ line ∈ Text.lines text.toList, ∃ amount, States name line amount
  value : ∀ value, f.get? fact = some value ↔
    ∃ amount, StatesLast name text amount ∧ String.ofList (Text.squeeze amount) = value
  bytes_of_last : ∀ amount n, StatesLast name text amount → IsKib n amount → n < 2 ^ 64 →
    bytes.toNat = min (1024 * n) (2 ^ 64 - 1)
  bytes_of_absent : (∀ line ∈ Text.lines text.toList, ∀ amount, ¬States name line amount) →
    bytes = 0

theorem takes_factsOfText (known : (name, fact) ∈ fields) (text : String) :
    Takes text name fact (factsOfText text) (bytes ((factsOfText text).get? fact)) where
  present := contains_iff known text
  value _ := get?_eq_some_iff known
  bytes_of_last amount n last kib fits := by
    rw [(get?_eq_some_iff known).2 ⟨amount, last, rfl⟩]
    exact toNat_bytes_of_isKib kib fits
  bytes_of_absent absent := by
    have none : (factsOfText text).get? fact = none := by
      rw [← Option.not_isSome_iff_eq_none]
      intro found
      obtain ⟨line, mem, amount, states⟩ := (contains_iff known text).1 found
      exact absent line mem amount states
    rw [none]
    rfl

/-- A text has a fact for each known name that one of its lines has, with the amount of the last
such line, and no other fact. Decimal amounts come to as many bytes whatever the other lines are. A
file is read with the same result, although the blanks around its text are removed first. -/
theorem factsOfText_amounts (text : String) :
    Takes text "MemTotal" "total" (factsOfText text)
      (MemoryTotals.ofFacts (factsOfText text)).total ∧
    Takes text "SwapTotal" "swap_total" (factsOfText text)
      (MemoryTotals.ofFacts (factsOfText text)).swapTotal ∧
    (∀ key, (factsOfText text).contains key → key = "total" ∨ key = "swap_total") ∧
    factsOfText (String.ofList (Text.trim text.toList)) = factsOfText text ∧
    ∀ (h : Host) (r : SystemRoot), h.read (r.procFile "meminfo") = .ok (Utf8.encode text) →
      collect h r = .ok (factsOfText text) := by
  refine ⟨takes_factsOfText (by decide) text, takes_factsOfText (by decide) text, ?_,
    factsOfText_trim text, ?_⟩
  · intro key found
    obtain ⟨name, known⟩ := exists_mem_fields_of_contains found
    simp only [fields, List.mem_cons, List.not_mem_nil, or_false, Prod.mk.injEq] at known
    exact known.imp And.right And.right
  · intro h r read
    have trimmed := Host.readText_eq_ok_iff.2 ⟨text, read, rfl⟩
    rw [collect, trimmed, Except.map, factsOfText_trim]

/-- A total that is stated twice, with blanks in its amount and around its name. -/
def spacedText : String :=
  "MemTotal: 7 kB\nSwapTotal :\t00 12\tKb \r\n\u00A0MemTotal :2 048 kB\nAll MemTotal: 9 kB\n"

theorem amounts_spacedText :
    StatesLast "MemTotal" spacedText "2 048 kB".toList ∧ IsKib 2048 "2 048 kB".toList ∧
    (MemoryTotals.ofFacts (factsOfText spacedText)).total = 2097152 := by
  have last : StatesLast "MemTotal" spacedText "2 048 kB".toList := by
    refine ⟨["MemTotal: 7 kB".toList, "SwapTotal :\t00 12\tKb \r".toList],
      "\u00A0MemTotal :2 048 kB".toList, ["All MemTotal: 9 kB".toList, []], by decide +kernel,
      states_iff.2 ⟨_, rfl, by decide +kernel⟩, ?_⟩
    intro other mem amount' states
    obtain ⟨before, cut, named⟩ := states_iff.1 states
    simp only [List.mem_cons, List.not_mem_nil, or_false] at mem
    rcases mem with rfl | rfl
    · have parts : Text.cut? ':' "All MemTotal: 9 kB".toList =
          some ("All MemTotal".toList, " 9 kB".toList) := by decide +kernel
      cases parts.symm.trans cut
      exact absurd named (by decide +kernel)
    · cases cut
  have kib : IsKib 2048 "2 048 kB".toList :=
    ⟨"2048".toList, "kB".toList, by decide +kernel, by decide, List.all_eq_true.1 (by decide),
      by decide, by decide⟩
  obtain ⟨total, -⟩ := factsOfText_amounts spacedText
  have bytes := total.bytes_of_last _ _ last kib (by omega)
  have value : min (1024 * 2048) (2 ^ 64 - 1) = (2097152 : UInt64).toNat := by simp
  exact ⟨last, kib, UInt64.toNat_inj.1 (bytes.trans value)⟩

end HostInventory.Memory
