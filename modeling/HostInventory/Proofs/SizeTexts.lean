import HostInventory.ByteSize
import HostInventory.Proofs.EncodedText
import HostInventory.Proofs.NumeralForms
import Mathlib.Algebra.Ring.Nat

/-! The texts of sizes: an integer with a suffix or without one, as large as 64 bits can hold. No
letter of an integer is a suffix, so the last character decides. A suffix is one byte, and no other
character ends in that byte, so looking at the last byte and cutting it off does the same. -/
namespace HostInventory

namespace Utf8

variable {text : String} {a c : Char}

theorem utf8EncodeChar_of_ascii (ascii : a.toNat < 128) :
    String.utf8EncodeChar a = [.ofNat a.toNat] := by
  have byte : (UInt8.ofNat a.toNat).toNat = a.toNat :=
    UInt8.toNat_ofNat_of_lt' (by simp only [UInt8.size]; omega)
  have single := utf8EncodeChar_of_one (b := .ofNat a.toNat) (by omega)
  rwa [byte, Char.ofNat_toNat] at single

theorem getLast?_utf8EncodeChar_iff (ascii : a.toNat < 128) :
    (String.utf8EncodeChar c).getLast? = some (.ofNat a.toNat) ↔ c = a := by
  have byte (n : Nat) : UInt8.ofNat n = UInt8.ofNat a.toNat ↔ n % 256 = a.toNat := by
    rw [← UInt8.toNat_inj, UInt8.toNat_ofNat', UInt8.toNat_ofNat']
    omega
  have valid : c.toNat.isValidChar := c.valid
  have encoded := utf8EncodeChar_ofNat valid
  rw [Char.ofNat_toNat] at encoded
  rw [encoded, ← Char.toNat_inj]
  split_ifs <;> simp only [List.getLast?_cons_cons, List.getLast?_singleton, Option.some.injEq, byte]
    <;> omega

theorem encode_append_singleton (cs : List Char) (ascii : a.toNat < 128) :
    encode (String.ofList (cs ++ [a])) = encode (String.ofList cs) ++ [.ofNat a.toNat] := by
  simp only [encode_eq, String.toList_ofList, List.flatMap_append, List.flatMap_singleton,
    utf8EncodeChar_of_ascii ascii]

theorem getLast?_encode_iff (ascii : a.toNat < 128) :
    (encode text).getLast? = some (.ofNat a.toNat) ↔ text.toList.getLast? = some a := by
  rw [encode_eq]
  rcases List.eq_nil_or_concat' text.toList with none | ⟨cs, c, whole⟩
  · simp [none]
  · obtain ⟨b, bytes, first⟩ := List.exists_cons_of_ne_nil (String.utf8EncodeChar_ne_nil (c := c))
    rw [whole, List.flatMap_append, List.flatMap_singleton, List.getLast?_append,
      Option.or_of_isSome (by simp [first]), getLast?_utf8EncodeChar_iff ascii]
    simp

theorem decode?_dropLast (ascii : a.toNat < 128) (ends : text.toList.getLast? = some a) :
    decode? (encode text).dropLast = some text.toList.dropLast := by
  obtain ⟨cs, whole⟩ := List.getLast?_eq_some_iff.1 ends
  rw [← String.ofList_toList (s := text), whole, encode_append_singleton cs ascii,
    List.dropLast_concat, decode?_encode]
  simp

end Utf8

namespace Numeral

variable {base d n : Nat} {c : Char} {cs : List Char}

theorem IsDigitFor.mono {base' : Nat} (le : base ≤ base') (h : IsDigitFor base c d) :
    IsDigitFor base' c d :=
  ⟨Nat.lt_of_lt_of_le h.1 le, h.2⟩

theorem Spells.forall_mem {p : Char → Prop} (each : ∀ c d, IsDigitFor 16 c d → p c)
    (small : p 'x') (capital : p 'X') (h : Spells cs n) : ∀ c ∈ cs, p c := by
  cases h with
  | decimal digits =>
    exact digits.forall_mem fun c d digit => each c d (digit.mono (by decide : 10 ≤ 16))
  | hexadecimal prefixed digits =>
    have zero : p '0' := each '0' 0 ⟨by decide, .inl rfl⟩
    have rest := digits.forall_mem each
    rcases prefixed with rfl | rfl <;> simpa [zero, small, capital] using rest

end Numeral

namespace ByteSize

inductive IsSuffix : List Char → Nat → Prop
  | none : IsSuffix [] 1
  | kibi : IsSuffix ['K'] (2 ^ 10)
  | mebi : IsSuffix ['M'] (2 ^ 20)
  | gibi : IsSuffix ['G'] (2 ^ 30)

/-- The text is an integer and a suffix, which together state this number of bytes, however large. -/
def States (text : String) (bytes : Nat) : Prop :=
  ∃ number suffix scale n, text.toList = number ++ suffix ∧ IsSuffix suffix scale ∧
    Numeral.read (String.ofList number) = .ok n ∧ n.toNat * scale = bytes

/-- Texts that state no size: nothing but a suffix or not even that, and texts with a lower-case
suffix, with two suffixes, or with a character at the end that is not ASCII. -/
inductive Faulty : List Char → Prop
  | bare {suffix : List Char} {scale : Nat} : IsSuffix suffix scale → Faulty suffix
  | lowerCase {cs : List Char} {c : Char} : c = 'k' ∨ c = 'm' ∨ c = 'g' → Faulty (cs ++ [c])
  | twice {cs : List Char} {c d : Char} {scale scale' : Nat} : IsSuffix [c] scale →
      IsSuffix [d] scale' → Faulty (cs ++ [c, d])
  | nonAscii {cs : List Char} {c : Char} : 128 ≤ c.toNat → Faulty (cs ++ [c])

section Suffixes

variable {c : Char} {scale : Nat}

theorem scale?_eq_some_iff : scale? c = some scale ↔ IsSuffix [c] scale := by
  constructor
  · intro found
    unfold scale? at found
    split at found
    · cases found
      exact .kibi
    · cases found
      exact .mebi
    · cases found
      exact .gibi
    · cases found
  · intro suffix
    cases suffix <;> rfl

theorem IsSuffix.cases_length {suffix : List Char} (h : IsSuffix suffix scale) :
    suffix = [] ∧ scale = 1 ∨ ∃ c, suffix = [c] := by
  cases h <;> simp

theorem IsSuffix.toNat_lt (h : IsSuffix [c] scale) : c.toNat < 128 := by
  cases h <;> decide

theorem IsSuffix.mem (h : IsSuffix [c] scale) : c ∈ ['K', 'M', 'G', 'k', 'm', 'g'] := by
  cases h <;> decide

theorem not_suffix_of_spells {cs : List Char} {n : Nat} (h : Numeral.Spells cs n) :
    ∀ c ∈ cs, c ∉ ['K', 'M', 'G', 'k', 'm', 'g'] := by
  refine h.forall_mem ?_ (by decide) (by decide)
  rintro c d ⟨below, rfl | rfl⟩
  all_goals
    revert d
    decide

end Suffixes

section Reading

variable {text : String} {bytes : Nat}

theorem parts_of_append {number suffix : List Char} {scale : Nat} {n : UInt64}
    (whole : text.toList = number ++ suffix) (form : IsSuffix suffix scale)
    (integer : Numeral.read (String.ofList number) = .ok n) :
    ∃ last, text.toList.getLast? = some last ∧ parts text last = (String.ofList number, scale) := by
  rcases form.cases_length with ⟨rfl, rfl⟩ | ⟨c, rfl⟩
  · have spelled := Numeral.spells_of_read integer
    rw [List.append_nil] at whole
    rw [← whole] at spelled
    obtain ⟨front, last, ends⟩ := (List.eq_nil_or_concat' _).resolve_left spelled.ne_nil
    have plain : scale? last = none := by
      have other := not_suffix_of_spells spelled last (by simp [ends])
      simp only [List.mem_cons, not_or] at other
      simp [scale?, other]
    exact ⟨last, by simp [ends], by rw [parts, plain, ← whole, String.ofList_toList]⟩
  · exact ⟨c, by simp [whole], by simp [parts, scale?_eq_some_iff.2 form, whole]⟩

theorem append_of_parts {last : Char} (ends : text.toList.getLast? = some last) :
    ∃ suffix, text.toList = (parts text last).1.toList ++ suffix ∧
      IsSuffix suffix (parts text last).2 := by
  cases found : scale? last with
  | none => exact ⟨[], by simp [parts, found], by simpa [parts, found] using .none⟩
  | some scale =>
    obtain ⟨front, whole⟩ := List.getLast?_eq_some_iff.1 ends
    refine ⟨[last], by simp [parts, found, whole], ?_⟩
    simpa [parts, found] using scale?_eq_some_iff.1 found

theorem read_of_states (states : States text bytes) :
    read text = match Numeral.word? bytes with
      | none => .error (.unparsable text .sizeTooLarge)
      | some size => .ok size := by
  obtain ⟨number, suffix, scale, n, whole, form, integer, rfl⟩ := states
  obtain ⟨last, ends, cut⟩ := parts_of_append whole form integer
  cases word : Numeral.word? (n.toNat * scale) <;> simp [read, ends, cut, integer, word]

theorem states_or_read_eq_error (text : String) :
    (∃ bytes, States text bytes) ∨
      ∃ input suffix scale why, text.toList = input.toList ++ suffix ∧ IsSuffix suffix scale ∧
        why ≠ .sizeTooLarge ∧ read text = .error (.unparsable input why) := by
  cases ends : text.toList.getLast? with
  | none => exact .inr ⟨text, [], 1, .emptySize, by simp, .none, by decide, by simp [read, ends]⟩
  | some last =>
    obtain ⟨suffix, whole, form⟩ := append_of_parts ends
    cases integer : Numeral.read (parts text last).1 with
    | ok n =>
      refine .inl ⟨_, _, suffix, _, n, whole, form, ?_, rfl⟩
      rwa [String.ofList_toList]
    | error failure =>
      have refused : read text = .error failure := by simp [read, ends, integer]
      rcases Numeral.read_eq_error integer with rfl | rfl <;>
        exact .inr ⟨_, suffix, _, _, whole, form, by decide, refused⟩

theorem read_eq_ok_iff_states {w : UInt64} : read text = .ok w ↔ States text w.toNat := by
  constructor
  · intro found
    rcases states_or_read_eq_error text with ⟨bytes, states⟩ | ⟨_, _, _, _, _, _, _, refused⟩
    · rw [read_of_states states] at found
      cases word : Numeral.word? bytes with
      | none => simp [word] at found
      | some size =>
        rw [word] at found
        cases found
        rwa [← Numeral.word?_eq_some_iff.1 word]
    · rw [refused] at found
      cases found
  · intro states
    rw [read_of_states states, Numeral.word?_eq_some_iff.2 rfl]

theorem read_eq_tooLarge_iff :
    read text = .error (.unparsable text .sizeTooLarge) ↔
      ∃ bytes, States text bytes ∧ 2 ^ 64 ≤ bytes := by
  constructor
  · intro failed
    rcases states_or_read_eq_error text with ⟨bytes, states⟩ | ⟨_, _, _, _, _, _, other, refused⟩
    · refine ⟨bytes, states, Numeral.word?_eq_none_iff.1 ?_⟩
      rw [read_of_states states] at failed
      cases word : Numeral.word? bytes with
      | none => rfl
      | some size => simp [word] at failed
    · rw [refused] at failed
      cases failed
      contradiction
  · rintro ⟨bytes, states, large⟩
    rw [read_of_states states, Numeral.word?_eq_none_iff.2 large]

theorem States.spells {cs : List Char} {c : Char} (states : States text bytes)
    (whole : text.toList = cs ++ [c]) :
    (∃ n, Numeral.Spells (cs ++ [c]) n) ∨
      (∃ scale, IsSuffix [c] scale) ∧ ∃ n, Numeral.Spells cs n := by
  obtain ⟨number, suffix, scale, n, parts, form, integer, -⟩ := states
  have spelled := Numeral.spells_of_read integer
  rw [whole] at parts
  rcases form.cases_length with ⟨rfl, -⟩ | ⟨d, rfl⟩
  · rw [List.append_nil] at parts
    exact .inl ⟨_, parts ▸ spelled⟩
  · obtain ⟨rfl, rfl⟩ := List.append_singleton_inj.1 parts
    exact .inr ⟨⟨scale, form⟩, _, spelled⟩

theorem States.ne_nil (states : States text bytes) : text.toList ≠ [] := by
  obtain ⟨number, suffix, scale, n, whole, -, integer, -⟩ := states
  have spelled := Numeral.spells_of_read integer
  simp [whole, spelled.ne_nil]

theorem not_states_of_faulty (faulty : Faulty text.toList) : ¬States text bytes := by
  intro states
  generalize whole : text.toList = cs at faulty
  cases faulty with
  | bare form =>
    rcases form.cases_length with ⟨rfl, -⟩ | ⟨c, rfl⟩
    · exact states.ne_nil whole
    · rw [← List.nil_append [c]] at whole
      rcases states.spells whole with ⟨n, spelled⟩ | ⟨-, n, spelled⟩
      · exact not_suffix_of_spells spelled c (by simp) form.mem
      · exact spelled.ne_nil rfl
  | @lowerCase cs c lower =>
    rcases states.spells whole with ⟨n, spelled⟩ | ⟨⟨scale, form⟩, -⟩
    · exact not_suffix_of_spells spelled c (by simp) (by simp [lower])
    · rcases lower with rfl | rfl | rfl <;> cases form
  | @twice cs c d scale scale' first second =>
    rw [List.append_cons] at whole
    rcases states.spells whole with ⟨n, spelled⟩ | ⟨-, n, spelled⟩
    · exact not_suffix_of_spells spelled d (by simp) second.mem
    · exact not_suffix_of_spells spelled c (by simp) first.mem
  | @nonAscii cs c wide =>
    rcases states.spells whole with ⟨n, spelled⟩ | ⟨⟨scale, form⟩, -⟩
    · have narrow := Numeral.toNat_of_isAlphanum (spelled.isAlphanum c (by simp))
      omega
    · exact absurd form.toNat_lt (by omega)

theorem read_eq_error_iff :
    (∃ input why, read text = .error (.unparsable input why)) ↔
      ¬∃ bytes, States text bytes ∧ bytes < 2 ^ 64 := by
  constructor
  · rintro ⟨input, why, failed⟩ ⟨bytes, states, fits⟩
    cases word : Numeral.word? bytes with
    | none => exact absurd (Numeral.word?_eq_none_iff.1 word) (Nat.not_le.2 fits)
    | some w =>
      rw [read_of_states states, word] at failed
      cases failed
  · intro none
    rcases states_or_read_eq_error text with ⟨bytes, states⟩ | ⟨input, _, _, why, _, _, _, refused⟩
    · have large : 2 ^ 64 ≤ bytes := Nat.not_lt.1 fun fits => none ⟨bytes, states, fits⟩
      exact ⟨text, _, read_eq_tooLarge_iff.2 ⟨bytes, states, large⟩⟩
    · exact ⟨input, why, refused⟩

/-- A text is read as a size exactly if it states one that 64 bits hold. Any other text is refused,
as too large if it states a larger size, and a faulty one states none at all. A suffix can be told
from the last byte, and what stands before that byte is the text of the number. -/
theorem read_iff_states (text : String) :
    (∀ bytes, (∃ w, read text = .ok w ∧ w.toNat = bytes) ↔ States text bytes ∧ bytes < 2 ^ 64) ∧
    ((∃ input why, read text = .error (.unparsable input why)) ↔
      ¬∃ bytes, States text bytes ∧ bytes < 2 ^ 64) ∧
    (read text = .error (.unparsable text .sizeTooLarge) ↔
      ∃ bytes, States text bytes ∧ 2 ^ 64 ≤ bytes) ∧
    (Faulty text.toList → ∀ bytes, ¬States text bytes) ∧
    ∀ c scale, IsSuffix [c] scale →
      ((Utf8.encode text).getLast? = some (.ofNat c.toNat) ↔ text.toList.getLast? = some c) ∧
      (text.toList.getLast? = some c →
        Utf8.decode? (Utf8.encode text).dropLast = some (parts text c).1.toList) := by
  refine ⟨fun bytes => ⟨?_, ?_⟩, read_eq_error_iff, read_eq_tooLarge_iff,
    fun faulty bytes => not_states_of_faulty faulty, fun c scale form => ⟨?_, fun ends => ?_⟩⟩
  · rintro ⟨w, found, rfl⟩
    exact ⟨read_eq_ok_iff_states.1 found, w.toNat_lt⟩
  · rintro ⟨states, fits⟩
    have word : (UInt64.ofNat bytes).toNat = bytes := UInt64.toNat_ofNat_of_lt' fits
    exact ⟨.ofNat bytes, read_eq_ok_iff_states.2 (word.symm ▸ states), word⟩
  · exact Utf8.getLast?_encode_iff form.toNat_lt
  · rw [Utf8.decode?_dropLast form.toNat_lt ends, parts, scale?_eq_some_iff.2 form,
      String.toList_ofList]

theorem read_suffixedText :
    (∃ w, read "0x10M" = .ok w ∧ w.toNat = 16777216) ∧
    Utf8.decode? (Utf8.encode "0x10M").dropLast = some ['0', 'x', '1', '0'] ∧
    ∀ bytes, ¬States "20é" bytes := by
  have states : States "0x10M" 16777216 :=
    ⟨['0', 'x', '1', '0'], ['M'], 2 ^ 20, 16, rfl, .mebi, rfl, rfl⟩
  refine ⟨((read_iff_states _).1 _).2 ⟨states, by decide⟩,
    ((read_iff_states "0x10M").2.2.2.2 'M' _ .mebi).2 rfl, (read_iff_states _).2.2.2.1 ?_⟩
  have whole : "20é".toList = ['2', '0'] ++ ['é'] := rfl
  exact whole ▸ .nonAscii (by decide)

end Reading

end ByteSize

end HostInventory
