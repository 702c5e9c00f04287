import HostInventory.Proofs.NumeralForms
import Mathlib.Data.Nat.Digits.Defs

/-! What every text is read as. An integer text is worth the sum of its digits, each times the power
of the base at its place, so zeros in front of them add nothing. It is read as that number if 64 bits
hold it; any other text is refused with the whole of itself. -/
namespace HostInventory.Numeral

/-- The characters are digits, one or more, and worth `n` by their places, the last one of weight
one. -/
structure WorthByPlace (base : Nat) (cs : List Char) (n : Nat) : Prop where
  filled : cs ≠ []
  places : ∃ ds, List.Forall₂ (IsDigitFor base) cs.reverse ds ∧ Nat.ofDigits base ds = n

/-- What reading gives for a text: the number that it spells, or why there is none. -/
inductive Outcome (text : String) : Except Failure UInt64 → Prop
  | number {w : UInt64} : Spells text.toList w.toNat → Outcome text (.ok w)
  | tooLarge {n : Nat} : Spells text.toList n → 2 ^ 64 ≤ n →
      Outcome text (.error (.unparsable text .integerTooLarge))
  | noNumber : (∀ n, ¬Spells text.toList n) → Outcome text (.error (.unparsable text .notInteger))

/-- A text without digits, or with a character that no integer text has: a blank, a sign, or
anything else that is not an ASCII letter or digit. -/
inductive Stray (text : String) : Prop
  | empty : text.toList = [] → Stray text
  | barePrefix {x : Char} : x = 'x' ∨ x = 'X' → text.toList = ['0', x] → Stray text
  | character {c : Char} : c ∈ text.toList → ¬c.isAlphanum → Stray text

section Places

variable {base : Nat} {cs : List Char} {n : Nat}

theorem Digits.worthByPlace (h : Digits base cs n) : WorthByPlace base cs n := by
  refine ⟨h.ne_nil, ?_⟩
  induction h with
  | @one c d digit => exact ⟨[d], .cons digit .nil, Nat.ofDigits_singleton⟩
  | @snoc cs n c d _ digit ih =>
    obtain ⟨ds, places, rfl⟩ := ih
    refine ⟨d :: ds, ?_, ?_⟩
    · rw [List.reverse_append]
      exact .cons digit places
    · rw [Nat.ofDigits_cons, Nat.mul_comm, Nat.add_comm]

theorem digits_of_places {ds : List Nat} {rev : List Char}
    (places : List.Forall₂ (IsDigitFor base) rev ds) (filled : rev ≠ []) :
    Digits base rev.reverse (Nat.ofDigits base ds) := by
  induction places with
  | nil => contradiction
  | @cons c d rev ds digit rest ih =>
    rw [List.reverse_cons]
    cases rest with
    | nil => simpa using Digits.one digit
    | cons =>
      rw [Nat.ofDigits_cons, Nat.add_comm, Nat.mul_comm]
      exact .snoc (ih (by simp)) digit

theorem digits_iff_worthByPlace : Digits base cs n ↔ WorthByPlace base cs n := by
  constructor
  · exact Digits.worthByPlace
  · rintro ⟨filled, ds, places, rfl⟩
    simpa using digits_of_places places (by simpa using filled)

theorem Digits.cons_zero (positive : 0 < base) (h : Digits base cs n) :
    Digits base ('0' :: cs) n := by
  have zero : IsDigitFor base '0' 0 := ⟨positive, .inl rfl⟩
  induction h with
  | one digit => simpa using (Digits.one zero).snoc digit
  | snoc _ digit ih => exact ih.snoc digit

theorem Digits.zeros_append (positive : 0 < base) (k : Nat) (h : Digits base cs n) :
    Digits base (List.replicate k '0' ++ cs) n := by
  induction k with
  | zero => exact h
  | succ k ih => exact ih.cons_zero positive

end Places

section Outcomes

variable {text : String} {result : Except Failure UInt64} {n : Nat}

theorem spells_iff_worthByPlace {cs : List Char} :
    Spells cs n ↔ WorthByPlace 10 cs n ∨
      ∃ x digits, (x = 'x' ∨ x = 'X') ∧ cs = '0' :: x :: digits ∧ WorthByPlace 16 digits n := by
  simp only [← digits_iff_worthByPlace]
  constructor
  · intro spelled
    cases spelled with
    | decimal digits => exact .inl digits
    | hexadecimal prefixed digits => exact .inr ⟨_, _, prefixed, rfl, digits⟩
  · rintro (digits | ⟨x, digits, prefixed, rfl, worth⟩)
    · exact .decimal digits
    · exact .hexadecimal prefixed worth

theorem outcome_read (text : String) : Outcome text (read text) := by
  by_cases spelled : ∃ n, Spells text.toList n
  · obtain ⟨n, spelled⟩ := spelled
    cases word : word? n with
    | some w =>
      rw [read_of_spells spelled, word]
      exact .number (word?_eq_some_iff.1 word ▸ spelled)
    | none =>
      have large := word?_eq_none_iff.1 word
      rw [read_of_large spelled large]
      exact .tooLarge spelled large
  · have none : value? (baseAndDigits text.toList).1 (baseAndDigits text.toList).2 = none := by
      refine Option.eq_none_iff_forall_ne_some.2 fun n value => ?_
      exact spelled ⟨n, spells_iff.2 value⟩
    simp only [read, none]
    exact .noNumber fun n h => spelled ⟨n, h⟩

theorem Outcome.read_eq (h : Outcome text result) : read text = result := by
  cases h with
  | number spelled => exact read_eq_ok_iff.2 spelled
  | tooLarge spelled large => exact read_of_large spelled large
  | noNumber none =>
    have outcome := outcome_read text
    generalize read text = found at outcome
    cases outcome with
    | number spelled => exact absurd spelled (none _)
    | tooLarge spelled _ => exact absurd spelled (none _)
    | noNumber _ => rfl

theorem not_spells_of_stray (stray : Stray text) (n : Nat) : ¬Spells text.toList n := by
  intro spelled
  cases stray with
  | empty none => exact spelled.ne_nil none
  | @barePrefix x prefixed whole =>
    rw [whole] at spelled
    cases spelled with
    | decimal digits =>
      have second := digits.forall_mem (fun _ _ => IsDigitFor.isDigit) x (by simp)
      rcases prefixed with rfl | rfl <;> exact absurd second (by decide)
    | hexadecimal _ digits => exact digits.ne_nil rfl
  | character mem other => exact other (spelled.isAlphanum _ mem)

end Outcomes

/-- Each text is read as its outcome, where the number that it spells is the worth of its digits by
their places. Stray texts spell none. Every 64-bit number is read from its decimal digits and from
its hexadecimal ones, with any number of zeros in front. -/
theorem read_eq_iff_outcome (text : String) :
    (∀ result, read text = result ↔ Outcome text result) ∧
    (∀ n, Spells text.toList n ↔ WorthByPlace 10 text.toList n ∨
      ∃ x digits, (x = 'x' ∨ x = 'X') ∧ text.toList = '0' :: x :: digits ∧
        WorthByPlace 16 digits n) ∧
    (Stray text → read text = .error (.unparsable text .notInteger)) ∧
    ∀ w : UInt64, read (decimal w) = .ok w ∧ read (hex w) = .ok w ∧ ∀ k,
      read (String.ofList (List.replicate k '0' ++ Nat.toDigits 10 w.toNat)) = .ok w ∧
      ∀ x, x = 'x' ∨ x = 'X' →
        read (String.ofList ('0' :: x :: (List.replicate k '0' ++ Nat.toDigits 16 w.toNat))) =
          .ok w := by
  refine ⟨fun result => ⟨?_, Outcome.read_eq⟩, fun n => spells_iff_worthByPlace, fun stray => ?_,
    fun w => ⟨read_decimal w, read_hex w, fun k => ⟨?_, fun x prefixed => ?_⟩⟩⟩
  · rintro rfl
    exact outcome_read text
  · exact (Outcome.noNumber (not_spells_of_stray stray)).read_eq
  · rw [read_eq_ok_iff, String.toList_ofList]
    exact .decimal ((digits_toDigits (by decide) w.toNat).zeros_append (by decide) k)
  · rw [read_eq_ok_iff, String.toList_ofList]
    exact .hexadecimal prefixed ((digits_toDigits (by decide) w.toNat).zeros_append (by decide) k)

theorem read_strayTexts :
    read "0X" = .error (.unparsable "0X" .notInteger) ∧
    read "12 " = .error (.unparsable "12 " .notInteger) ∧
    read "３" = .error (.unparsable "３" .notInteger) :=
  ⟨(read_eq_iff_outcome _).2.2.1 (.barePrefix (.inr rfl) rfl),
    (read_eq_iff_outcome _).2.2.1 (.character (c := ' ') (by decide) (by decide)),
    (read_eq_iff_outcome _).2.2.1 (.character (c := '３') (by decide) (by decide))⟩

end HostInventory.Numeral
