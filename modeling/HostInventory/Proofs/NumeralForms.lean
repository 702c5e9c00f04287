import HostInventory.Proofs.DecimalText
import Mathlib.Data.List.Induction

/-! The integer texts that are read: decimal digits, or hexadecimal ones of either case behind a
prefix, leading zeros or not. A decimal text without leading zeros is what is written for its
number. -/
namespace HostInventory.Numeral

def IsDigitFor (base : Nat) (c : Char) (d : Nat) : Prop :=
  d < base ∧ (c = d.digitChar ∨ c = d.digitChar.toUpper)

/-- Digits, most significant first, and the number that they stand for. -/
inductive Digits (base : Nat) : List Char → Nat → Prop
  | one {c : Char} {d : Nat} : IsDigitFor base c d → Digits base [c] d
  | snoc {cs : List Char} {n : Nat} {c : Char} {d : Nat} : Digits base cs n →
      IsDigitFor base c d → Digits base (cs ++ [c]) (n * base + d)

/-- An integer text and its value, however large. -/
inductive Spells : List Char → Nat → Prop
  | decimal {cs : List Char} {n : Nat} : Digits 10 cs n → Spells cs n
  | hexadecimal {x : Char} {cs : List Char} {n : Nat} : x = 'x' ∨ x = 'X' → Digits 16 cs n →
      Spells ('0' :: x :: cs) n

section Digits

variable {base : Nat} {c : Char} {cs : List Char} {d n : Nat}

theorem toNat_digitChar (h : d < 16) :
    d.digitChar.toNat = if d < 10 then d + 48 else d + 87 := by
  revert d
  decide

theorem toNat_toUpper_digitChar (h : d < 16) :
    d.digitChar.toUpper.toNat = if d < 10 then d + 48 else d + 55 := by
  revert d
  decide

theorem digit?_eq_some_iff (small : base ≤ 16) : digit? base c = some d ↔ IsDigitFor base c d := by
  by_cases below : d < base
  · have lower := toNat_digitChar (Nat.lt_of_lt_of_le below small)
    have upper := toNat_toUpper_digitChar (Nat.lt_of_lt_of_le below small)
    simp only [digit?, IsDigitFor, Option.filter_eq_some_iff, ← Char.toNat_inj, lower, upper, below,
      decide_true, and_true, true_and]
    grind
  · simp [digit?, IsDigitFor, Option.filter_eq_some_iff, below]

theorem Digits.ne_nil (h : Digits base cs n) : cs ≠ [] := by
  cases h <;> simp

theorem value?_append_singleton :
    value? base (cs ++ [c]) =
      (accumulate base 0 cs).bind fun n => (digit? base c).map (n * base + ·) := by
  have whole : value? base (cs ++ [c]) = accumulate base 0 (cs ++ [c]) := by
    cases cs <;> rfl
  rw [whole, accumulate_append]
  congr 1
  funext n
  cases last : digit? base c <;> simp [accumulate, last]

theorem Digits.value? (small : base ≤ 16) (h : Digits base cs n) : value? base cs = some n := by
  induction h with
  | one digit =>
    rw [← List.nil_append [_], value?_append_singleton, (digit?_eq_some_iff small).2 digit]
    simp [accumulate]
  | @snoc cs n c d front digit ih =>
    obtain ⟨first, rest, rfl⟩ := List.exists_cons_of_ne_nil front.ne_nil
    have before : accumulate base 0 (first :: rest) = some n := ih
    rw [value?_append_singleton, before, (digit?_eq_some_iff small).2 digit]
    rfl

theorem digits_of_value? (small : base ≤ 16) (h : value? base cs = some n) : Digits base cs n := by
  induction cs using List.reverseRecOn generalizing n with
  | nil => cases h
  | append_singleton cs c ih =>
    rw [value?_append_singleton] at h
    obtain ⟨before, front, last⟩ := Option.bind_eq_some_iff.1 h
    obtain ⟨d, digit, rfl⟩ := Option.map_eq_some_iff.1 last
    have digit := (digit?_eq_some_iff small).1 digit
    cases cs with
    | nil =>
      cases front
      simpa using Digits.one digit
    | cons first rest => exact .snoc (ih front) digit

theorem IsDigitFor.isAlphanum (small : base ≤ 16) (h : IsDigitFor base c d) : c.isAlphanum := by
  obtain ⟨below, rfl | rfl⟩ := h
  all_goals
    have := Nat.lt_of_lt_of_le below small
    clear below
    revert d
    decide

theorem IsDigitFor.isDigit (h : IsDigitFor 10 c d) : c.isDigit := by
  obtain ⟨below, rfl | rfl⟩ := h
  all_goals
    revert d
    decide

theorem IsDigitFor.eq_digitChar (h : IsDigitFor 10 c d) : c = d.digitChar := by
  obtain ⟨below, same | same⟩ := h
  · exact same
  · rw [same]
    clear same
    revert d
    decide

theorem Digits.forall_mem {p : Char → Prop} (each : ∀ c d, IsDigitFor base c d → p c)
    (h : Digits base cs n) : ∀ c ∈ cs, p c := by
  induction h with
  | one digit => simpa using each _ _ digit
  | snoc _ digit ih =>
    have last := each _ _ digit
    simpa [or_imp, forall_and, last] using ih

end Digits

section Forms

variable {cs : List Char} {c : Char} {n : Nat} {w : UInt64} {text : String}

theorem spells_iff : Spells cs n ↔ value? (baseAndDigits cs).1 (baseAndDigits cs).2 = some n := by
  constructor
  · intro spelled
    cases spelled with
    | decimal digits =>
      rw [baseAndDigits_of_isDigit (digits.forall_mem fun _ _ => IsDigitFor.isDigit)]
      exact digits.value? (by decide : 10 ≤ 16)
    | hexadecimal prefixed digits =>
      rcases prefixed with rfl | rfl <;> exact digits.value? (by decide : 16 ≤ 16)
  · intro value
    unfold baseAndDigits at value
    split at value
    · exact .hexadecimal (.inl rfl) (digits_of_value? (by decide) value)
    · exact .hexadecimal (.inr rfl) (digits_of_value? (by decide) value)
    · exact .decimal (digits_of_value? (by decide) value)

theorem read_of_spells (h : Spells text.toList n) :
    read text = match word? n with
      | none => .error (.unparsable text .integerTooLarge)
      | some w => .ok w := by
  cases word : word? n <;> simp only [read, spells_iff.1 h, word]

theorem read_eq_ok_iff : read text = .ok w ↔ Spells text.toList w.toNat := by
  constructor
  · intro found
    simp only [read] at found
    split at found
    · cases found
    · rename_i n value
      split at found
      · cases found
      · rename_i w' word
        cases found
        rwa [spells_iff, ← word?_eq_some_iff.1 word]
  · intro spelled
    have word : word? w.toNat = some w := word?_eq_some_iff.2 rfl
    rw [read_of_spells spelled, word]

theorem spells_of_read (h : read (String.ofList cs) = .ok w) : Spells cs w.toNat := by
  simpa using read_eq_ok_iff.1 h

theorem read_of_large (h : Spells text.toList n) (large : UInt64.size ≤ n) :
    read text = .error (.unparsable text .integerTooLarge) := by
  have word : word? n = none := if_neg (Nat.not_lt.2 large)
  rw [read_of_spells h, word]

theorem read_eq_error {failure : Failure} (failed : read text = .error failure) :
    failure = .unparsable text .notInteger ∨ failure = .unparsable text .integerTooLarge := by
  simp only [read] at failed
  split at failed
  · exact .inl (Except.error.inj failed).symm
  · split at failed
    · exact .inr (Except.error.inj failed).symm
    · cases failed

theorem Spells.ne_nil (h : Spells cs n) : cs ≠ [] := by
  cases h with
  | decimal digits => exact digits.ne_nil
  | hexadecimal => simp

theorem Spells.isAlphanum (h : Spells cs n) : ∀ c ∈ cs, c.isAlphanum := by
  cases h with
  | decimal digits => exact digits.forall_mem fun _ _ => IsDigitFor.isAlphanum (by decide)
  | hexadecimal prefixed digits =>
    have rest := digits.forall_mem fun _ _ => IsDigitFor.isAlphanum (by decide)
    rcases prefixed with rfl | rfl <;> simpa [Char.isAlphanum] using rest

theorem toNat_of_isAlphanum (h : c.isAlphanum) : 48 ≤ c.toNat ∧ c.toNat ≤ 122 := by
  change (decide (65 ≤ c.val ∧ c.val ≤ 90) || (97 ≤ c.val && c.val ≤ 122) ||
    (48 ≤ c.val && c.val ≤ 57)) = true at h
  have value : c.toNat = c.val.toNat := rfl
  simp [UInt32.le_iff_toNat_le] at h
  omega

theorem not_isBlank_of_isAlphanum (h : c.isAlphanum) : ¬Text.isBlank c := by
  have bounds := toNat_of_isAlphanum h
  simp only [Text.isBlank, Bool.or_eq_true, Bool.and_eq_true, decide_eq_true_eq, beq_iff_eq]
  omega

end Forms

section Written

def Unpadded (cs : List Char) : Prop := cs.head? = some '0' → cs = ['0']

variable {cs : List Char} {n : Nat}

theorem digits_toDigits {base : Nat} (proper : 1 < base) (n : Nat) :
    Digits base (Nat.toDigits base n) n := by
  induction n using Nat.strongRecOn with
  | ind n ih =>
    by_cases short : n < base
    · rw [Nat.toDigits_of_lt_base short]
      exact .one ⟨short, .inl rfl⟩
    · have positive : 0 < n := by omega
      have front := ih (n / base) (Nat.div_lt_self positive proper)
      have last : IsDigitFor base (n % base).digitChar (n % base) :=
        ⟨Nat.mod_lt n (by omega), .inl rfl⟩
      rw [Nat.toDigits_of_base_le proper (Nat.le_of_not_lt short)]
      simpa only [Nat.div_add_mod'] using front.snoc last

theorem toDigits_injective {base : Nat} (proper : 1 < base) (small : base ≤ 16) :
    Function.Injective (Nat.toDigits base) := by
  intro m n same
  have value := (digits_toDigits proper m).value? small
  rw [same, (digits_toDigits proper n).value? small] at value
  exact (Option.some.inj value).symm

theorem read_hex (n : UInt64) : read (hex n) = .ok n := by
  have chars : (hex n).toList = '0' :: 'x' :: Nat.toDigits 16 n.toNat := by simp [hex]
  rw [read_eq_ok_iff, chars]
  exact .hexadecimal (.inl rfl) (digits_toDigits (by decide) n.toNat)

theorem head?_ne_zero_of_append {front back : List Char} (filled : front ≠ [])
    (h : Unpadded (front ++ back)) (more : back ≠ []) : front.head? ≠ some '0' := by
  obtain ⟨c, rest, rfl⟩ := List.exists_cons_of_ne_nil filled
  intro leading
  have whole := h leading
  simp_all

theorem unpadded_toDigits (n : Nat) : Unpadded (Nat.toDigits 10 n) := by
  induction n using Nat.strongRecOn with
  | ind n ih =>
    intro leading
    by_cases short : n < 10
    · rw [Nat.toDigits_of_lt_base short] at leading ⊢
      simpa using leading
    · rw [Nat.toDigits_of_base_le (by decide) (Nat.le_of_not_lt short), List.head?_append,
        Option.or_of_isSome (by simp [Nat.toDigits_ne_nil])] at leading
      -- the digits before the last one would stand for zero
      have zero : Nat.ofDigitChars 10 (Nat.toDigits 10 (n / 10)) 0 = 0 := by
        rw [ih (n / 10) (by omega) leading]
        rfl
      rw [Nat.ofDigitChars_ten_toDigits] at zero
      omega

theorem eq_toDigits_of_unpadded (digits : Digits 10 cs n) (unpadded : Unpadded cs) :
    cs = Nat.toDigits 10 n := by
  induction digits with
  | @one c d digit =>
    rw [Nat.toDigits_of_lt_base digit.1, digit.eq_digitChar]
  | @snoc cs n c d front digit ih =>
    have leading := head?_ne_zero_of_append front.ne_nil unpadded (by simp)
    have written := ih fun zero => absurd zero leading
    have positive : 0 < n := by
      apply Nat.pos_of_ne_zero
      rintro rfl
      simp [written] at leading
    rw [written, digit.eq_digitChar, ← Nat.toDigits_of_lt_base digit.1,
      Nat.toDigits_append_toDigits (by decide) positive digit.1, Nat.mul_comm]

end Written

end HostInventory.Numeral
