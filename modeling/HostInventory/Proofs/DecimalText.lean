import HostInventory.Numeral
import HostInventory.Text.Blank

/-! Decimal text. The digits that are written for a number read back as that number, no prefix
is taken for the start of a hexadecimal one, and none of the digits is a blank. -/
namespace HostInventory.Numeral

theorem toNat_of_isDigit {c : Char} (h : c.isDigit) : 48 ≤ c.toNat ∧ c.toNat ≤ 57 := by
  simpa [Char.isDigit, UInt32.le_iff_toNat_le] using h

theorem digit?_of_isDigit {c : Char} (h : c.isDigit) :
    digit? 10 c = some (c.toNat - '0'.toNat) := by
  have bounds := toNat_of_isDigit h
  have small : c.toNat - 48 < 10 := by omega
  simp [digit?, bounds, small]

theorem accumulate_of_isDigit {cs : List Char} (h : ∀ c ∈ cs, c.isDigit) (acc : Nat) :
    accumulate 10 acc cs = some (Nat.ofDigitChars 10 cs acc) := by
  induction cs generalizing acc with
  | nil => rfl
  | cons c cs ih =>
    have hc := h c List.mem_cons_self
    have hcs := fun x hx => h x (List.mem_cons_of_mem c hx)
    rw [accumulate, digit?_of_isDigit hc, Option.bind_some, ih hcs, Nat.ofDigitChars_cons,
      Nat.mul_comm]

theorem value?_of_isDigit {cs : List Char} (digits : ∀ c ∈ cs, c.isDigit) (filled : cs ≠ []) :
    value? 10 cs = some (Nat.ofDigitChars 10 cs 0) := by
  obtain ⟨c, rest, rfl⟩ := List.exists_cons_of_ne_nil filled
  exact accumulate_of_isDigit digits 0

theorem isDigit_of_mem_toDigits {n : Nat} {c : Char} (h : c ∈ Nat.toDigits 10 n) : c.isDigit :=
  Nat.isDigit_of_mem_toDigits (by decide) (by decide) h

theorem not_mem_toDigits {c : Char} (other : c.isDigit = false) (n : Nat) :
    c ∉ Nat.toDigits 10 n :=
  fun mem => by simp [isDigit_of_mem_toDigits mem] at other

theorem value?_toDigits (n : Nat) : value? 10 (Nat.toDigits 10 n) = some n := by
  rw [value?_of_isDigit (fun _ => isDigit_of_mem_toDigits) Nat.toDigits_ne_nil,
    Nat.ofDigitChars_ten_toDigits]

theorem readCount?_of_isDigit {cs : List Char} (digits : ∀ c ∈ cs, c.isDigit) (filled : cs ≠ []) :
    readCount? (String.ofList cs) = word? (Nat.ofDigitChars 10 cs 0) := by
  have value := value?_of_isDigit digits filled
  unfold readCount?
  rw [String.toList_ofList]
  split
  · exact absurd (digits '+' List.mem_cons_self) (by decide)
  · simp only [value, Option.bind_some]

theorem readCount?_toString (n : Nat) : readCount? (toString n) = word? n := by
  have text : toString n = String.ofList (Nat.toDigits 10 n) := rfl
  rw [text, readCount?_of_isDigit (fun _ => isDigit_of_mem_toDigits) Nat.toDigits_ne_nil,
    Nat.ofDigitChars_ten_toDigits]

theorem baseAndDigits_of_isDigit {cs : List Char} (h : ∀ c ∈ cs, c.isDigit) :
    baseAndDigits cs = (10, cs) := by
  unfold baseAndDigits
  split
  · exact absurd (h 'x' (by simp)) (by decide)
  · exact absurd (h 'X' (by simp)) (by decide)
  · rfl

@[simp] theorem toList_decimal (n : UInt64) : (decimal n).toList = Nat.toDigits 10 n.toNat := by
  simp [decimal]

theorem read_decimal (n : UInt64) : read (decimal n) = .ok n := by
  have digits := baseAndDigits_of_isDigit fun _ => isDigit_of_mem_toDigits (n := n.toNat)
  have word : word? n.toNat = some n := word?_eq_some_iff.2 rfl
  simp only [read, toList_decimal, digits, value?_toDigits, word]

theorem not_isBlank_of_isDigit {c : Char} (h : c.isDigit) : ¬Text.isBlank c := by
  have bounds := toNat_of_isDigit h
  simp only [Text.isBlank, Bool.or_eq_true, Bool.and_eq_true, decide_eq_true_eq, beq_iff_eq]
  omega

end HostInventory.Numeral
