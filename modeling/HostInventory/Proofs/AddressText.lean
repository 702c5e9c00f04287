import HostInventory.Network.Address
import HostInventory.Proofs.NumeralForms
import HostInventory.Proofs.TextPieces

/-! The text of an address. Eight groups are written in hexadecimal, the longest run of zeros as two
colons, unless they hold an address of the other family behind a fixed start. The groups are read
back from the pieces between the colons, so different addresses have different texts. -/
namespace HostInventory.Network

section Fields

variable {w width count : Nat}

theorem length_fields (bits : BitVec w) : (fields width count bits).length = count := by
  simp [fields]

theorem fields_injective (whole : w = width * count) :
    Function.Injective (fields (w := w) width count) := by
  intro a b same
  apply BitVec.eq_of_getLsbD_eq
  intro i below
  have place : i / width < count := Nat.div_lt_of_lt_mul (whole ▸ below)
  have filled : 0 < width := by
    apply Nat.pos_of_ne_zero
    rintro rfl
    simp [whole] at below
  obtain ⟨j, inside, turned⟩ : ∃ j < count, count - 1 - j = i / width := by
    generalize i / width = q at place
    exact ⟨count - 1 - q, by omega, by omega⟩
  have field := congrArg (·[j]?) same
  simp only [fields, List.getElem?_map, List.getElem?_range inside, Option.map_some,
    Option.some.injEq, turned, BitVec.toNat_inj] at field
  have bit := congrArg (·.getLsbD (i % width)) field
  simpa [Nat.mod_lt i filled, Nat.div_add_mod] using bit

end Fields

namespace Address

section Zeros

variable {gs : List Nat} {g s n : Nat}

def ZerosAt (gs : List Nat) (start count : Nat) : Prop := ∀ i < count, gs[start + i]? = some 0

structure IsLongestRun (gs : List Nat) (start count : Nat) : Prop where
  zeros : ZerosAt gs start count
  longest : ∀ s n, ZerosAt gs s n → n ≤ count
  first : ∀ s < start, ¬ZerosAt gs s count

theorem zerosAt_cons_succ : ZerosAt (g :: gs) (s + 1) n ↔ ZerosAt gs s n := by
  simp only [ZerosAt, Nat.add_right_comm, List.getElem?_cons_succ]

theorem zerosAt_zero_iff : ZerosAt gs 0 n ↔ n ≤ (gs.takeWhile (· == 0)).length := by
  induction gs generalizing n with
  | nil =>
    cases n with
    | zero => simp [ZerosAt]
    | succ n =>
      have out : ¬ZerosAt [] 0 (n + 1) := fun zeros => nomatch zeros 0 (Nat.succ_pos n)
      simp [out]
  | cons g rest ih =>
    cases n with
    | zero => simp [ZerosAt]
    | succ n =>
      have step : ZerosAt (g :: rest) 0 (n + 1) ↔ g = 0 ∧ ZerosAt rest 0 n := by
        simp only [ZerosAt, Nat.forall_lt_succ_left', Nat.zero_add, List.getElem?_cons_zero,
          List.getElem?_cons_succ, Option.some.injEq]
      rw [step, ih, List.takeWhile_cons]
      by_cases zero : g = 0 <;> simp [zero]

theorem ZerosAt.add_le (h : ZerosAt gs s n) (filled : 0 < n) : s + n ≤ gs.length := by
  have last := h (n - 1) (by omega)
  obtain ⟨inside, -⟩ := List.getElem?_eq_some_iff.1 last
  omega

theorem ZerosAt.eq_append (h : ZerosAt gs s n) :
    gs = gs.take s ++ (List.replicate n 0 ++ gs.drop (s + n)) := by
  have run : (gs.drop s).take n = List.replicate n 0 := by
    apply List.ext_getElem?
    intro i
    rw [List.getElem?_take, List.getElem?_drop, List.getElem?_replicate]
    by_cases inside : i < n
    · rw [if_pos inside, if_pos inside, h i inside]
    · rw [if_neg inside, if_neg inside]
  rw [← run, ← List.drop_drop, List.take_append_drop, List.take_append_drop]

theorem longestZeros_succ (start : Nat) (gs : List Nat) :
    longestZeros (start + 1) gs = ((longestZeros start gs).1 + 1, (longestZeros start gs).2) := by
  induction gs generalizing start with
  | nil => rfl
  | cons g rest ih =>
    simp only [longestZeros, ih (start + 1)]
    split <;> rfl

theorem isLongestRun_longestZeros (gs : List Nat) :
    IsLongestRun gs (longestZeros 0 gs).1 (longestZeros 0 gs).2 := by
  induction gs with
  | nil =>
    refine ⟨fun i below => absurd below (Nat.not_lt_zero i), fun s n zeros => ?_,
      fun s below => absurd below (Nat.not_lt_zero s)⟩
    by_contra filled
    have := zeros.add_le (by omega)
    simp at this
    omega
  | cons g rest ih =>
    have here (n : Nat) : ZerosAt (g :: rest) 0 n ↔ _ := zerosAt_zero_iff
    rw [longestZeros, longestZeros_succ]
    dsimp only
    -- the run at the front against the longest one further back; the front wins a tie
    split
    · rename_i longer
      refine ⟨(here _).2 (le_refl _), fun s n zeros => ?_,
        fun s below => absurd below (Nat.not_lt_zero s)⟩
      cases s with
      | zero => exact (here n).1 zeros
      | succ s => exact (ih.longest s n (zerosAt_cons_succ.1 zeros)).trans longer
    · rename_i shorter
      refine ⟨zerosAt_cons_succ.2 ih.zeros, fun s n zeros => ?_, fun s below zeros => ?_⟩
      · cases s with
        | zero => exact ((here n).1 zeros).trans (Nat.le_of_not_le shorter)
        | succ s => exact ih.longest s n (zerosAt_cons_succ.1 zeros)
      · cases s with
        | zero => exact shorter ((here _).1 zeros)
        | succ s => exact ih.first s (Nat.lt_of_succ_lt_succ below) (zerosAt_cons_succ.1 zeros)

end Zeros

section Groups

variable {gs xs ys : List Nat}

theorem isAlphanum_of_mem_digits {g : Nat} {c : Char} (h : c ∈ Nat.toDigits 16 g) :
    c.isAlphanum :=
  (Numeral.digits_toDigits (by decide) g).forall_mem
    (fun _ _ => Numeral.IsDigitFor.isAlphanum (by decide)) c h

theorem toList_hexGroups (gs : List Nat) :
    (hexGroups gs).toList = [':'].intercalate (gs.map (Nat.toDigits 16)) := by
  simp [hexGroups, String.toList_intercalate, Function.comp_def]

def hexPieces (gs : List Nat) : List (List Char) :=
  if gs = [] then [[]] else gs.map (Nat.toDigits 16)

theorem splitAt_hexGroups (gs : List Nat) :
    Text.splitAt ':' (hexGroups gs).toList = hexPieces gs := by
  rw [toList_hexGroups, hexPieces]
  split
  · rename_i none
    rw [none]
    rfl
  · rename_i filled
    apply Text.splitAt_intercalate ':' (by simpa using filled)
    intro piece mem colon
    obtain ⟨g, -, rfl⟩ := List.mem_map.1 mem
    exact absurd (isAlphanum_of_mem_digits colon) (by decide)

theorem reverse_hexPieces (gs : List Nat) : (hexPieces gs).reverse = hexPieces gs.reverse := by
  by_cases none : gs = [] <;> simp [hexPieces, none]

theorem splitAt_twoColons (xs ys : List Nat) :
    Text.splitAt ':' (hexGroups xs ++ "::" ++ hexGroups ys).toList =
      hexPieces xs ++ [] :: hexPieces ys := by
  have chars : (hexGroups xs ++ "::" ++ hexGroups ys).toList =
      (hexGroups xs).toList ++ ':' :: ([] ++ ':' :: (hexGroups ys).toList) := by
    simp
  rw [chars, Text.splitAt_append_cons, Text.splitAt_append_cons, splitAt_hexGroups,
    splitAt_hexGroups]
  rfl

def readFront (pieces : List (List Char)) : List Nat :=
  (pieces.takeWhile (· ≠ [])).map fun piece => (Numeral.value? 16 piece).getD 0

def readGroups (cs : List Char) : List Nat :=
  let pieces := Text.splitAt ':' cs
  let front := readFront pieces
  let back := (readFront pieces.reverse).reverse
  (front ++ (List.replicate (8 - front.length - back.length) 0 ++ back)).take 8

theorem readFront_append {rest : List (List Char)} (ended : rest.takeWhile (· ≠ []) = [])
    (gs : List Nat) : readFront (gs.map (Nat.toDigits 16) ++ rest) = gs := by
  have filled : ∀ piece ∈ gs.map (Nat.toDigits 16), decide (piece ≠ []) := by
    simp [Nat.toDigits_ne_nil]
  have value (g : Nat) : Numeral.value? 16 (Nat.toDigits 16 g) = some g :=
    (Numeral.digits_toDigits (by decide) g).value? (by decide)
  rw [readFront, List.takeWhile_append_of_pos filled, ended, List.append_nil, List.map_map]
  simp [Function.comp_def, value]

theorem readFront_hexPieces (gs : List Nat) (rest : List (List Char)) :
    readFront (hexPieces gs ++ [] :: rest) = gs := by
  rw [hexPieces]
  split
  · rename_i none
    rw [none]
    rfl
  · exact readFront_append (by simp) gs

theorem readGroups_hexGroups (eight : gs.length = 8) : readGroups (hexGroups gs).toList = gs := by
  have filled : gs ≠ [] := List.ne_nil_of_length_pos (by omega)
  have whole (gs : List Nat) : readFront (gs.map (Nat.toDigits 16)) = gs := by
    simpa using readFront_append List.takeWhile_nil gs
  simp only [readGroups, splitAt_hexGroups, hexPieces, if_neg filled, ← List.map_reverse, whole,
    List.reverse_reverse, eight]
  simp [← eight]

theorem readGroups_twoColons {n : Nat} (eight : xs.length + n + ys.length = 8) :
    readGroups (hexGroups xs ++ "::" ++ hexGroups ys).toList =
      xs ++ (List.replicate n 0 ++ ys) := by
  -- the same reader from the other end finds the groups behind the colons
  have back := readFront_hexPieces ys.reverse (hexPieces xs.reverse)
  have between : 8 - xs.length - ys.length = n := by omega
  simp only [readGroups, splitAt_twoColons, readFront_hexPieces, List.reverse_append,
    List.reverse_cons, List.append_assoc, List.singleton_append, reverse_hexPieces, back,
    List.reverse_reverse, between]
  apply List.take_of_length_le
  simp only [List.length_append, List.length_replicate]
  omega

theorem readGroups_textGroups (eight : gs.length = 8) : readGroups (textGroups gs).toList = gs := by
  have run := (isLongestRun_longestZeros gs).zeros
  rw [textGroups]
  generalize longestZeros 0 gs = zeros at run
  obtain ⟨s, n⟩ := zeros
  dsimp only at run ⊢
  split
  · have inside := run.add_le (by omega)
    rw [readGroups_twoColons (n := n), ← run.eq_append]
    simp only [List.length_take, List.length_drop]
    omega
  · exact readGroups_hexGroups eight

theorem dot_not_mem_textGroups (gs : List Nat) : '.' ∉ (textGroups gs).toList := by
  have plain (gs : List Nat) : '.' ∉ (hexGroups gs).toList := by
    intro dot
    rw [toList_hexGroups] at dot
    rcases Text.mem_intercalate dot with colon | ⟨piece, mem, digit⟩
    · exact absurd colon (by decide)
    · obtain ⟨g, -, rfl⟩ := List.mem_map.1 mem
      exact absurd (isAlphanum_of_mem_digits digit) (by decide)
  rw [textGroups]
  split
  · simp [plain]
  · exact plain gs

end Groups

section Families

variable {bits low : BitVec 32}

theorem splitAt_textV4 (bits : BitVec 32) :
    Text.splitAt '.' (textV4 bits).toList = (bytes bits).map (Nat.toDigits 10) := by
  have chars : (textV4 bits).toList = ['.'].intercalate ((bytes bits).map (Nat.toDigits 10)) := by
    simp [textV4, String.toList_intercalate, Function.comp_def]
  have filled : bytes bits ≠ [] := List.ne_nil_of_length_pos (by simp [bytes, length_fields])
  rw [chars]
  apply Text.splitAt_intercalate '.' (by simpa using filled)
  intro piece mem dot
  obtain ⟨byte, -, rfl⟩ := List.mem_map.1 mem
  exact Numeral.not_mem_toDigits (by decide) _ dot

theorem textV4_injective : Function.Injective textV4 := by
  intro a b same
  have pieces := congrArg (fun text => Text.splitAt '.' text.toList) same
  simp only [splitAt_textV4] at pieces
  apply fields_injective (by decide : 32 = 8 * 4)
  exact List.map_injective_iff.2 (Numeral.toDigits_injective (by decide) (by decide)) pieces

theorem dot_mem_textV4 (bits : BitVec 32) : '.' ∈ (textV4 bits).toList := by
  by_contra plain
  have pieces := congrArg List.length (splitAt_textV4 bits)
  rw [Text.splitAt_of_not_mem plain, List.length_map, bytes, length_fields] at pieces
  cases pieces

/-- The address of the sixth family that stands for one of the fourth. -/
def mapped (low : BitVec 32) : BitVec 128 := 0xFFFF#96 ++ low

theorem take_groups (bits : BitVec 128) :
    (groups bits).take 6 = fields 16 6 (bits.extractLsb' 32 96) := by
  have places : (List.range 8).take 6 = List.range 6 := by decide
  rw [groups, fields, fields, ← List.map_take, places]
  apply List.map_congr_left
  intro i mem
  have below : i < 6 := List.mem_range.1 mem
  congr 1
  apply BitVec.eq_of_getLsbD_eq
  intro j inside
  simp only [BitVec.getLsbD_extractLsb', inside, decide_true, Bool.true_and]
  rw [show 32 + (16 * (6 - 1 - i) + j) = 16 * (8 - 1 - i) + j by omega,
    decide_eq_true (by omega : 16 * (6 - 1 - i) + j < 96), Bool.true_and]

theorem take_groups_eq_iff {bits : BitVec 128} :
    (groups bits).take 6 = [0, 0, 0, 0, 0, 0xFFFF] ↔ ∃ low, bits = mapped low := by
  have start : fields 16 6 0xFFFF#96 = [0, 0, 0, 0, 0, 0xFFFF] := by decide
  rw [take_groups, ← start, (fields_injective (by decide : 96 = 16 * 6)).eq_iff]
  constructor
  · intro upper
    have whole : bits.extractLsb' 32 96 ++ bits.extractLsb' 0 32 = bits :=
      BitVec.extractLsb'_append_extractLsb'
    exact ⟨bits.extractLsb' 0 32, by rw [mapped, ← upper, whole]⟩
  · rintro ⟨low, rfl⟩
    exact BitVec.extractLsb'_append_eq_left

theorem textV6_mapped (low : BitVec 32) : textV6 (mapped low) = "::ffff:" ++ textV4 low := by
  have lower : (mapped low).setWidth 32 = low := by
    rw [BitVec.setWidth_eq_extractLsb' (by decide)]
    exact BitVec.extractLsb'_append_eq_right
  rw [textV6, if_pos (take_groups_eq_iff.2 ⟨low, rfl⟩), lower]

theorem textV6_of_not_mapped {bits : BitVec 128} (plain : ∀ low, bits ≠ mapped low) :
    textV6 bits = textGroups (groups bits) := by
  rw [textV6, if_neg fun start => ?_]
  obtain ⟨low, same⟩ := take_groups_eq_iff.1 start
  exact plain low same

theorem dot_mem_textV6_iff {bits : BitVec 128} :
    '.' ∈ (textV6 bits).toList ↔ ∃ low, bits = mapped low := by
  by_cases start : ∃ low, bits = mapped low
  · obtain ⟨low, rfl⟩ := start
    simp [textV6_mapped, dot_mem_textV4]
  · rw [textV6_of_not_mapped (not_exists.1 start)]
    simp [dot_not_mem_textGroups, start]

theorem textV6_injective : Function.Injective textV6 := by
  intro a b same
  have both : (∃ low, a = mapped low) ↔ ∃ low, b = mapped low := by
    rw [← dot_mem_textV6_iff, ← dot_mem_textV6_iff, same]
  by_cases start : ∃ low, a = mapped low
  · obtain ⟨low, rfl⟩ := start
    obtain ⟨low', rfl⟩ := both.1 ⟨low, rfl⟩
    simp only [textV6_mapped] at same
    have lower := (String.append_right_inj _).1 same
    rw [textV4_injective lower]
  · have other := mt both.2 start
    rw [textV6_of_not_mapped (not_exists.1 start), textV6_of_not_mapped (not_exists.1 other)] at same
    apply fields_injective (by decide : 128 = 16 * 8)
    calc
      groups a = readGroups (textGroups (groups a)).toList :=
        (readGroups_textGroups (length_fields a)).symm
      _ = readGroups (textGroups (groups b)).toList := by rw [same]
      _ = groups b := readGroups_textGroups (length_fields b)

/-- How the text of an address is made up. Two colons stand for the longest run of at least two
zeros, for the first one of equal length. -/
inductive IsWritten : Address → String → Prop
  | v4 (bits : BitVec 32) : IsWritten (.v4 bits) (".".intercalate ((bytes bits).map toString))
  | mapped (low : BitVec 32) : IsWritten (.v6 (mapped low)) ("::ffff:" ++ textV4 low)
  | full {bits : BitVec 128} : (∀ low, bits ≠ Address.mapped low) →
      (∀ s, ¬ZerosAt (groups bits) s 2) → IsWritten (.v6 bits) (hexGroups (groups bits))
  | shortened {bits : BitVec 128} {s n : Nat} : (∀ low, bits ≠ Address.mapped low) →
      IsLongestRun (groups bits) s n → 2 ≤ n →
      IsWritten (.v6 bits)
        (hexGroups ((groups bits).take s) ++ "::" ++ hexGroups ((groups bits).drop (s + n)))

theorem isWritten_text (a : Address) : IsWritten a a.text := by
  cases a with
  | v4 bits => exact .v4 bits
  | v6 bits =>
    rw [text]
    by_cases start : ∃ low, bits = Address.mapped low
    · obtain ⟨low, rfl⟩ := start
      rw [textV6_mapped]
      exact .mapped low
    · have plain := not_exists.1 start
      have run := isLongestRun_longestZeros (groups bits)
      rw [textV6_of_not_mapped plain, textGroups]
      split
      · rename_i long
        exact .shortened plain run long
      · rename_i short
        exact .full plain fun s zeros => short (run.longest s 2 zeros)

end Families

end Address

end HostInventory.Network
