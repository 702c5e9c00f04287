import HostInventory.Proofs.ListRoundTrip
import HostInventory.Proofs.NumeralForms
import Mathlib.Data.List.Chain

/-! The text that is written for an id set. It is in canonical notation: plain decimals, ranges that
hold more than one id, and at least one missing id between neighbours. Every set has one such text,
so sets are compared by their texts, and a text in that notation is written again as it was. -/
namespace HostInventory.IdSet

/-- A piece in canonical notation, and the ids that it stands for. -/
inductive IsWritten : List Char → IdRange → Prop
  | id {cs : List Char} {n : UInt64} : Numeral.Digits 10 cs n.toNat → Numeral.Unpadded cs →
      IsWritten cs (.single n)
  | range {cs ds : List Char} {first last : UInt64} : Numeral.Digits 10 cs first.toNat →
      Numeral.Unpadded cs → Numeral.Digits 10 ds last.toNat → Numeral.Unpadded ds →
      (ordered : first < last) → IsWritten (cs ++ '-' :: ds) ⟨first, last, UInt64.le_of_lt ordered⟩

/-- Pieces with commas between them, each of which starts at least two above the end of the piece
before it. -/
structure IsCanonical (t : String) (ranges : List IdRange) : Prop where
  joined : ∃ pieces, t.toList = [','].intercalate pieces ∧ List.Forall₂ IsWritten pieces ranges
  apart : ranges.IsChain fun r s => r.last.toNat + 2 ≤ s.first.toNat

section Pieces

variable {cs : List Char} {r : IdRange}

theorem isWritten_iff : IsWritten cs r ↔ cs = (rangeText r).toList := by
  rw [toList_rangeText]
  constructor
  · intro written
    cases written with
    | @id cs n digits unpadded =>
      have single : (IdRange.single n).first = (IdRange.single n).last := rfl
      rw [if_pos single]
      exact Numeral.eq_toDigits_of_unpadded digits unpadded
    | range first unpadded last unpadded' ordered =>
      rw [if_neg (UInt64.ne_of_lt ordered), Numeral.eq_toDigits_of_unpadded first unpadded,
        Numeral.eq_toDigits_of_unpadded last unpadded']
  · rintro rfl
    obtain ⟨first, last, ordered⟩ := r
    split
    · rename_i same
      obtain rfl : first = last := same
      exact .id (Numeral.digits_toDigits (by decide) _) (Numeral.unpadded_toDigits _)
    · rename_i different
      have ordered' : first < last := UInt64.lt_of_le_of_ne ordered different
      exact .range (Numeral.digits_toDigits (by decide) _) (Numeral.unpadded_toDigits _)
        (Numeral.digits_toDigits (by decide) _) (Numeral.unpadded_toDigits _) ordered'

theorem forall₂_isWritten_iff {pieces : List (List Char)} {ranges : List IdRange} :
    List.Forall₂ IsWritten pieces ranges ↔
      pieces = ranges.map fun r => (rangeText r).toList := by
  have same : IsWritten = fun cs r => cs = (rangeText r).toList := by
    funext cs r
    exact propext isWritten_iff
  rw [same, ← List.forall₂_map_right_iff, List.forall₂_eq_eq_eq]

theorem rangeText_injective : Function.Injective rangeText := by
  rintro ⟨first, last, ordered⟩ ⟨first', last', ordered'⟩ same
  have chars := congrArg String.toList same
  have plain := fun n => Numeral.not_mem_toDigits (c := '-') (by decide) n
  have injective : Function.Injective (Nat.toDigits 10) :=
    Numeral.toDigits_injective (by decide) (by decide)
  simp only [toList_rangeText] at chars
  simp only [IdRange.mk.injEq]
  split at chars <;> split at chars
  · rename_i single single'
    have firsts := UInt64.toNat_inj.1 (injective chars)
    exact ⟨firsts, single ▸ single' ▸ firsts⟩
  · exact absurd (chars ▸ List.mem_append_cons_self) (plain _)
  · exact absurd (chars ▸ List.mem_append_cons_self) (plain _)
  · obtain ⟨firsts, -, lasts⟩ := (List.append_cons_inj_of_notMem (plain _) (plain _)).1 chars
    exact ⟨UInt64.toNat_inj.1 (injective firsts), UInt64.toNat_inj.1 (injective lasts)⟩

end Pieces

section Texts

variable {s t : IdSet} {u : String} {ranges : List IdRange}

theorem isCanonical_iff : IsCanonical u ranges ↔ ∃ s : IdSet, s.ranges = ranges ∧ u = text s := by
  have trans : Trans IdRange.Below IdRange.Below IdRange.Below := ⟨IdRange.below_trans⟩
  constructor
  · rintro ⟨⟨pieces, joined, written⟩, apart⟩
    have apart : ranges.Pairwise IdRange.Below := List.isChain_iff_pairwise.1 apart
    refine ⟨⟨ranges, apart⟩, rfl, ?_⟩
    rw [← String.toList_inj, toList_text, joined, forall₂_isWritten_iff.1 written]
  · rintro ⟨s, rfl, rfl⟩
    exact ⟨⟨_, toList_text s, forall₂_isWritten_iff.2 rfl⟩, s.apart.isChain⟩

theorem filter_splitAt_text (s : IdSet) :
    (Text.splitAt ',' (text s).toList).filter (· ≠ []) =
      s.ranges.map fun r => (rangeText r).toList := by
  rw [toList_text, Text.filter_splitAt_intercalate]
  intro piece mem
  obtain ⟨r, -, rfl⟩ := List.mem_map.1 mem
  exact ⟨toList_rangeText_ne_nil r, comma_not_mem_rangeText r⟩

theorem text_injective : Function.Injective text := by
  have chars : Function.Injective fun r => (rangeText r).toList :=
    fun _ _ same => rangeText_injective (String.toList_injective same)
  intro s t same
  apply eq_of_ranges
  apply List.map_injective_iff.2 chars
  rw [← filter_splitAt_text, ← filter_splitAt_text, same]

/-- Each set has one text in canonical notation, and that is what is written for it; the empty set
has the empty text. A text in that notation without too wide a range is read, and written again as
it was. Texts that are read stand for the same set exactly if the same is written for both. -/
theorem eq_text_iff_isCanonical :
    (∀ s t, t = text s ↔
      ∃ ranges, IsCanonical t ranges ∧ ∀ id, id ∈ s ↔ ∃ r ∈ ranges, r.Holds id) ∧
    text empty = "" ∧
    (∀ t ranges, IsCanonical t ranges → (∀ r ∈ ranges, r.last.toNat - r.first.toNat < 2 ^ 20) →
      ∃ s, read t = .ok s ∧ text s = t) ∧
    ∀ t u s v, read t = .ok s → read u = .ok v →
      ((∀ id, id ∈ s ↔ id ∈ v) ↔ text s = text v) := by
  refine ⟨fun s t => ⟨?_, ?_⟩, rfl, ?_, ?_⟩
  · rintro rfl
    exact ⟨s.ranges, isCanonical_iff.2 ⟨s, rfl, rfl⟩, fun _ => mem_iff⟩
  · rintro ⟨_, canonical, members⟩
    obtain ⟨u, rfl, rfl⟩ := isCanonical_iff.1 canonical
    rw [eq_of_mem_iff fun id => (members id).trans mem_iff.symm]
  · rintro t _ canonical narrow
    obtain ⟨s, rfl, rfl⟩ := isCanonical_iff.1 canonical
    refine ⟨s, read_text_of_narrow fun wide => ?_, rfl⟩
    obtain ⟨r, hr, wide⟩ := hasWideRun_iff.1 wide
    have := narrow r hr
    simp only [maxSpan, IdRange.size] at wide
    omega
  · intro t u s v _ _
    exact ⟨fun same => congrArg text (eq_of_mem_iff same),
      fun same id => by rw [text_injective same]⟩

theorem text_mixedRanges :
    IsCanonical "1,5-8,10" [.single 1, ⟨5, 8, by decide⟩, .single 10] ∧
    ∃ s, read "1,5-8,10" = .ok s ∧ text s = "1,5-8,10" := by
  have canonical : IsCanonical "1,5-8,10" [.single 1, ⟨5, 8, by decide⟩, .single 10] :=
    isCanonical_iff.2 ⟨⟨_, by decide⟩, rfl, by decide⟩
  exact ⟨canonical, eq_text_iff_isCanonical.2.2.1 _ _ canonical (by decide)⟩

end Texts

end HostInventory.IdSet
