import HostInventory.IdSet.ListText
import HostInventory.Proofs.DecimalText
import HostInventory.Proofs.IdSetRuns
import HostInventory.Proofs.TextPieces

/-! Writing a set in list notation and reading it back. Writing joins ids into maximal runs while
reading bounds the span of each range, so a set comes back exactly when none of its runs is wider
than a range may be; otherwise the text is refused for its first wide range. -/
namespace HostInventory.IdSet

theorem toList_rangeText (r : IdRange) :
    (rangeText r).toList =
      if r.first = r.last then Nat.toDigits 10 r.first.toNat
      else Nat.toDigits 10 r.first.toNat ++ '-' :: Nat.toDigits 10 r.last.toNat := by
  unfold rangeText pieceText
  split <;> simp

theorem isDigit_or_hyphen {r : IdRange} {c : Char} (h : c ∈ (rangeText r).toList) :
    c.isDigit ∨ c = '-' := by
  rw [toList_rangeText] at h
  split at h
  · exact .inl (Numeral.isDigit_of_mem_toDigits h)
  · rcases List.mem_append.1 h with h | h
    · exact .inl (Numeral.isDigit_of_mem_toDigits h)
    · rcases List.mem_cons.1 h with h | h
      · exact .inr h
      · exact .inl (Numeral.isDigit_of_mem_toDigits h)

theorem comma_not_mem_rangeText (r : IdRange) : ',' ∉ (rangeText r).toList := by
  intro h
  rcases isDigit_or_hyphen h with h | h <;> exact absurd h (by decide)

theorem ofList_toDigits (n : UInt64) : String.ofList (Nat.toDigits 10 n.toNat) = Numeral.decimal n := by
  rw [← Numeral.toList_decimal, String.ofList_toList]

theorem readPiece_rangeText (r : IdRange) :
    readPiece (rangeText r).toList =
      if maxSpan < r.size then .error (.unparsable (rangeText r) .rangeTooWide) else .ok r := by
  obtain ⟨first, last, ordered⟩ := r
  have hle := UInt64.le_iff_toNat_le.1 ordered
  have noHyphen := fun n => Numeral.not_mem_toDigits (c := '-') (by decide) n
  have span : (maxSpan ≤ last.toNat - first.toNat) ↔
      maxSpan < IdRange.size ⟨first, last, ordered⟩ := by
    simp only [IdRange.size]
    omega
  by_cases single : first = last
  · subst single
    have narrow : ¬maxSpan < IdRange.size ⟨first, first, ordered⟩ := by
      simp [IdRange.size, maxSpan]
    rw [if_neg narrow, readPiece, toList_rangeText, if_pos rfl, Text.cut?_of_not_mem (noHyphen _)]
    simp only [ofList_toDigits, Numeral.read_decimal]
    rfl
  · have chars := toList_rangeText ⟨first, last, ordered⟩
    rw [if_neg single] at chars
    have back : String.ofList (Nat.toDigits 10 first.toNat ++ '-' :: Nat.toDigits 10 last.toNat) =
        rangeText ⟨first, last, ordered⟩ := by
      rw [← chars, String.ofList_toList]
    rw [readPiece, chars, Text.cut?_append_cons (noHyphen _)]
    simp only [ofList_toDigits, Numeral.read_decimal, dif_pos ordered, back, span]

theorem readPieces_of_narrow {ranges : List IdRange} (h : ∀ r ∈ ranges, r.size ≤ maxSpan) :
    readPieces (ranges.map fun r => (rangeText r).toList) = .ok ranges := by
  induction ranges with
  | nil => rfl
  | cons r rest ih =>
    have narrow := Nat.not_lt.2 (h r List.mem_cons_self)
    rw [List.map_cons, readPieces, readPiece_rangeText, if_neg narrow,
      ih fun t ht => h t (List.mem_cons_of_mem r ht)]
    rfl

theorem readPieces_of_wide {ranges : List IdRange} {r : IdRange} (hr : r ∈ ranges)
    (wide : maxSpan < r.size) :
    ∃ piece, readPieces (ranges.map fun r => (rangeText r).toList) =
      .error (.unparsable piece .rangeTooWide) := by
  induction ranges with
  | nil => cases hr
  | cons t rest ih =>
    rw [List.map_cons, readPieces, readPiece_rangeText]
    by_cases ht : maxSpan < t.size
    · exact ⟨rangeText t, by rw [if_pos ht]⟩
    · have tail : r ∈ rest := (List.mem_cons.1 hr).resolve_left fun h => ht (h ▸ wide)
      obtain ⟨piece, hp⟩ := ih tail
      exact ⟨piece, by rw [if_neg ht, hp]; rfl⟩

theorem toList_text (s : IdSet) :
    (text s).toList = [','].intercalate (s.ranges.map fun r => (rangeText r).toList) := by
  rw [text, String.toList_intercalate, List.map_map]
  rfl

theorem not_isBlank_of_mem_text {s : IdSet} {c : Char} (h : c ∈ (text s).toList) :
    ¬Text.isBlank c := by
  rw [toList_text] at h
  rcases Text.mem_intercalate h with rfl | ⟨piece, hp, hc⟩
  · decide
  · obtain ⟨r, -, rfl⟩ := List.mem_map.1 hp
    rcases isDigit_or_hyphen hc with digit | rfl
    · exact Numeral.not_isBlank_of_isDigit digit
    · decide

theorem toList_rangeText_ne_nil (r : IdRange) : (rangeText r).toList ≠ [] := by
  rw [toList_rangeText]
  split <;> simp [Nat.toDigits_ne_nil]

theorem read_text (s : IdSet) :
    read (text s) =
      (readPieces (s.ranges.map fun r => (rangeText r).toList)).map ofRanges := by
  rw [read, Text.trim_of_no_blank fun _ => not_isBlank_of_mem_text, toList_text]
  cases s.ranges with
  | nil => rfl
  | cons r rest =>
    have commas : ∀ piece ∈ (r :: rest).map fun t => (rangeText t).toList, ',' ∉ piece := by
      intro piece hp
      obtain ⟨t, -, rfl⟩ := List.mem_map.1 hp
      exact comma_not_mem_rangeText t
    have pieces := Text.splitAt_intercalate ',' (by simp) commas
    split
    · rename_i none
      rw [none] at pieces
      have first : [] = (rangeText r).toList := (List.cons.inj pieces).1
      exact absurd first.symm (toList_rangeText_ne_nil r)
    · rw [pieces]

/-- Whether some maximal run of consecutive ids is wider than a range may be. -/
def HasWideRun (s : IdSet) : Prop := ∃ r, s.IsRun r ∧ maxSpan < r.size

theorem hasWideRun_iff {s : IdSet} : s.HasWideRun ↔ ∃ r ∈ s.ranges, maxSpan < r.size := by
  unfold HasWideRun
  simp only [isRun_iff_mem_ranges]

instance (s : IdSet) : Decidable s.HasWideRun := decidable_of_iff _ hasWideRun_iff.symm

theorem read_text_of_narrow {s : IdSet} (h : ¬s.HasWideRun) : read (text s) = .ok s := by
  have narrow : ∀ r ∈ s.ranges, r.size ≤ maxSpan := by
    intro r hr
    apply Nat.not_lt.1
    intro wide
    exact h (hasWideRun_iff.2 ⟨r, hr, wide⟩)
  rw [read_text, readPieces_of_narrow narrow]
  exact congrArg Except.ok (ofRanges_ranges s)

theorem read_text_of_wide {s : IdSet} (h : s.HasWideRun) :
    ∃ piece, read (text s) = .error (.unparsable piece .rangeTooWide) := by
  obtain ⟨r, hr, wide⟩ := hasWideRun_iff.1 h
  obtain ⟨piece, hp⟩ := readPieces_of_wide hr wide
  exact ⟨piece, by rw [read_text, hp]; rfl⟩

/-- Two ranges that can be read each for itself, and whose union is one wide run. -/
theorem hasWideRun_of_adjacent_ranges :
    ∃ s, read "0-1048575,1048576-2097151" = .ok s ∧ s.HasWideRun := by
  refine ⟨⟨[⟨0, 2097151, by decide⟩], by simp⟩, rfl, ?_⟩
  decide

/-- A set written in list notation reads back as itself exactly when no run of consecutive ids in
it is wider than a range may be, and is refused as too wide otherwise. Sets with wide runs can be
read themselves, so a text that is read need not be readable once it is rewritten. -/
theorem read_text_roundTrip :
    (∀ s : IdSet, ¬s.HasWideRun → read (text s) = .ok s) ∧
    (∀ s : IdSet, s.HasWideRun →
      ∃ piece, read (text s) = .error (.unparsable piece .rangeTooWide)) ∧
    (∃ t s, read t = .ok s ∧ s.HasWideRun) ∧
    ∀ t s, read t = .ok s →
      ((∃ u, read (text s) = .ok u) ↔ ¬s.HasWideRun) ∧
      ∀ u, read (text s) = .ok u → u = s := by
  have refused : ∀ {s u}, s.HasWideRun → read (text s) ≠ .ok u := by
    intro s u wide read
    obtain ⟨piece, hp⟩ := read_text_of_wide wide
    rw [hp] at read
    cases read
  refine ⟨fun _ => read_text_of_narrow, fun _ => read_text_of_wide, ?_, fun t s _ => ⟨?_, ?_⟩⟩
  · obtain ⟨s, hs⟩ := hasWideRun_of_adjacent_ranges
    exact ⟨_, s, hs⟩
  · exact ⟨fun ⟨u, hu⟩ wide => refused wide hu, fun h => ⟨s, read_text_of_narrow h⟩⟩
  · intro u hu
    have narrow : ¬s.HasWideRun := fun wide => refused wide hu
    rw [read_text_of_narrow narrow] at hu
    cases hu
    rfl

end HostInventory.IdSet
