import HostInventory.Text.Blank
import HostInventory.Text.Split
import Mathlib.Data.List.DropRight

/-! Taking apart what was put together. Splitting at a separator undoes joining with it as long as
no piece holds the separator. Trimming leaves a text without blanks alone, and it reaches no further
into a text than to its first and last characters that are not blank. -/
namespace HostInventory.Text

theorem splitAt_eq_splitOn (sep : Char) (cs : List Char) : splitAt sep cs = cs.splitOn sep := by
  induction cs with
  | nil => rfl
  | cons c cs ih =>
    rw [splitAt, List.splitOn_cons_eq_if_modifyHead, ih]
    by_cases h : c = sep
    · simp [h]
    · obtain ⟨piece, pieces, hp⟩ := List.exists_cons_of_ne_nil (List.splitOn_ne_nil sep cs)
      simp [h, hp]

theorem splitAt_append_cons (sep : Char) (before after : List Char) :
    splitAt sep (before ++ sep :: after) = splitAt sep before ++ splitAt sep after := by
  simp only [splitAt_eq_splitOn, List.splitOn_append_cons_self]

theorem splitAt_of_not_mem {sep : Char} {cs : List Char} (h : sep ∉ cs) :
    splitAt sep cs = [cs] := by
  rw [splitAt_eq_splitOn, List.splitOn_eq_singleton h]

theorem splitAt_intercalate (sep : Char) {pieces : List (List Char)} (hne : pieces ≠ [])
    (h : ∀ piece ∈ pieces, sep ∉ piece) : splitAt sep ([sep].intercalate pieces) = pieces := by
  rw [splitAt_eq_splitOn, List.splitOn_intercalate sep h hne]

theorem mem_intercalate {sep c : Char} {pieces : List (List Char)}
    (h : c ∈ [sep].intercalate pieces) : c = sep ∨ ∃ piece ∈ pieces, c ∈ piece := by
  induction pieces with
  | nil => simp at h
  | cons piece rest ih =>
    by_cases hrest : rest = []
    · exact .inr ⟨piece, List.mem_cons_self, by simpa [hrest] using h⟩
    · rw [List.intercalate_cons_of_ne_nil hrest] at h
      simp only [List.mem_append, List.mem_singleton] at h
      rcases h with (h | h) | h
      · exact .inr ⟨piece, List.mem_cons_self, h⟩
      · exact .inl h
      · exact (ih h).imp id fun ⟨p, hp, hc⟩ => ⟨p, List.mem_cons_of_mem _ hp, hc⟩

theorem filter_splitAt_intercalate (sep : Char) {pieces : List (List Char)}
    (h : ∀ piece ∈ pieces, piece ≠ [] ∧ sep ∉ piece) :
    (splitAt sep ([sep].intercalate pieces)).filter (· ≠ []) = pieces := by
  by_cases none : pieces = []
  · rw [none]
    rfl
  · rw [splitAt_intercalate sep none fun piece mem => (h piece mem).2, List.filter_eq_self]
    simpa using fun piece mem => (h piece mem).1

theorem mem_splitAt_iff {sep c : Char} (other : c ≠ sep) (cs : List Char) :
    (∃ piece ∈ splitAt sep cs, c ∈ piece) ↔ c ∈ cs := by
  induction cs with
  | nil => simp [splitAt]
  | cons d cs ih =>
    obtain ⟨piece, pieces, found⟩ := List.exists_cons_of_ne_nil (splitAt_ne_nil sep cs)
    rw [found] at ih
    rw [splitAt, found, List.mem_cons, ← ih]
    by_cases here : d = sep
    · simp [here, other]
    · simp [here, or_assoc]

theorem exists_splitAt_append (sep : Char) (cs : List Char) :
    ∃ front last, splitAt sep cs = front ++ [last] ∧
      ∀ rest, sep ∉ rest → splitAt sep (cs ++ rest) = front ++ [last ++ rest] := by
  induction cs with
  | nil => exact ⟨[], [], rfl, fun rest plain => splitAt_of_not_mem plain⟩
  | cons c cs ih =>
    obtain ⟨front, last, pieces, grown⟩ := ih
    by_cases here : c = sep
    · refine ⟨[] :: front, last, by simp [splitAt, here, pieces], fun rest plain => ?_⟩
      simp [splitAt, here, grown rest plain]
    · cases front with
      | nil =>
        refine ⟨[], c :: last, by simp [splitAt, here, pieces], fun rest plain => ?_⟩
        simp [splitAt, here, grown rest plain]
      | cons piece front =>
        refine ⟨(c :: piece) :: front, last, by simp [splitAt, here, pieces],
          fun rest plain => ?_⟩
        simp [splitAt, here, grown rest plain]

theorem lines_unlines {parts : List String} (unbroken : ∀ part ∈ parts, '\n' ∉ part.toList) :
    lines (unlines parts).toList = parts.map String.toList ++ [[]] := by
  induction parts with
  | nil => rfl
  | cons part parts ih =>
    obtain ⟨first, others⟩ := List.forall_mem_cons.1 unbroken
    have text : (unlines (part :: parts)).toList = part.toList ++ '\n' :: (unlines parts).toList := by
      simp [unlines]
    rw [text, lines, splitAt_append_cons, splitAt_of_not_mem first, ← lines, ih others]
    rfl

theorem cut?_of_not_mem {sep : Char} {cs : List Char} (h : sep ∉ cs) : cut? sep cs = none := by
  induction cs with
  | nil => rfl
  | cons c cs ih =>
    simp only [List.mem_cons, not_or] at h
    rw [cut?, if_neg (Ne.symm h.1), ih h.2, Option.map_none]

theorem cut?_append_cons {sep : Char} {before : List Char} (h : sep ∉ before)
    (after : List Char) : cut? sep (before ++ sep :: after) = some (before, after) := by
  induction before with
  | nil => simp [cut?]
  | cons c before ih =>
    simp only [List.mem_cons, not_or] at h
    rw [List.cons_append, cut?, if_neg (Ne.symm h.1), ih h.2, Option.map_some]

theorem dropWhile_isBlank {cs : List Char} (h : ∀ c ∈ cs, ¬isBlank c) :
    cs.dropWhile isBlank = cs := by
  cases cs with
  | nil => rfl
  | cons c cs => simp [h c List.mem_cons_self]

theorem trim_of_no_blank {cs : List Char} (h : ∀ c ∈ cs, ¬isBlank c) : trim cs = cs := by
  have reversed : ∀ c ∈ cs.reverse, ¬isBlank c := by simpa using h
  rw [trim, trimLeft, dropWhile_isBlank h, trimRight, dropWhile_isBlank reversed,
    List.reverse_reverse]

theorem trimLeft_append_cons {c : Char} (solid : ¬isBlank c) (before after : List Char) :
    trimLeft (before ++ c :: after) = trimLeft before ++ c :: after := by
  rw [trimLeft, List.dropWhile_append]
  split <;> simp_all [trimLeft]

theorem trimRight_append_cons {c : Char} (solid : ¬isBlank c) (before after : List Char) :
    trimRight (before ++ c :: after) = before ++ c :: trimRight after := by
  have reversed := trimLeft_append_cons solid after.reverse before.reverse
  have turned : (before ++ c :: after).reverse = after.reverse ++ c :: before.reverse := by simp
  rw [trimRight, turned, ← trimLeft, reversed]
  simp [trimRight, trimLeft]

theorem trim_append_cons {c : Char} (solid : ¬isBlank c) (before after : List Char) :
    trim (before ++ c :: after) = trimLeft before ++ c :: trimRight after := by
  rw [trim, trimLeft_append_cons solid, trimRight_append_cons solid]

theorem trimLeft_of_all_blank {cs : List Char} (h : ∀ c ∈ cs, isBlank c) : trimLeft cs = [] := by
  rw [trimLeft, ← List.append_nil cs, List.dropWhile_append_of_pos h, List.dropWhile_nil]

theorem trimRight_of_all_blank {cs : List Char} (h : ∀ c ∈ cs, isBlank c) : trimRight cs = [] := by
  have reversed : ∀ c ∈ cs.reverse, isBlank c := by simpa using h
  rw [trimRight, ← trimLeft, trimLeft_of_all_blank reversed, List.reverse_nil]

theorem exists_solid {cs : List Char} (h : ¬∀ c ∈ cs, isBlank c) :
    ∃ before c after, cs = before ++ c :: after ∧ ¬isBlank c := by
  obtain ⟨c, member, solid⟩ : ∃ c ∈ cs, ¬isBlank c := by simpa using h
  obtain ⟨before, after, cut⟩ := List.append_of_mem member
  exact ⟨before, c, after, cut, solid⟩

theorem trim_eq_nil_iff {cs : List Char} : trim cs = [] ↔ ∀ c ∈ cs, isBlank c := by
  refine ⟨fun empty => ?_, trim_of_all_blank⟩
  by_contra filled
  obtain ⟨before, c, after, rfl, solid⟩ := exists_solid filled
  simp [trim_append_cons solid] at empty

theorem trim_trimLeft (cs : List Char) : trim (trimLeft cs) = trim cs := by
  simp only [trim, trimLeft, List.dropWhile_idempotent]

theorem trim_trimRight (cs : List Char) : trim (trimRight cs) = trim cs := by
  by_cases h : ∀ c ∈ cs, isBlank c
  · rw [trimRight_of_all_blank h, trim_of_all_blank h]
    rfl
  · obtain ⟨before, c, after, rfl, solid⟩ := exists_solid h
    have again : trimRight (trimRight after) = trimRight after := by
      simp [trimRight, List.dropWhile_idempotent]
    rw [trimRight_append_cons solid, trim_append_cons solid, trim_append_cons solid, again]

theorem trim_trim (cs : List Char) : trim (trim cs) = trim cs :=
  (trim_trimRight (trimLeft cs)).trans (trim_trimLeft cs)

theorem trim_blanks_append {blanks : List Char} (h : ∀ c ∈ blanks, isBlank c) (cs : List Char) :
    trim (blanks ++ cs) = trim cs := by
  rw [trim, trim, trimLeft, List.dropWhile_append_of_pos h, ← trimLeft]

theorem trim_append_blanks (cs : List Char) {blanks : List Char} (h : ∀ c ∈ blanks, isBlank c) :
    trim (cs ++ blanks) = trim cs := by
  have reversed : ∀ c ∈ blanks.reverse, isBlank c := by simpa using h
  have right : trimRight (cs ++ blanks) = trimRight cs := by
    rw [trimRight, List.reverse_append, List.dropWhile_append_of_pos reversed, ← trimRight]
  rw [← trim_trimRight (cs ++ blanks), right, trim_trimRight]

theorem mem_of_mem_trim {c : Char} {cs : List Char} (h : c ∈ trim cs) : c ∈ cs := by
  have left : trimLeft cs ⊆ cs := List.dropWhile_subset _
  have right : trim cs ⊆ trimLeft cs := by
    intro d hd
    simpa using List.dropWhile_subset _ (List.mem_reverse.1 hd)
  exact left (right h)

end HostInventory.Text
