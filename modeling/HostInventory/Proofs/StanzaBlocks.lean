import HostInventory.Proofs.MapEntries
import HostInventory.Proofs.TextPieces
import HostInventory.Stanza
import Mathlib.Data.List.Forall2

/-! The stanzas of a text are its blocks. A block is a maximal run of lines that are not blank. Its
lines with a colon are the attributes of one stanza, of those with one key the last, and a block
without such a line gives no stanza. -/
namespace HostInventory.Stanza

def isBlankLine (line : List Char) : Bool := line.all Text.isBlank

/-- The maximal runs of lines that are not blank, in order. -/
def blocks (lines : List (List Char)) : List (List (List Char)) :=
  (lines.splitOnP isBlankLine).filter (· ≠ [])

def hasColon (block : List (List Char)) : Bool := block.any fun line => line.contains ':'

def Assigns (line : List Char) (key value : String) : Prop :=
  ∃ before after, line = before ++ ':' :: after ∧ ':' ∉ before ∧
    String.ofList (Text.trim before) = key ∧ String.ofList (Text.trim after) = value

/-- The keys of the stanza are those of the block's lines, each with the value that the last line
with this key assigns to it. -/
structure Describes (block : List (List Char)) (s : Stanza) : Prop where
  keys : ∀ key, s.contains key ↔ ∃ line ∈ block, ∃ value, Assigns line key value
  values : ∀ key value, s.get? key = some value ↔
    ∃ earlier line later, block = earlier ++ line :: later ∧ Assigns line key value ∧
      ∀ other ∈ later, ∀ value', ¬Assigns other key value'

section Lines

def attribute? (line : List Char) : Option (String × String) :=
  (Text.cut? ':' line).map fun parts =>
    (String.ofList (Text.trim parts.1), String.ofList (Text.trim parts.2))

theorem attribute?_eq_some_iff {line : List Char} {key value : String} :
    attribute? line = some (key, value) ↔ Assigns line key value := by
  constructor
  · intro found
    obtain ⟨⟨before, after⟩, cut, pair⟩ := Option.map_eq_some_iff.1 found
    obtain ⟨whole, first⟩ := Text.eq_of_cut? cut
    obtain ⟨rfl, rfl⟩ := Prod.mk.inj pair
    exact ⟨before, after, whole, first, rfl, rfl⟩
  · rintro ⟨before, after, rfl, first, rfl, rfl⟩
    rw [attribute?, Text.cut?_append_cons first, Option.map_some]

theorem attribute?_eq_none_iff {line : List Char} : attribute? line = none ↔ ':' ∉ line := by
  constructor
  · intro none colon
    obtain ⟨before, after, rfl, first⟩ := List.eq_append_cons_of_mem colon
    simp [attribute?, Text.cut?_append_cons first] at none
  · intro absent
    rw [attribute?, Text.cut?_of_not_mem absent, Option.map_none]

theorem attribute?_trim (line : List Char) : attribute? (Text.trim line) = attribute? line := by
  by_cases colon : ':' ∈ line
  · obtain ⟨before, after, rfl, first⟩ := List.eq_append_cons_of_mem colon
    have first' : ':' ∉ Text.trimLeft before := fun h => first (List.dropWhile_subset _ h)
    rw [Text.trim_append_cons (by decide), attribute?, attribute?, Text.cut?_append_cons first,
      Text.cut?_append_cons first']
    simp only [Option.map_some, Text.trim_trimLeft, Text.trim_trimRight]
  · have colon' : ':' ∉ Text.trim line := fun h => colon (Text.mem_of_mem_trim h)
    rw [attribute?_eq_none_iff.2 colon, attribute?_eq_none_iff.2 colon']

theorem isBlankLine_iff {line : List Char} : isBlankLine line ↔ Text.trim line = [] := by
  rw [Text.trim_eq_nil_iff, isBlankLine, List.all_eq_true]

theorem isBlankLine_of_mem {line : List Char} (colon : ':' ∈ line) : isBlankLine line = false := by
  apply Bool.eq_false_iff.2
  intro blank
  exact absurd (List.all_eq_true.1 blank ':' colon) (by decide)

end Lines

namespace Draft

def add (d : Draft) (pair : String × String) : Draft :=
  ⟨d.finished, some ((d.current.getD ∅).insert pair.1 pair.2)⟩

theorem line_of_blank (d : Draft) {line : List Char} (blank : isBlankLine line) :
    d.line line = d.close := by
  rw [Draft.line, isBlankLine_iff.1 blank]

theorem line_of_not_blank (d : Draft) {line : List Char} (solid : isBlankLine line = false) :
    d.line line = (attribute? line).elim d d.add := by
  have filled : Text.trim line ≠ [] := fun empty => by simp [isBlankLine_iff.2 empty] at solid
  rw [Draft.line, ← attribute?_trim]
  split
  · contradiction
  · rw [attribute?]
    split <;> rename_i cut <;> simp only [cut] <;> rfl

theorem foldl_line_of_not_blank (d : Draft) {block : List (List Char)}
    (solid : ∀ line ∈ block, isBlankLine line = false) :
    block.foldl line d = (block.filterMap attribute?).foldl add d := by
  induction block generalizing d with
  | nil => rfl
  | cons first rest ih =>
    have others := ih (d.line first) fun l hl => solid l (List.mem_cons_of_mem first hl)
    rw [List.foldl_cons, others, line_of_not_blank d (solid first List.mem_cons_self)]
    cases found : attribute? first with
    | none => rw [List.filterMap_cons_none found]; rfl
    | some pair => rw [List.filterMap_cons_some found]; rfl

theorem foldl_add (d : Draft) (pair : String × String) (pairs : List (String × String)) :
    (pair :: pairs).foldl add d = ⟨d.finished, some
      ((pair :: pairs).foldl (fun s e => s.insert e.1 e.2) (d.current.getD ∅))⟩ := by
  induction pairs generalizing d pair with
  | nil => rfl
  | cons next rest ih => exact ih (d.add pair) next

def after (d : Draft) (finished : List Stanza) : Draft := ⟨d.finished ++ finished, d.current⟩

theorem close_after (d : Draft) (finished : List Stanza) :
    (d.after finished).close = d.close.after finished := by
  cases d with
  | mk own current => cases current <;> rfl

theorem line_after (d : Draft) (finished : List Stanza) (line : List Char) :
    (d.after finished).line line = (d.line line).after finished := by
  cases blank : isBlankLine line with
  | true => rw [line_of_blank _ blank, line_of_blank _ blank, close_after]
  | false =>
    rw [line_of_not_blank _ blank, line_of_not_blank _ blank]
    cases attribute? line <;> rfl

theorem foldl_line_after (d : Draft) (finished : List Stanza) (lines : List (List Char)) :
    lines.foldl line (d.after finished) = (lines.foldl line d).after finished :=
  List.foldl_hom (fun d => d.after finished) fun d line => line_after d finished line

theorem current_close (d : Draft) : d.close.current = none := by
  cases d with
  | mk finished current => cases current <;> rfl

theorem close_eq_start_after (d : Draft) : d.close = start.after d.close.finished :=
  congrArg (Draft.mk d.close.finished) d.current_close

end Draft

/-- A blank line cuts the lines in two listings that are read each for itself. -/
theorem ofLines_append_blank (before after : List (List Char)) {line : List Char}
    (blank : isBlankLine line) :
    ofLines (before ++ line :: after) = ofLines before ++ ofLines after := by
  let d := before.foldl Draft.line .start
  obtain ⟨finished, closed⟩ : ∃ finished, d.close = Draft.start.after finished :=
    ⟨_, d.close_eq_start_after⟩
  have earlier : ofLines before = finished.reverse := congrArg (·.finished.reverse) closed
  rw [earlier, ofLines, ofLines, List.foldl_append, List.foldl_cons, Draft.line_of_blank _ blank,
    closed, Draft.foldl_line_after, Draft.close_after, Draft.after, List.reverse_append]

theorem hasColon_of_attribute? {block : List (List Char)}
    (some : block.filterMap attribute? ≠ []) : hasColon block := by
  obtain ⟨pair, found⟩ := List.exists_mem_of_ne_nil _ some
  obtain ⟨line, member, assigned⟩ := List.mem_filterMap.1 found
  have here : ':' ∈ line := by
    by_contra absent
    simp [attribute?_eq_none_iff.2 absent] at assigned
  exact List.any_eq_true.2 ⟨line, member, by simpa using here⟩

theorem ofLines_of_not_blank {block : List (List Char)}
    (solid : ∀ line ∈ block, isBlankLine line = false) :
    ofLines block =
      if hasColon block then [OrderedMap.ofList (block.filterMap attribute?)] else [] := by
  rw [ofLines, Draft.foldl_line_of_not_blank _ solid]
  cases found : block.filterMap attribute? with
  | nil =>
    have plain : ¬hasColon block := by
      have none := List.filterMap_eq_nil_iff.1 found
      simpa [hasColon, attribute?_eq_none_iff] using none
    rw [if_neg plain]
    rfl
  | cons pair rest =>
    rw [if_pos (hasColon_of_attribute? (by simp [found])), Draft.foldl_add]
    rfl

theorem describes_ofList (block : List (List Char)) :
    Describes block (OrderedMap.ofList (block.filterMap attribute?)) where
  keys key := by
    simp only [OrderedMap.contains_ofList_filterMap_iff, attribute?_eq_some_iff]
  values key value := by
    simp only [OrderedMap.get?_ofList_filterMap_eq_some_iff, Ne, attribute?_eq_some_iff]

theorem isEmpty_of_describes {block : List (List Char)} {s : Stanza} (colon : hasColon block)
    (describes : Describes block s) : s.isEmpty = false := by
  obtain ⟨line, member, here⟩ := List.any_eq_true.1 colon
  obtain ⟨⟨key, value⟩, found⟩ : ∃ pair, attribute? line = some pair := by
    apply Option.ne_none_iff_exists'.1
    intro none
    exact attribute?_eq_none_iff.1 none (by simpa using here)
  exact OrderedMap.isEmpty_of_contains
    ((describes.keys key).2 ⟨line, member, value, attribute?_eq_some_iff.1 found⟩)

theorem blocks_append_blank (before after : List (List Char)) {line : List Char}
    (blank : isBlankLine line) :
    blocks (before ++ line :: after) = blocks before ++ blocks after := by
  rw [blocks, List.splitOnP_append_cons _ _ blank, List.filter_append]
  rfl

theorem filter_hasColon_blocks {block : List (List Char)}
    (solid : ∀ line ∈ block, isBlankLine line = false) :
    (blocks block).filter hasColon = if hasColon block then [block] else [] := by
  rw [blocks, List.splitOnP_eq_singleton solid]
  cases block with
  | nil => rfl
  | cons line rest => simp [List.filter_cons]

@[elab_as_elim]
theorem block_induction {motive : List (List Char) → Prop}
    (block : ∀ block, (∀ line ∈ block, isBlankLine line = false) → motive block)
    (cut : ∀ before line after, isBlankLine line → motive before → motive after →
      motive (before ++ line :: after))
    (lines : List (List Char)) : motive lines := by
  -- the block that the lines so far have left open stands before those still to come
  suffices ∀ opened, (∀ line ∈ opened, isBlankLine line = false) → motive (opened ++ lines) from
    this [] (by simp)
  induction lines with
  | nil =>
    intro opened solid
    rw [List.append_nil]
    exact block opened solid
  | cons line rest ih =>
    intro opened solid
    cases blank : isBlankLine line with
    | true => exact cut opened line rest blank (block opened solid) (ih [] (by simp))
    | false =>
      have longer : ∀ l ∈ opened ++ [line], isBlankLine l = false := by
        simpa [or_imp, forall_and, blank] using solid
      simpa using ih (opened ++ [line]) longer

theorem forall₂_describes (lines : List (List Char)) :
    List.Forall₂ Describes ((blocks lines).filter hasColon) (ofLines lines) := by
  induction lines using block_induction with
  | block block solid =>
    rw [filter_hasColon_blocks solid, ofLines_of_not_blank solid]
    split
    · exact .cons (describes_ofList block) .nil
    · exact .nil
  | cut before line after blank ihb iha =>
    rw [blocks_append_blank _ _ blank, List.filter_append, ofLines_append_blank _ _ blank]
    exact List.rel_append ihb iha

theorem isEmpty_of_mem_ofLines {lines : List (List Char)} :
    ∀ s ∈ ofLines lines, s.isEmpty = false := by
  induction lines using block_induction with
  | block block solid =>
    rw [ofLines_of_not_blank solid]
    split
    · rename_i colon
      simpa using isEmpty_of_describes colon (describes_ofList block)
    · simp
  | cut before line after blank ihb iha =>
    rw [ofLines_append_blank _ _ blank, List.forall_mem_append]
    exact ⟨ihb, iha⟩

theorem ofLines_eq_nil_iff {lines : List (List Char)} :
    ofLines lines = [] ↔ ∀ line ∈ lines, ':' ∉ line := by
  induction lines using block_induction with
  | block block solid =>
    rw [ofLines_of_not_blank solid]
    simp [hasColon]
  | cut before line after blank ihb iha =>
    have plain : ':' ∉ line := fun colon => by simp [isBlankLine_of_mem colon] at blank
    rw [ofLines_append_blank _ _ blank, List.append_eq_nil_iff, ihb, iha]
    simp [or_imp, forall_and, plain]

theorem ofLines_blanks_append {blanks : List (List Char)} (all : ∀ line ∈ blanks, isBlankLine line)
    (lines : List (List Char)) : ofLines (blanks ++ lines) = ofLines lines := by
  induction blanks with
  | nil => rfl
  | cons line rest ih =>
    have tail := ih fun l hl => all l (List.mem_cons_of_mem line hl)
    have cut := ofLines_append_blank [] (rest ++ lines) (all line List.mem_cons_self)
    rw [tail] at cut
    exact cut

theorem ofLines_append_plain (earlier later : List (List Char)) {line : List Char}
    (solid : isBlankLine line = false) (plain : ':' ∉ line) :
    ofLines (earlier ++ line :: later) = ofLines (earlier ++ later) := by
  have passed (d : Draft) : d.line line = d := by
    rw [Draft.line_of_not_blank d solid, attribute?_eq_none_iff.2 plain, Option.elim_none]
  rw [ofLines, ofLines, List.foldl_append, List.foldl_append, List.foldl_cons, passed]

theorem ofLines_append_blanks (lines : List (List Char)) {blanks : List (List Char)}
    (all : ∀ line ∈ blanks, isBlankLine line) : ofLines (lines ++ blanks) = ofLines lines := by
  cases blanks with
  | nil => rw [List.append_nil]
  | cons line rest =>
    have silent := ofLines_blanks_append (fun l hl => all l (List.mem_cons_of_mem line hl)) []
    rw [List.append_nil] at silent
    rw [ofLines_append_blank _ _ (all line List.mem_cons_self), silent]
    exact List.append_nil _

/-- A text lists one stanza for each block with a colon, in order, with the keys and the last values
of its lines. None of them is empty, lines without a colon neither end nor split one, and blank
lines do no more than the first of them does. -/
theorem ofText_blocks (text : String) :
    List.Forall₂ Describes ((blocks (Text.lines text.toList)).filter hasColon) (ofText text) ∧
    (∀ s ∈ ofText text, s.isEmpty = false) ∧
    (∀ earlier line later, isBlankLine line = false → ':' ∉ line →
      ofLines (earlier ++ line :: later) = ofLines (earlier ++ later)) ∧
    ∀ blanks, (∀ line ∈ blanks, isBlankLine line) → ∀ earlier later,
      ofLines (blanks ++ later) = ofLines later ∧
      ofLines (earlier ++ blanks) = ofLines earlier ∧
      ∀ line, isBlankLine line →
        ofLines (earlier ++ line :: (blanks ++ later)) = ofLines (earlier ++ line :: later) := by
  refine ⟨forall₂_describes _, isEmpty_of_mem_ofLines,
    fun earlier line later => ofLines_append_plain earlier later,
    fun blanks all earlier later => ⟨ofLines_blanks_append all later,
      ofLines_append_blanks earlier all, fun line blank => ?_⟩⟩
  rw [ofLines_append_blank _ _ blank, ofLines_append_blank _ _ blank, ofLines_blanks_append all]

end HostInventory.Stanza
