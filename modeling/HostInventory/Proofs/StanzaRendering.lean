import HostInventory.Proofs.StanzaBlocks

/-! Stanzas written as a text and read back. A text may list the attributes of a stanza in any
order, put blanks around the colons, end a line in either way and leave any number of blank lines
around the stanzas and at least one between them; the same stanzas are read from it. -/
namespace HostInventory.Stanza

def IsPadding (cs : List Char) : Prop := ∀ c ∈ cs, c = ' ' ∨ c = '\t'

inductive IsLineEnd : List Char → Prop
  | lf : IsLineEnd ['\n']
  | crlf : IsLineEnd ['\r', '\n']

inductive BlankLines : List Char → Prop
  | none : BlankLines []
  | more {line ending rest : List Char} : (∀ c ∈ line, Text.isBlank c) → '\n' ∉ line →
      IsLineEnd ending → BlankLines rest → BlankLines (line ++ ending ++ rest)

inductive AttributeLines : List (String × String) → List Char → Prop
  | none : AttributeLines [] []
  | more {key value : String} {left right ending rest : List Char}
      {pairs : List (String × String)} : IsPadding left → IsPadding right → IsLineEnd ending →
      AttributeLines pairs rest → AttributeLines ((key, value) :: pairs)
        (key.toList ++ left ++ ':' :: (right ++ value.toList) ++ ending ++ rest)

def Block (s : Stanza) (cs : List Char) : Prop :=
  ∃ pairs, pairs.Perm s.entries ∧ AttributeLines pairs cs

inductive Blocks : List Stanza → List Char → Prop
  | one {s : Stanza} {block : List Char} : Block s block → Blocks [s] block
  | more {s : Stanza} {stanzas : List Stanza} {block gap rest : List Char} : Block s block →
      BlankLines gap → gap ≠ [] → Blocks stanzas rest → Blocks (s :: stanzas) (block ++ gap ++ rest)

/-- A text that lists the stanzas. -/
inductive Renders : List Stanza → List Char → Prop
  | none {blanks : List Char} : BlankLines blanks → Renders [] blanks
  | some {stanzas : List Stanza} {before cs after : List Char} : BlankLines before →
      Blocks stanzas cs → BlankLines after → Renders stanzas (before ++ cs ++ after)

/-- An attribute whose key and value can be told from what stands around them. -/
structure IsPlain (key value : String) : Prop where
  colon : ':' ∉ key.toList
  keyLine : '\n' ∉ key.toList
  valueLine : '\n' ∉ value.toList
  keyTrim : Text.trim key.toList = key.toList
  valueTrim : Text.trim value.toList = value.toList

instance (key value : String) : Decidable (IsPlain key value) :=
  decidable_of_iff (':' ∉ key.toList ∧ '\n' ∉ key.toList ∧ '\n' ∉ value.toList ∧
      Text.trim key.toList = key.toList ∧ Text.trim value.toList = value.toList)
    ⟨fun ⟨h₁, h₂, h₃, h₄, h₅⟩ => ⟨h₁, h₂, h₃, h₄, h₅⟩,
      fun ⟨h₁, h₂, h₃, h₄, h₅⟩ => ⟨h₁, h₂, h₃, h₄, h₅⟩⟩

structure IsRenderable (s : Stanza) : Prop where
  filled : s.isEmpty = false
  plain : ∀ key value, s.get? key = some value → IsPlain key value

theorem isRenderable_iff {s : Stanza} :
    IsRenderable s ↔ s.isEmpty = false ∧ ∀ e ∈ s.entries, IsPlain e.1 e.2 := by
  constructor
  · intro h
    exact ⟨h.filled, fun e mem => h.plain e.1 e.2 (OrderedMap.get?_eq_some_iff.2 mem)⟩
  · rintro ⟨filled, plain⟩
    exact ⟨filled, fun key value found => plain (key, value) (OrderedMap.get?_eq_some_iff.1 found)⟩

instance (s : Stanza) : Decidable (IsRenderable s) := decidable_of_iff _ isRenderable_iff.symm

section Lines

variable {a b line ending : List Char} {la lb : List (List Char)}

def Ended (cs : List Char) (lines : List (List Char)) : Prop :=
  ∀ rest, Text.lines (cs ++ rest) = lines ++ Text.lines rest

theorem Ended.append (ha : Ended a la) (hb : Ended b lb) : Ended (a ++ b) (la ++ lb) := by
  intro rest
  rw [List.append_assoc, ha, hb, List.append_assoc]

theorem exists_ended (plain : '\n' ∉ line) (h : IsLineEnd ending) :
    ∃ tail, (∀ c ∈ tail, Text.isBlank c) ∧ Ended (line ++ ending) [line ++ tail] := by
  have ended {l : List Char} (hl : '\n' ∉ l) : Ended (l ++ ['\n']) [l] := by
    intro rest
    rw [List.append_assoc, List.singleton_append, Text.lines, Text.splitAt_append_cons,
      Text.splitAt_of_not_mem hl]
    rfl
  cases h with
  | lf => exact ⟨[], by simp, by simpa using ended plain⟩
  | crlf =>
    have whole := ended (l := line ++ ['\r']) (by simpa using plain)
    exact ⟨['\r'], by simpa using by decide, by simpa using whole⟩

theorem BlankLines.exists_ended (h : BlankLines a) :
    ∃ lines, Ended a lines ∧ (∀ line ∈ lines, isBlankLine line) ∧ (a ≠ [] → lines ≠ []) := by
  induction h with
  | none => exact ⟨[], fun _ => rfl, by simp, by simp⟩
  | @more line ending rest blank plain ending' _ ih =>
    obtain ⟨lines, ended, blanks, -⟩ := ih
    obtain ⟨tail, blank', first⟩ := Stanza.exists_ended plain ending'
    refine ⟨_, first.append ended, ?_, by simp⟩
    rw [List.singleton_append, List.forall_mem_cons]
    refine ⟨isBlankLine_iff.2 (Text.trim_of_all_blank ?_), blanks⟩
    simpa [or_imp, forall_and] using ⟨blank, blank'⟩

theorem IsPadding.isBlank {cs : List Char} (h : IsPadding cs) : ∀ c ∈ cs, Text.isBlank c := by
  intro c mem
  rcases h c mem with rfl | rfl <;> decide

theorem IsPadding.not_mem {cs : List Char} (h : IsPadding cs) {c : Char} (space : c ≠ ' ')
    (tab : c ≠ '\t') : c ∉ cs := fun mem => (h c mem).elim space tab

end Lines

section Attributes

variable {key value : String} {left right tail block : List Char} {pairs : List (String × String)}
  {s : Stanza}

theorem attribute?_of_isPlain (plain : IsPlain key value) (hl : IsPadding left)
    (hr : IsPadding right) (ht : ∀ c ∈ tail, Text.isBlank c) :
    attribute? (key.toList ++ left ++ ':' :: (right ++ value.toList) ++ tail) =
      some (key, value) := by
  refine attribute?_eq_some_iff.2
    ⟨key.toList ++ left, right ++ value.toList ++ tail, by simp, ?_, ?_, ?_⟩
  · simpa [plain.colon] using hl.not_mem (by decide) (by decide)
  · rw [Text.trim_append_blanks _ hl.isBlank, plain.keyTrim, String.ofList_toList]
  · rw [Text.trim_append_blanks _ ht, Text.trim_blanks_append hr.isBlank, plain.valueTrim,
      String.ofList_toList]

theorem AttributeLines.exists_ended (h : AttributeLines pairs block)
    (plain : ∀ e ∈ pairs, IsPlain e.1 e.2) :
    ∃ lines, Ended block lines ∧ (∀ line ∈ lines, isBlankLine line = false) ∧
      lines.filterMap attribute? = pairs := by
  induction h with
  | none => exact ⟨[], fun _ => rfl, by simp, rfl⟩
  | @more key value left right ending rest pairs hl hr ending' _ ih =>
    obtain ⟨first, others⟩ := List.forall_mem_cons.1 plain
    obtain ⟨lines, ended, solid, found⟩ := ih others
    have oneLine : '\n' ∉ key.toList ++ left ++ ':' :: (right ++ value.toList) := by
      simp [first.keyLine, first.valueLine, hl.not_mem, hr.not_mem]
    obtain ⟨tail, blank, line⟩ := Stanza.exists_ended oneLine ending'
    refine ⟨_, line.append ended, ?_, ?_⟩
    · rw [List.singleton_append, List.forall_mem_cons]
      exact ⟨isBlankLine_of_mem (by simp), solid⟩
    · rw [List.singleton_append, List.filterMap_cons_some (attribute?_of_isPlain first hl hr blank),
        found]

theorem Block.exists_ended (h : Block s block) (renderable : IsRenderable s) :
    ∃ lines, Ended block lines ∧ ofLines lines = [s] := by
  obtain ⟨pairs, perm, written⟩ := h
  have plain : ∀ e ∈ pairs, IsPlain e.1 e.2 := fun e mem =>
    (isRenderable_iff.1 renderable).2 e (perm.mem_iff.1 mem)
  obtain ⟨lines, ended, solid, found⟩ := written.exists_ended plain
  have filled : pairs ≠ [] := by
    rintro rfl
    have empty := renderable.filled
    simp [OrderedMap.isEmpty, perm.nil_eq.symm] at empty
  have distinct : (pairs.map Prod.fst).Nodup := (perm.map _).nodup_iff.2 s.nodup_keys
  refine ⟨lines, ended, ?_⟩
  rw [ofLines_of_not_blank solid, if_pos (hasColon_of_attribute? (found ▸ filled)), found,
    OrderedMap.ofList_of_perm distinct perm, OrderedMap.ofList_entries]

theorem Blocks.exists_ended {stanzas : List Stanza} {cs : List Char} (h : Blocks stanzas cs)
    (renderable : ∀ s ∈ stanzas, IsRenderable s) :
    ∃ lines, Ended cs lines ∧ ofLines lines = stanzas := by
  induction h with
  | one block => exact block.exists_ended (renderable _ List.mem_cons_self)
  | more block blank filled _ ih =>
    obtain ⟨first, others⟩ := List.forall_mem_cons.1 renderable
    obtain ⟨own, ownEnded, own'⟩ := block.exists_ended first
    obtain ⟨between, gapEnded, blanks, some⟩ := blank.exists_ended
    obtain ⟨rest, restEnded, rest'⟩ := ih others
    obtain ⟨line, gap, rfl⟩ := List.exists_cons_of_ne_nil (some filled)
    obtain ⟨blankLine, gapBlank⟩ := List.forall_mem_cons.1 blanks
    refine ⟨_, (ownEnded.append gapEnded).append restEnded, ?_⟩
    rw [List.append_assoc, List.cons_append, ofLines_append_blank _ _ blankLine,
      ofLines_blanks_append gapBlank, own', rest', List.singleton_append]

/-- Stanzas are read back from every text that lists them. -/
theorem ofText_of_renders {stanzas : List Stanza} {text : String}
    (renderable : ∀ s ∈ stanzas, IsRenderable s) (h : Renders stanzas text.toList) :
    ofText text = stanzas := by
  rw [ofText, ofChars]
  generalize text.toList = cs at h
  cases h with
  | none blank =>
    obtain ⟨lines, ended, blanks, -⟩ := blank.exists_ended
    rw [← List.append_nil cs, ended, ofLines_blanks_append blanks]
    rfl
  | some before blocks after =>
    obtain ⟨front, frontEnded, frontBlank, -⟩ := before.exists_ended
    obtain ⟨lines, ended, found⟩ := blocks.exists_ended renderable
    obtain ⟨back, backEnded, backBlank, -⟩ := after.exists_ended
    have whole := (frontEnded.append ended).append backEnded []
    rw [List.append_nil] at whole
    have last : ∀ line ∈ back ++ Text.lines [], isBlankLine line := by
      simpa [or_imp, forall_and, Text.lines, Text.splitAt] using ⟨backBlank, rfl⟩
    rw [whole, List.append_assoc, List.append_assoc, ofLines_blanks_append frontBlank,
      ofLines_append_blanks _ last, found]

end Attributes

def mixedStanzas : List Stanza := [
  OrderedMap.ofList [("processor", "0"), ("model name", "Foo: Bar"), ("", "")],
  OrderedMap.ofList [("flags", "")]]

def mixedText : String := "\t\r\nmodel name\t: Foo: Bar\r\n:\nprocessor :0\n\n \r\nflags:\n\n"

theorem renders_mixedText : Renders mixedStanzas mixedText.toList := by
  have first : Block (OrderedMap.ofList
      [("processor", "0"), ("model name", "Foo: Bar"), ("", "")]) _ :=
    ⟨[("model name", "Foo: Bar"), ("", ""), ("processor", "0")], by decide,
      @AttributeLines.more _ _ ['\t'] [' '] _ _ _ (by simp [IsPadding]) (by simp [IsPadding]) .crlf
        (@AttributeLines.more _ _ [] [] _ _ _ (by simp [IsPadding]) (by simp [IsPadding]) .lf
          (@AttributeLines.more _ _ [' '] [] _ _ _ (by simp [IsPadding]) (by simp [IsPadding]) .lf
            .none))⟩
  have second : Block (OrderedMap.ofList [("flags", "")]) _ :=
    ⟨[("flags", "")], by decide,
      @AttributeLines.more _ _ [] [] _ _ _ (by simp [IsPadding]) (by simp [IsPadding]) .lf .none⟩
  have before : BlankLines _ := @BlankLines.more ['\t'] _ _ (by simp [Text.isBlank]) (by simp)
    .crlf .none
  have gap : BlankLines _ := @BlankLines.more [] _ _ (by simp) (by simp) .lf
    (@BlankLines.more [' '] _ _ (by simp [Text.isBlank]) (by simp) .crlf .none)
  have after : BlankLines _ := @BlankLines.more [] _ _ (by simp) (by simp) .lf .none
  exact Renders.some before (.more first gap (by decide) (.one second)) after

theorem ofText_mixedText :
    (∀ s ∈ mixedStanzas, IsRenderable s) ∧ Renders mixedStanzas mixedText.toList ∧
    ofText mixedText = mixedStanzas := by
  have renderable : ∀ s ∈ mixedStanzas, IsRenderable s := by decide
  exact ⟨renderable, renders_mixedText, ofText_of_renders renderable renders_mixedText⟩

end HostInventory.Stanza
