/-! Cutting a text at a character: at every occurrence, at the first one, or into lines. Lines
are put together again with a line feed after each. -/
namespace HostInventory.Text

/-- The pieces between the occurrences of `sep`; a text without it is one piece. -/
def splitAt (sep : Char) : List Char → List (List Char)
  | [] => [[]]
  | c :: cs =>
    if c = sep then [] :: splitAt sep cs
    else match splitAt sep cs with
      | [] => [[c]]
      | piece :: pieces => (c :: piece) :: pieces

theorem splitAt_ne_nil (sep : Char) (cs : List Char) : splitAt sep cs ≠ [] := by
  cases cs with
  | nil => simp [splitAt]
  | cons c cs =>
    rw [splitAt]
    split
    · simp
    · split <;> simp

/-- What stands before and after the first `sep`. -/
def cut? (sep : Char) : List Char → Option (List Char × List Char)
  | [] => none
  | c :: cs =>
    if c = sep then some ([], cs)
    else (cut? sep cs).map fun parts => (c :: parts.1, parts.2)

theorem eq_of_cut? {sep : Char} {cs before after : List Char}
    (h : cut? sep cs = some (before, after)) : cs = before ++ sep :: after ∧ sep ∉ before := by
  induction cs generalizing before with
  | nil => simp [cut?] at h
  | cons c cs ih =>
    rw [cut?] at h
    split at h
    · rename_i hc
      obtain ⟨rfl, rfl⟩ := by simpa using h
      simp [hc]
    · rename_i hc
      obtain ⟨⟨b, a⟩, hp, he⟩ := Option.map_eq_some_iff.1 h
      obtain ⟨rfl, rfl⟩ := by simpa using he
      obtain ⟨rfl, hb⟩ := ih hp
      simp [hb, Ne.symm hc]

/-- The pieces between line feeds. A carriage return before a line feed is left in its line,
where trimming removes it. -/
def lines (cs : List Char) : List (List Char) := splitAt '\n' cs

def unlines (parts : List String) : String := String.join (parts.map (· ++ "\n"))

end HostInventory.Text
