import HostInventory.FileTree

/-! Names on the way of a walk. A walk that comes to its end has found an object under every proper
name of its path that other names follow, whatever links it went through. -/
namespace HostInventory.FileTree

/-- A name that a walk looks up, rather than staying where it is or going up. -/
structure IsProper (name : String) : Prop where
  ne_empty : name ≠ ""
  ne_dot : name ≠ "."
  ne_dots : name ≠ ".."

def HasName (t : FileTree) (name : String) : Prop := ∃ above, (t.node? (name :: above)).isSome

variable {t : FileTree} {purpose : Purpose} {name : String} {back : List String}

theorem hasName_of_follow_head {dir : Location} {stop : Stop} (proper : IsProper name)
    (hback : back ≠ []) (h : t.follow purpose dir (name :: back) = .ok stop) : t.HasName name := by
  have more : back.isEmpty = false := by simpa using hback
  unfold follow at h
  rw [if_neg (not_or.2 ⟨proper.ne_empty, proper.ne_dot⟩), if_neg proper.ne_dots] at h
  split at h
  · cases h
  · split at h
    · cases h
    · refine ⟨dir, ?_⟩
      cases found : t.node? (name :: dir) with
      | none => simp [found, more] at h
      | some node => rfl

theorem hasName_or_link_of_follow {front : List String} {dir : Location} {stop : Stop}
    (proper : IsProper name) (hback : back ≠ [])
    (h : t.follow purpose dir (front ++ name :: back) = .ok stop) :
    t.HasName name ∨ ∃ dir' target rest, stop = .link dir' target (rest ++ name :: back) := by
  induction front generalizing dir with
  | nil => exact .inl (hasName_of_follow_head proper hback h)
  | cons first front ih =>
    rw [List.cons_append] at h
    unfold follow at h
    split at h
    · exact ih h
    · split at h
      · exact ih h
      · split at h
        · cases h
        · split at h
          · cases h
          · split at h
            · simp at h
            · exact ih h
            · simp at h
            · cases h
              exact .inr ⟨_, _, front, rfl⟩

theorem follow_of_walk {links : Nat} {names : List String} {dir : Location} {target : Target}
    (h : t.walk purpose links dir names = .ok target) :
    ∃ stop, t.follow purpose dir names = .ok stop ∧
      ∀ dir' text rest, stop = .link dir' text rest → ∃ fewer, links = fewer + 1 ∧
        t.walk purpose fewer (origin dir' text) ((Path.mk text).pieces ++ rest) = .ok target := by
  unfold walk at h
  split at h
  · cases h
  · rename_i found
    refine ⟨_, found, ?_⟩
    intro dir' text rest link
    cases link
  · rename_i found
    refine ⟨_, found, ?_⟩
    intro dir' text rest link
    cases link
    cases links with
    | zero => cases h
    | succ fewer => exact ⟨fewer, rfl, h⟩

theorem hasName_of_walk {links : Nat} {front : List String} {dir : Location} {target : Target}
    (proper : IsProper name) (hback : back ≠ [])
    (h : t.walk purpose links dir (front ++ name :: back) = .ok target) : t.HasName name := by
  induction links generalizing dir front with
  | zero =>
    obtain ⟨stop, found, again⟩ := follow_of_walk h
    rcases hasName_or_link_of_follow proper hback found with found | ⟨dir', text, rest, link⟩
    · exact found
    · obtain ⟨fewer, none, -⟩ := again _ _ _ link
      exact absurd none.symm (Nat.succ_ne_zero fewer)
  | succ links ih =>
    obtain ⟨stop, found, again⟩ := follow_of_walk h
    rcases hasName_or_link_of_follow proper hback found with found | ⟨dir', text, rest, link⟩
    · exact found
    · obtain ⟨fewer, one, next⟩ := again _ _ _ link
      cases one
      rw [← List.append_assoc] at next
      exact ih next

theorem hasName_of_read {front : List String} {dir : Location} {path : Path} {bytes : List UInt8}
    (proper : IsProper name) (hback : back ≠ []) (pieces : path.pieces = front ++ name :: back)
    (h : t.read dir path = .ok bytes) : t.HasName name := by
  unfold read at h
  cases found : t.locate .find dir path with
  | error fault => simp [found] at h
  | ok target =>
    unfold locate at found
    split at found
    · cases found
    · split at found
      · cases found
      · split at found
        · cases found
        · rw [pieces] at found
          exact hasName_of_walk proper hback found

theorem mem_of_find? {place : Location} {nodes : List (Location × Node)}
    (h : (find? place nodes).isSome) : place ∈ nodes.map Prod.fst := by
  induction nodes with
  | nil => simp [find?] at h
  | cons e rest ih =>
    rw [find?] at h
    split at h
    · rename_i same
      simp [beq_iff_eq.1 same]
    · simp [ih h]

theorem mem_names_of_hasName (h : t.HasName name) :
    some name ∈ t.nodes.map fun e => e.1.head? := by
  obtain ⟨above, found⟩ := h
  obtain ⟨e, he, place⟩ := List.mem_map.1 (mem_of_find? found)
  exact List.mem_map.2 ⟨e, he, by rw [place]; rfl⟩

end HostInventory.FileTree
