/-! Finite sets of 64-bit ids, kept as their ranges: intervals in ascending order with at least
one missing id between neighbours. A set of a million ids in one interval is one range, and equal
sets have equal ranges. -/
namespace HostInventory

structure IdRange where
  first : UInt64
  last : UInt64
  ordered : first ≤ last
  deriving DecidableEq

namespace IdRange

def single (id : UInt64) : IdRange := ⟨id, id, UInt64.le_refl id⟩

def size (r : IdRange) : Nat := r.last.toNat - r.first.toNat + 1

def toList (r : IdRange) : List UInt64 := (List.range' r.first.toNat r.size).map .ofNat

/-- The smallest range that holds both. -/
def hull (r s : IdRange) : IdRange where
  first := if r.first ≤ s.first then r.first else s.first
  last := if r.last ≤ s.last then s.last else r.last
  ordered := by
    have hr := UInt64.le_iff_toNat_le.1 r.ordered
    have hs := UInt64.le_iff_toNat_le.1 s.ordered
    split <;> split <;> simp_all only [UInt64.le_iff_toNat_le] <;> omega

/-- Whether `r` ends so far below `s` that some id lies between them. -/
def Below (r s : IdRange) : Prop := r.last.toNat + 1 < s.first.toNat

instance (r s : IdRange) : Decidable (r.Below s) := inferInstanceAs (Decidable (_ < _))

def Holds (r : IdRange) (id : UInt64) : Prop := r.first ≤ id ∧ id ≤ r.last

instance (r : IdRange) (id : UInt64) : Decidable (r.Holds id) :=
  inferInstanceAs (Decidable (_ ∧ _))

theorem holds_single {id x : UInt64} : (single id).Holds x ↔ x = id := by
  simp only [Holds, single, UInt64.le_iff_toNat_le, ← UInt64.toNat_inj]
  omega

/-- Ranges with no id between them cover together what their hull covers. -/
theorem holds_hull {r s : IdRange} (h₁ : ¬r.Below s) (h₂ : ¬s.Below r) {id : UInt64} :
    (r.hull s).Holds id ↔ r.Holds id ∨ s.Holds id := by
  have hr := UInt64.le_iff_toNat_le.1 r.ordered
  have hs := UInt64.le_iff_toNat_le.1 s.ordered
  simp only [Below, Holds, hull] at *
  split <;> split <;> simp_all only [UInt64.le_iff_toNat_le] <;> omega

end IdRange

structure IdSet where
  ranges : List IdRange
  apart : ranges.Pairwise IdRange.Below
  deriving DecidableEq

namespace IdSet

def empty : IdSet := ⟨[], .nil⟩

instance : EmptyCollection IdSet := ⟨empty⟩

instance : Membership UInt64 IdSet := ⟨fun s id => ∃ r ∈ s.ranges, r.Holds id⟩

instance (id : UInt64) (s : IdSet) : Decidable (id ∈ s) :=
  inferInstanceAs (Decidable (∃ r ∈ s.ranges, r.Holds id))

theorem mem_iff {id : UInt64} {s : IdSet} : id ∈ s ↔ ∃ r ∈ s.ranges, r.Holds id := .rfl

/-- A range takes in every range that it meets or touches. -/
def absorb (r : IdRange) : List IdRange → List IdRange
  | [] => [r]
  | s :: rest =>
    if r.Below s then r :: s :: rest
    else if s.Below r then s :: absorb r rest
    else absorb (r.hull s) rest

theorem above_absorb {b : Nat} {r : IdRange} {ranges : List IdRange} (hr : b < r.first.toNat)
    (h : ∀ s ∈ ranges, b < s.first.toNat) : ∀ x ∈ absorb r ranges, b < x.first.toNat := by
  induction ranges generalizing r with
  | nil => simpa [absorb] using hr
  | cons s rest ih =>
    have hs := h s List.mem_cons_self
    have hrest := fun x hx => h x (List.mem_cons_of_mem s hx)
    rw [absorb]
    split
    · simpa [hr, hs] using hrest
    · split
      · simpa [hs] using ih hr hrest
      · refine ih ?_ hrest
        simp only [IdRange.hull]
        split <;> assumption

theorem apart_absorb {r : IdRange} {ranges : List IdRange} (h : ranges.Pairwise IdRange.Below) :
    (absorb r ranges).Pairwise IdRange.Below := by
  induction ranges generalizing r with
  | nil => simp [absorb]
  | cons s rest ih =>
    obtain ⟨hs, hrest⟩ := List.pairwise_cons.1 h
    rw [absorb]
    split
    · rename_i hrs
      refine List.pairwise_cons.2 ⟨fun x hx => ?_, h⟩
      rcases List.mem_cons.1 hx with rfl | hx
      · exact hrs
      · have h₁ := hs x hx
        have h₂ := UInt64.le_iff_toNat_le.1 s.ordered
        simp only [IdRange.Below] at *
        omega
    · split
      · rename_i hsr
        exact List.pairwise_cons.2 ⟨above_absorb hsr hs, ih hrest⟩
      · exact ih hrest

theorem holds_absorb {r : IdRange} {ranges : List IdRange} {id : UInt64} :
    (∃ x ∈ absorb r ranges, x.Holds id) ↔ r.Holds id ∨ ∃ x ∈ ranges, x.Holds id := by
  induction ranges generalizing r with
  | nil => simp [absorb]
  | cons s rest ih =>
    rw [absorb]
    split
    · simp
    · split
      · simp only [List.mem_cons, exists_eq_or_imp, ih]
        exact or_left_comm
      · rename_i h₁ h₂
        simp only [List.mem_cons, exists_eq_or_imp, ih, IdRange.holds_hull h₁ h₂, or_assoc]

def insertRange (s : IdSet) (r : IdRange) : IdSet := ⟨absorb r s.ranges, apart_absorb s.apart⟩

def insert (s : IdSet) (id : UInt64) : IdSet := s.insertRange (.single id)

def ofRanges (ranges : List IdRange) : IdSet := ranges.foldl insertRange empty

def ofList (ids : List UInt64) : IdSet := ids.foldl insert empty

theorem mem_insertRange {s : IdSet} {r : IdRange} {id : UInt64} :
    id ∈ s.insertRange r ↔ r.Holds id ∨ id ∈ s := holds_absorb

theorem mem_insert {s : IdSet} {id x : UInt64} : x ∈ s.insert id ↔ x = id ∨ x ∈ s := by
  simp only [insert, mem_insertRange, IdRange.holds_single]

@[simp] theorem not_mem_empty {id : UInt64} : id ∉ empty := by
  simp [mem_iff, empty]

def toList (s : IdSet) : List UInt64 := s.ranges.flatMap IdRange.toList

def size (s : IdSet) : Nat := s.ranges.foldr (fun r n => r.size + n) 0

def least? (s : IdSet) : Option UInt64 := s.ranges.head?.map IdRange.first

end IdSet

end HostInventory
