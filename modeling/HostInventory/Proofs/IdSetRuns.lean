import HostInventory.IdSet
import Mathlib.Data.List.Nodup
import Mathlib.Data.List.Pairwise
import Mathlib.Data.Set.Card

/-! The ranges of an id set against its members. They list every member once, in ascending order,
and they are exactly the maximal runs of consecutive members; the least member and the number
of members are read off them. -/
namespace HostInventory

namespace IdRange

theorem mem_toList {r : IdRange} {id : UInt64} : id ∈ r.toList ↔ r.Holds id := by
  have ordered := UInt64.le_iff_toNat_le.1 r.ordered
  have bound := r.last.toNat_lt
  simp only [toList, List.mem_map, List.mem_range'_1, size, Holds, UInt64.le_iff_toNat_le]
  constructor
  · rintro ⟨n, hn, rfl⟩
    rw [UInt64.toNat_ofNat_of_lt' (by simp only [UInt64.size]; omega)]
    omega
  · intro h
    exact ⟨id.toNat, by omega, UInt64.ofNat_toNat⟩

@[simp] theorem length_toList (r : IdRange) : r.toList.length = r.size := by
  simp [toList]

theorem nodup_toList (r : IdRange) : r.toList.Nodup := by
  have ordered := UInt64.le_iff_toNat_le.1 r.ordered
  have bound := r.last.toNat_lt
  apply List.Nodup.map_on _ List.nodup_range'
  intro a ha b hb h
  simp only [List.mem_range'_1, size] at ha hb
  have := congrArg UInt64.toNat h
  rwa [UInt64.toNat_ofNat_of_lt' (by simp only [UInt64.size]; omega),
    UInt64.toNat_ofNat_of_lt' (by simp only [UInt64.size]; omega)] at this

theorem not_below_of_below {r s : IdRange} (h : r.Below s) : ¬s.Below r := by
  have hr := UInt64.le_iff_toNat_le.1 r.ordered
  have hs := UInt64.le_iff_toNat_le.1 s.ordered
  simp only [Below] at *
  omega

theorem below_trans {r s t : IdRange} (h : r.Below s) (h' : s.Below t) : r.Below t := by
  have ordered := UInt64.le_iff_toNat_le.1 s.ordered
  simp only [Below] at *
  omega

theorem ncard_holds (r : IdRange) : {id | r.Holds id}.ncard = r.size := by
  have members : {id | r.Holds id} = (r.toList.toFinset : Set UInt64) := by
    ext id
    simp [mem_toList]
  rw [members, Set.ncard_coe_finset, List.toFinset_card_of_nodup r.nodup_toList, length_toList]

theorem not_holds_of_below {r s : IdRange} (h : r.Below s ∨ s.Below r) {id : UInt64}
    (hr : r.Holds id) : ¬s.Holds id := by
  simp only [Below, Holds, UInt64.le_iff_toNat_le] at *
  omega

end IdRange

namespace IdSet

theorem below_or_below {s : IdSet} {r t : IdRange} (hr : r ∈ s.ranges) (ht : t ∈ s.ranges)
    (hne : r ≠ t) : r.Below t ∨ t.Below r := by
  have apart : s.ranges.Pairwise fun a b => a.Below b ∨ b.Below a := s.apart.imp Or.inl
  have symm : Std.Symm fun a b : IdRange => a.Below b ∨ b.Below a := ⟨fun _ _ => Or.symm⟩
  exact apart.forall hr ht hne

theorem mem_toList {s : IdSet} {id : UInt64} : id ∈ s.toList ↔ id ∈ s := by
  simp only [toList, List.mem_flatMap, IdRange.mem_toList, mem_iff]

theorem length_toList (s : IdSet) : s.toList.length = s.size := by
  unfold toList size
  induction s.ranges with
  | nil => rfl
  | cons r rest ih =>
    rw [List.flatMap_cons, List.length_append, IdRange.length_toList, ih, List.foldr_cons]

theorem nodup_toList (s : IdSet) : s.toList.Nodup := by
  refine List.nodup_flatMap.2 ⟨fun r _ => r.nodup_toList, s.apart.imp fun h id hr hs => ?_⟩
  exact IdRange.not_holds_of_below (.inl h) (IdRange.mem_toList.1 hr) (IdRange.mem_toList.1 hs)

theorem size_eq_ncard (s : IdSet) : s.size = {id | id ∈ s}.ncard := by
  have members : {id | id ∈ s} = (s.toList.toFinset : Set UInt64) := by
    ext id
    simp [mem_toList]
  rw [members, Set.ncard_coe_finset, List.toFinset_card_of_nodup s.nodup_toList, length_toList]

theorem least?_eq_none {s : IdSet} (h : s.least? = none) (id : UInt64) : id ∉ s := by
  have none : s.ranges = [] := by simpa [least?] using h
  simp [mem_iff, none]

theorem isLeast_of_least? {s : IdSet} {least : UInt64} (h : s.least? = some least) :
    least ∈ s ∧ ∀ id ∈ s, least ≤ id := by
  obtain ⟨r, hr, rfl⟩ := Option.map_eq_some_iff.1 h
  obtain ⟨rest, hrest⟩ := List.head?_eq_some_iff.1 hr
  have apart := s.apart
  rw [hrest] at apart
  refine ⟨mem_iff.2 ⟨r, by simp [hrest], UInt64.le_refl _, r.ordered⟩, fun id hid => ?_⟩
  obtain ⟨t, ht, hold⟩ := mem_iff.1 hid
  rw [hrest] at ht
  rcases List.mem_cons.1 ht with rfl | ht
  · exact hold.1
  · have below := (List.pairwise_cons.1 apart).1 t ht
    have ordered := UInt64.le_iff_toNat_le.1 r.ordered
    simp only [IdRange.Below, IdRange.Holds, UInt64.le_iff_toNat_le] at *
    omega

/-- A maximal run of consecutive members. -/
structure IsRun (s : IdSet) (r : IdRange) : Prop where
  member : ∀ id, r.Holds id → id ∈ s
  before : ∀ id, id.toNat + 1 = r.first.toNat → id ∉ s
  after : ∀ id, id.toNat = r.last.toNat + 1 → id ∉ s

theorem isRun_of_mem_ranges {s : IdSet} {r : IdRange} (hr : r ∈ s.ranges) : s.IsRun r := by
  have apart := fun t ht hne => below_or_below (s := s) (t := t) hr ht hne
  have ordered := UInt64.le_iff_toNat_le.1 r.ordered
  refine ⟨fun id hold => mem_iff.2 ⟨r, hr, hold⟩, fun id hid hmem => ?_, fun id hid hmem => ?_⟩
  all_goals
    obtain ⟨t, ht, hold⟩ := mem_iff.1 hmem
    by_cases hne : r = t
    · subst hne
      simp only [IdRange.Holds, UInt64.le_iff_toNat_le] at hold
      omega
    · have below := apart t ht hne
      simp only [IdRange.Below, IdRange.Holds, UInt64.le_iff_toNat_le] at below hold
      omega

theorem exists_toNat_eq (n : Nat) {id : UInt64} (h : n ≤ id.toNat) :
    ∃ other : UInt64, other.toNat = n :=
  ⟨.ofNat n, UInt64.toNat_ofNat_of_lt' (h.trans_lt id.toNat_lt)⟩

theorem first_le_of_isRun {s : IdSet} {r t : IdRange} (hr : s.IsRun r) (ht : s.IsRun t)
    (meet : r.first ≤ t.last) : r.first ≤ t.first := by
  by_contra lower
  simp only [UInt64.le_iff_toNat_le] at *
  obtain ⟨id, hid⟩ := exists_toNat_eq (r.first.toNat - 1) (Nat.sub_le _ 1)
  refine hr.before id (by omega) (ht.member id ?_)
  simp only [IdRange.Holds, UInt64.le_iff_toNat_le]
  omega

theorem last_le_of_isRun {s : IdSet} {r t : IdRange} (hr : s.IsRun r) (ht : s.IsRun t)
    (meet : t.first ≤ r.last) : t.last ≤ r.last := by
  by_contra higher
  simp only [UInt64.le_iff_toNat_le] at *
  obtain ⟨id, hid⟩ := exists_toNat_eq (r.last.toNat + 1) (Nat.gt_of_not_le higher)
  refine hr.after id (by omega) (ht.member id ?_)
  simp only [IdRange.Holds, UInt64.le_iff_toNat_le]
  omega

theorem mem_ranges_of_isRun {s : IdSet} {r : IdRange} (h : s.IsRun r) : r ∈ s.ranges := by
  obtain ⟨t, ht, hold⟩ := mem_iff.1 (h.member _ ⟨UInt64.le_refl _, r.ordered⟩)
  have run := isRun_of_mem_ranges ht
  have meet := UInt64.le_trans hold.1 r.ordered
  have sameFirst : t.first = r.first :=
    UInt64.le_antisymm hold.1 (first_le_of_isRun h run hold.2)
  have sameLast : t.last = r.last :=
    UInt64.le_antisymm (last_le_of_isRun h run meet) (last_le_of_isRun run h hold.2)
  have same : t = r := by
    cases t
    cases r
    simp_all
  exact same ▸ ht

/-- The ranges are the maximal runs. -/
theorem isRun_iff_mem_ranges {s : IdSet} {r : IdRange} : s.IsRun r ↔ r ∈ s.ranges :=
  ⟨mem_ranges_of_isRun, isRun_of_mem_ranges⟩

theorem IsRun.of_mem_iff {s t : IdSet} (same : ∀ id, id ∈ s ↔ id ∈ t) {r : IdRange}
    (h : s.IsRun r) : t.IsRun r where
  member id hold := (same id).1 (h.member id hold)
  before id below := fun mem => h.before id below ((same id).2 mem)
  after id above := fun mem => h.after id above ((same id).2 mem)

theorem eq_of_ranges {s t : IdSet} (h : s.ranges = t.ranges) : s = t := by
  cases s
  cases t
  simp_all

theorem nodup_ranges (s : IdSet) : s.ranges.Nodup := by
  apply s.apart.imp
  rintro r t below rfl
  exact IdRange.not_below_of_below below below

theorem eq_of_mem_iff {s t : IdSet} (h : ∀ id, id ∈ s ↔ id ∈ t) : s = t := by
  have perm : s.ranges.Perm t.ranges := by
    apply (List.perm_ext_iff_of_nodup s.nodup_ranges t.nodup_ranges).2
    intro r
    rw [← isRun_iff_mem_ranges, ← isRun_iff_mem_ranges]
    exact ⟨IsRun.of_mem_iff h, IsRun.of_mem_iff fun id => (h id).symm⟩
  apply eq_of_ranges
  apply perm.eq_of_pairwise _ s.apart t.apart
  intro r t _ _ below above
  exact absurd above (IdRange.not_below_of_below below)

theorem absorb_of_above {r : IdRange} {ranges : List IdRange} (h : ∀ s ∈ ranges, s.Below r) :
    absorb r ranges = ranges ++ [r] := by
  induction ranges with
  | nil => rfl
  | cons s rest ih =>
    have hs := h s List.mem_cons_self
    rw [absorb, if_neg (IdRange.not_below_of_below hs), if_pos hs,
      ih fun t ht => h t (List.mem_cons_of_mem s ht), List.cons_append]

theorem ranges_foldl_insertRange {s : IdSet} {ranges : List IdRange}
    (h : (s.ranges ++ ranges).Pairwise IdRange.Below) :
    (ranges.foldl insertRange s).ranges = s.ranges ++ ranges := by
  induction ranges generalizing s with
  | nil => simp
  | cons r rest ih =>
    have above : ∀ t ∈ s.ranges, t.Below r := fun t ht =>
      (List.pairwise_append.1 h).2.2 t ht r List.mem_cons_self
    have step : (s.insertRange r).ranges = s.ranges ++ [r] := absorb_of_above above
    rw [List.foldl_cons, ih (by simpa [step] using h), step, List.append_assoc,
      List.singleton_append]

theorem ofRanges_ranges (s : IdSet) : ofRanges s.ranges = s := by
  have same : (ofRanges s.ranges).ranges = s.ranges :=
    ranges_foldl_insertRange (s := empty) (by simpa [empty] using s.apart)
  exact eq_of_ranges same

theorem mem_foldl_insertRange {s : IdSet} {ranges : List IdRange} {id : UInt64} :
    id ∈ ranges.foldl insertRange s ↔ id ∈ s ∨ ∃ r ∈ ranges, r.Holds id := by
  induction ranges generalizing s with
  | nil => simp
  | cons r rest ih =>
    rw [List.foldl_cons, ih, mem_insertRange]
    simp only [List.mem_cons, exists_eq_or_imp]
    tauto

theorem mem_ofRanges {ranges : List IdRange} {id : UInt64} :
    id ∈ ofRanges ranges ↔ ∃ r ∈ ranges, r.Holds id := by
  simp [ofRanges, mem_foldl_insertRange]

theorem ncard_ofRanges_le (ranges : List IdRange) :
    {id | id ∈ ofRanges ranges}.ncard ≤ (ranges.map IdRange.size).sum := by
  simp only [mem_ofRanges]
  induction ranges with
  | nil => simp
  | cons r rest ih =>
    have split : {id | ∃ t ∈ r :: rest, t.Holds id} =
        {id | r.Holds id} ∪ {id | ∃ t ∈ rest, t.Holds id} := by
      ext id
      simp
    calc {id | ∃ t ∈ r :: rest, t.Holds id}.ncard
        ≤ {id | r.Holds id}.ncard + {id | ∃ t ∈ rest, t.Holds id}.ncard := by
          rw [split]
          exact Set.ncard_union_le _ _
      _ ≤ r.size + (rest.map IdRange.size).sum := by
          rw [IdRange.ncard_holds]
          exact Nat.add_le_add_left ih _
      _ = ((r :: rest).map IdRange.size).sum := by simp

end IdSet

end HostInventory
