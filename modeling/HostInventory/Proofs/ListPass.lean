import HostInventory.IdSet.ListText
import HostInventory.Proofs.IdSetRuns

/-! List notation from one pass over ascending ids. Every finite set of ids is an id set, its members
are listed in ascending order, and a pass over them writes its ranges. -/
namespace HostInventory

namespace IdRange

theorem toList_eq_cons (r : IdRange) :
    r.toList = r.first ::
      (List.range' (r.first.toNat + 1) (r.last.toNat - r.first.toNat)).map .ofNat := by
  rw [toList, size, List.range'_succ, List.map_cons, UInt64.ofNat_toNat]

theorem pairwise_lt_toList (r : IdRange) : r.toList.Pairwise (· < ·) := by
  have ordered := UInt64.le_iff_toNat_le.1 r.ordered
  have bound := r.last.toNat_lt
  have numbers : (List.range' r.first.toNat r.size).Pairwise (· < ·) := List.pairwise_lt_range' 1
  refine List.pairwise_map.2 (numbers.imp_of_mem fun {a b} ha hb below => ?_)
  simp only [List.mem_range'_1, size] at ha hb
  rw [UInt64.lt_iff_toNat_lt, UInt64.toNat_ofNat_of_lt' (by simp only [UInt64.size]; omega),
    UInt64.toNat_ofNat_of_lt' (by simp only [UInt64.size]; omega)]
  exact below

end IdRange

namespace IdSet

theorem pairwise_lt_toList (s : IdSet) : s.toList.Pairwise (· < ·) := by
  refine List.pairwise_flatMap.2 ⟨fun r _ => r.pairwise_lt_toList, s.apart.imp ?_⟩
  intro r t below a ha b hb
  have upper := (IdRange.mem_toList.1 ha).2
  have lower := (IdRange.mem_toList.1 hb).1
  simp only [IdRange.Below, UInt64.le_iff_toNat_le, UInt64.lt_iff_toNat_lt] at *
  omega

theorem mem_foldl_insert {s : IdSet} {ids : List UInt64} {id : UInt64} :
    id ∈ ids.foldl insert s ↔ id ∈ s ∨ id ∈ ids := by
  induction ids generalizing s with
  | nil => simp
  | cons first rest ih =>
    rw [List.foldl_cons, ih, mem_insert, List.mem_cons]
    tauto

theorem mem_ofList {ids : List UInt64} {id : UInt64} : id ∈ ofList ids ↔ id ∈ ids := by
  have none : id ∉ empty := not_mem_empty
  rw [ofList, mem_foldl_insert, or_iff_right none]

theorem exists_mem_iff (ids : Finset UInt64) : ∃ s : IdSet, ∀ id, id ∈ s ↔ id ∈ ids :=
  ⟨ofList ids.toList, fun _ => mem_ofList.trans Finset.mem_toList⟩

theorem toList_ofList {ids : List UInt64} (ascending : ids.Pairwise (· < ·)) :
    (ofList ids).toList = ids := by
  have distinct : ids.Nodup := ascending.imp fun below => UInt64.ne_of_lt below
  have perm : (ofList ids).toList.Perm ids :=
    (List.perm_ext_iff_of_nodup (nodup_toList _) distinct).2 fun _ => mem_toList.trans mem_ofList
  refine perm.eq_of_pairwise ?_ (pairwise_lt_toList _) ascending
  intro a b _ _ below above
  exact absurd above (UInt64.lt_asymm below)

theorem runPieces_range' (first : UInt64) (n count : Nat) (later : List UInt64) :
    runPieces first (.ofNat n) ((List.range' (n + 1) count).map .ofNat ++ later) =
      runPieces first (.ofNat (n + count)) later := by
  induction count generalizing n with
  | zero => rfl
  | succ count ih =>
    have next : UInt64.ofNat (n + 1) = .ofNat n + 1 := UInt64.ofNat_add n 1
    rw [List.range'_succ, List.map_cons, List.cons_append, runPieces, if_pos next, ih,
      Nat.add_assoc, Nat.add_comm 1]

theorem runPieces_flatMap_toList {r : IdRange} {ranges : List IdRange}
    (apart : (r :: ranges).Pairwise IdRange.Below) :
    runPieces r.first r.first (r.toList.tail ++ ranges.flatMap IdRange.toList) =
      (r :: ranges).map rangeText := by
  have whole (r : IdRange) (later : List UInt64) :
      runPieces r.first r.first (r.toList.tail ++ later) = runPieces r.first r.last later := by
    have ordered := UInt64.le_iff_toNat_le.1 r.ordered
    have run := runPieces_range' r.first r.first.toNat (r.last.toNat - r.first.toNat) later
    rw [Nat.add_sub_cancel' ordered, UInt64.ofNat_toNat, UInt64.ofNat_toNat] at run
    rw [r.toList_eq_cons, List.tail_cons, run]
  induction ranges generalizing r with
  | nil =>
    rw [whole]
    rfl
  | cons next ranges ih =>
    obtain ⟨below, apart⟩ := List.pairwise_cons.1 apart
    -- no run goes on into the next range, as some id lies between them
    have gap : next.first ≠ r.last + 1 := by
      have below := below next List.mem_cons_self
      have bound := next.first.toNat_lt
      rw [IdRange.Below] at below
      rw [ne_eq, ← UInt64.toNat_inj, UInt64.toNat_add, UInt64.toNat_one, Nat.mod_eq_of_lt (by omega)]
      omega
    have further := ih apart
    rw [whole, List.flatMap_cons, next.toList_eq_cons, List.cons_append, runPieces, if_neg gap]
    rw [next.toList_eq_cons, List.tail_cons] at further
    rw [further, List.map_cons (a := r), rangeText]

theorem listText_toList (s : IdSet) : listText s.toList = s.text := by
  rw [toList, text]
  have apart := s.apart
  cases ranges : s.ranges with
  | nil => rfl
  | cons r ranges =>
    rw [ranges] at apart
    have pieces := runPieces_flatMap_toList apart
    rw [r.toList_eq_cons, List.tail_cons] at pieces
    rw [List.flatMap_cons, r.toList_eq_cons, List.cons_append, listText, pieces]

theorem listText_eq_text {ids : List UInt64} (ascending : ids.Pairwise (· < ·)) :
    listText ids = (ofList ids).text := by
  rw [← listText_toList, toList_ofList ascending]

end IdSet

end HostInventory
