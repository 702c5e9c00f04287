import HostInventory.Proofs.CacheSums

/-! Cache totals after any run of additions. A level holds the exact sum of what was added to it, or
the largest word once that sum is out of reach, wherever in the run this happened; so the order of
the additions does not show, and one at a level is felt at no other. -/
namespace HostInventory.Cpu.CacheTotals

def addAll (t : CacheTotals) (adds : List (UInt64 × UInt64)) : CacheTotals :=
  adds.foldl (fun t a => t.add a.1 a.2) t

def addedAt (level : UInt64) (adds : List (UInt64 × UInt64)) : Nat :=
  ((adds.filter fun a => a.1 = level).map fun a => a.2.toNat).sum

variable {t : CacheTotals} {adds : List (UInt64 × UInt64)} {l k s : UInt64}

theorem addAll_eq_foldl_countEntry (t : CacheTotals) (adds : List (UInt64 × UInt64)) :
    t.addAll adds =
      (adds.map fun a => CacheEntry.counted a.1 a.2).foldl Topology.countEntry t := by
  rw [List.foldl_map]
  rfl

theorem sum_bytesAt_counted (level : UInt64) (adds : List (UInt64 × UInt64)) :
    ((adds.map fun a => CacheEntry.counted a.1 a.2).map (CacheEntry.bytesAt level)).sum =
      addedAt level adds := by
  induction adds with
  | nil => rfl
  | cons a adds ih =>
    rw [List.map_cons, List.map_cons, List.sum_cons, ih, addedAt, addedAt, CacheEntry.bytesAt]
    by_cases here : a.1 = level <;> simp [here]

theorem toNat_level_addAll (t : CacheTotals) (adds : List (UInt64 × UInt64)) (level : UInt64) :
    ((t.addAll adds).level level).toNat =
      min ((t.level level).toNat + addedAt level adds) (2 ^ 64 - 1) := by
  rw [addAll_eq_foldl_countEntry, Topology.toNat_level_foldl_countEntry, sum_bytesAt_counted]

theorem addAll_of_perm {adds' : List (UInt64 × UInt64)} (perm : adds'.Perm adds)
    (t : CacheTotals) : t.addAll adds' = t.addAll adds := by
  rw [addAll_eq_foldl_countEntry, addAll_eq_foldl_countEntry]
  exact Topology.foldl_countEntry_of_perm (perm.map _) t

theorem isEmpty_addAll (t : CacheTotals) (adds : List (UInt64 × UInt64)) :
    (t.addAll adds).isEmpty ↔ t.isEmpty ∧ adds = [] := by
  rw [addAll_eq_foldl_countEntry, Topology.isEmpty_foldl_countEntry]
  cases adds <;> simp [CacheEntry.IsCounted]

theorem level_add_of_ne (other : k ≠ l) (t : CacheTotals) (s : UInt64) :
    (t.add l s).level k = t.level k := by
  rw [level_add, if_neg other.symm]

theorem sum_add_of_not_mem (other : l ∉ [1, 2, 3]) (t : CacheTotals) (s : UInt64) :
    (t.add l s).sum = t.sum := by
  simp only [List.mem_cons, List.not_mem_nil, or_false, not_or] at other
  obtain ⟨one, two, three⟩ := other
  rw [sum, level_add_of_ne (Ne.symm one), level_add_of_ne (Ne.symm two),
    level_add_of_ne (Ne.symm three), ← sum]

/-- After any run of additions on fresh totals each level holds the capped exact sum of what was
added to it, in whatever order, and the totals are empty only if nothing was added. One more addition
changes no other level and lowers none; the three lowest levels are summed exactly if 64 bits hold
the sum, to which other levels add nothing. -/
theorem addAll_empty (adds : List (UInt64 × UInt64)) :
    (∀ level, ((addAll ∅ adds).level level).toNat = min (2 ^ 64 - 1) (addedAt level adds)) ∧
    (∀ adds', adds'.Perm adds → addAll ∅ adds' = addAll ∅ adds) ∧
    ((addAll ∅ adds).isEmpty ↔ adds = []) ∧
    ∀ t : CacheTotals,
      (∀ l s, (∀ k, k ≠ l → (t.add l s).level k = t.level k) ∧ t.level l ≤ (t.add l s).level l) ∧
      ((t.level 1).toNat + (t.level 2).toNat + (t.level 3).toNat < 2 ^ 64 →
        t.sum.toNat = (t.level 1).toNat + (t.level 2).toNat + (t.level 3).toNat ∧
        ∀ l s, l ∉ [1, 2, 3] → (t.add l s).sum = t.sum) := by
  refine ⟨fun l => ?_, fun adds' perm => addAll_of_perm perm ∅, ?_, fun t => ⟨fun l s => ⟨?_, ?_⟩,
    fun fits => ⟨toNat_sum fits, fun l s other => sum_add_of_not_mem other t s⟩⟩⟩
  · have none : (level ∅ l).toNat = 0 := rfl
    rw [toNat_level_addAll, none, Nat.zero_add, Nat.min_comm]
  · rw [isEmpty_addAll]
    exact and_iff_right rfl
  · intro k other
    exact level_add_of_ne other t s
  · exact Topology.level_le_level_countEntry t (.counted l s) l

/-- The second addition at the first level goes beyond the largest word. -/
def cappedRun : List (UInt64 × UInt64) := [(1, 18446744073709551615), (4, 5), (1, 7), (9, 0)]

theorem addAll_cappedRun :
    addedAt 1 cappedRun = 2 ^ 64 + 6 ∧ ((addAll ∅ cappedRun).level 1).toNat = 2 ^ 64 - 1 ∧
    (addAll ∅ cappedRun).sum.toNat = 2 ^ 64 - 1 ∧
    ((addAll ∅ cappedRun).add 4 1).sum = (addAll ∅ cappedRun).sum := by
  have level := (addAll_empty cappedRun).1 1
  have sums := ((addAll_empty cappedRun).2.2.2 (addAll ∅ cappedRun)).2 (by decide)
  exact ⟨rfl, level, sums.1, sums.2 4 1 (by decide)⟩

end HostInventory.Cpu.CacheTotals
