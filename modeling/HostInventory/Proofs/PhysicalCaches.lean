import HostInventory.Proofs.TopologyMeaning
import Mathlib.Algebra.BigOperators.Group.Finset.Basic
import Mathlib.Order.Bounds.Defs

/-! Each physical cache is counted once. Every processor that shares a cache reports it, under an
index and in a spelling of its own; as the decision to count it looks only at the lowest sharer,
and that processor is listed once, the totals are capped sums over the caches themselves. -/
namespace HostInventory.Cpu.Topology

open Finset Survey

structure PhysicalCache where
  level : UInt64
  size : UInt64
  sharers : Set UInt64

structure Shows (h : Host) (r : SystemRoot) (cpu : UInt64) (index : Nat) (cache : PhysicalCache) :
    Prop where
  sharers : ∃ ids, r.idSet h (sharersFile cpu index) = .ok ids ∧ ∀ id, id ∈ ids ↔ id ∈ cache.sharers
  level : r.integer h (levelFile cpu index) = .ok cache.level
  size : r.byteSize h (sizeFile cpu index) = .ok cache.size

/-- The tree describes these caches to the listed processors. The lowest sharer of each is listed,
and the indices of a listed processor, up to its end, are its caches in some numbering. -/
structure Describes (h : Host) (r : SystemRoot) (stanzas : List Stanza) {ι : Type}
    (caches : ι → PhysicalCache) : Prop where
  lowest_listed : ∀ j, ∃ p, IsLeast (caches j).sharers (cpuAt stanzas p)
  entries : ∀ p, ∃ numbering : Fin (probeEnd h r (cpuAt stanzas p)) ≃
      {j // cpuAt stanzas p ∈ (caches j).sharers},
    ∀ i : Fin _, Shows h r (cpuAt stanzas p) i (caches (numbering i))

variable {h : Host} {r : SystemRoot} {cpu : UInt64} {index : Nat} {cache : PhysicalCache}

theorem counts_iff_of_shows (shows : Shows h r cpu index cache) {level size : UInt64} :
    Counts h r cpu index level size ↔
      (∀ id ∈ cache.sharers, ¬id < cpu) ∧ cache.level = level ∧ cache.size = size := by
  obtain ⟨ids, read, members⟩ := shows.sharers
  constructor
  · rintro ⟨⟨other, hother, lowest⟩, hlevel, hsize⟩
    rw [read] at hother
    cases hother
    rw [shows.level] at hlevel
    rw [shows.size] at hsize
    exact ⟨fun id hid => lowest id ((members id).2 hid), Except.ok.inj hlevel, Except.ok.inj hsize⟩
  · rintro ⟨lowest, rfl, rfl⟩
    exact ⟨⟨ids, read, fun id hid => lowest id ((members id).1 hid)⟩, shows.level, shows.size⟩

open Classical in
theorem bytesAt_of_shows (shows : Shows h r cpu index cache) (shared : cpu ∈ cache.sharers)
    (level : UInt64) :
    (entryAt h r cpu index).bytesAt level =
      if IsLeast cache.sharers cpu ∧ cache.level = level then cache.size.toNat else 0 := by
  have counts : (∃ size, Counts h r cpu index level size) ↔
      IsLeast cache.sharers cpu ∧ cache.level = level := by
    simp only [counts_iff_of_shows shows, exists_and_left, exists_eq', and_true, IsLeast,
      lowerBounds, Set.mem_ofPred_eq, UInt64.not_lt, shared, true_and]
  have size : sizeAt h r cpu index = cache.size.toNat := by
    rw [sizeAt, shows.size]
    rfl
  rw [bytesAt_entryAt, size]
  simp only [counts]

variable {stanzas : List Stanza} {ι : Type} {caches : ι → PhysicalCache}

/-- Exactly one position lists the lowest sharer of a cache. -/
theorem exists_only_lowest (distinct : Function.Injective (cpuAt stanzas))
    (d : Describes h r stanzas caches) (j : ι) :
    ∃ p, ∀ q, IsLeast (caches j).sharers (cpuAt stanzas q) ↔ q = p := by
  obtain ⟨p, lowest⟩ := d.lowest_listed j
  refine ⟨p, fun q => ⟨fun other => distinct ?_, fun same => same ▸ lowest⟩⟩
  exact UInt64.le_antisymm (other.2 lowest.1) (lowest.2 other.1)

theorem exists_numbering {k : Nat} (family : Fin k → ι) (ends : probeEnd h r cpu = k)
    (injective : Function.Injective family)
    (onto : ∀ j, cpu ∈ (caches j).sharers ↔ ∃ i, family i = j)
    (shows : ∀ i : Fin k, Shows h r cpu i (caches (family i))) :
    ∃ numbering : Fin (probeEnd h r cpu) ≃ {j // cpu ∈ (caches j).sharers},
      ∀ i : Fin _, Shows h r cpu i (caches (numbering i)) := by
  subst ends
  let numbered (i : Fin (probeEnd h r cpu)) : {j // cpu ∈ (caches j).sharers} :=
    ⟨family i, (onto _).2 ⟨i, rfl⟩⟩
  refine ⟨.ofBijective numbered ⟨?_, ?_⟩, shows⟩
  · intro i i' same
    exact injective (congrArg Subtype.val same)
  · rintro ⟨j, shared⟩
    obtain ⟨i, rfl⟩ := (onto j).1 shared
    exact ⟨i, rfl⟩

variable [Fintype ι]

open Classical in
theorem sum_bytesAt_of_describes (d : Describes h r stanzas caches) (p : Fin stanzas.length)
    (level : UInt64) :
    ∑ i ∈ range (probeEnd h r (cpuAt stanzas p)),
        (entryAt h r (cpuAt stanzas p) i).bytesAt level =
      ∑ j with (caches j).level = level,
        if IsLeast (caches j).sharers (cpuAt stanzas p) then (caches j).size.toNat else 0 := by
  obtain ⟨numbering, shows⟩ := d.entries p
  let added (j : ι) : Nat :=
    if IsLeast (caches j).sharers (cpuAt stanzas p) ∧ (caches j).level = level
    then (caches j).size.toNat else 0
  calc
    _ = ∑ i : Fin (probeEnd h r (cpuAt stanzas p)),
          (entryAt h r (cpuAt stanzas p) i).bytesAt level := sum_range _
    _ = ∑ i, added (numbering i) := by
      apply sum_congr rfl
      intro i _
      exact bytesAt_of_shows (shows i) (numbering i).2 level
    _ = ∑ j : {j // cpuAt stanzas p ∈ (caches j).sharers}, added j :=
      numbering.sum_comp fun j => added j
    _ = ∑ j with cpuAt stanzas p ∈ (caches j).sharers, added j :=
      (sum_subtype _ (by simp) added).symm
    _ = _ := by
      rw [sum_filter, sum_filter]
      apply sum_congr rfl
      intro j _
      by_cases lowest : IsLeast (caches j).sharers (cpuAt stanzas p)
      · simp [added, lowest, lowest.1]
      · simp [added, lowest]

/-- The total of a level is the capped sum of the sizes of the caches of that level. -/
theorem level_of_describes (caches : ι → PhysicalCache)
    (distinct : Function.Injective (cpuAt stanzas)) (d : Describes h r stanzas caches)
    (level : UInt64) :
    ((ofStanzas h r stanzas).caches.level level).toNat =
      min (2 ^ 64 - 1) (∑ j with (caches j).level = level, (caches j).size.toNat) := by
  classical
  rw [toNat_level_ofStanzas, min_comm]
  congr 1
  calc
    _ = ∑ p, ∑ j with (caches j).level = level,
          if IsLeast (caches j).sharers (cpuAt stanzas p) then (caches j).size.toNat else 0 := by
      apply sum_congr rfl
      intro p _
      exact sum_bytesAt_of_describes d p level
    _ = ∑ j with (caches j).level = level, ∑ p,
          if IsLeast (caches j).sharers (cpuAt stanzas p) then (caches j).size.toNat else 0 :=
      sum_comm
    _ = _ := by
      apply sum_congr rfl
      intro j _
      obtain ⟨p, unique⟩ := exists_only_lowest distinct d j
      simp only [unique, sum_ite_eq', mem_univ, if_true]

/-- Two processors, the second of which shares the second-level cache of the first. They report it
under different indices and in different spellings. -/
def pairHost : Host := .ofAttributes
  [(["cpu0", "cache", "index0", "shared_cpu_list"], "0\n"),
   (["cpu0", "cache", "index0", "level"], "1\n"),
   (["cpu0", "cache", "index0", "size"], "32K\n"),
   (["cpu0", "cache", "index1", "shared_cpu_list"], "0-1\n"),
   (["cpu0", "cache", "index1", "level"], "2\n"),
   (["cpu0", "cache", "index1", "size"], "1M\n"),
   (["cpu1", "cache", "index0", "shared_cpu_list"], "1,0x0\n"),
   (["cpu1", "cache", "index0", "level"], "2\n"),
   (["cpu1", "cache", "index0", "size"], "1024K\n")]

def pairStanzas : List Stanza := [.ofList [("processor", "1")], .ofList [("processor", "0")]]

def pairCaches : Bool → PhysicalCache
  | false => ⟨1, 32768, {0}⟩
  | true => ⟨2, 1048576, {0, 1}⟩

theorem cpuAt_pairStanzas (p : Fin pairStanzas.length) :
    cpuAt pairStanzas p = 1 ∨ cpuAt pairStanzas p = 0 := by
  revert p
  decide +kernel

theorem shows_pairHost :
    Shows pairHost .standard 0 0 (pairCaches false) ∧
    Shows pairHost .standard 0 1 (pairCaches true) ∧
    Shows pairHost .standard 1 0 (pairCaches true) := by
  have own (id : UInt64) : id ∈ IdSet.ofRanges [.single 0] ↔ id ∈ ({0} : Set UInt64) := by
    rw [IdSet.ofRanges, List.foldl_cons, List.foldl_nil, IdSet.mem_insertRange,
      IdRange.holds_single]
    simp [IdSet.not_mem_empty]
  have both (id : UInt64) :
      id ∈ IdSet.ofRanges [⟨0, 1, by decide⟩] ↔ id ∈ ({0, 1} : Set UInt64) := by
    rw [IdSet.ofRanges, List.foldl_cons, List.foldl_nil, IdSet.mem_insertRange]
    simp only [IdSet.not_mem_empty, or_false, IdRange.Holds, UInt64.le_iff_toNat_le,
      Set.mem_insert_iff, Set.mem_singleton_iff, ← UInt64.toNat_inj]
    have zero : (0 : UInt64).toNat = 0 := rfl
    have one : (1 : UInt64).toNat = 1 := rfl
    omega
  refine ⟨⟨⟨_, eq_ok_of_toOption (by decide +kernel), own⟩, ?_, ?_⟩,
    ⟨⟨_, eq_ok_of_toOption (by decide +kernel), both⟩, ?_, ?_⟩,
    ⟨⟨_, eq_ok_of_toOption (by decide +kernel), both⟩, ?_, ?_⟩⟩
  all_goals exact eq_ok_of_toOption (by decide +kernel)

theorem describes_pairHost : Describes pairHost .standard pairStanzas pairCaches where
  lowest_listed j := by
    refine ⟨⟨1, by decide⟩, ?_⟩
    have lowest : cpuAt pairStanzas ⟨1, by decide⟩ = 0 := by decide +kernel
    rw [lowest]
    refine ⟨?_, fun id _ => UInt64.zero_le⟩
    cases j <;> simp [pairCaches]
  entries p := by
    obtain ⟨own, first, second⟩ := shows_pairHost
    rcases cpuAt_pairStanzas p with cpu | cpu <;> rw [cpu]
    · have ends : probeEnd pairHost .standard 1 = 1 := probeEnd_eq_iff.2 (by decide +kernel)
      refine exists_numbering (fun _ => true) ends ?_ ?_ fun i => ?_
      · intro i i' _
        exact Subsingleton.elim i i'
      · intro j
        cases j <;> simp [pairCaches]
      · obtain rfl : i = 0 := Subsingleton.elim i 0
        exact second
    · have ends : probeEnd pairHost .standard 0 = 2 := probeEnd_eq_iff.2 (by decide +kernel)
      refine exists_numbering (fun i => i == 1) ends (by decide) ?_ ?_
      · intro j
        cases j <;> simp [pairCaches]
      · intro i
        match i with
        | 0 => exact own
        | 1 => exact first

/-- The shared cache is counted once, though both processors report it. -/
theorem level_pairHost :
    ((ofStanzas pairHost .standard pairStanzas).caches.level 2).toNat = 1048576 := by
  have distinct : Function.Injective (cpuAt pairStanzas) := by
    unfold Function.Injective
    decide +kernel
  rw [level_of_describes pairCaches distinct describes_pairHost 2]
  rfl

end HostInventory.Cpu.Topology
