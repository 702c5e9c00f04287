import HostInventory.Proofs.PhysicalCaches
import Mathlib.Algebra.Order.BigOperators.Group.Finset

/-! Caches that a processor passes over. It does so whenever a sharer has a lower number, whether or
not that sharer is listed and has the cache before the end of its own probe. Among the sharers only
the lowest can add the cache, so it is added exactly if that one is listed and reports it. -/
namespace HostInventory.Cpu.Topology

open Finset Survey

structure Reports (h : Host) (r : SystemRoot) (cpu : UInt64) (index : Nat) (cache : PhysicalCache) :
    Prop where
  reached : index < probeEnd h r cpu
  shows : Shows h r cpu index cache

/-- Being listed, a processor adds this cache to the totals. -/
def Adds (h : Host) (r : SystemRoot) (cpu : UInt64) (cache : PhysicalCache) : Prop :=
  ∃ index, Reports h r cpu index cache ∧ entryAt h r cpu index = .counted cache.level cache.size

variable {h : Host} {r : SystemRoot} {cpu : UInt64} {index : Nat} {cache : PhysicalCache}
  {stanzas : List Stanza}

theorem entryAt_eq_elsewhere_iff (shows : Shows h r cpu index cache) :
    entryAt h r cpu index = .elsewhere ↔ ∃ id ∈ cache.sharers, id < cpu := by
  obtain ⟨ids, read, members⟩ := shows.sharers
  have below : (∃ id ∈ cache.sharers, id < cpu) ↔ sharedBelow cpu ids := by
    simp only [sharedBelow_iff, members]
  rw [below, entryAt, read]
  simp only [cacheEntry, shows.level, shows.size, noted, Except.mapError]
  split <;> simp_all

theorem entryAt_eq_counted_of_shows (shows : Shows h r cpu index cache) :
    entryAt h r cpu index = .counted cache.level cache.size ↔ ∀ id ∈ cache.sharers, ¬id < cpu := by
  simp [entryAt_eq_counted_iff, counts_iff_of_shows shows]

theorem adds_iff_of_mem (shared : cpu ∈ cache.sharers) :
    Adds h r cpu cache ↔ IsLeast cache.sharers cpu ∧ ∃ index, Reports h r cpu index cache := by
  constructor
  · rintro ⟨index, reports, counted⟩
    have lowest := (entryAt_eq_counted_of_shows reports.shows).1 counted
    exact ⟨⟨shared, fun id hid => UInt64.not_lt.1 (lowest id hid)⟩, index, reports⟩
  · rintro ⟨lowest, index, reports⟩
    refine ⟨index, reports, (entryAt_eq_counted_of_shows reports.shows).2 fun id hid => ?_⟩
    exact UInt64.not_lt.2 (lowest.2 hid)

theorem size_le_bytesOf_of_adds (adds : Adds h r cpu cache) :
    cache.size.toNat ≤ bytesOf h r cache.level cpu := by
  obtain ⟨index, reports, counted⟩ := adds
  have bytes : (entryAt h r cpu index).bytesAt cache.level = cache.size.toNat := by
    rw [counted]
    exact if_pos rfl
  rw [← bytes, bytesOf]
  exact single_le_sum (f := fun i => (entryAt h r cpu i).bytesAt cache.level)
    (fun _ _ => Nat.zero_le _) (mem_range.2 reports.reached)

theorem size_le_level_of_adds {q : Fin stanzas.length} (adds : Adds h r (cpuAt stanzas q) cache) :
    cache.size ≤ (ofStanzas h r stanzas).caches.level cache.level := by
  have total : bytesOf h r cache.level (cpuAt stanzas q) ≤
      ∑ p, bytesOf h r cache.level (cpuAt stanzas p) :=
    single_le_sum (f := fun p => bytesOf h r cache.level (cpuAt stanzas p))
      (fun _ _ => Nat.zero_le _) (mem_univ q)
  have added := size_le_bytesOf_of_adds adds
  have bound := cache.size.toNat_lt
  rw [UInt64.le_iff_toNat_le, toNat_level_eq_sum_bytesOf]
  omega

/-- A cache that a listed processor passes over is added by another listed sharer exactly if its
lowest sharer is listed and reports it, and then it is in the total of its level. -/
theorem added_by_other_iff {p : Fin stanzas.length}
    (reports : Reports h r (cpuAt stanzas p) index cache)
    (passed : entryAt h r (cpuAt stanzas p) index = .elsewhere) :
    ((∃ q, cpuAt stanzas q ≠ cpuAt stanzas p ∧ cpuAt stanzas q ∈ cache.sharers ∧
        Adds h r (cpuAt stanzas q) cache) ↔
      ∃ q, IsLeast cache.sharers (cpuAt stanzas q) ∧
        ∃ i, Reports h r (cpuAt stanzas q) i cache) ∧
    ∀ q, Adds h r (cpuAt stanzas q) cache →
      cache.size ≤ (ofStanzas h r stanzas).caches.level cache.level := by
  refine ⟨⟨?_, ?_⟩, fun q adds => size_le_level_of_adds adds⟩
  · rintro ⟨q, -, shared, adds⟩
    exact ⟨q, (adds_iff_of_mem shared).1 adds⟩
  · rintro ⟨q, lowest, reported⟩
    -- a lower sharer was the reason to pass, so the lowest one is another processor
    obtain ⟨id, hid, below⟩ := (entryAt_eq_elsewhere_iff reports.shows).1 passed
    refine ⟨q, fun same => ?_, lowest.1, (adds_iff_of_mem lowest.1).2 ⟨lowest, reported⟩⟩
    rw [same] at lowest
    exact UInt64.not_lt.2 (lowest.2 hid) below

theorem reports_pairHost :
    Reports pairHost .standard 0 1 (pairCaches true) ∧
    Reports pairHost .standard 1 0 (pairCaches true) := by
  have two : probeEnd pairHost .standard 0 = 2 := probeEnd_eq_iff.2 (by decide +kernel)
  have one : probeEnd pairHost .standard 1 = 1 := probeEnd_eq_iff.2 (by decide +kernel)
  exact ⟨⟨two ▸ by decide, shows_pairHost.2.1⟩, ⟨one ▸ by decide, shows_pairHost.2.2⟩⟩

theorem passed_pairHost : entryAt pairHost .standard 1 0 = .elsewhere :=
  (entryAt_eq_elsewhere_iff shows_pairHost.2.2).2 ⟨0, by simp [pairCaches], by decide⟩

theorem added_pairHost :
    ∃ q, cpuAt pairStanzas q ≠ 1 ∧ Adds pairHost .standard (cpuAt pairStanzas q) (pairCaches true) ∧
      1048576 ≤ (ofStanzas pairHost .standard pairStanzas).caches.level 2 := by
  have second : cpuAt pairStanzas ⟨0, by decide⟩ = 1 := by decide +kernel
  have first : cpuAt pairStanzas ⟨1, by decide⟩ = 0 := by decide +kernel
  have reports := reports_pairHost.2
  have passed := passed_pairHost
  rw [← second] at reports passed
  obtain ⟨added, total⟩ := added_by_other_iff reports passed
  have lowest : IsLeast (pairCaches true).sharers 0 :=
    ⟨by simp [pairCaches], fun id _ => UInt64.zero_le⟩
  have reported := reports_pairHost.1
  rw [← first] at lowest reported
  obtain ⟨q, other, -, adds⟩ := added.2 ⟨_, lowest, 1, reported⟩
  rw [second] at other
  exact ⟨q, other, adds, total q adds⟩

/-- With only the second processor listed, nobody adds the shared cache that it passes over. -/
theorem pairHost_loses_shared_cache :
    Function.Injective (cpuAt (pairStanzas.take 1)) ∧
    (∃ p, cpuAt (pairStanzas.take 1) p = 1) ∧
    Reports pairHost .standard 1 0 (pairCaches true) ∧
    entryAt pairHost .standard 1 0 = .elsewhere ∧
    (¬∃ q, Adds pairHost .standard (cpuAt (pairStanzas.take 1) q) (pairCaches true)) ∧
    (ofStanzas pairHost .standard (pairStanzas.take 1)).caches.level 2 = 0 := by
  have only : ∀ q, cpuAt (pairStanzas.take 1) q = 1 := by decide +kernel
  have alone : Subsingleton (Fin (pairStanzas.take 1).length) :=
    inferInstanceAs (Subsingleton (Fin 1))
  refine ⟨?_, ⟨⟨0, by decide⟩, only _⟩, reports_pairHost.2, passed_pairHost, ?_, by decide +kernel⟩
  · intro p q _
    exact Subsingleton.elim p q
  · rintro ⟨q, index, reports, counted⟩
    rw [only q] at reports counted
    have lowest := (entryAt_eq_counted_of_shows reports.shows).1 counted
    exact lowest 0 (by simp [pairCaches]) (by decide)

end HostInventory.Cpu.Topology
