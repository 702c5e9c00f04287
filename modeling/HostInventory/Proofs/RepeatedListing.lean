import HostInventory.Proofs.TopologyMeaning
import Mathlib.Algebra.BigOperators.Group.Finset.Basic
import Mathlib.Algebra.Order.BigOperators.Group.Finset

/-! Processors that are listed more than once, by a repeated number or by a stanza without one at a
position that is another's number. Ids are collected in sets, where a repetition is lost, but the
caches of a processor are added each time it is listed. So the counts depend only on which
processors are listed, and the total of a level does as long as none with a cache there is
repeated. -/
namespace HostInventory.Cpu.Topology

open Finset Survey

def listed (stanzas : List Stanza) : Finset UInt64 := (indices 0 stanzas).toFinset

def timesListed (stanzas : List Stanza) (cpu : UInt64) : Nat := (indices 0 stanzas).count cpu

/-- The capped sum of what these processors add to a level, each taken once. -/
def levelOnce (h : Host) (r : SystemRoot) (cpus : Finset UInt64) (level : UInt64) : Nat :=
  min (∑ cpu ∈ cpus, bytesOf h r level cpu) (2 ^ 64 - 1)

theorem mem_listed {stanzas : List Stanza} {cpu : UInt64} :
    cpu ∈ listed stanzas ↔ ∃ p, cpuAt stanzas p = cpu := by
  rw [listed, List.mem_toFinset, indices_eq_ofFn, List.mem_ofFn]

theorem timesListed_pos {stanzas : List Stanza} {cpu : UInt64} (mem : cpu ∈ listed stanzas) :
    0 < timesListed stanzas cpu :=
  List.count_pos_iff.2 (List.mem_toFinset.1 mem)

theorem le_timesListed_mul {stanzas : List Stanza} {cpu : UInt64} (mem : cpu ∈ listed stanzas)
    (bytes : Nat) : bytes ≤ timesListed stanzas cpu * bytes :=
  Nat.le_mul_of_pos_left bytes (timesListed_pos mem)

variable (h : Host) (r : SystemRoot) (stanzas : List Stanza)

theorem cores_of_listed : (ofStanzas h r stanzas).cores =
    {id | ∃ cpu ∈ listed stanzas, r.integer h (coreFile cpu) = .ok id}.ncard := by
  rw [cores_ofStanzas, coreIds]
  simp [mem_listed]

theorem packages_of_listed : (ofStanzas h r stanzas).packages =
    {id | ∃ cpu ∈ listed stanzas, r.integer h (packageFile cpu) = .ok id}.ncard := by
  rw [packages_ofStanzas, packageIds]
  simp [mem_listed]

theorem toNat_level_of_timesListed (level : UInt64) :
    ((ofStanzas h r stanzas).caches.level level).toNat =
      min (∑ cpu ∈ listed stanzas, timesListed stanzas cpu * bytesOf h r level cpu)
        (2 ^ 64 - 1) := by
  rw [toNat_level_eq_sum_bytesOf]
  congr 1
  calc
    _ = ((indices 0 stanzas).map (bytesOf h r level)).sum := by
      rw [indices_eq_ofFn, List.map_ofFn, List.sum_ofFn]
      rfl
    _ = ∑ cpu ∈ listed stanzas, timesListed stanzas cpu * bytesOf h r level cpu := by
      rw [sum_list_map_count]
      rfl

theorem sum_timesListed_eq_iff (bytes : UInt64 → Nat) :
    ∑ cpu ∈ listed stanzas, timesListed stanzas cpu * bytes cpu =
        ∑ cpu ∈ listed stanzas, bytes cpu ↔
      ∀ cpu, 1 < timesListed stanzas cpu → bytes cpu = 0 := by
  rw [eq_comm, sum_eq_sum_iff_of_le fun cpu mem => le_timesListed_mul mem (bytes cpu)]
  constructor
  · intro same cpu again
    have mem : cpu ∈ listed stanzas :=
      List.mem_toFinset.2 (List.count_pos_iff.1 (Nat.zero_lt_of_lt again))
    by_contra adds
    have larger := lt_mul_of_one_lt_left (Nat.pos_of_ne_zero adds) again
    exact absurd (same cpu mem) (Nat.ne_of_lt larger)
  · intro silent cpu mem
    rcases Nat.lt_or_eq_of_le (timesListed_pos mem) with again | once
    · simp [silent cpu again]
    · rw [← once]
      exact (Nat.one_mul _).symm

/-- Core and package counts depend only on which processors are listed. A level never holds less
than with each of them taken once, and it holds the same exactly if none that adds bytes to it is
listed again, or the largest word is reached without that. -/
theorem ofStanzas_of_listed :
    (ofStanzas h r stanzas).cores =
      {id | ∃ cpu ∈ listed stanzas, r.integer h (coreFile cpu) = .ok id}.ncard ∧
    (ofStanzas h r stanzas).packages =
      {id | ∃ cpu ∈ listed stanzas, r.integer h (packageFile cpu) = .ok id}.ncard ∧
    ∀ level,
      levelOnce h r (listed stanzas) level ≤ ((ofStanzas h r stanzas).caches.level level).toNat ∧
      (((ofStanzas h r stanzas).caches.level level).toNat = levelOnce h r (listed stanzas) level ↔
        (∀ cpu, 1 < timesListed stanzas cpu → bytesOf h r level cpu = 0) ∨
          levelOnce h r (listed stanzas) level = 2 ^ 64 - 1) := by
  refine ⟨cores_of_listed h r stanzas, packages_of_listed h r stanzas, fun level => ?_⟩
  have more : ∑ cpu ∈ listed stanzas, bytesOf h r level cpu ≤
      ∑ cpu ∈ listed stanzas, timesListed stanzas cpu * bytesOf h r level cpu :=
    sum_le_sum fun cpu mem => le_timesListed_mul mem _
  -- below the cap the two capped sums are equal exactly when the sums are
  rw [← sum_timesListed_eq_iff, toNat_level_of_timesListed, levelOnce]
  omega

def boardHost : Host := .ofAttributes
  [(["cpu2", "cache", "index0", "shared_cpu_list"], "2\n"),
   (["cpu2", "cache", "index0", "level"], "1\n"),
   (["cpu2", "cache", "index0", "size"], "32K\n")]

/-- Processors `0` and `2`, and a stanza about the board at position `2`. -/
def boardStanzas : List Stanza :=
  [.ofList [("processor", "0")], .ofList [("processor", "2")], .ofList [("Hardware", "BCM2835")]]

/-- The stanza about the board lists no further processor, and the cache of the second one is
counted twice. -/
theorem level_boardHost_of_repeated_listing :
    listed boardStanzas = listed boardStanzas.dropLast ∧
    (ofStanzas boardHost .standard boardStanzas.dropLast).caches.level 1 = 32768 ∧
    (ofStanzas boardHost .standard boardStanzas).caches.level 1 = 65536 := by
  decide +kernel

end HostInventory.Cpu.Topology
