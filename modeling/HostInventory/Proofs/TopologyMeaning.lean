import HostInventory.Proofs.CacheProbe
import HostInventory.Proofs.CacheSums
import HostInventory.Proofs.IdSetRuns
import Mathlib.Algebra.BigOperators.Fin
import Mathlib.Data.FinEnum

/-! What the topology of any host says. The counts are numbers of distinct ids among the readable
ones, and each level holds the capped sum over all listed positions and all indices before the end
of the probe, an attribute that gives no value taking away its own term and no other. -/
namespace HostInventory.Cpu

open Survey

theorem Survey.noted_eq_ok {α : Type} {file : String} {reading : Except Failure α} {value : α} :
    noted file reading = .ok value ↔ reading = .ok value := by
  cases reading <;> simp [noted, Except.mapError]

theorem sharedBelow_iff {cpu : UInt64} {sharers : IdSet} :
    sharedBelow cpu sharers ↔ ∃ id ∈ sharers, id < cpu := by
  unfold sharedBelow
  split
  · rename_i none
    simp [IdSet.least?_eq_none none]
  · rename_i least found
    obtain ⟨member, lowest⟩ := IdSet.isLeast_of_least? found
    simp only [decide_eq_true_eq]
    exact ⟨fun lt => ⟨least, member, lt⟩, fun ⟨id, hid, lt⟩ => UInt64.lt_of_le_of_lt (lowest id hid) lt⟩

/-- The cache at an index counts for a processor: no sharer has a lower number, and level and size
can be read. -/
structure Counts (h : Host) (r : SystemRoot) (cpu : UInt64) (index : Nat) (level size : UInt64) :
    Prop where
  lowest : ∃ sharers, r.idSet h (sharersFile cpu index) = .ok sharers ∧ ∀ id ∈ sharers, ¬id < cpu
  level_read : r.integer h (levelFile cpu index) = .ok level
  size_read : r.byteSize h (sizeFile cpu index) = .ok size

def sizeAt (h : Host) (r : SystemRoot) (cpu : UInt64) (index : Nat) : Nat :=
  ((r.byteSize h (sizeFile cpu index)).toOption.getD 0).toNat

variable {h : Host} {r : SystemRoot} {cpu level size : UInt64} {index : Nat}

theorem cacheEntry_eq_counted_iff {sharers : IdSet} :
    cacheEntry h r cpu index sharers = .counted level size ↔
      (∀ id ∈ sharers, ¬id < cpu) ∧ r.integer h (levelFile cpu index) = .ok level ∧
        r.byteSize h (sizeFile cpu index) = .ok size := by
  have below : (∀ id ∈ sharers, ¬id < cpu) ↔ ¬sharedBelow cpu sharers := by
    rw [sharedBelow_iff]
    simp
  rw [below, cacheEntry]
  split
  · simp [*]
  · cases hl : r.integer h (levelFile cpu index) with
    | error failure => simp [noted, Except.mapError]
    | ok l =>
      cases hs : r.byteSize h (sizeFile cpu index) with
      | error failure => simp [noted, Except.mapError]
      | ok s => simp [noted, Except.mapError, *]

theorem entryAt_eq_counted_iff :
    entryAt h r cpu index = .counted level size ↔ Counts h r cpu index level size := by
  unfold entryAt
  cases found : r.idSet h (sharersFile cpu index) with
  | error failure =>
    refine ⟨fun h => by simp at h, fun ⟨⟨sharers, read, _⟩, _, _⟩ => ?_⟩
    rw [found] at read
    cases read
  | ok sharers =>
    rw [cacheEntry_eq_counted_iff]
    refine ⟨fun ⟨low, l, s⟩ => ⟨⟨sharers, found, low⟩, l, s⟩, fun ⟨⟨other, read, low⟩, l, s⟩ => ?_⟩
    rw [found] at read
    cases read
    exact ⟨low, l, s⟩

theorem isCounted_entryAt :
    (entryAt h r cpu index).IsCounted ↔ ∃ level size, Counts h r cpu index level size := by
  simp only [CacheEntry.IsCounted, entryAt_eq_counted_iff]

open Classical in
theorem bytesAt_entryAt :
    (entryAt h r cpu index).bytesAt level =
      if ∃ size, Counts h r cpu index level size then sizeAt h r cpu index else 0 := by
  by_cases counted : (entryAt h r cpu index).IsCounted
  · obtain ⟨l, s, hentry⟩ := counted
    have counts := entryAt_eq_counted_iff.1 hentry
    have same : (∃ size, Counts h r cpu index level size) ↔ l = level := by
      constructor
      · rintro ⟨size, other⟩
        have read := other.level_read
        rw [counts.level_read] at read
        exact Except.ok.inj read
      · rintro rfl
        exact ⟨s, counts⟩
    have size : sizeAt h r cpu index = s.toNat := by
      rw [sizeAt, counts.size_read]
      rfl
    simp only [hentry, CacheEntry.bytesAt, same, size]
  · have silent : ¬∃ size, Counts h r cpu index level size := by
      rintro ⟨size, counts⟩
      exact counted (isCounted_entryAt.2 ⟨level, size, counts⟩)
    rw [if_neg silent]
    cases hentry : entryAt h r cpu index with
    | counted l s => exact absurd ⟨l, s, hentry⟩ counted
    | elsewhere => rfl
    | skipped reason => rfl

namespace SeenIds

theorem mem_note {ids : IdSet} {reading : Except Skipped UInt64} {id : UInt64} :
    id ∈ note ids reading ↔ reading = .ok id ∨ id ∈ ids := by
  cases reading with
  | error reason => simp [note]
  | ok value => simp [note, IdSet.mem_insert, eq_comm]

theorem mem_foldl_note (reading : Survey → Except Skipped UInt64) {surveys : List Survey}
    {ids : IdSet} {id : UInt64} :
    id ∈ surveys.foldl (fun ids s => note ids (reading s)) ids ↔
      (∃ s ∈ surveys, reading s = .ok id) ∨ id ∈ ids := by
  induction surveys generalizing ids with
  | nil => simp
  | cons s surveys ih =>
    simp only [List.foldl_cons, ih, mem_note, List.mem_cons, exists_eq_or_imp]
    rw [or_left_comm, or_assoc]

theorem mem_cores_foldl {surveys : List Survey} {id : UInt64} :
    id ∈ (surveys.foldl record .none).cores ↔ ∃ s ∈ surveys, s.core = .ok id := by
  have cores : (surveys.foldl record .none).cores =
      surveys.foldl (fun ids s => note ids s.core) .empty :=
    (List.foldl_hom SeenIds.cores fun _ _ => rfl).symm
  rw [cores, mem_foldl_note]
  simp

theorem mem_packages_foldl {surveys : List Survey} {id : UInt64} :
    id ∈ (surveys.foldl record .none).packages ↔ ∃ s ∈ surveys, s.package = .ok id := by
  have packages : (surveys.foldl record .none).packages =
      surveys.foldl (fun ids s => note ids s.package) .empty :=
    (List.foldl_hom SeenIds.packages fun _ _ => rfl).symm
  rw [packages, mem_foldl_note]
  simp

end SeenIds

namespace Topology

/-- The number under which the attributes of the stanza at a position are found. -/
def cpuAt (stanzas : List Stanza) (p : Fin stanzas.length) : UInt64 :=
  stanzas[p].index?.getD (.ofNat p)

theorem length_indices (position : Nat) (stanzas : List Stanza) :
    (indices position stanzas).length = stanzas.length := by
  induction stanzas generalizing position with
  | nil => rfl
  | cons s rest ih => simp [indices, ih]

theorem getElem_indices (position : Nat) (stanzas : List Stanza) (i : Nat)
    (h : i < (indices position stanzas).length) (hi : i < stanzas.length) :
    (indices position stanzas)[i] = stanzas[i].index?.getD (.ofNat (position + i)) := by
  induction stanzas generalizing position i with
  | nil => cases hi
  | cons s rest ih =>
    cases i with
    | zero => rfl
    | succ i =>
      have tail := ih (position + 1) i (Nat.lt_of_succ_lt_succ h) (Nat.lt_of_succ_lt_succ hi)
      rw [Nat.add_right_comm] at tail
      exact tail

theorem indices_eq_ofFn (stanzas : List Stanza) :
    indices 0 stanzas = List.ofFn (cpuAt stanzas) := by
  apply List.ext_getElem
  · rw [length_indices, List.length_ofFn]
  · intro i h _
    have listed : i < stanzas.length := by rwa [length_indices] at h
    rw [getElem_indices 0 stanzas i h listed, List.getElem_ofFn, Nat.zero_add]
    rfl

theorem mem_surveys {h : Host} {r : SystemRoot} {stanzas : List Stanza} {s : Survey} :
    s ∈ surveys h r stanzas ↔ ∃ p, Survey.of h r (cpuAt stanzas p) = s := by
  simp [surveys, indices_eq_ofFn, List.mem_ofFn]

def coreIds (h : Host) (r : SystemRoot) (stanzas : List Stanza) : Set UInt64 :=
  {id | ∃ p, r.integer h (coreFile (cpuAt stanzas p)) = .ok id}

def packageIds (h : Host) (r : SystemRoot) (stanzas : List Stanza) : Set UInt64 :=
  {id | ∃ p, r.integer h (packageFile (cpuAt stanzas p)) = .ok id}

theorem cores_ofSurveys (surveys : List Survey) :
    (ofSurveys surveys).cores = {id | ∃ s ∈ surveys, s.core = .ok id}.ncard := by
  simp only [← SeenIds.mem_cores_foldl, ← IdSet.size_eq_ncard]
  rfl

theorem packages_ofSurveys (surveys : List Survey) :
    (ofSurveys surveys).packages = {id | ∃ s ∈ surveys, s.package = .ok id}.ncard := by
  simp only [← SeenIds.mem_packages_foldl, ← IdSet.size_eq_ncard]
  rfl

variable (h : Host) (r : SystemRoot) (stanzas : List Stanza)

theorem cores_ofStanzas : (ofStanzas h r stanzas).cores = (coreIds h r stanzas).ncard := by
  rw [ofStanzas, cores_ofSurveys]
  simp [mem_surveys, coreIds, Survey.of, Survey.noted_eq_ok]

theorem packages_ofStanzas :
    (ofStanzas h r stanzas).packages = (packageIds h r stanzas).ncard := by
  rw [ofStanzas, packages_ofSurveys]
  simp [mem_surveys, packageIds, Survey.of, Survey.noted_eq_ok]

theorem logicalProcessors_ofStanzas :
    (ofStanzas h r stanzas).logicalProcessors = stanzas.length := by
  simp [ofStanzas, ofSurveys, surveys, length_indices]

open Finset

theorem toNat_level_ofStanzas (level : UInt64) :
    ((ofStanzas h r stanzas).caches.level level).toNat =
      min (∑ p, ∑ i ∈ range (probeEnd h r (cpuAt stanzas p)),
        (entryAt h r (cpuAt stanzas p) i).bytesAt level) (2 ^ 64 - 1) := by
  rw [ofStanzas, toNat_level_ofSurveys, surveys, indices_eq_ofFn, List.map_map, List.map_ofFn,
    List.sum_ofFn]
  simp only [Function.comp_apply, caches_of, List.map_map]
  rfl

/-- The bytes that a processor adds to a level each time it is listed. -/
def bytesOf (h : Host) (r : SystemRoot) (level cpu : UInt64) : Nat :=
  ∑ i ∈ range (probeEnd h r cpu), (entryAt h r cpu i).bytesAt level

theorem toNat_level_eq_sum_bytesOf (level : UInt64) :
    ((ofStanzas h r stanzas).caches.level level).toNat =
      min (∑ p, bytesOf h r level (cpuAt stanzas p)) (2 ^ 64 - 1) :=
  toNat_level_ofStanzas h r stanzas level

theorem isEmpty_caches_ofStanzas :
    (ofStanzas h r stanzas).caches.isEmpty ↔
      ¬∃ p, ∃ i < probeEnd h r (cpuAt stanzas p), (entryAt h r (cpuAt stanzas p) i).IsCounted := by
  have start : (∅ : CacheTotals).isEmpty = true := rfl
  rw [ofStanzas, caches_ofSurveys, isEmpty_foldl_countEntry]
  simp only [start, true_and, List.mem_flatMap, mem_surveys, not_exists, not_and]
  constructor
  · intro silent p i hi
    refine silent _ ⟨_, ⟨p, rfl⟩, ?_⟩
    rw [caches_of]
    exact List.mem_map.2 ⟨i, List.mem_range.2 hi, rfl⟩
  · rintro silent e ⟨_, ⟨p, rfl⟩, he⟩
    rw [caches_of] at he
    obtain ⟨i, hi, rfl⟩ := List.mem_map.1 he
    exact silent p i (List.mem_range.1 hi)

open Classical in
/-- The topology of any listed processors in any tree. -/
theorem ofStanzas_meaning :
    (ofStanzas h r stanzas).cores = (coreIds h r stanzas).ncard ∧
    (ofStanzas h r stanzas).packages = (packageIds h r stanzas).ncard ∧
    (ofStanzas h r stanzas).logicalProcessors = stanzas.length ∧
    (∀ level, ((ofStanzas h r stanzas).caches.level level).toNat =
      min (∑ p, ∑ i ∈ range (probeEnd h r (cpuAt stanzas p)) with
          ∃ size, Counts h r (cpuAt stanzas p) i level size,
        sizeAt h r (cpuAt stanzas p) i) (2 ^ 64 - 1)) ∧
    ((ofStanzas h r stanzas).caches.isEmpty ↔
      ¬∃ p, ∃ i < probeEnd h r (cpuAt stanzas p),
        ∃ level size, Counts h r (cpuAt stanzas p) i level size) := by
  refine ⟨cores_ofStanzas h r stanzas, packages_ofStanzas h r stanzas,
    logicalProcessors_ofStanzas h r stanzas, fun level => ?_, ?_⟩
  · rw [toNat_level_ofStanzas]
    simp only [bytesAt_entryAt, sum_filter]
  · rw [isEmpty_caches_ofStanzas]
    simp only [isCounted_entryAt]

end Topology

end HostInventory.Cpu

namespace HostInventory

def Host.ofAttributes (files : List (List String × String)) : Host where
  tree := files.foldl (fun t file =>
    t.place (file.1.reverse ++ ["cpu", "system", "devices", "sys"]) (.file (Utf8.encode file.2))) ∅
  workingDirectory := []

theorem eq_ok_of_toOption {ε α : Type} {reading : Except ε α} {value : α}
    (h : reading.toOption = some value) : reading = .ok value := by
  cases reading with
  | error failure => cases h
  | ok found => exact congrArg Except.ok (Option.some.inj h)

end HostInventory
