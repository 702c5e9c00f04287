import HostInventory.Cpu.Topology
import Mathlib.Algebra.BigOperators.Group.List.Basic
import Mathlib.Algebra.Ring.Nat

/-! Cache totals as capped sums. Each counted entry adds its size to its own level and to no other,
so after any entries, in whatever order, a level holds their exact sum there, or the largest word
if that is less. -/
namespace HostInventory

namespace OrderedMap

variable {κ ν : Type} [LT κ] [DecidableLT κ]

theorem isEmpty_insertEntry (k : κ) (v : ν) (es : List (κ × ν)) :
    (insertEntry k v es).isEmpty = false := by
  cases es with
  | nil => rfl
  | cons e rest =>
    rw [insertEntry]
    split
    · rfl
    · split <;> rfl

theorem isEmpty_insert [LE κ] [Std.IsLinearOrder κ] [Std.LawfulOrderLT κ] (m : OrderedMap κ ν)
    (k : κ) (v : ν) : (m.insert k v).isEmpty = false :=
  isEmpty_insertEntry k v m.entries

end OrderedMap

namespace Cpu

theorem saturatingAdd_right_comm (a b c : UInt64) :
    saturatingAdd (saturatingAdd a b) c = saturatingAdd (saturatingAdd a c) b := by
  apply UInt64.toNat_inj.1
  simp only [toNat_saturatingAdd]
  omega

namespace CacheTotals

theorem get?_add (t : CacheTotals) (l size k : UInt64) :
    (t.add l size).levels.get? k =
      if l = k then some (saturatingAdd (t.level l) size) else t.levels.get? k :=
  OrderedMap.get?_insert t.levels l k _

theorem add_right_comm (t : CacheTotals) (l size k size' : UInt64) :
    (t.add l size).add k size' = (t.add k size').add l size := by
  have levels : ((t.add l size).add k size').levels = ((t.add k size').add l size).levels := by
    apply OrderedMap.ext_get?
    intro level
    simp only [get?_add, level_add]
    by_cases same : l = k
    · subst same
      rw [if_pos rfl, if_pos rfl, saturatingAdd_right_comm]
      by_cases here : l = level <;> simp [here]
    · by_cases here : l = level
      · subst here
        simp [Ne.symm same]
      · simp [here, same]
  exact congrArg mk levels

theorem toNat_sum {t : CacheTotals}
    (fits : (t.level 1).toNat + (t.level 2).toNat + (t.level 3).toNat < 2 ^ 64) :
    t.sum.toNat = (t.level 1).toNat + (t.level 2).toNat + (t.level 3).toNat := by
  rw [sum, UInt64.toNat_add, UInt64.toNat_add]
  omega

end CacheTotals

def CacheEntry.bytesAt (level : UInt64) : CacheEntry → Nat
  | .counted l size => if l = level then size.toNat else 0
  | _ => 0

def CacheEntry.IsCounted (e : CacheEntry) : Prop := ∃ level size, e = .counted level size

namespace Topology

theorem toNat_level_countEntry (t : CacheTotals) (e : CacheEntry) (level : UInt64) :
    ((countEntry t e).level level).toNat =
      min ((t.level level).toNat + e.bytesAt level) (2 ^ 64 - 1) := by
  have bound := (t.level level).toNat_lt
  cases e with
  | counted l size =>
    rw [countEntry, CacheTotals.level_add, CacheEntry.bytesAt]
    split
    · exact toNat_saturatingAdd _ _
    · omega
  | elsewhere => simp only [countEntry, CacheEntry.bytesAt]; omega
  | skipped reason => simp only [countEntry, CacheEntry.bytesAt]; omega

theorem level_le_level_countEntry (t : CacheTotals) (e : CacheEntry) (level : UInt64) :
    t.level level ≤ (countEntry t e).level level := by
  have bound := (t.level level).toNat_lt
  rw [UInt64.le_iff_toNat_le, toNat_level_countEntry]
  omega

theorem toNat_level_foldl_countEntry (t : CacheTotals) (entries : List CacheEntry)
    (level : UInt64) :
    ((entries.foldl countEntry t).level level).toNat =
      min ((t.level level).toNat + (entries.map (CacheEntry.bytesAt level)).sum) (2 ^ 64 - 1) := by
  induction entries generalizing t with
  | nil =>
    have bound := (t.level level).toNat_lt
    simp only [List.foldl_nil, List.map_nil, List.sum_nil]
    omega
  | cons e entries ih =>
    rw [List.foldl_cons, ih, toNat_level_countEntry, List.map_cons, List.sum_cons]
    omega

theorem countEntry_right_comm (t : CacheTotals) (e f : CacheEntry) :
    countEntry (countEntry t e) f = countEntry (countEntry t f) e := by
  cases e with
  | counted l size =>
    cases f with
    | counted k size' => exact CacheTotals.add_right_comm t l size k size'
    | elsewhere => rfl
    | skipped reason => rfl
  | elsewhere => rfl
  | skipped reason => rfl

theorem foldl_countEntry_of_perm {entries entries' : List CacheEntry}
    (perm : entries.Perm entries') (t : CacheTotals) :
    entries.foldl countEntry t = entries'.foldl countEntry t :=
  perm.foldl_eq' (fun e _ f _ t => countEntry_right_comm t e f) t

theorem isEmpty_countEntry (t : CacheTotals) (e : CacheEntry) :
    (countEntry t e).isEmpty ↔ t.isEmpty ∧ ¬e.IsCounted := by
  cases e with
  | counted l size =>
    have filled : (t.add l size).isEmpty = false := OrderedMap.isEmpty_insert _ _ _
    simp [countEntry, filled, CacheEntry.IsCounted]
  | elsewhere => simp [countEntry, CacheEntry.IsCounted]
  | skipped reason => simp [countEntry, CacheEntry.IsCounted]

theorem isEmpty_foldl_countEntry (t : CacheTotals) (entries : List CacheEntry) :
    (entries.foldl countEntry t).isEmpty ↔ t.isEmpty ∧ ∀ e ∈ entries, ¬e.IsCounted := by
  induction entries generalizing t with
  | nil => simp
  | cons e entries ih =>
    rw [List.foldl_cons, ih, isEmpty_countEntry, List.forall_mem_cons, and_assoc]

theorem caches_ofSurveys (surveys : List Survey) :
    (ofSurveys surveys).caches = (surveys.flatMap Survey.caches).foldl countEntry ∅ := by
  rw [ofSurveys, List.foldl_flatMap]

theorem toNat_level_ofSurveys (surveys : List Survey) (level : UInt64) :
    ((ofSurveys surveys).caches.level level).toNat =
      min ((surveys.map fun s => (s.caches.map (CacheEntry.bytesAt level)).sum).sum)
        (2 ^ 64 - 1) := by
  have none : (CacheTotals.level ∅ level).toNat = 0 := rfl
  rw [caches_ofSurveys, toNat_level_foldl_countEntry, none, Nat.zero_add, List.map_flatMap,
    List.flatMap_def, List.sum_flatten, List.map_map]
  rfl

end Topology

end Cpu

end HostInventory
