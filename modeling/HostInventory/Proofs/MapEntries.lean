import HostInventory.OrderedMap
import Mathlib.Data.List.Nodup

/-! Maps and the pairs they are made from. Of pairs that are inserted one after another the last one
under a key is found there, so a map is rebuilt from its own entries. -/
namespace HostInventory.OrderedMap

variable {κ ν : Type}

section Entries

variable [DecidableEq κ]

theorem lookup_append (k : κ) (es fs : List (κ × ν)) :
    lookup k (es ++ fs) = (lookup k es).or (lookup k fs) := by
  induction es with
  | nil => simp [lookup]
  | cons e rest ih => by_cases h : e.1 = k <;> simp [lookup, h, ih]

theorem lookup_eq_some_iff {k : κ} {v : ν} {es : List (κ × ν)}
    (distinct : (es.map Prod.fst).Nodup) : lookup k es = some v ↔ (k, v) ∈ es := by
  refine ⟨mem_of_lookup, fun mem => ?_⟩
  induction es with
  | nil => cases mem
  | cons e rest ih =>
    obtain ⟨new, distinct⟩ := List.nodup_cons.1 distinct
    rcases List.mem_cons.1 mem with rfl | mem
    · simp [lookup]
    · have other : e.1 ≠ k := fun same => new (List.mem_map.2 ⟨(k, v), mem, same.symm⟩)
      simp [lookup, other, ih distinct mem]

theorem lookup_reverse {es : List (κ × ν)} (distinct : (es.map Prod.fst).Nodup) (k : κ) :
    lookup k es.reverse = lookup k es := by
  have distinct' : (es.reverse.map Prod.fst).Nodup := by
    rw [List.map_reverse]
    exact List.nodup_reverse.2 distinct
  ext v
  rw [lookup_eq_some_iff distinct', lookup_eq_some_iff distinct, List.mem_reverse]

theorem lookup_eq_some_iff_first {k : κ} {v : ν} {es : List (κ × ν)} :
    lookup k es = some v ↔
      ∃ before after, es = before ++ (k, v) :: after ∧ ∀ e ∈ before, e.1 ≠ k := by
  induction es with
  | nil => simp [lookup]
  | cons e rest ih =>
    by_cases here : e.1 = k
    · rw [lookup, if_pos here]
      constructor
      · rintro ⟨rfl⟩
        exact ⟨[], rest, by simp [← here], by simp⟩
      · rintro ⟨before, after, entries, others⟩
        rcases List.cons_eq_append_iff.1 entries with ⟨-, first⟩ | ⟨more, rfl, -⟩
        · simp [← (List.cons.inj first).1]
        · exact absurd here (others e List.mem_cons_self)
    · rw [lookup, if_neg here, ih]
      constructor
      · rintro ⟨before, after, rfl, others⟩
        exact ⟨e :: before, after, rfl, List.forall_mem_cons.2 ⟨here, others⟩⟩
      · rintro ⟨before, after, entries, others⟩
        rcases List.cons_eq_append_iff.1 entries with ⟨-, first⟩ | ⟨more, rfl, rest⟩
        · exact absurd (congrArg Prod.fst (List.cons.inj first).1).symm here
        · exact ⟨more, after, rest, fun f hf => others f (List.mem_cons_of_mem e hf)⟩

theorem lookup_reverse_eq_some_iff {k : κ} {v : ν} {es : List (κ × ν)} :
    lookup k es.reverse = some v ↔
      ∃ before after, es = before ++ (k, v) :: after ∧ ∀ e ∈ after, e.1 ≠ k := by
  rw [lookup_eq_some_iff_first]
  constructor
  · rintro ⟨before, after, entries, others⟩
    exact ⟨after.reverse, before.reverse, by rw [← List.reverse_inj, entries]; simp,
      by simpa using others⟩
  · rintro ⟨before, after, rfl, others⟩
    exact ⟨after.reverse, before.reverse, by simp, by simpa using others⟩

theorem lookup_map_congr {α : Type} {k : κ} {f g : α → κ × ν} {items : List α}
    (keys : ∀ item ∈ items, (f item).1 = (g item).1)
    (same : ∀ item ∈ items, (g item).1 = k → f item = g item) :
    lookup k (items.map f) = lookup k (items.map g) := by
  induction items with
  | nil => rfl
  | cons item rest ih =>
    obtain ⟨key, keys⟩ := List.forall_mem_cons.1 keys
    obtain ⟨value, same⟩ := List.forall_mem_cons.1 same
    rw [List.map_cons, List.map_cons, lookup, lookup, key, ih keys same]
    split
    · rename_i here
      rw [value here]
    · rfl

end Entries

variable [LT κ] [LE κ] [Std.LawfulOrderLT κ]

theorem nodup_keys (m : OrderedMap κ ν) : (m.entries.map Prod.fst).Nodup := by
  apply List.pairwise_map.2
  apply m.increasing.imp
  intro e f below same
  rw [same] at below
  exact Std.lt_irrefl below

variable [DecidableEq κ]

theorem get?_eq_some_iff {m : OrderedMap κ ν} {k : κ} {v : ν} :
    m.get? k = some v ↔ (k, v) ∈ m.entries :=
  lookup_eq_some_iff m.nodup_keys

theorem mem_keys_iff {m : OrderedMap κ ν} {k : κ} : k ∈ m.keys ↔ ∃ v, m.get? k = some v := by
  rw [keys, List.mem_map]
  constructor
  · rintro ⟨⟨_, v⟩, mem, rfl⟩
    exact ⟨v, get?_eq_some_iff.2 mem⟩
  · rintro ⟨v, found⟩
    exact ⟨(k, v), get?_eq_some_iff.1 found, rfl⟩

theorem isEmpty_of_contains {m : OrderedMap κ ν} {k : κ} (found : m.contains k) :
    m.isEmpty = false := by
  obtain ⟨v, member⟩ := Option.isSome_iff_exists.1 found
  rw [isEmpty, List.isEmpty_eq_false_iff]
  exact List.ne_nil_of_mem (get?_eq_some_iff.1 member)

variable [Std.IsLinearOrder κ] [DecidableLT κ]

theorem get?_foldl_insert (m : OrderedMap κ ν) (pairs : List (κ × ν)) (k : κ) :
    (pairs.foldl (fun m e => m.insert e.1 e.2) m).get? k =
      (lookup k pairs.reverse).or (m.get? k) := by
  induction pairs generalizing m with
  | nil => simp [lookup]
  | cons e rest ih =>
    rw [List.foldl_cons, ih, get?_insert, List.reverse_cons, lookup_append]
    by_cases here : e.1 = k <;> simp [lookup, here]

theorem get?_insert? (m : OrderedMap κ ν) (k k' : κ) (v : Option ν) :
    (m.insert? k v).get? k' = (if k = k' then v else none).or (m.get? k') := by
  cases v with
  | none => simp [insert?]
  | some v =>
    rw [insert?, get?_insert]
    split <;> rfl

theorem get?_insert?_of_absent (m : OrderedMap κ ν) (k k' : κ) (v : Option ν) :
    (if m.contains k then m else m.insert? k v).get? k' =
      (m.get? k').or (if k = k' then v else none) := by
  by_cases found : m.contains k
  · rw [if_pos found]
    split
    · rename_i here
      obtain ⟨value, present⟩ := Option.isSome_iff_exists.1 found
      rw [← here, present, Option.some_or]
    · rw [Option.or_none]
  · rw [if_neg found, get?_insert?]
    split
    · rename_i here
      have absent : m.get? k = none := Option.not_isSome_iff_eq_none.1 found
      rw [← here, absent, Option.none_or, Option.or_none]
    · rw [Option.none_or, Option.or_none]

theorem get?_foldl_insert? {writes : List (κ × Option ν)} (distinct : (writes.map Prod.fst).Nodup)
    (m : OrderedMap κ ν) (k : κ) :
    (writes.foldl (fun m e => m.insert? e.1 e.2) m).get? k =
      (lookup k writes).join.or (m.get? k) := by
  induction writes generalizing m with
  | nil => rfl
  | cons e rest ih =>
    obtain ⟨new, distinct⟩ := List.nodup_cons.1 distinct
    rw [List.foldl_cons, ih distinct, get?_insert?, lookup]
    by_cases here : e.1 = k
    · have last : lookup k rest = none := lookup_eq_none_iff.2 fun a mem same =>
        new (List.mem_map.2 ⟨a, mem, same.trans here.symm⟩)
      simp [here, last]
    · simp [here]

theorem get?_ofList (pairs : List (κ × ν)) (k : κ) :
    (ofList pairs).get? k = lookup k pairs.reverse := by
  rw [ofList, get?_foldl_insert, get?_empty, Option.or_none]

theorem mem_keys_ofList {pairs : List (κ × ν)} {k : κ} :
    k ∈ (ofList pairs).keys ↔ k ∈ pairs.map Prod.fst := by
  rw [mem_keys_iff, ← Option.ne_none_iff_exists', get?_ofList, ne_eq, lookup_eq_none_iff]
  simp

section FilterMap

variable {α : Type} {pair? : α → Option (κ × ν)} {items : List α} {k : κ}

theorem get?_ofList_filterMap_eq_some_iff {v : ν} :
    (ofList (items.filterMap pair?)).get? k = some v ↔
      ∃ before item after, items = before ++ item :: after ∧ pair? item = some (k, v) ∧
        ∀ other ∈ after, ∀ v', pair? other ≠ some (k, v') := by
  rw [get?_ofList, lookup_reverse_eq_some_iff]
  constructor
  · rintro ⟨front, back, pairs, others⟩
    obtain ⟨before, rest, rfl, -, later⟩ := List.filterMap_eq_append_iff.1 pairs
    obtain ⟨passed, item, after, rfl, -, enters, rfl⟩ := List.filterMap_eq_cons_iff.1 later
    refine ⟨before ++ passed, item, after, (List.append_assoc ..).symm, enters, ?_⟩
    intro other mem v' again
    exact others (k, v') (List.mem_filterMap.2 ⟨other, mem, again⟩) rfl
  · rintro ⟨before, item, after, rfl, enters, others⟩
    refine ⟨before.filterMap pair?, after.filterMap pair?, ?_, ?_⟩
    · rw [List.filterMap_append, List.filterMap_cons_some enters]
    · intro e entered same
      obtain ⟨other, mem, again⟩ := List.mem_filterMap.1 entered
      exact others other mem e.2 (by rw [again, ← same])

theorem contains_ofList_filterMap_iff :
    (ofList (items.filterMap pair?)).contains k ↔
      ∃ item ∈ items, ∃ v, pair? item = some (k, v) := by
  rw [contains, Option.isSome_iff_exists, ← mem_keys_iff, mem_keys_ofList, List.mem_map]
  simp only [List.mem_filterMap]
  constructor
  · rintro ⟨⟨_, v⟩, ⟨item, mem, enters⟩, rfl⟩
    exact ⟨item, mem, v, enters⟩
  · rintro ⟨item, mem, v, enters⟩
    exact ⟨(k, v), ⟨item, mem, enters⟩, rfl⟩

end FilterMap

theorem ofList_entries (m : OrderedMap κ ν) : ofList m.entries = m := by
  apply ext_get?
  intro k
  rw [get?_ofList, lookup_reverse m.nodup_keys]
  rfl

theorem get?_ofList_of_nodup {pairs : List (κ × ν)} (distinct : (pairs.map Prod.fst).Nodup) (k : κ)
    (v : ν) : (ofList pairs).get? k = some v ↔ (k, v) ∈ pairs := by
  rw [get?_ofList, lookup_reverse distinct, lookup_eq_some_iff distinct]

theorem ofList_of_perm {pairs pairs' : List (κ × ν)} (distinct : (pairs.map Prod.fst).Nodup)
    (perm : pairs.Perm pairs') : ofList pairs = ofList pairs' := by
  have distinct' : (pairs'.map Prod.fst).Nodup := (perm.map _).nodup_iff.1 distinct
  apply ext_get?
  intro k
  ext v
  rw [get?_ofList_of_nodup distinct, get?_ofList_of_nodup distinct', perm.mem_iff]

theorem entries_ofList_perm {pairs : List (κ × ν)} (distinct : (pairs.map Prod.fst).Nodup) :
    (ofList pairs).entries.Perm pairs := by
  apply (List.perm_ext_iff_of_nodup (.of_map _ (ofList pairs).nodup_keys) (.of_map _ distinct)).2
  rintro ⟨k, v⟩
  rw [← get?_eq_some_iff, get?_ofList_of_nodup distinct]

end HostInventory.OrderedMap
