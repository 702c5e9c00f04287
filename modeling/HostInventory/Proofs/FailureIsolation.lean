import HostInventory.Proofs.CollectionRun
import HostInventory.Proofs.TextOrder
import Mathlib.Data.Set.Card

/-! Failures in a snapshot. A section is the value of the last collector of its name that succeeds,
so a collector that fails, or is not selected, might as well not be in the list. -/
namespace HostInventory.Snapshot

/-- What a collector adds, if it is selected and succeeds. -/
def addition? (m : Machine) (r : SystemRoot) (selection : Selection) (c : Collector) :
    Option (String × Json) :=
  if selection.includes c.name then section? (c.name, c.run m r) else none

def Adds (m : Machine) (r : SystemRoot) (selection : Selection) (c : Collector) : Prop :=
  selection.includes c.name ∧ ∃ value, (c.run m r).result = .ok value

variable {m : Machine} {r : SystemRoot} {selection : Selection} {collectors : List Collector}

theorem addition?_eq_some_iff {c : Collector} {e : String × Json} :
    addition? m r selection c = some e ↔
      selection.includes c.name ∧ c.name = e.1 ∧ (c.run m r).result = .ok e.2 := by
  obtain ⟨name, value⟩ := e
  unfold addition? section?
  split <;> rename_i included
  · cases (c.run m r).result <;> simp [included, Except.toOption]
  · simp [included]

theorem isSome_addition?_iff {c : Collector} :
    (addition? m r selection c).isSome ↔ Adds m r selection c := by
  simp [Option.isSome_iff_exists, addition?_eq_some_iff, Adds]

instance : DecidablePred (Adds m r selection) := fun _ => decidable_of_iff _ isSome_addition?_iff

theorem sections_collectWith (collectors : List Collector) (m : Machine) (r : SystemRoot)
    (selection : Selection) :
    (collectWith collectors m r selection).sections =
      .ofList (collectors.filterMap (addition? m r selection)) := by
  rw [collectWith, sections_run, outcomes_unrecorded, selected, List.filterMap_map,
    List.filterMap_filter]
  rfl

theorem eq_of_sections {s t : Snapshot} (same : s.sections = t.sections) : s = t := by
  cases s
  cases t
  exact congrArg mk same

theorem get?_collectWith_eq_some_iff {name : String} {value : Json} :
    (collectWith collectors m r selection).sections.get? name = some value ↔
      selection.includes name ∧ ∃ before c after, collectors = before ++ c :: after ∧
        c.name = name ∧ (c.run m r).result = .ok value ∧
        ∀ d ∈ after, d.name = name → ∃ why, (d.run m r).result = .error why := by
  rw [sections_collectWith, OrderedMap.get?_ofList_filterMap_eq_some_iff]
  simp only [Ne, addition?_eq_some_iff]
  constructor
  · rintro ⟨before, c, after, rfl, ⟨included, rfl, result⟩, others⟩
    refine ⟨included, before, c, after, rfl, rfl, result, fun d mem same => ?_⟩
    cases failed : (d.run m r).result with
    | error why => exact ⟨why, rfl⟩
    | ok value' => exact absurd ⟨same ▸ included, same, failed⟩ (others d mem value')
  · rintro ⟨included, before, c, after, rfl, rfl, result, failing⟩
    refine ⟨before, c, after, rfl, ⟨included, rfl, result⟩, ?_⟩
    rintro d mem value' ⟨-, same, succeeded⟩
    obtain ⟨why, failed⟩ := failing d mem same
    cases failed.symm.trans succeeded

theorem mem_names_collectWith_iff {name : String} :
    name ∈ (collectWith collectors m r selection).names ↔
      selection.includes name ∧
        ∃ c ∈ collectors, c.name = name ∧ ∃ value, (c.run m r).result = .ok value := by
  rw [names, sections_collectWith, OrderedMap.mem_keys_ofList]
  simp only [List.mem_map, List.mem_filterMap, addition?_eq_some_iff]
  constructor
  · rintro ⟨e, ⟨c, mem, included, named, result⟩, rfl⟩
    exact ⟨by rwa [named] at included, c, mem, named, e.2, result⟩
  · rintro ⟨included, c, mem, rfl, value, result⟩
    exact ⟨(c.name, value), ⟨c, mem, included, rfl, result⟩, rfl⟩

theorem nodup_names (s : Snapshot) : s.names.Nodup := s.sections.nodup_keys

theorem size_collectWith (collectors : List Collector) (m : Machine) (r : SystemRoot)
    (selection : Selection) :
    (collectWith collectors m r selection).sections.size =
      {name | selection.includes name ∧ ∃ c ∈ collectors, c.name = name ∧
        ∃ value, (c.run m r).result = .ok value}.ncard := by
  have members : {name | selection.includes name ∧ ∃ c ∈ collectors, c.name = name ∧
      ∃ value, (c.run m r).result = .ok value} =
        ((collectWith collectors m r selection).names.toFinset : Set String) := by
    ext name
    rw [List.coe_toFinset, Set.mem_ofPred_eq, Set.mem_ofPred_eq, mem_names_collectWith_iff]
  rw [members, Set.ncard_coe_finset, List.toFinset_card_of_nodup (nodup_names _), names,
    OrderedMap.keys, List.length_map]
  rfl

theorem names_ascend (s : Snapshot) : (s.names.map Utf8.encode).Pairwise (· < ·) := by
  rw [names, OrderedMap.keys, List.map_map, List.pairwise_map]
  apply s.sections.increasing.imp
  intro e f below
  exact Utf8.encode_lt_encode_iff.2 below

theorem filterMap_addition?_filter (collectors : List Collector) :
    (collectors.filter (Adds m r selection)).filterMap (addition? m r selection) =
      collectors.filterMap (addition? m r selection) := by
  rw [List.filterMap_filter]
  refine List.filterMap_congr fun c _ => ?_
  split <;> rename_i adds
  · rfl
  · rw [decide_eq_true_iff, ← isSome_addition?_iff, Option.not_isSome_iff_eq_none] at adds
    exact adds.symm

theorem collectWith_of_between {kept : List Collector} (fewer : kept.Sublist collectors)
    (enough : (collectors.filter (Adds m r selection)).Sublist kept) :
    collectWith kept m r selection = collectWith collectors m r selection := by
  have adding : kept.filter (Adds m r selection) = collectors.filter (Adds m r selection) := by
    apply (fewer.filter _).antisymm
    have again := enough.filter fun c => decide (Adds m r selection c)
    simpa only [List.filter_filter, Bool.and_self] using again
  apply eq_of_sections
  rw [sections_collectWith, sections_collectWith, ← filterMap_addition?_filter kept, adding,
    filterMap_addition?_filter]

theorem names_additions_sublist (collectors : List Collector) :
    ((collectors.filterMap (addition? m r selection)).map Prod.fst).Sublist
      (collectors.map Collector.name) := by
  induction collectors with
  | nil => exact .slnil
  | cons c rest ih =>
    cases adds : addition? m r selection c with
    | none =>
      rw [List.filterMap_cons_none adds]
      exact ih.cons _
    | some e =>
      rw [List.filterMap_cons_some adds, List.map_cons, List.map_cons,
        (addition?_eq_some_iff.1 adds).2.1]
      exact ih.cons_cons _

theorem collectWith_of_perm {reordered : List Collector}
    (distinct : (collectors.map Collector.name).Nodup) (perm : reordered.Perm collectors) :
    collectWith reordered m r selection = collectWith collectors m r selection := by
  have distinct' : (reordered.map Collector.name).Nodup := (perm.map _).nodup_iff.2 distinct
  apply eq_of_sections
  rw [sections_collectWith, sections_collectWith]
  exact OrderedMap.ofList_of_perm (distinct'.sublist (names_additions_sublist reordered))
    (perm.filterMap _)

/-- A snapshot has the last successful value of each selected name and nothing else, so it stays as
it is without any of the collectors that fail or are not selected, and in any order of collectors
with different names. Its names ascend in the order of their bytes. -/
theorem collectWith_isolates_failures (collectors : List Collector) (m : Machine) (r : SystemRoot)
    (selection : Selection) :
    (∀ name value,
      (collectWith collectors m r selection).sections.get? name = some value ↔
        selection.includes name ∧ ∃ before c after, collectors = before ++ c :: after ∧
          c.name = name ∧ (c.run m r).result = .ok value ∧
          ∀ d ∈ after, d.name = name → ∃ why, (d.run m r).result = .error why) ∧
    (∀ name, name ∈ (collectWith collectors m r selection).names ↔
      selection.includes name ∧
        ∃ c ∈ collectors, c.name = name ∧ ∃ value, (c.run m r).result = .ok value) ∧
    (∀ kept : List Collector, kept.Sublist collectors →
      (collectors.filter (Adds m r selection)).Sublist kept →
      collectWith kept m r selection = collectWith collectors m r selection) ∧
    ((collectors.map Collector.name).Nodup → ∀ reordered : List Collector,
      reordered.Perm collectors →
      collectWith reordered m r selection = collectWith collectors m r selection) ∧
    ((collectWith collectors m r selection).names.map Utf8.encode).Pairwise (· < ·) ∧
    (collectWith collectors m r selection).sections.size =
      {name | selection.includes name ∧ ∃ c ∈ collectors, c.name = name ∧
        ∃ value, (c.run m r).result = .ok value}.ncard :=
  ⟨fun _ _ => get?_collectWith_eq_some_iff, fun _ => mem_names_collectWith_iff,
    fun _ fewer enough => collectWith_of_between fewer enough,
    fun distinct _ perm => collectWith_of_perm distinct perm, names_ascend _,
    size_collectWith collectors m r selection⟩

def constant (name : String) (result : Except Failure Json) : Collector where
  name := name
  run _ _ := ⟨result, []⟩

/-- A processor section, a collector of its name that fails after it, one that fails in between and
one that is excluded. -/
def brittleCollectors : List Collector :=
  [constant "cpu" (.ok .null), constant "network" (.error (.collector "network" "no interfaces")),
    constant "memory" (.ok .null), constant "cpu" (.error (.noProcessors ⟨"/proc/cpuinfo"⟩))]

def withoutMemory : Selection := ⟨none, .ofNames ["memory"]⟩

def bareMachine : Machine where
  host := ⟨∅, []⟩
  system := ⟨none, .error "no host name", "aarch64"⟩
  mounts := []
  addresses := .ok []

theorem collectWith_brittleCollectors :
    (brittleCollectors.filter (Adds bareMachine .standard withoutMemory)).Sublist
      (brittleCollectors.take 1) ∧
    (brittleCollectors.take 1).Sublist brittleCollectors ∧
    collectWith (brittleCollectors.take 1) bareMachine .standard withoutMemory =
      collectWith brittleCollectors bareMachine .standard withoutMemory ∧
    (collectWith brittleCollectors bareMachine .standard withoutMemory).names = ["cpu"] := by
  have enough : (brittleCollectors.filter (Adds bareMachine .standard withoutMemory)).Sublist
      (brittleCollectors.take 1) := by
    rw [show brittleCollectors.filter (Adds bareMachine .standard withoutMemory) =
      brittleCollectors.take 1 from rfl]
  have fewer := List.take_sublist 1 brittleCollectors
  obtain ⟨-, -, between, -⟩ :=
    collectWith_isolates_failures brittleCollectors bareMachine .standard withoutMemory
  exact ⟨enough, fewer, between _ fewer enough, by decide +kernel⟩

end HostInventory.Snapshot
