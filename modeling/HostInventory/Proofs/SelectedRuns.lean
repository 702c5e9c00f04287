import HostInventory.Proofs.CollectionAccount
import HostInventory.Proofs.FailureIsolation

/-! Selections and the collections that go by them. Two lists of names make a selection if all of
the names are known. It is given by the two sets of names and runs the collectors that it lets
through, each of them once and in the order of all collectors. -/
namespace HostInventory

namespace Snapshot

variable {m : Machine} {r : SystemRoot} {selection : Selection}

theorem get?_collect_eq_some_iff {name : String} {value : Json} :
    (collect m r selection).sections.get? name = some value ↔
      name ∈ selection.names ∧
        ∃ c ∈ Collector.all, c.name = name ∧ (c.run m r).result = .ok value := by
  have distinct : ((Collector.all.filterMap (addition? m r selection)).map Prod.fst).Nodup :=
    Collector.nodup_names.sublist (names_additions_sublist Collector.all)
  rw [collect, sections_collectWith, OrderedMap.get?_ofList_of_nodup distinct, List.mem_filterMap,
    Selection.mem_names_iff]
  simp only [addition?_eq_some_iff]
  constructor
  · rintro ⟨c, listed, included, rfl, result⟩
    exact ⟨⟨List.mem_map_of_mem listed, included⟩, c, listed, rfl, result⟩
  · rintro ⟨⟨-, included⟩, c, listed, rfl, result⟩
    exact ⟨c, listed, included, rfl, result⟩

end Snapshot

namespace Selection

/-- What a selection made from these names lets through. -/
structure Chooses (only exclude : List String) (s : Selection) : Prop where
  includes : ∀ name, s.includes name ↔ (only = [] ∨ name ∈ only) ∧ name ∉ exclude
  names : ∀ name, name ∈ s.names ↔ name ∈ Collector.names ∧ s.includes name
  inOrder : s.names.Sublist Collector.names
  separate : s.names.Nodup
  /-- Names make this selection if they are the same two sets. -/
  sets : ∀ only' exclude', make only' exclude' = .ok s ↔
    (∀ name, name ∈ only' ↔ name ∈ only) ∧ ∀ name, name ∈ exclude' ↔ name ∈ exclude

/-- What runs by a selection: the collectors of its names and no others. -/
structure Runs (s : Selection) : Prop where
  finished : ∀ record r m,
    (Snapshot.run record Collector.all r s m).events.filterMap Event.finished? = s.names
  sections : ∀ m r name value, (Snapshot.collect m r s).sections.get? name = some value ↔
    name ∈ s.names ∧ ∃ c ∈ Collector.all, c.name = name ∧ (c.run m r).result = .ok value

variable {only exclude : List String} {s : Selection}

theorem chooses_of_make (made : make only exclude = .ok s) : Chooses only exclude s where
  includes := includes_of_make made
  names _ := mem_names_iff
  inOrder := List.filter_sublist
  separate := Collector.nodup_names.filter _
  sets only' exclude' := by
    constructor
    · exact fun made' => (eq_iff_of_make made' made).1 rfl
    · rintro ⟨wanted, excluded⟩
      have known := exists_make_iff.1 ⟨s, made⟩
      simp only [List.mem_append, ← wanted, ← excluded] at known
      obtain ⟨s', made'⟩ := exists_make_iff.2 (by simpa only [List.mem_append] using known)
      rw [made', (eq_iff_of_make made' made).2 ⟨wanted, excluded⟩]

theorem runs (s : Selection) : s.Runs where
  finished record r m := by
    rw [Snapshot.events_run,
      Snapshot.filterMap_finished?_outcomes fun _ => Snapshot.mem_of_mem_selected, Run.names_selected]
  sections _ _ _ _ := Snapshot.get?_collect_eq_some_iff

/-- Names make a selection exactly if all of them are known, and the failure else tells the first
unknown one. The selection is the same for the same sets of names. Settings are made exactly from a
selection that leaves a collector to run, and a collection runs the collectors left. -/
theorem make_selects (only exclude : List String) :
    ((∃ s, make only exclude = .ok s) ↔ ∀ name ∈ only ++ exclude, name ∈ Collector.names) ∧
    (∀ failure, make only exclude = .error failure ↔
      ∃ name before after, failure = .unknownCollector name ∧
        only ++ exclude = before ++ name :: after ∧
        (∀ earlier ∈ before, earlier ∈ Collector.names) ∧ name ∉ Collector.names) ∧
    (∀ s, make only exclude = .ok s → Chooses only exclude s ∧ s.Runs) ∧
    ∀ c : CommandLine, c.only = only → c.exclude = exclude →
      ((∃ t, Settings.ofCommandLine c = .ok t) ↔
        ∃ s, make only exclude = .ok s ∧ s.names ≠ []) ∧
      ∀ t, Settings.ofCommandLine c = .ok t →
        make only exclude = .ok t.selection ∧ t.selection.names ≠ [] := by
  refine ⟨exists_make_iff, fun _ => make_eq_error_iff,
    fun s made => ⟨chooses_of_make made, s.runs⟩, ?_⟩
  rintro c rfl rfl
  refine ⟨Settings.exists_ofCommandLine_iff_make, fun t settings => ?_⟩
  obtain ⟨selection, made, some, rfl⟩ := Settings.ofCommandLine_eq_ok_iff.1 settings
  exact ⟨made, some⟩

theorem make_repeatedNames :
    ∃ s, make ["memory", "cpu", "memory"] ["memory"] = .ok s ∧ s.names = ["cpu"] ∧
      make ["cpu", "memory"] ["memory", "memory"] = .ok s := by
  obtain ⟨known, -, selects, -⟩ := make_selects ["memory", "cpu", "memory"] ["memory"]
  obtain ⟨s, made⟩ := known.2 (by decide)
  obtain ⟨chooses, -⟩ := selects s made
  refine ⟨s, made, ?_, (chooses.sets _ _).2 ⟨by simp [or_comm], by simp⟩⟩
  cases made.symm.trans (make_of_known (known.1 ⟨s, made⟩))
  rfl

end Selection

end HostInventory
