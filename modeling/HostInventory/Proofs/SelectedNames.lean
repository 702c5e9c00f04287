import HostInventory.CommandLine
import HostInventory.Proofs.MapEntries

/-! The collectors that a selection lets through. Lists of names make a selection if all of them are
known, and what it lets through depends only on which names they have. -/
namespace HostInventory

theorem NameSet.contains_ofNames_iff {names : List String} {name : String} :
    (NameSet.ofNames names).contains name ↔ name ∈ names := by
  rw [OrderedMap.contains, Option.isSome_iff_exists, ← OrderedMap.mem_keys_iff, ofNames,
    OrderedMap.mem_keys_ofList, List.map_map]
  simp

theorem NameSet.ofNames_eq_iff {names names' : List String} :
    ofNames names = ofNames names' ↔ ∀ name, name ∈ names ↔ name ∈ names' := by
  constructor
  · intro same name
    rw [← contains_ofNames_iff, ← contains_ofNames_iff, same]
  · intro same
    apply OrderedMap.ext_get?
    intro name
    ext mark
    cases mark
    have found (names : List String) : (ofNames names).get? name = some () ↔ name ∈ names := by
      rw [← contains_ofNames_iff, OrderedMap.contains, Option.isSome_iff_exists]
      constructor
      · intro mark
        exact ⟨(), mark⟩
      · rintro ⟨⟨⟩, mark⟩
        exact mark
    rw [found, found, same name]

namespace Selection

variable {only exclude : List String}

theorem make_of_known (known : ∀ name ∈ only ++ exclude, name ∈ Collector.names) :
    make only exclude =
      .ok ⟨if only.isEmpty then none else some (.ofNames only), .ofNames exclude⟩ := by
  have found : (only ++ exclude).find? (fun name => !Collector.names.contains name) = none :=
    List.find?_eq_none.2 fun name given => by simp [known name given]
  simp only [make, found]

theorem make_eq_error_iff {failure : Failure} :
    make only exclude = .error failure ↔
      ∃ name before after, failure = .unknownCollector name ∧
        only ++ exclude = before ++ name :: after ∧
        (∀ earlier ∈ before, earlier ∈ Collector.names) ∧ name ∉ Collector.names := by
  constructor
  · intro failed
    unfold make at failed
    split at failed
    · rename_i name found
      cases failed
      obtain ⟨unknown, before, after, names, known⟩ := List.find?_eq_some_iff_append.1 found
      exact ⟨name, before, after, rfl, names, by simpa using known, by simpa using unknown⟩
    · cases failed
  · rintro ⟨name, before, after, rfl, names, known, unknown⟩
    have found : (only ++ exclude).find? (fun name => !Collector.names.contains name) = some name :=
      List.find?_eq_some_iff_append.2
        ⟨by simpa using unknown, before, after, names, by simpa using known⟩
    simp only [make, found]

theorem make_of_unknown {name : String} (given : name ∈ only ++ exclude)
    (unknown : name ∉ Collector.names) : ∃ failure, make only exclude = .error failure := by
  unfold make
  split
  · exact ⟨_, rfl⟩
  · rename_i found
    have known := List.find?_eq_none.1 found name given
    simp [unknown] at known

theorem exists_make_iff :
    (∃ s, make only exclude = .ok s) ↔ ∀ name ∈ only ++ exclude, name ∈ Collector.names := by
  constructor
  · rintro ⟨s, made⟩ name given
    by_contra unknown
    obtain ⟨failure, failed⟩ := make_of_unknown given unknown
    cases made.symm.trans failed
  · exact fun known => ⟨_, make_of_known known⟩

theorem eq_iff_of_make {only' exclude' : List String} {s s' : Selection}
    (made : make only exclude = .ok s) (made' : make only' exclude' = .ok s') :
    s = s' ↔ (∀ name, name ∈ only ↔ name ∈ only') ∧ ∀ name, name ∈ exclude ↔ name ∈ exclude' := by
  rw [make_of_known (exists_make_iff.1 ⟨s, made⟩)] at made
  rw [make_of_known (exists_make_iff.1 ⟨s', made'⟩)] at made'
  cases made
  cases made'
  rw [mk.injEq, NameSet.ofNames_eq_iff]
  refine and_congr_left fun _ => ?_
  cases only with
  | nil =>
    cases only' with
    | nil => simp
    | cons first rest =>
      exact iff_of_false (by simp) fun same => by simpa using (same first).2 List.mem_cons_self
  | cons first rest =>
    cases only' with
    | nil =>
      exact iff_of_false (by simp) fun same => by simpa using (same first).1 List.mem_cons_self
    | cons first' rest' => simp [NameSet.ofNames_eq_iff]

theorem includes_of_make {s : Selection} (made : make only exclude = .ok s) (name : String) :
    s.includes name ↔ (only = [] ∨ name ∈ only) ∧ name ∉ exclude := by
  have known := exists_make_iff.1 ⟨s, made⟩
  rw [make_of_known known] at made
  cases made
  rw [includes, wants, Bool.and_eq_true, Bool.not_eq_true', ← Bool.not_eq_true,
    NameSet.contains_ofNames_iff]
  cases only with
  | nil => simp
  | cons first rest => simp [NameSet.contains_ofNames_iff]

theorem mem_names_iff {s : Selection} {name : String} :
    name ∈ s.names ↔ name ∈ Collector.names ∧ s.includes name :=
  List.mem_filter

end Selection

namespace Settings

variable {c : CommandLine}

theorem ofCommandLine_of_unknown {name : String} (given : name ∈ c.only ++ c.exclude)
    (unknown : name ∉ Collector.names) : ∃ failure, ofCommandLine c = .error failure := by
  obtain ⟨failure, failed⟩ := Selection.make_of_unknown given unknown
  exact ⟨failure, by simp only [ofCommandLine, failed]⟩

theorem ofCommandLine_eq_ok_iff {s : Settings} :
    ofCommandLine c = .ok s ↔
      ∃ selection, Selection.make c.only c.exclude = .ok selection ∧ selection.names ≠ [] ∧
        s = ⟨⟨c.root⟩, selection, c.format, c.pretty⟩ := by
  cases made : Selection.make c.only c.exclude with
  | error failure => simp [ofCommandLine, made]
  | ok selection =>
    by_cases empty : selection.names = []
    · simp [ofCommandLine, made, empty]
    · have settings : ofCommandLine c = .ok ⟨⟨c.root⟩, selection, c.format, c.pretty⟩ := by
        simp [ofCommandLine, made, empty]
      rw [settings]
      constructor
      · rintro ⟨⟩
        exact ⟨selection, rfl, empty, rfl⟩
      · rintro ⟨_, ⟨⟩, -, rfl⟩
        rfl

theorem exists_ofCommandLine_iff_make :
    (∃ s, ofCommandLine c = .ok s) ↔
      ∃ selection, Selection.make c.only c.exclude = .ok selection ∧ selection.names ≠ [] := by
  simp only [ofCommandLine_eq_ok_iff]
  constructor
  · rintro ⟨s, selection, made, some, -⟩
    exact ⟨selection, made, some⟩
  · rintro ⟨selection, made, some⟩
    exact ⟨_, selection, made, some, rfl⟩

theorem exists_ofCommandLine_iff (known : ∀ name ∈ c.only ++ c.exclude, name ∈ Collector.names) :
    (∃ s, ofCommandLine c = .ok s) ↔
      ∃ name ∈ Collector.names, (c.only = [] ∨ name ∈ c.only) ∧ name ∉ c.exclude := by
  obtain ⟨selection, made⟩ := Selection.exists_make_iff.2 known
  simp only [exists_ofCommandLine_iff_make, made, Except.ok.injEq, exists_eq_left',
    ← Selection.includes_of_make made, ← Selection.mem_names_iff]
  exact ⟨List.exists_mem_of_ne_nil _, fun ⟨_, mem⟩ => List.ne_nil_of_mem mem⟩

end Settings

end HostInventory
