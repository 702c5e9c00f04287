import HostInventory.Proofs.LogFile
import HostInventory.Proofs.PrintedTexts
import HostInventory.Proofs.SelectedNames

/-! The account of a collection. Each selected collector ends in a section or in one warning, which
comes just before the report that it is done, and no other event is a warning. -/
namespace HostInventory

def Event.isWarning (e : Event) : Bool := e.level = .warn

def Event.failed? : Event → Option String
  | .failed name _ => some name
  | _ => none

def Event.finished? : Event → Option String
  | .finished name => some name
  | _ => none

namespace Collector

theorem nodup_names : names.Nodup := by decide

theorem eq_cpu_of_name {c : Collector} (known : c ∈ all) (name : c.name = "cpu") : c = cpu := by
  simp only [all, List.mem_cons, List.not_mem_nil, or_false] at known
  rcases known with rfl | rfl | rfl | rfl | rfl
  · rfl
  all_goals exact absurd name (by decide)

/-- Neither a warning nor a report that a collector is done. -/
def Quiet (e : Event) : Prop := e.isWarning = false ∧ e.finished? = none

theorem quiet_of_mem_cpuEvents {h : Host} {r : SystemRoot} {stanzas : List Stanza} {e : Event}
    (mem : e ∈ cpuEvents h r stanzas) : Quiet e := by
  unfold cpuEvents at mem
  simp only [List.mem_append, List.mem_flatMap, List.mem_map, List.mem_singleton] at mem
  rcases mem with (⟨_, _, _, _, rfl⟩ | rfl) | missed
  · exact ⟨rfl, rfl⟩
  · exact ⟨rfl, rfl⟩
  · split at missed
    · rw [List.mem_singleton.1 missed]
      exact ⟨rfl, rfl⟩
    · cases missed

theorem quiet_of_mem_events {c : Collector} (known : c ∈ all) {m : Machine} {r : SystemRoot}
    {e : Event} (mem : e ∈ (c.run m r).events) : Quiet e := by
  simp only [all, List.mem_cons, List.not_mem_nil, or_false] at known
  rcases known with rfl | rfl | rfl | rfl | rfl
  · simp only [cpu] at mem
    split at mem
    · cases mem
    · exact quiet_of_mem_cpuEvents mem
  · cases mem
  · cases mem
  · simp only [network] at mem
    split at mem
    · cases mem
    · obtain ⟨_, _, reported⟩ := List.mem_filterMap.1 mem
      split at reported <;> cases reported
      exact ⟨rfl, rfl⟩
  · obtain ⟨_, _, rfl⟩ := List.mem_map.1 mem
    exact ⟨rfl, rfl⟩

end Collector

namespace Snapshot

def warning? (o : String × Outcome) : Option Event :=
  match o.2.result with
  | .ok _ => none
  | .error why => some (.failed o.1 why)

variable {record : Machine → List Event → Machine} {r : SystemRoot} {m : Machine}

theorem filter_isWarning_reported {o : String × Outcome}
    (quiet : ∀ e ∈ o.2.events, Collector.Quiet e) :
    (reported o).filter Event.isWarning = (warning? o).toList := by
  have silent : o.2.events.filter Event.isWarning = [] :=
    List.filter_eq_nil_iff.2 fun e mem => by simp [(quiet e mem).1]
  rw [reported, List.filter_append, silent, warning?]
  cases o.2.result <;> rfl

theorem filterMap_finished?_reported {o : String × Outcome}
    (quiet : ∀ e ∈ o.2.events, Collector.Quiet e) :
    (reported o).filterMap Event.finished? = [o.1] := by
  have silent : o.2.events.filterMap Event.finished? = [] :=
    List.filterMap_eq_nil_iff.2 fun e mem => (quiet e mem).2
  rw [reported, List.filterMap_append, silent]
  cases o.2.result <;> rfl

theorem reported_of_error {o : String × Outcome} {why : Failure}
    (failed : o.2.result = .error why) :
    reported o = o.2.events ++ [.failed o.1 why, .finished o.1] := by
  rw [reported, failed]
  rfl

theorem exists_of_mem_outcomes {o : String × Outcome} {collectors : List Collector}
    (mem : o ∈ outcomes record r m collectors) :
    ∃ c ∈ collectors, ∃ m', o = (c.name, c.run m' r) := by
  induction collectors generalizing m with
  | nil => cases mem
  | cons c rest ih =>
    rcases List.mem_cons.1 mem with rfl | mem
    · exact ⟨c, List.mem_cons_self, m, rfl⟩
    · obtain ⟨d, later, found⟩ := ih mem
      exact ⟨d, List.mem_cons_of_mem c later, found⟩

theorem filterMap_finished?_outcomes {collectors : List Collector}
    (known : ∀ c ∈ collectors, c ∈ Collector.all) (m : Machine) :
    ((outcomes record r m collectors).flatMap reported).filterMap Event.finished? =
      collectors.map Collector.name := by
  have names : (outcomes record r m collectors).map Prod.fst = collectors.map Collector.name :=
    names_outcomes m collectors
  rw [List.filterMap_flatMap, ← names, List.map_eq_flatMap]
  refine List.flatMap_congr fun o mem => filterMap_finished?_reported fun e told => ?_
  obtain ⟨c, listed, m', rfl⟩ := exists_of_mem_outcomes mem
  exact Collector.quiet_of_mem_events (known c listed) told

/-- The collectors that succeed give the sections and the others the warnings. -/
theorem names_additions_eq (gathered : List (String × Outcome)) :
    (gathered.filterMap section?).map Prod.fst =
      (gathered.filter fun o => o.2.result.isOk).map Prod.fst := by
  induction gathered with
  | nil => rfl
  | cons o rest ih =>
    cases result : o.2.result <;>
      simp [section?, result, Except.toOption, Except.isOk, Except.toBool, ih]

theorem names_warnings_eq (gathered : List (String × Outcome)) :
    (gathered.filterMap warning?).filterMap Event.failed? =
      (gathered.filter fun o => !o.2.result.isOk).map Prod.fst := by
  induction gathered with
  | nil => rfl
  | cons o rest ih =>
    cases result : o.2.result <;>
      simp [warning?, result, Event.failed?, Except.isOk, Except.toBool, ih]

theorem nodup_additions {gathered : List (String × Outcome)}
    (distinct : (gathered.map Prod.fst).Nodup) :
    ((gathered.filterMap section?).map Prod.fst).Nodup := by
  rw [names_additions_eq]
  exact distinct.sublist (List.filter_sublist.map _)

theorem names_perm {gathered : List (String × Outcome)} (distinct : (gathered.map Prod.fst).Nodup) :
    ((Snapshot.mk (.ofList (gathered.filterMap section?))).names ++
      (gathered.filterMap warning?).filterMap Event.failed?).Perm (gathered.map Prod.fst) := by
  have sections := (OrderedMap.entries_ofList_perm (nodup_additions distinct)).map Prod.fst
  rw [names_additions_eq] at sections
  rw [names_warnings_eq]
  refine (sections.append_right _).trans ?_
  rw [← List.map_append]
  exact (List.filter_append_perm _ gathered).map Prod.fst

end Snapshot

/-- How much a threshold lets through. -/
def Threshold.detail : Threshold → Nat
  | none => 0
  | some level => level.rank

/-- What is documented of a library of filters. A level lets through what is no more detailed, and
so does a threshold that is named in place of directives. -/
structure Filters.Documented (f : Filters) : Prop where
  ofLevel : ∀ level, f.ofLevel level = Threshold.admits (some level)
  named : ∀ text t, Threshold.named? text = some t → f.read? text = some t.admits

theorem Threshold.admits_iff {t : Threshold} {e : Event} :
    t.admits e ↔ e.level.rank ≤ t.detail := by
  cases t with
  | none =>
    have positive : 0 < e.level.rank := by cases e.level <;> decide
    simp [admits, detail, positive.ne']
  | some level => exact decide_eq_true_iff

theorem Threshold.admits_of_le {t t' : Threshold} (less : t'.detail ≤ t.detail) {e : Event}
    (admitted : t'.admits e) : t.admits e :=
  admits_iff.2 ((admits_iff.1 admitted).trans less)

theorem Threshold.admits_of_isWarning {t : Threshold} (detailed : Level.warn.rank ≤ t.detail)
    {e : Event} (warning : e.isWarning) : t.admits e := by
  have level : e.level = .warn := of_decide_eq_true warning
  exact admits_iff.2 (level ▸ detailed)

theorem Filters.documented_levels : levels.Documented where
  ofLevel _ := rfl
  named text t named := by simp only [levels, named, Option.map_some]

namespace Run

variable {l : Log} {m : Machine} {s : Settings}

theorem names_selected (selection : Selection) :
    (Snapshot.selected selection Collector.all).map Collector.name = selection.names := by
  rw [Snapshot.selected, Selection.names, ← Collector.map_name_all, List.filter_map]
  rfl

theorem names_outcomes (l : Log) (m : Machine) (s : Settings) :
    (outcomes l m s).map Prod.fst = s.selection.names := by
  rw [outcomes, Snapshot.names_outcomes, names_selected]

theorem nodup_names (s : Settings) : s.selection.names.Nodup := Collector.nodup_names.filter _

theorem nodup_outcomes (l : Log) (m : Machine) (s : Settings) :
    ((outcomes l m s).map Prod.fst).Nodup := by
  rw [names_outcomes]
  exact nodup_names s

theorem quiet_of_mem_outcomes {o : String × Outcome} (mem : o ∈ outcomes l m s) :
    ∀ e ∈ o.2.events, Collector.Quiet e := by
  obtain ⟨c, selected, m', rfl⟩ := Snapshot.exists_of_mem_outcomes mem
  exact fun e => Collector.quiet_of_mem_events (Snapshot.mem_of_mem_selected selected)

theorem warnings_allEvents (l : Log) (m : Machine) (s : Settings) :
    (allEvents l m s).filter Event.isWarning = (outcomes l m s).filterMap Snapshot.warning? := by
  rw [allEvents, List.filter_cons_of_neg (by simp [opening, Event.isWarning, Event.level]),
    List.filter_flatMap, List.filterMap_eq_flatMap_toList]
  exact List.flatMap_congr fun o mem =>
    Snapshot.filter_isWarning_reported (quiet_of_mem_outcomes mem)

theorem finished_allEvents (l : Log) (m : Machine) (s : Settings) :
    (allEvents l m s).filterMap Event.finished? = s.selection.names := by
  rw [allEvents, List.filterMap_cons_none rfl, outcomes,
    Snapshot.filterMap_finished?_outcomes fun _ => Snapshot.mem_of_mem_selected,
    names_selected]

theorem mem_warnings_iff {e : Event} :
    e ∈ (allEvents l m s).filter Event.isWarning ↔
      ∃ o ∈ outcomes l m s, ∃ why, o.2.result = .error why ∧ .failed o.1 why = e := by
  rw [warnings_allEvents, List.mem_filterMap]
  refine exists_congr fun o => and_congr_right fun _ => ?_
  rw [Snapshot.warning?]
  cases o.2.result <;> simp

theorem exists_append_of_mem_failed {name : String} {why : Failure}
    (mem : .failed name why ∈ allEvents l m s) :
    ∃ before after,
      allEvents l m s = before ++ .failed name why :: .finished name :: after := by
  obtain ⟨o, gathered, why', failed, same⟩ := mem_warnings_iff.1 (List.mem_filter.2 ⟨mem, rfl⟩)
  cases same
  obtain ⟨front, back, split⟩ := List.append_of_mem gathered
  refine ⟨opening s :: front.flatMap Snapshot.reported ++ o.2.events,
    back.flatMap Snapshot.reported, ?_⟩
  rw [allEvents, split, List.flatMap_append, List.flatMap_cons, Snapshot.reported_of_error failed]
  simp

theorem shown_warnings (admitted : ∀ e : Event, e.isWarning → l.filter e) (events : List Event) :
    (l.shown events).filter Event.isWarning = events.filter Event.isWarning := by
  rw [Log.shown, List.filter_filter]
  refine List.filter_congr fun e _ => ?_
  by_cases warning : e.isWarning
  · rw [admitted e warning, Bool.and_true]
  · simp [warning]

theorem get?_snapshot_eq_some_iff {name : String} {value : Json} :
    (snapshot l m s).sections.get? name = some value ↔
      ∃ o ∈ outcomes l m s, o.1 = name ∧ o.2.result = .ok value := by
  rw [snapshot, OrderedMap.get?_ofList_of_nodup (Snapshot.nodup_additions (nodup_outcomes l m s)),
    List.mem_filterMap]
  refine exists_congr fun o => and_congr_right fun _ => ?_
  rw [Snapshot.section?]
  cases o.2.result <;> simp [Except.toOption]

theorem isKnown_snapshot (l : Log) (m : Machine) (s : Settings) : (snapshot l m s).IsKnown where
  names name mem := by
    obtain ⟨value, found⟩ := OrderedMap.mem_keys_iff.1 mem
    obtain ⟨o, gathered, rfl, -⟩ := get?_snapshot_eq_some_iff.1 found
    have selected := names_outcomes l m s ▸ List.mem_map_of_mem gathered
    exact (List.mem_filter.1 selected).1
  cpu value found := by
    obtain ⟨o, gathered, name, result⟩ := get?_snapshot_eq_some_iff.1 found
    obtain ⟨c, selected, m', rfl⟩ := Snapshot.exists_of_mem_outcomes gathered
    have same : c = Collector.cpu :=
      Collector.eq_cpu_of_name (Snapshot.mem_of_mem_selected selected) name
    subst same
    cases collected : Cpu.Report.collect m'.host s.root with
    | error why => simp [Collector.cpu, collected, Except.map] at result
    | ok facts => exact ⟨facts, by simpa [Collector.cpu, collected, Except.map] using result.symm⟩

/-- How a run that is done accounts for the collectors that its settings select. -/
structure Accounts (l : Log) (m : Machine) (s : Settings) (done : Run) : Prop where
  status : done.status = 0
  /-- The printed text has the sections of the snapshot under their names. -/
  printed : Prints s (snapshot l m s).sections.entries done.output
  /-- Each selected collector ends in a section or in a warning, and in one of them only. -/
  covered : ((snapshot l m s).names ++
    ((allEvents l m s).filter Event.isWarning).filterMap Event.failed?).Perm s.selection.names
  separate : s.selection.names.Nodup
  collectors : (outcomes l m s).map Prod.fst = s.selection.names
  sections : ∀ name value, (snapshot l m s).sections.get? name = some value ↔
    ∃ o ∈ outcomes l m s, o.1 = name ∧ o.2.result = .ok value
  /-- The warnings are those of the collectors that fail, in the order of the collectors. -/
  warnings : (allEvents l m s).filter Event.isWarning =
    (outcomes l m s).filterMap Snapshot.warning?
  messages : ∀ e ∈ allEvents l m s, e.isWarning → ∃ name ∈ s.selection.names, ∃ why : Failure,
    ∀ elapsed, e.message elapsed = "[" ++ name ++ "] " ++ why.message
  finished : (allEvents l m s).filterMap Event.finished? = s.selection.names
  timed : ∀ name why, .failed name why ∈ allEvents l m s → ∃ before after,
    allEvents l m s = before ++ .failed name why :: .finished name :: after
  shown : done.events = (allEvents l m s).filter l.filter
  shownWarnings : (∀ e : Event, e.isWarning → l.filter e) →
    done.events.filter Event.isWarning = (allEvents l m s).filter Event.isWarning
  log : done.log = l
  lines : l.text done.events = Text.unlines (done.events.map l.line)
  warningLines : ∀ name why, .failed name why ∈ allEvents l m s →
    l.line (.failed name why) = warningLine l name why
  file : ∀ location, l.sink = .file location →
    done.machine.host.tree.node? location = some (.file (Utf8.encode (l.text done.events)))

theorem accounts_collect (empty : ∀ location, l.sink = .file location →
    m.host.tree.node? location = some (.file [])) (s : Settings) :
    Accounts l m s (collect l m s) where
  status := by rw [collect_eq]
  printed := by
    rw [collect_eq]
    exact prints_snapshotText s (isKnown_snapshot l m s)
  covered := by
    rw [warnings_allEvents, ← names_outcomes l m s]
    exact Snapshot.names_perm (nodup_outcomes l m s)
  separate := nodup_names s
  collectors := names_outcomes l m s
  sections _ _ := get?_snapshot_eq_some_iff
  warnings := warnings_allEvents l m s
  messages e mem warning := by
    obtain ⟨o, gathered, why, -, rfl⟩ := mem_warnings_iff.1 (List.mem_filter.2 ⟨mem, warning⟩)
    refine ⟨o.1, ?_, why, fun elapsed => rfl⟩
    rw [← names_outcomes l m s]
    exact List.mem_map_of_mem gathered
  finished := finished_allEvents l m s
  timed _ _ := exists_append_of_mem_failed
  shown := by
    rw [collect_eq]
    rfl
  shownWarnings admitted := by
    rw [collect_eq]
    exact shown_warnings admitted _
  log := by rw [collect_eq]
  lines := by
    rw [collect_eq]
    exact Log.text_shown_eq l _
  warningLines name why mem := by
    obtain ⟨o, gathered, why', -, same⟩ := mem_warnings_iff.1 (List.mem_filter.2 ⟨mem, rfl⟩)
    cases same
    have selected := names_outcomes l m s ▸ List.mem_map_of_mem gathered
    exact line_failed l (List.mem_filter.1 selected).1 why
  file location sink := by
    rw [collect_eq, machineAfter, Log.node?_foldl_record sink (empty location sink),
      List.nil_append, List.flatten_cons, ← List.flatMap_def, Log.text_shown]
    rfl

end Run

end HostInventory
