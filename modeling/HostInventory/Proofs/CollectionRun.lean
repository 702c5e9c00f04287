import HostInventory.Proofs.SnapshotSections
import HostInventory.Run

/-! A collection as the list of what its collectors gave. The sections are made from the values in
this list, and the events are those of each collector in turn, the report of a failure and the end
of the collector last. -/
namespace HostInventory

namespace Snapshot

/-- What each collector gives. The events of one are written down before the next one starts. -/
def outcomes (record : Machine → List Event → Machine) (r : SystemRoot) (m : Machine) :
    List Collector → List (String × Outcome)
  | [] => []
  | c :: rest =>
    let outcome := c.run m r
    let m := record m (outcome.events ++ closing c.name outcome.result)
    (c.name, outcome) :: outcomes record r m rest

def reported (o : String × Outcome) : List Event := o.2.events ++ closing o.1 o.2.result

def section? (o : String × Outcome) : Option (String × Json) :=
  o.2.result.toOption.map fun value => (o.1, value)

variable {record : Machine → List Event → Machine} {r : SystemRoot}

theorem addSection_eq_foldl (sections : OrderedMap String Json) (o : String × Outcome) :
    addSection sections o.1 o.2.result =
      (section? o).toList.foldl (fun m e => m.insert e.1 e.2) sections := by
  unfold section?
  cases o.2.result <;> rfl

theorem sections_foldl_step (p : Progress) (collectors : List Collector) :
    (collectors.foldl (step record r) p).sections =
      ((outcomes record r p.machine collectors).filterMap section?).foldl
        (fun m e => m.insert e.1 e.2) p.sections := by
  induction collectors generalizing p with
  | nil => rfl
  | cons c rest ih =>
    rw [List.foldl_cons, ih, outcomes, sections_step]
    rw [show addSection p.sections c.name (c.run p.machine r).result = _ from
      addSection_eq_foldl p.sections (c.name, c.run p.machine r)]
    cases added : section? (c.name, c.run p.machine r) with
    | none => rw [List.filterMap_cons_none added]; rfl
    | some e => rw [List.filterMap_cons_some added]; rfl

theorem events_foldl_step (p : Progress) (collectors : List Collector) :
    (collectors.foldl (step record r) p).events =
      p.events ++ (outcomes record r p.machine collectors).flatMap reported := by
  induction collectors generalizing p with
  | nil => exact (List.append_nil _).symm
  | cons c rest ih =>
    rw [List.foldl_cons, ih, outcomes, List.flatMap_cons, ← List.append_assoc]
    rfl

theorem machine_foldl_step (p : Progress) (collectors : List Collector) :
    (collectors.foldl (step record r) p).machine =
      ((outcomes record r p.machine collectors).map reported).foldl record p.machine := by
  induction collectors generalizing p with
  | nil => rfl
  | cons c rest ih =>
    rw [List.foldl_cons, ih, outcomes, List.map_cons, List.foldl_cons]
    rfl

theorem names_outcomes (m : Machine) (collectors : List Collector) :
    (outcomes record r m collectors).map Prod.fst = collectors.map Collector.name := by
  induction collectors generalizing m with
  | nil => rfl
  | cons c rest ih => rw [outcomes, List.map_cons, List.map_cons, ih]

theorem outcomes_unrecorded (m : Machine) (collectors : List Collector) :
    outcomes (fun m _ => m) r m collectors = collectors.map fun c => (c.name, c.run m r) := by
  induction collectors with
  | nil => rfl
  | cons c rest ih => rw [outcomes, ih, List.map_cons]

def selected (selection : Selection) (collectors : List Collector) : List Collector :=
  collectors.filter fun c => selection.includes c.name

theorem mem_of_mem_selected {selection : Selection} {collectors : List Collector} {c : Collector}
    (mem : c ∈ selected selection collectors) : c ∈ collectors :=
  (List.mem_filter.1 mem).1

theorem sections_run (m : Machine) (collectors : List Collector) (selection : Selection) :
    (run record collectors r selection m).sections =
      .ofList ((outcomes record r m (selected selection collectors)).filterMap section?) :=
  sections_foldl_step ..

theorem events_run (m : Machine) (collectors : List Collector) (selection : Selection) :
    (run record collectors r selection m).events =
      (outcomes record r m (selected selection collectors)).flatMap reported :=
  events_foldl_step ..

theorem machine_run (m : Machine) (collectors : List Collector) (selection : Selection) :
    (run record collectors r selection m).machine =
      ((outcomes record r m (selected selection collectors)).map reported).foldl record m :=
  machine_foldl_step ..

end Snapshot

namespace Run

def opening (s : Settings) : Event := .collecting s.selection.text s.root.top

def outcomes (l : Log) (m : Machine) (s : Settings) : List (String × Outcome) :=
  Snapshot.outcomes l.record s.root (l.record m [opening s])
    (Snapshot.selected s.selection Collector.all)

def snapshot (l : Log) (m : Machine) (s : Settings) : Snapshot :=
  ⟨.ofList ((outcomes l m s).filterMap Snapshot.section?)⟩

/-- All events of a run, shown or not. -/
def allEvents (l : Log) (m : Machine) (s : Settings) : List Event :=
  opening s :: (outcomes l m s).flatMap Snapshot.reported

def machineAfter (l : Log) (m : Machine) (s : Settings) : Machine :=
  ([opening s] :: (outcomes l m s).map Snapshot.reported).foldl l.record m

theorem collect_eq (l : Log) (m : Machine) (s : Settings) :
    collect l m s =
      ⟨0, snapshotText s (snapshot l m s), none, l.shown (allEvents l m s), l,
        machineAfter l m s⟩ := by
  simp only [collect, Snapshot.sections_run, Snapshot.events_run, Snapshot.machine_run]
  rfl

end Run

end HostInventory
