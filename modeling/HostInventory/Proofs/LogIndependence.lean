import HostInventory.Proofs.CollectionAccount
import HostInventory.Proofs.ExitStatus

/-! Runs that differ in their logs. What is printed and the exit status depend on the request alone
as long as the log goes to standard error or to a file that no collector reads, and of one list of
events each threshold shows its part. -/
namespace HostInventory

def CommandLine.request (c : CommandLine) : CommandLine :=
  { c with verbose := 0, quiet := false, logFile := none, logJson := false }

theorem Settings.root_of_ofCommandLine {c : CommandLine} {s : Settings}
    (made : ofCommandLine c = .ok s) : s.root = ⟨c.root⟩ := by
  unfold ofCommandLine at made
  split at made
  · cases made
  · split at made <;> cases made
    rfl

namespace Run

def sources (c : CommandLine) (m : Machine) : List Path :=
  match c.command with
  | some _ => []
  | none =>
    match Settings.ofCommandLine c with
    | .error _ => []
    | .ok s => s.selection.names.flatMap (Collector.sources m s.root)

/-- Whether the log file, if one is given, can be made and is none of the files that are read. -/
def LogsOutside (c : CommandLine) (m : Machine) : Prop :=
  ∀ path, c.logFile = some path → ∃ tree location,
    m.host.tree.create m.host.workingDirectory path = .ok (tree, location) ∧
      ∀ file ∈ sources c m, m.host.ending? file ≠ some location

/-- Whether the log file, if one is made, is not even on the way to anything that is looked up. -/
def LogsAside (c : CommandLine) (m : Machine) : Prop :=
  ∀ path tree location, c.logFile = some path →
    m.host.tree.create m.host.workingDirectory path = .ok (tree, location) →
      ∀ found ∈ SystemRoot.nodeDirectory ⟨c.root⟩ :: sources c m, location ∉ m.host.visited found

/-- What a command line is answered where no log is written, or why it is refused. -/
def answer (c : CommandLine) (m : Machine) : Except Failure String :=
  match c.command with
  | some command => commandText command
  | none => (Settings.ofCommandLine c).map fun s =>
    snapshotText s (Snapshot.collect m s.root s.selection)

def unloggedEvents (m : Machine) (s : Settings) : List Event :=
  opening s :: (Snapshot.selected s.selection Collector.all).flatMap fun c =>
    Snapshot.reported (c.name, c.run m s.root)

def answerEvents (c : CommandLine) (m : Machine) : List Event :=
  match c.command with
  | some _ => []
  | none =>
    match Settings.ofCommandLine c with
    | .error _ => []
    | .ok s => unloggedEvents m s

structure SameAnswer (done done' : Run) : Prop where
  output : done'.output = done.output
  status : done'.status = done.status
  failure : done'.failure = done.failure

/-- Runs that show parts of one list of events. -/
structure SameEvents (f f' : Filter) (done done' : Run) : Prop where
  shown : ∃ all : List Event, done.events = all.filter f ∧ done'.events = all.filter f'
  hidden : (∀ e, f' e → f e) → done'.events = done.events.filter f'

/-- The threshold that settles what is logged: the one that the log variable names, or the command
line's level where the variable is not set or its directives are not valid. -/
inductive Effective (i : Invocation) (c : CommandLine) : Threshold → Prop
  | named {text : String} {t : Threshold} (set : i.logVariable = some text)
      (named : Threshold.named? text = some t) : Effective i c t
  | commandLine (unset : i.logVariable.bind i.filters.read? = none) : Effective i c (some c.level)

variable {i i' : Invocation} {c c' : CommandLine} {l l' : Log} {m m₁ m₁' : Machine} {s : Settings}

section Collecting

variable (leaves : l.Leaves m m₁) (file : l.HasFile m₁)
  (outside : l.IsOutside m s.root s.selection.names)

include leaves outside

theorem result_eq_of_outside {c : Collector}
    (selected : c ∈ Snapshot.selected s.selection Collector.all) :
    (c.run m₁ s.root).result.toOption = (c.run m s.root).result.toOption ∧
      l.IsOutside m₁ s.root [c.name] := by
  refine leaves.result_eq (List.mem_filter.1 selected).1 (outside.of_subset ?_)
  rw [← names_selected]
  exact List.cons_subset.2 ⟨List.mem_map_of_mem selected, List.nil_subset _⟩

theorem isOutside_of_leaves : l.IsOutside m₁ s.root s.selection.names := by
  intro location sink name mem
  rw [← names_selected] at mem
  obtain ⟨c, selected, rfl⟩ := List.mem_map.1 mem
  exact (result_eq_of_outside leaves outside selected).2 location sink _ List.mem_cons_self

include file

theorem outcomes_of_outside : outcomes l m₁ s =
    (Snapshot.selected s.selection Collector.all).map fun c => (c.name, c.run m₁ s.root) := by
  have outside₁ := isOutside_of_leaves leaves outside
  rw [← names_selected] at outside₁
  exact Log.outcomes_of_leaves ((Log.Leaves.refl file).record _) file (file.record _)
    (fun c selected => (List.mem_filter.1 selected).1) outside₁

theorem snapshot_of_outside : snapshot l m₁ s = Snapshot.collect m s.root s.selection := by
  apply Snapshot.eq_of_sections
  rw [snapshot, outcomes_of_outside leaves file outside, Snapshot.collect, Snapshot.collectWith,
    Snapshot.sections_run, Snapshot.outcomes_unrecorded, List.filterMap_map, List.filterMap_map]
  refine congrArg OrderedMap.ofList (List.filterMap_congr fun c selected => ?_)
  simp only [Function.comp_apply, Snapshot.section?,
    (result_eq_of_outside leaves outside selected).1]

theorem allEvents_of_outside : allEvents l m₁ s = unloggedEvents m₁ s := by
  rw [allEvents, outcomes_of_outside leaves file outside, List.flatMap_map]
  rfl

end Collecting

theorem exists_openLog_of_outside (i : Invocation) (outside : LogsOutside c m) :
    ∃ l m₁, openLog i c m = .ok (l, m₁) ∧ ∀ location, l.sink = .file location →
      ∀ file ∈ sources c m, m.host.ending? file ≠ some location := by
  unfold openLog
  cases given : c.logFile with
  | none => exact ⟨_, _, rfl, fun _ sink => by cases sink⟩
  | some path =>
    obtain ⟨tree, location, made, outside⟩ := outside path given
    simp only [made]
    refine ⟨_, _, rfl, ?_⟩
    rintro _ ⟨rfl⟩
    exact outside

/-- A log outside of what is read changes neither the answer nor which events there are, once its
file is there. -/
theorem ofCommandLine_of_outside (i : Invocation) (outside : LogsOutside c m) :
    ∃ l m₁ m₂, openLog i c m = .ok (l, m₁) ∧ ofCommandLine i c m =
      { ended l m₂ (answer c m) with
        events := (answerEvents c m₁).filter (i.filters.choose i.logVariable c.level) } := by
  obtain ⟨l, m₁, opened, outside⟩ := exists_openLog_of_outside i outside
  have leaves := leaves_of_openLog opened
  have file : l.HasFile m₁ := fun location sink => ⟨[], empty_of_openLog opened sink⟩
  rw [ofCommandLine_of_openLog opened, ← (openLog_cases opened).1]
  unfold answer answerEvents
  unfold sources at outside
  cases asked : c.command with
  | some command =>
    refine ⟨l, m₁, m₁, opened, ?_⟩
    change ended l m₁ (commandText command) = { ended l m₁ (commandText command) with events := [] }
    cases commandText command <;> rfl
  | none =>
    cases made : Settings.ofCommandLine c with
    | error failure => exact ⟨l, m₁, m₁, opened, rfl⟩
    | ok s =>
      simp only [asked, made] at outside
      have outside : l.IsOutside m s.root s.selection.names :=
        fun location sink name selected path mem =>
          outside location sink path (List.mem_flatMap.2 ⟨name, selected, mem⟩)
      refine ⟨l, m₁, machineAfter l m₁ s, opened, ?_⟩
      simp only [collect_eq, snapshot_of_outside leaves file outside,
        allEvents_of_outside leaves file outside]
      rfl

theorem openLog_machine_eq (opened : openLog i c m = .ok (l, m₁))
    (opened' : openLog i' c' m = .ok (l', m₁')) (same : c'.logFile = c.logFile) : m₁' = m₁ := by
  obtain ⟨-, ⟨given, -, rfl⟩ | ⟨path, tree, location, given, made, -, rfl⟩⟩ := openLog_cases opened
  · obtain ⟨-, ⟨-, -, rfl⟩ | ⟨_, _, _, given', -⟩⟩ := openLog_cases opened'
    · rfl
    · rw [same, given] at given'
      cases given'
  · obtain ⟨-, ⟨given', -⟩ | ⟨_, _, _, given', made', -, rfl⟩⟩ := openLog_cases opened'
    · rw [same, given] at given'
      cases given'
    · rw [same, given] at given'
      cases given'
      rw [made] at made'
      cases made'
      rfl

theorem answerEvents_of_aside (opened : openLog i c m = .ok (l, m₁)) (aside : LogsAside c m) :
    answerEvents c m₁ = answerEvents c m := by
  have leaves := leaves_of_openLog opened
  have aside : ∀ location, l.sink = .file location →
      ∀ found ∈ SystemRoot.nodeDirectory ⟨c.root⟩ :: sources c m,
        location ∉ m.host.visited found := by
    intro location sink
    obtain ⟨-, ⟨-, sink', -⟩ | ⟨path, tree, location', given, made, sink', -⟩⟩ :=
      openLog_cases opened
    · rw [sink'] at sink
      cases sink
    · rw [sink'] at sink
      cases sink
      exact aside path tree location given made
  unfold answerEvents
  unfold sources at aside
  cases asked : c.command with
  | some command => rfl
  | none =>
    cases made : Settings.ofCommandLine c with
    | error failure => rfl
    | ok s =>
      simp only [asked, made] at aside
      rw [← Settings.root_of_ofCommandLine made] at aside
      refine congrArg (List.cons _) (List.flatMap_congr fun d selected => ?_)
      have run : d.run m₁ s.root = d.run m s.root := by
        apply leaves.run_eq_of_aside (List.mem_filter.1 selected).1
        intro location sink found mem
        refine aside location sink found (List.mem_cons.2 ((List.mem_cons.1 mem).imp_right ?_))
        refine fun read => List.mem_flatMap.2 ⟨d.name, ?_, read⟩
        rw [← names_selected]
        exact List.mem_map_of_mem selected
      rw [run]

theorem filter_filter_of_imp {f f' : Filter} (less : ∀ e, f' e → f e) (events : List Event) :
    (events.filter f).filter f' = events.filter f' := by
  rw [List.filter_filter]
  refine List.filter_congr fun e _ => ?_
  rw [Bool.and_eq_left_iff_imp]
  exact less e

theorem choose_of_effective (documented : i.filters.Documented) {t : Threshold}
    (effective : Effective i c t) : i.filters.choose i.logVariable c.level = t.admits := by
  unfold Filters.choose
  cases effective with
  | named set named => rw [set, Option.bind_some, documented.named _ _ named, Option.getD_some]
  | commandLine unset => rw [unset, Option.getD_none, documented.ofLevel]

theorem same_of_request (i i' : Invocation) (same : c'.request = c.request)
    (outside : LogsOutside c m) (outside' : LogsOutside c' m) :
    SameAnswer (ofCommandLine i c m) (ofCommandLine i' c' m) ∧
      (c'.logFile = c.logFile ∨ LogsAside c m ∧ LogsAside c' m →
        SameEvents (i.filters.choose i.logVariable c.level)
          (i'.filters.choose i'.logVariable c'.level) (ofCommandLine i c m)
          (ofCommandLine i' c' m)) := by
  obtain ⟨l, m₁, m₂, opened, run⟩ := ofCommandLine_of_outside i outside
  obtain ⟨l', m₁', m₂', opened', run'⟩ := ofCommandLine_of_outside i' outside'
  have answers : answer c' m = answer c m := by
    change answer c'.request m = answer c.request m
    rw [same]
  have events (m : Machine) : answerEvents c' m = answerEvents c m := by
    change answerEvents c'.request m = answerEvents c.request m
    rw [same]
  rw [run, run', answers, events]
  refine ⟨?_, fun alike => ?_⟩
  · cases answer c m <;> exact ⟨rfl, rfl, rfl⟩
  · have all : answerEvents c m₁' = answerEvents c m₁ := by
      rcases alike with file | ⟨aside, aside'⟩
      · rw [openLog_machine_eq opened opened' file]
      · rw [answerEvents_of_aside opened aside, ← events, answerEvents_of_aside opened' aside',
          events]
    rw [all]
    exact ⟨⟨_, rfl, rfl⟩, fun less => (filter_filter_of_imp less _).symm⟩

/-- A machine with a memory file, no processor listing and no list of addresses. -/
def partialMachine : Machine where
  host := ⟨FileTree.place ∅ ["meminfo", "proc"] (.file (Utf8.encode "MemTotal: 2048 kB\n")), []⟩
  system := ⟨none, .error "no host name", "aarch64"⟩
  mounts := []
  addresses := .error "no interfaces"

def loggedInvocation : Invocation where
  arguments := ["--log-file", "/facts.log", "-vv", "--log-json"]
  rootVariable := none
  logVariable := none
  filters := .levels
  clock := ⟨"0.5", "2.00ms"⟩

def loggedLine : CommandLine where
  root := ⟨"/"⟩
  only := []
  exclude := []
  format := .json
  pretty := false
  verbose := 2
  quiet := false
  logFile := some ⟨"/facts.log"⟩
  logJson := true
  command := none

def plainInvocation : Invocation where
  arguments := ["-q"]
  rootVariable := none
  logVariable := some "warn"
  filters := .levels
  clock := ⟨"0.7", "1.00ms"⟩

def plainLine : CommandLine :=
  { loggedLine with verbose := 0, quiet := true, logFile := none, logJson := false }

theorem create_partialMachine : ∃ tree,
    partialMachine.host.tree.create [] ⟨"/facts.log"⟩ = .ok (tree, ["facts.log"]) := by
  have place : (partialMachine.host.tree.create [] ⟨"/facts.log"⟩).toOption.map Prod.snd =
      some ["facts.log"] := by
    decide +kernel
  obtain ⟨⟨tree, _⟩, made, rfl⟩ := Option.map_eq_some_iff.1 place
  exact ⟨tree, eq_ok_of_toOption made⟩

theorem logsOutside_loggedLine : LogsOutside loggedLine partialMachine := by
  obtain ⟨tree, made⟩ := create_partialMachine
  rintro path ⟨rfl⟩
  exact ⟨tree, _, made, by decide +kernel⟩

theorem logsAside_loggedLine : LogsAside loggedLine partialMachine := by
  obtain ⟨tree, made⟩ := create_partialMachine
  rintro path tree' location ⟨rfl⟩ made'
  cases made.symm.trans made'
  decide +kernel

end Run

end HostInventory
