import HostInventory.Proofs.FailureIsolation
import HostInventory.Proofs.SelectedNames

/-! How a run ends. Every way to fail comes before the first text is printed and depends only on the
command line and on whether its log file can be made. -/
namespace HostInventory.Run

/-- Why a run is refused. -/
inductive Refused (c : CommandLine) (m : Machine) : Prop
  | logFile {path : Path} {fault : Fault} (given : c.logFile = some path)
      (failed : m.host.tree.create m.host.workingDirectory path = .error fault)
  | unknownName {name : String} (collecting : c.command = none)
      (given : name ∈ c.only ++ c.exclude) (unknown : name ∉ Collector.names)
  | nothingLeft (collecting : c.command = none)
      (excluded : ∀ name ∈ Collector.names, (c.only = [] ∨ name ∈ c.only) → name ∈ c.exclude)
  | implementer {implementer part : String} {failure : Failure}
      (asked : c.command = some (.lookup implementer part))
      (failed : Numeral.read implementer = .error failure)
  | part {implementer part : String} {failure : Failure}
      (asked : c.command = some (.lookup implementer part))
      (failed : Numeral.read part = .error failure)

def LogFails (c : CommandLine) (m : Machine) : Prop :=
  ∃ path fault, c.logFile = some path ∧
    m.host.tree.create m.host.workingDirectory path = .error fault

structure IsRefusal (done : Run) : Prop where
  status : done.status = 1
  output : done.output = ""
  failure : ∃ failure, done.failure = some failure

structure IsCompletion (done : Run) : Prop where
  status : done.status = 0
  failure : done.failure = none

variable {i : Invocation} {c : CommandLine} {m : Machine}

theorem isRefusal_ended (l : Log) (m : Machine) (failure : Failure) :
    (ended l m (.error failure)).IsRefusal :=
  ⟨rfl, rfl, failure, rfl⟩

theorem isCompletion_ended (l : Log) (m : Machine) (output : String) :
    (ended l m (.ok output)).IsCompletion :=
  ⟨rfl, rfl⟩

theorem exists_openLog_error_iff :
    (∃ failure, openLog i c m = .error failure) ↔ LogFails c m := by
  unfold openLog LogFails
  cases c.logFile with
  | none => simp
  | some path =>
    simp only [Option.some.injEq, exists_and_left, exists_eq_left']
    cases m.host.tree.create m.host.workingDirectory path <;> simp

theorem exists_lookupText_error_iff {implementer part : String} :
    (∃ failure, lookupText implementer part = .error failure) ↔
      (∃ failure, Numeral.read implementer = .error failure) ∨
        ∃ failure, Numeral.read part = .error failure := by
  unfold lookupText Catalog.resolve?
  cases Numeral.read implementer with
  | error failure => simp
  | ok code => cases Numeral.read part <;> simp

theorem ofCommandLine_of_openLog {l : Log} {m' : Machine} (opened : openLog i c m = .ok (l, m')) :
    ofCommandLine i c m =
      match c.command with
      | some command => ended l m' (commandText command)
      | none =>
        match Settings.ofCommandLine c with
        | .error failure => ended l m' (.error failure)
        | .ok s => collect l m' s := by
  cases asked : c.command with
  | some command => simp only [ofCommandLine, opened, asked]
  | none =>
    cases made : Settings.ofCommandLine c with
    | error failure => simp only [ofCommandLine, opened, asked, made]
    | ok s => simp only [ofCommandLine, opened, asked, made]

theorem ofCommandLine_of_refused (refused : Refused c m) : (ofCommandLine i c m).IsRefusal := by
  cases opened : openLog i c m with
  | error failure =>
    simp only [ofCommandLine, opened]
    exact isRefusal_ended _ m failure
  | ok log =>
    obtain ⟨l, m'⟩ := log
    have refusal_lookup {implementer part : String}
        (asked : c.command = some (.lookup implementer part))
        (failed : ∃ failure, lookupText implementer part = .error failure) :
        (ofCommandLine i c m).IsRefusal := by
      obtain ⟨failure, failed⟩ := failed
      simp only [ofCommandLine_of_openLog opened, asked, commandText, failed]
      exact isRefusal_ended l m' failure
    have refusal_settings (collecting : c.command = none)
        (failed : ∃ failure, Settings.ofCommandLine c = .error failure) :
        (ofCommandLine i c m).IsRefusal := by
      obtain ⟨failure, failed⟩ := failed
      simp only [ofCommandLine_of_openLog opened, collecting, failed]
      exact isRefusal_ended l m' failure
    cases refused with
    | logFile given failed =>
      obtain ⟨failure, failed⟩ :=
        (exists_openLog_error_iff (i := i)).2 ⟨_, _, given, failed⟩
      rw [opened] at failed
      cases failed
    | unknownName collecting given unknown =>
      exact refusal_settings collecting (Settings.ofCommandLine_of_unknown given unknown)
    | nothingLeft collecting excluded =>
      refine refusal_settings collecting ?_
      by_cases known : ∀ name ∈ c.only ++ c.exclude, name ∈ Collector.names
      · cases made : Settings.ofCommandLine c with
        | error failure => exact ⟨failure, rfl⟩
        | ok s =>
          obtain ⟨name, mem, wanted, kept⟩ := (Settings.exists_ofCommandLine_iff known).1 ⟨s, made⟩
          exact absurd (excluded name mem wanted) kept
      · simp only [not_forall] at known
        obtain ⟨name, given, unknown⟩ := known
        exact Settings.ofCommandLine_of_unknown given unknown
    | implementer asked failed =>
      exact refusal_lookup asked (exists_lookupText_error_iff.2 (.inl ⟨_, failed⟩))
    | part asked failed =>
      exact refusal_lookup asked (exists_lookupText_error_iff.2 (.inr ⟨_, failed⟩))

theorem ofCommandLine_of_not_refused (accepted : ¬Refused c m) :
    (ofCommandLine i c m).IsCompletion := by
  cases opened : openLog i c m with
  | error failure =>
    obtain ⟨path, fault, given, failed⟩ := exists_openLog_error_iff.1 ⟨failure, opened⟩
    exact absurd (.logFile given failed) accepted
  | ok log =>
    obtain ⟨l, m'⟩ := log
    rw [ofCommandLine_of_openLog opened]
    cases asked : c.command with
    | some command =>
      cases command with
      | list => exact isCompletion_ended l m' _
      | lookup implementer part =>
        cases text : lookupText implementer part with
        | ok output =>
          simp only [commandText, text]
          exact isCompletion_ended l m' output
        | error failure =>
          rcases exists_lookupText_error_iff.1 ⟨failure, text⟩ with ⟨_, failed⟩ | ⟨_, failed⟩
          · exact absurd (.implementer asked failed) accepted
          · exact absurd (.part asked failed) accepted
    | none =>
      have known : ∀ name ∈ c.only ++ c.exclude, name ∈ Collector.names := by
        intro name given
        by_contra unknown
        exact accepted (.unknownName asked given unknown)
      have left : ∃ name ∈ Collector.names, (c.only = [] ∨ name ∈ c.only) ∧ name ∉ c.exclude := by
        by_contra none
        refine accepted (.nothingLeft asked fun name mem wanted => ?_)
        by_contra kept
        exact none ⟨name, mem, wanted, kept⟩
      obtain ⟨s, made⟩ := (Settings.exists_ofCommandLine_iff known).2 left
      simp only [made, collect_eq]
      exact ⟨rfl, rfl⟩

theorem status_eq_one_iff : (ofCommandLine i c m).status = 1 ↔ Refused c m := by
  refine ⟨fun one => ?_, fun refused => (ofCommandLine_of_refused refused).status⟩
  by_contra accepted
  rw [(ofCommandLine_of_not_refused accepted).status] at one
  cases one

theorem status_eq_zero_iff : (ofCommandLine i c m).status = 0 ↔ ¬Refused c m := by
  refine ⟨fun zero refused => ?_, fun accepted => (ofCommandLine_of_not_refused accepted).status⟩
  rw [(ofCommandLine_of_refused refused).status] at zero
  cases zero

theorem Refused.of_logFails {m' : Machine} (fails : LogFails c m → LogFails c m')
    (refused : Refused c m) : Refused c m' := by
  cases refused with
  | logFile given failed =>
    obtain ⟨_, _, given, failed⟩ := fails ⟨_, _, given, failed⟩
    exact .logFile given failed
  | unknownName collecting given unknown => exact .unknownName collecting given unknown
  | nothingLeft collecting excluded => exact .nothingLeft collecting excluded
  | implementer asked failed => exact .implementer asked failed
  | part asked failed => exact .part asked failed

theorem status_eq_of_logFails {m' : Machine} (same : LogFails c m' ↔ LogFails c m) :
    (ofCommandLine i c m').status = (ofCommandLine i c m).status := by
  by_cases refused : Refused c m
  · rw [status_eq_one_iff.2 refused, status_eq_one_iff.2 (refused.of_logFails same.2)]
  · have accepted : ¬Refused c m' := fun refused' => refused (refused'.of_logFails same.1)
    rw [status_eq_zero_iff.2 refused, status_eq_zero_iff.2 accepted]

theorem snapshotText_of_failures {l : Log} {s : Settings} (format : s.format = .json)
    (failing : ∀ o ∈ outcomes l m s, ∃ failure, o.2.result = .error failure) :
    snapshotText s (snapshot l m s) = "\x7b\x7d\n" := by
  have empty : (outcomes l m s).filterMap Snapshot.section? = [] := by
    refine List.filterMap_eq_nil_iff.2 fun o mem => ?_
    obtain ⟨failure, failed⟩ := failing o mem
    rw [Snapshot.section?, failed]
    rfl
  rw [snapshot, empty, snapshotText, format]
  cases s.pretty <;> rfl

/-- A run ends with status 1 exactly if it is refused, and otherwise with status 0. A refusal prints
nothing and reports a failure, and a completion reports none. Nothing that the collectors meet is a
reason to refuse: if all of them fail, an empty object is printed. A command does not look at the
names given for collecting. -/
theorem status_ofInvocation (accepted : CommandLine.read i.arguments i.rootVariable = .ok c)
    (m : Machine) :
    ((ofInvocation i m).status = 1 ↔ Refused c m) ∧
    ((ofInvocation i m).status = 0 ↔ ¬Refused c m) ∧
    ((ofInvocation i m).status = 1 →
      (ofInvocation i m).output = "" ∧ ∃ failure, (ofInvocation i m).failure = some failure) ∧
    ((ofInvocation i m).status = 0 → (ofInvocation i m).failure = none) ∧
    (∀ m', (LogFails c m' ↔ LogFails c m) →
      (ofInvocation i m').status = (ofInvocation i m).status) ∧
    (∀ l m' s, c.command = none → openLog i c m = .ok (l, m') →
      Settings.ofCommandLine c = .ok s → s.format = .json →
      (∀ o ∈ outcomes l m' s, ∃ failure, o.2.result = .error failure) →
      (ofInvocation i m).output = "\x7b\x7d\n") ∧
    (c.command.isSome → ∀ only exclude,
      ofCommandLine i { c with only, exclude } m = ofInvocation i m) := by
  have run (m : Machine) : ofInvocation i m = ofCommandLine i c m := by
    simp only [ofInvocation, accepted]
  simp only [run]
  refine ⟨status_eq_one_iff, status_eq_zero_iff, fun one => ?_, fun zero => ?_,
    fun m' same => status_eq_of_logFails same, ?_, ?_⟩
  · have refusal := ofCommandLine_of_refused (i := i) (status_eq_one_iff.1 one)
    exact ⟨refusal.output, refusal.failure⟩
  · exact (ofCommandLine_of_not_refused (status_eq_zero_iff.1 zero)).failure
  · intro l m' s collecting opened made format failing
    rw [ofCommandLine_of_openLog opened]
    simp only [collecting, made, collect_eq, snapshotText_of_failures format failing]
  · intro asked only exclude
    obtain ⟨command, asked⟩ := Option.isSome_iff_exists.1 asked
    simp only [ofCommandLine, asked]
    rfl

def pairInvocation : Invocation where
  arguments := ["--only", "memory,cpu", "-v"]
  rootVariable := none
  logVariable := some "off"
  filters := .levels
  clock := ⟨"0.5", "2.00ms"⟩

def pairLine : CommandLine where
  root := ⟨"/"⟩
  only := ["memory", "cpu"]
  exclude := []
  format := .json
  pretty := false
  verbose := 1
  quiet := false
  logFile := none
  logJson := false
  command := none

def pairSettings : Settings :=
  ⟨.standard, ⟨some (.ofNames ["memory", "cpu"]), .ofNames []⟩, .json, false⟩

theorem status_pairInvocation :
    CommandLine.read pairInvocation.arguments pairInvocation.rootVariable = .ok pairLine ∧
    (ofInvocation pairInvocation Snapshot.bareMachine).status = 0 ∧
    (ofInvocation pairInvocation Snapshot.bareMachine).output = "\x7b\x7d\n" := by
  have accepted : CommandLine.read pairInvocation.arguments pairInvocation.rootVariable =
      .ok pairLine := by
    rfl
  have unrefused : ¬Refused pairLine Snapshot.bareMachine := by
    intro refused
    cases refused with
    | logFile given failed => cases given
    | unknownName collecting given unknown =>
      have known : ∀ name ∈ pairLine.only ++ pairLine.exclude, name ∈ Collector.names := by decide
      exact unknown (known _ given)
    | nothingLeft collecting excluded =>
      have kept := excluded "cpu" (by decide) (.inr (by decide))
      cases kept
    | implementer asked failed => cases asked
    | part asked failed => cases asked
  have made : Settings.ofCommandLine pairLine = .ok pairSettings := by
    rfl
  let l : Log := ⟨Threshold.admits none, .standardError, false, pairInvocation.clock⟩
  have failing : (outcomes l Snapshot.bareMachine pairSettings).all
      (fun o => o.2.result.toOption.isNone) = true := by
    decide +kernel
  obtain ⟨-, zero, -, -, -, empty, -⟩ := status_ofInvocation accepted Snapshot.bareMachine
  refine ⟨accepted, zero.2 unrefused, empty l _ _ rfl rfl made rfl fun o mem => ?_⟩
  have failed := List.all_eq_true.1 failing o mem
  cases result : o.2.result with
  | error failure => exact ⟨failure, rfl⟩
  | ok value => simp [result, Except.toOption] at failed

end HostInventory.Run
