import HostInventory.Proofs.CollectionRun
import HostInventory.Proofs.CollectorResults

/-! The log of a collection under way. A log file grows by the lines of each collector in turn and
nothing else of the machine changes, so collectors that do not read the file give what they would
give without a log. -/
namespace HostInventory

theorem Utf8.encode_append (s t : String) : encode (s ++ t) = encode s ++ encode t := by
  simp [encode_eq]

theorem Text.unlines_append (front back : List String) :
    unlines (front ++ back) = unlines front ++ unlines back := by
  simp [unlines]

namespace FileTree

variable {t t' : FileTree} {location : Location}

theorem DifferInFile.append (same : DifferInFile location t t') (bytes : List UInt8) :
    DifferInFile location t (t'.append location bytes) := by
  unfold FileTree.append
  split
  · exact same.put _
  · exact same

theorem node?_append_of_file {content : List UInt8}
    (file : t.node? location = some (.file content)) (bytes : List UInt8) :
    (t.append location bytes).node? location = some (.file (content ++ bytes)) := by
  have below : location ≠ [] := by
    rintro rfl
    cases file
  rw [append_of_file file, node?_put _ _ _ _ below, if_pos rfl]

end FileTree

namespace Log

variable {l : Log} {m m' : Machine} {r : SystemRoot}

theorem text_append (l : Log) (front back : List Event) :
    l.text (front ++ back) = l.text front ++ l.text back := by
  simp only [text, shown, List.filter_append, List.map_append, Text.unlines_append]

theorem shown_shown (l : Log) (events : List Event) : l.shown (l.shown events) = l.shown events := by
  rw [shown, shown, List.filter_filter]
  simp only [Bool.and_self]

theorem text_shown (l : Log) (events : List Event) : l.text (l.shown events) = l.text events := by
  rw [text, shown_shown, text]

theorem text_shown_eq (l : Log) (events : List Event) :
    l.text (l.shown events) = Text.unlines ((l.shown events).map l.line) :=
  l.text_shown events

/-- Whether a machine is another one but for what the log has written to its file. -/
def Leaves (l : Log) (m m' : Machine) : Prop :=
  match l.sink with
  | .standardError => m' = m
  | .file location => m.host.DifferInFile location m'.host ∧ m.SameSystem m'

def HasFile (l : Log) (m : Machine) : Prop :=
  ∀ location, l.sink = .file location →
    ∃ content, m.host.tree.node? location = some (.file content)

/-- Whether the log file, if there is one, is none of those that the collectors of these names
read. -/
def IsOutside (l : Log) (m : Machine) (r : SystemRoot) (names : List String) : Prop :=
  ∀ location, l.sink = .file location → ∀ name ∈ names, ∀ path ∈ Collector.sources m r name,
    m.host.ending? path ≠ some location

theorem node?_record {location : Location} {content : List UInt8} (sink : l.sink = .file location)
    (file : m.host.tree.node? location = some (.file content)) (events : List Event) :
    (l.record m events).host.tree.node? location =
      some (.file (content ++ Utf8.encode (l.text events))) := by
  simp only [record, sink, FileTree.node?_append_of_file file]

theorem HasFile.record (file : l.HasFile m) (events : List Event) :
    l.HasFile (l.record m events) := by
  intro location sink
  obtain ⟨content, file⟩ := file location sink
  exact ⟨_, node?_record sink file events⟩

theorem Leaves.refl (file : l.HasFile m) : l.Leaves m m := by
  unfold Leaves
  cases sink : l.sink with
  | standardError => rfl
  | file location => exact ⟨⟨.refl (.inr (file location sink)), rfl⟩, rfl, rfl, rfl⟩

theorem Leaves.record (leaves : l.Leaves m m') (events : List Event) :
    l.Leaves m (l.record m' events) := by
  unfold Leaves at *
  unfold Log.record
  cases sink : l.sink with
  | standardError => simpa only [sink] using leaves
  | file location =>
    simp only [sink] at leaves ⊢
    obtain ⟨host, system⟩ := leaves
    exact ⟨⟨host.tree.append _, host.workingDirectory⟩, system.system, system.mounts,
      system.addresses⟩

theorem Leaves.eq_or_differ (leaves : l.Leaves m m') :
    m' = m ∨ ∃ location, l.sink = .file location ∧ m.host.DifferInFile location m'.host ∧
      m.SameSystem m' := by
  unfold Leaves at leaves
  cases sink : l.sink with
  | standardError =>
    rw [sink] at leaves
    exact .inl leaves
  | file location =>
    rw [sink] at leaves
    exact .inr ⟨location, rfl, leaves⟩

theorem Leaves.run_eq {c : Collector} (leaves : l.Leaves m m') (file : l.HasFile m)
    (file' : l.HasFile m') (known : c ∈ Collector.all) (outside : l.IsOutside m r [c.name]) :
    c.run m' r = c.run m r := by
  rcases leaves.eq_or_differ with rfl | ⟨location, sink, host, system⟩
  · rfl
  · obtain ⟨content, file⟩ := file location sink
    obtain ⟨content', file'⟩ := file' location sink
    have outside := outside location sink _ List.mem_cons_self
    -- A file stops every walk in the same way, whatever is in it.
    have obstacle : m'.host.tree.obstacle location = m.host.tree.obstacle location := by
      rw [FileTree.obstacle_of_file file, FileTree.obstacle_of_file file']
    exact (Collector.run_alike known system (host.agrees outside)).1.same obstacle

theorem Leaves.run_eq_of_aside {c : Collector} (leaves : l.Leaves m m') (known : c ∈ Collector.all)
    (aside : ∀ location, l.sink = .file location →
      ∀ path ∈ r.nodeDirectory :: Collector.sources m r c.name, location ∉ m.host.visited path) :
    c.run m' r = c.run m r := by
  rcases leaves.eq_or_differ with rfl | ⟨location, sink, host, system⟩
  · rfl
  · have agrees : m.host.Agrees True m'.host r (Collector.sources m r c.name) :=
      host.agrees_of_aside (aside location sink)
    exact (Collector.run_alike known system agrees).1.same trivial

theorem IsOutside.of_subset {names names' : List String} (outside : l.IsOutside m r names)
    (fewer : names' ⊆ names) : l.IsOutside m r names' :=
  fun location sink name mem => outside location sink name (fewer mem)

theorem outcomes_of_leaves {collectors : List Collector} (leaves : l.Leaves m m')
    (file : l.HasFile m) (file' : l.HasFile m') (known : ∀ c ∈ collectors, c ∈ Collector.all)
    (outside : l.IsOutside m r (collectors.map Collector.name)) :
    Snapshot.outcomes l.record r m' collectors = collectors.map fun c => (c.name, c.run m r) := by
  -- Each collector meets the machine that those before it left, with a longer log.
  induction collectors generalizing m' with
  | nil => rfl
  | cons c rest ih =>
    obtain ⟨known, others⟩ := List.forall_mem_cons.1 known
    have here : c.run m' r = c.run m r :=
      leaves.run_eq file file' known (outside.of_subset (by simp))
    rw [Snapshot.outcomes, List.map_cons, here,
      ih (leaves.record _) (file'.record _) others (outside.of_subset (List.subset_cons_self _ _))]

/-- The log file can stand in the way to what a collector reads, where there was nothing to be found
before either. -/
theorem Leaves.result_eq {c : Collector} (leaves : l.Leaves m m') (known : c ∈ Collector.all)
    (outside : l.IsOutside m r [c.name]) :
    (c.run m' r).result.toOption = (c.run m r).result.toOption ∧ l.IsOutside m' r [c.name] := by
  rcases leaves.eq_or_differ with rfl | ⟨location, sink, host, system⟩
  · exact ⟨rfl, outside⟩
  · have outside := outside location sink _ List.mem_cons_self
    obtain ⟨result, sources⟩ := Collector.run_alike known system (host.agrees outside)
    refine ⟨result.seen, fun location' sink' name mem path read => ?_⟩
    rw [sink] at sink'
    cases sink'
    rw [List.mem_singleton.1 mem, sources] at read
    exact host.ending?_ne (outside path read)

theorem node?_foldl_record {location : Location} {content : List UInt8}
    (sink : l.sink = .file location) (file : m.host.tree.node? location = some (.file content))
    (blocks : List (List Event)) :
    (blocks.foldl l.record m).host.tree.node? location =
      some (.file (content ++ Utf8.encode (l.text blocks.flatten))) := by
  induction blocks generalizing m content with
  | nil => simpa [text, shown, Text.unlines, Utf8.encode_eq] using file
  | cons block rest ih =>
    rw [List.foldl_cons, ih (node?_record sink file block), List.flatten_cons, text_append,
      Utf8.encode_append, List.append_assoc]

end Log

namespace Run

variable {i : Invocation} {c : CommandLine} {l : Log} {m m₁ : Machine}

theorem openLog_cases (opened : openLog i c m = .ok (l, m₁)) :
    l.filter = i.filters.choose i.logVariable c.level ∧
      (c.logFile = none ∧ l.sink = .standardError ∧ m₁ = m ∨
        ∃ path tree location, c.logFile = some path ∧
          m.host.tree.create m.host.workingDirectory path = .ok (tree, location) ∧
          l.sink = .file location ∧ m₁ = { m with host := { m.host with tree } }) := by
  unfold openLog at opened
  cases given : c.logFile with
  | none =>
    simp only [given] at opened
    cases opened
    exact ⟨rfl, .inl ⟨rfl, rfl, rfl⟩⟩
  | some path =>
    simp only [given] at opened
    cases made : m.host.tree.create m.host.workingDirectory path with
    | error fault =>
      rw [made] at opened
      cases opened
    | ok created =>
      rw [made] at opened
      cases opened
      exact ⟨rfl, .inr ⟨path, _, _, rfl, made, rfl, rfl⟩⟩

theorem leaves_of_openLog (opened : openLog i c m = .ok (l, m₁)) : l.Leaves m m₁ := by
  unfold Log.Leaves
  obtain ⟨-, ⟨-, sink, rfl⟩ | ⟨path, tree, location, -, made, sink, rfl⟩⟩ := openLog_cases opened
  · simp only [sink]
  · obtain ⟨atMost, rfl⟩ := FileTree.create_eq_ok made
    simp only [sink]
    exact ⟨⟨(FileTree.DifferInFile.refl atMost).put [], rfl⟩, rfl, rfl, rfl⟩

theorem empty_of_openLog {location : Location} (opened : openLog i c m = .ok (l, m₁))
    (sink : l.sink = .file location) : m₁.host.tree.node? location = some (.file []) := by
  obtain ⟨-, ⟨-, sink', rfl⟩ | ⟨path, tree, location', -, made, sink', rfl⟩⟩ := openLog_cases opened
  · rw [sink'] at sink
    cases sink
  · rw [sink'] at sink
    cases sink
    obtain ⟨atMost, rfl⟩ := FileTree.create_eq_ok made
    rw [FileTree.node?_put _ _ _ _ atMost.ne_top, if_pos rfl]

end Run

end HostInventory
