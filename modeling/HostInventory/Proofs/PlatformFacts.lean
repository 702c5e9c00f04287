import HostInventory.Proofs.DifferenceBelow
import HostInventory.Proofs.EncodedText

/-! The facts that name kernel and host. Each of four files gives one of them, and what the system
itself says stands in where a file gives none. Whatever becomes of one file, the facts of the others
are the same. -/
namespace HostInventory.Platform

/-- The file has a text that is more than blanks, and this is it without the blanks around it. -/
def Gives (h : Host) (path : Path) (value : String) : Prop :=
  ∃ content, h.read path = .ok (Utf8.encode content) ∧
    (∃ c ∈ content.toList, ¬Text.isBlank c) ∧ String.ofList (Text.trim content.toList) = value

def otherFiles (r : SystemRoot) (fact : String) : List Path :=
  (kernelFiles.filter (·.1 != fact)).map fun e => r.procFile e.2

def given? (reading : Except Failure String) : Option String :=
  reading.toOption.filter (· ≠ "")

def given (h : Host) (r : SystemRoot) : List (String × Option String) :=
  kernelFiles.map fun e => (e.1, given? (h.readText (r.procFile e.2)))

def machineFacts (s : RunningSystem) : List (String × String) :=
  [("machine", machine s), ("processor", machine s), ("hardware_platform", machine s)]

def targetFacts (s : RunningSystem) : List (String × String) := [
  ("os", "GNU/Linux"), ("target_os", "linux"), ("target_arch", s.architecture),
  ("version", version)]

/-- What the system itself says of a fact that a file may give. -/
def fallback? (s : RunningSystem) (key : String) : Option String :=
  (if "hostname" = key then s.hostName.toOption else none).or
    (if "kernel_name" = key then s.names.map Prod.fst else none)

variable {s : RunningSystem} {h h' : Host} {r : SystemRoot} {path : Path} {fact value : String}

section Values

theorem ofList_trim_ne_empty_iff {cs : List Char} :
    String.ofList (Text.trim cs) ≠ "" ↔ ∃ c ∈ cs, ¬Text.isBlank c := by
  rw [Ne, String.ofList_eq_empty_iff, Text.trim_eq_nil_iff]
  simp

theorem gives_iff : Gives h path value ↔ given? (h.readText path) = some value := by
  simp only [given?, Option.filter_eq_some_iff, Cpu.toOption_eq_some_iff, Host.readText_eq_ok_iff,
    decide_eq_true_eq]
  constructor
  · rintro ⟨content, read, solid, rfl⟩
    exact ⟨⟨content, read, rfl⟩, ofList_trim_ne_empty_iff.2 solid⟩
  · rintro ⟨⟨content, read, rfl⟩, filled⟩
    exact ⟨content, read, ofList_trim_ne_empty_iff.1 filled, rfl⟩

theorem Gives.tidy (gives : Gives h path value) :
    value ≠ "" ∧ Text.trim value.toList = value.toList := by
  obtain ⟨content, -, solid, rfl⟩ := gives
  refine ⟨ofList_trim_ne_empty_iff.2 solid, ?_⟩
  rw [String.toList_ofList, Text.trim_trim]

end Values

section Record

theorem addReading_eq (f : Facts) (e : String × Except Failure String) :
    addReading f e = f.insert? e.1 (given? e.2) := by
  obtain ⟨fact, _ | text⟩ := e
  · rfl
  · by_cases blank : text = "" <;>
      simp [addReading, given?, Except.toOption, blank, OrderedMap.insert?, Option.filter]

theorem get?_factsOf (s : RunningSystem) (found : List (String × Except Failure String))
    (key : String) :
    (factsOf s found).get? key =
      (OrderedMap.lookup key (machineFacts s ++ targetFacts s).reverse).or
        (((found.foldl addReading ∅).get? key).or (fallback? s key)) := by
  have machine (f : Facts) : addMachine s f =
      (machineFacts s).foldl (fun f e => f.insert e.1 e.2) f := rfl
  have target (f : Facts) : addTarget s f =
      (targetFacts s).foldl (fun f e => f.insert e.1 e.2) f := rfl
  rw [factsOf, target, OrderedMap.get?_foldl_insert, addKernelName,
    OrderedMap.get?_insert?_of_absent, machine, OrderedMap.get?_foldl_insert, addHostName,
    OrderedMap.get?_insert?_of_absent, List.reverse_append, OrderedMap.lookup_append, fallback?]
  simp only [Option.or_assoc]

theorem map_fst_given (h : Host) (r : SystemRoot) :
    (given h r).map Prod.fst = kernelFiles.map Prod.fst := rfl

theorem nodup_given (h : Host) (r : SystemRoot) : ((given h r).map Prod.fst).Nodup := by
  rw [map_fst_given]
  decide

/-- Every fact by one look-up: the fixed ones, then what files give, then what stands in. -/
theorem get?_facts (s : RunningSystem) (h : Host) (r : SystemRoot) (key : String) :
    (facts s h r).get? key =
      (OrderedMap.lookup key (machineFacts s ++ targetFacts s).reverse).or
        ((OrderedMap.lookup key (given h r)).join.or (fallback? s key)) := by
  have files : (readings h r).foldl addReading ∅ =
      (given h r).foldl (fun f e => f.insert? e.1 e.2) ∅ := by
    rw [readings, given, List.foldl_map, List.foldl_map]
    exact List.foldl_ext _ _ _ fun f e _ => addReading_eq f _
  have start : (∅ : Facts).get? key = none := rfl
  rw [facts, get?_factsOf, files, OrderedMap.get?_foldl_insert? (nodup_given h r), start,
    Option.or_none]

theorem get?_facts_of_mem {rel : String} (known : (fact, rel) ∈ kernelFiles) :
    (facts s h r).get? fact =
      (given? (h.readText (r.procFile rel))).or (fallback? s fact) := by
  have fed : OrderedMap.lookup fact (given h r) = some (given? (h.readText (r.procFile rel))) :=
    (OrderedMap.lookup_eq_some_iff (nodup_given h r)).2
      (List.mem_map.2 ⟨(fact, rel), known, rfl⟩)
  have free : OrderedMap.lookup fact (machineFacts s ++ targetFacts s).reverse = none := by
    simp only [kernelFiles, List.mem_cons, List.not_mem_nil, or_false, Prod.mk.injEq] at known
    rcases known with ⟨rfl, -⟩ | ⟨rfl, -⟩ | ⟨rfl, -⟩ | ⟨rfl, -⟩ <;> rfl
  rw [get?_facts, free, fed, Option.none_or]
  rfl

end Record

/-- What becomes of a file: the fact has the value that the file gives, else what stands in. -/
structure Feeds (h : Host) (path : Path) (fact : String) (fallback : Option String) (f : Facts) :
    Prop where
  stated : ∀ value, Gives h path value → f.get? fact = some value
  otherwise : (∀ value, ¬Gives h path value) → f.get? fact = fallback

theorem feeds_facts {rel : String} (known : (fact, rel) ∈ kernelFiles) :
    Feeds h (r.procFile rel) fact (fallback? s fact) (facts s h r) where
  stated value gives := by
    rw [get?_facts_of_mem known, gives_iff.1 gives, Option.some_or]
  otherwise blank := by
    have none : given? (h.readText (r.procFile rel)) = none :=
      Option.eq_none_iff_forall_ne_some.2 fun value gives => blank value (gives_iff.2 gives)
    rw [get?_facts_of_mem known, none, Option.none_or]

theorem Feeds.get?_eq_some_iff {f : Facts} (feeds : Feeds h path fact none f) :
    f.get? fact = some value ↔ Gives h path value := by
  refine ⟨fun found => ?_, feeds.stated value⟩
  by_cases given : ∃ value', Gives h path value'
  · obtain ⟨value', gives⟩ := given
    obtain rfl : value' = value := Option.some.inj ((feeds.stated value' gives).symm.trans found)
    exact gives
  · rw [feeds.otherwise (not_exists.1 given)] at found
    cases found

section TwoHosts

def SameApartFrom (fact : String) (f f' : Facts) : Prop :=
  ∀ key, key ≠ fact → f'.get? key = f.get? key

theorem sameApartFrom_facts
    (same : ∀ path ∈ otherFiles r fact, h'.read path = h.read path) :
    SameApartFrom fact (facts s h r) (facts s h' r) := by
  intro key other
  -- A look-up under another key never meets the one reading that may differ.
  have files : OrderedMap.lookup key (given h' r) = OrderedMap.lookup key (given h r) := by
    refine OrderedMap.lookup_map_congr (fun _ _ => rfl) fun e mem here => ?_
    have kept : e ∈ kernelFiles.filter (·.1 != fact) :=
      List.mem_filter.2 ⟨mem, bne_iff_ne.2 (by rw [show e.1 = key from here]; exact other)⟩
    rw [Host.readText, Host.readText, same _ (List.mem_map_of_mem kept)]
  rw [get?_facts, get?_facts, files]

theorem exists_plainLocation (r : SystemRoot) (dir : Location) :
    ∃ above, ∀ e ∈ kernelFiles, ∃ name, (Path.mk e.2).pieces = ["sys", "kernel", name] ∧
      FileTree.plainLocation dir (r.procFile e.2) = name :: above := by
  have below (name rel : String) (relative : Path.isAbsolute rel = false)
      (pieces : (Path.mk rel).pieces = ["sys", "kernel", name]) (proper : FileTree.IsProper name) :
      FileTree.plainLocation dir (r.procFile rel) =
        name :: "kernel" :: "sys" :: FileTree.plainLocation dir (r.top.join "proc") := by
    rw [r.plainLocation_procFile relative, pieces]
    simp [FileTree.plainly, proper.ne_empty, proper.ne_dot, proper.ne_dots]
  refine ⟨"kernel" :: "sys" :: FileTree.plainLocation dir (r.top.join "proc"), fun e mem => ?_⟩
  simp only [kernelFiles, List.mem_cons, List.not_mem_nil, or_false] at mem
  rcases mem with rfl | rfl | rfl | rfl
  · exact ⟨"ostype", by decide, below "ostype" _ (by decide) (by decide) (by decide)⟩
  · exact ⟨"osrelease", by decide, below "osrelease" _ (by decide) (by decide) (by decide)⟩
  · exact ⟨"version", by decide, below "version" _ (by decide) (by decide) (by decide)⟩
  · exact ⟨"hostname", by decide, below "hostname" _ (by decide) (by decide) (by decide)⟩

theorem not_suffix_otherFiles {rel : String} (known : (fact, rel) ∈ kernelFiles) (dir : Location)
    (other : path ∈ otherFiles r fact) :
    ¬FileTree.plainLocation dir (r.procFile rel) <:+ FileTree.plainLocation dir path := by
  obtain ⟨e, mem, rfl⟩ := List.mem_map.1 other
  obtain ⟨mem, apart⟩ := List.mem_filter.1 mem
  obtain ⟨above, places⟩ := exists_plainLocation r dir
  obtain ⟨name, here, place⟩ := places _ known
  obtain ⟨name', there, place'⟩ := places _ mem
  rw [place, place']
  intro below
  obtain ⟨same, -⟩ := List.cons.inj (below.eq_of_length rfl)
  have distinct : ∀ e ∈ kernelFiles, ∀ e' ∈ kernelFiles,
      (Path.mk e.2).pieces = (Path.mk e'.2).pieces → e.1 = e'.1 := by decide
  exact bne_iff_ne.1 apart (distinct e mem _ known (by rw [there, ← same, here]))

theorem dots_not_mem_otherFiles (down : ".." ∉ r.top.pieces) (other : path ∈ otherFiles r fact) :
    ".." ∉ path.pieces := by
  obtain ⟨e, mem, rfl⟩ := List.mem_map.1 other
  have inside : ∀ e ∈ kernelFiles,
      Path.isAbsolute e.2 = false ∧ ".." ∉ (Path.mk e.2).pieces := by decide
  obtain ⟨relative, proper⟩ := inside e (List.mem_filter.1 mem).1
  intro up
  rcases SystemRoot.mem_pieces_procFile relative up with up | up | up
  · exact down up
  · exact absurd up (by decide)
  · exact proper up

/-- The facts other than one stay as they are while the other files are read with the same result.
That is so where hosts differ at one place and below it, if no way to another file leads past there,
and always if the file itself stands there and no links and upward steps are on the ways. -/
structure Isolates (s : RunningSystem) (h : Host) (r : SystemRoot) (fact rel : String) : Prop where
  of_read : ∀ h' : Host, (∀ path ∈ otherFiles r fact, h'.read path = h.read path) →
    SameApartFrom fact (facts s h r) (facts s h' r)
  of_aside : ∀ (h' : Host) (location : Location), h.SameOutside location h' →
    (∀ path ∈ otherFiles r fact, ∀ place ∈ h.visited path, ¬location <:+ place) →
    SameApartFrom fact (facts s h r) (facts s h' r)
  of_plain : ∀ h' : Host,
    h.SameOutside (FileTree.plainLocation h.workingDirectory (r.procFile rel)) h' →
    ".." ∉ r.top.pieces → (∀ path ∈ otherFiles r fact, h.Plain path) →
    SameApartFrom fact (facts s h r) (facts s h' r)

theorem isolates_facts {rel : String} (known : (fact, rel) ∈ kernelFiles) :
    Isolates s h r fact rel where
  of_read _ := sameApartFrom_facts
  of_aside _ _ same aside := sameApartFrom_facts fun path mem => same.read_eq (aside path mem)
  of_plain _ same down plain := sameApartFrom_facts fun path mem =>
    same.read_eq_of_plain (dots_not_mem_otherFiles down mem) (plain path mem)
      (not_suffix_otherFiles known _ mem)

end TwoHosts

/-- A collection of platform facts does not fail. The release and the version of the kernel are what
their files give, the names of kernel and host what their files give or else what the system says,
and no text from a file is empty or has blanks around it. Nothing that becomes of one of the files
changes a fact that another one gives. -/
theorem facts_of_files (s : RunningSystem) (h : Host) (r : SystemRoot) :
    (∀ m : Machine, m.system = s → m.host = h →
      (Collector.platform.run m r).result = .ok (Json.ofFacts (facts s h r))) ∧
    (∀ value, (facts s h r).get? "kernel_release" = some value ↔
      Gives h (r.procFile "sys/kernel/osrelease") value) ∧
    (∀ value, (facts s h r).get? "kernel_version" = some value ↔
      Gives h (r.procFile "sys/kernel/version") value) ∧
    Feeds h (r.procFile "sys/kernel/ostype") "kernel_name" (s.names.map Prod.fst) (facts s h r) ∧
    Feeds h (r.procFile "sys/kernel/hostname") "hostname" s.hostName.toOption (facts s h r) ∧
    (∀ path value, Gives h path value → value ≠ "" ∧ Text.trim value.toList = value.toList) ∧
    ∀ fact rel, (fact, rel) ∈ kernelFiles → Isolates s h r fact rel := by
  have release : Feeds h (r.procFile "sys/kernel/osrelease") "kernel_release" none (facts s h r) :=
    feeds_facts (by decide)
  have version : Feeds h (r.procFile "sys/kernel/version") "kernel_version" none (facts s h r) :=
    feeds_facts (by decide)
  have name : fallback? s "kernel_name" = s.names.map Prod.fst := rfl
  have hostname : fallback? s "hostname" = s.hostName.toOption := Option.or_none
  refine ⟨?_, fun _ => release.get?_eq_some_iff, fun _ => version.get?_eq_some_iff,
    name ▸ feeds_facts (by decide), hostname ▸ feeds_facts (by decide), fun _ _ => Gives.tidy,
    fun _ _ => isolates_facts⟩
  rintro m rfl rfl
  rfl

def ripeHost : Host where
  tree := [(["ostype", "kernel", "sys", "proc"], .file (Utf8.encode "Linux\n")),
    (["osrelease", "kernel", "sys", "proc"], .file (Utf8.encode "\t6.1 arm64\u00A0\n")),
    (["version", "kernel", "sys", "proc"], .file [0x23, 0xFF])].foldl (fun t e => t.place e.1 e.2) ∅
  workingDirectory := []

/-- The same with a directory in place of the file for the name. -/
def bareHost : Host where
  tree := ripeHost.tree.put ["ostype", "kernel", "sys", "proc"] .directory
  workingDirectory := []

def namedSystem : RunningSystem := ⟨some ("Unix", "aarch64"), .ok "node", "arm64"⟩

theorem facts_bareHost :
    (facts namedSystem ripeHost .standard).get? "kernel_name" = some "Linux" ∧
    (facts namedSystem bareHost .standard).get? "kernel_name" = some "Unix" ∧
    (facts namedSystem bareHost .standard).get? "kernel_release" = some "6.1 arm64" ∧
    SameApartFrom "kernel_name" (facts namedSystem ripeHost .standard)
      (facts namedSystem bareHost .standard) := by
  obtain ⟨-, release, -, name, -, -, isolates⟩ := facts_of_files namedSystem ripeHost .standard
  have linkless : ∀ e ∈ ripeHost.tree.nodes, e.2.kind ≠ .link := by decide
  have same := (isolates "kernel_name" "sys/kernel/ostype" (by decide)).of_plain bareHost
    ⟨FileTree.sameOutside_put _ (by decide) _, rfl⟩ (by decide)
    fun path _ => Host.plain_of_kind linkless path
  refine ⟨name.stated _ (gives_iff.2 (by decide +kernel)), by decide +kernel, ?_, same⟩
  rw [same _ (by decide)]
  exact (release _).2 (gives_iff.2 (by decide +kernel))

end HostInventory.Platform
