import HostInventory.Proofs.CollectionFailures
import HostInventory.Proofs.TopologyMeaning
import Mathlib.Data.Multiset.Count

/-! The files that a processor record is made from: the listing, the names in the node directory and
a few attributes of each listed processor, in a directory named for its number in decimal. Hosts
that agree on these have one record, and nothing in a listing makes any other file matter. -/
namespace HostInventory

inductive Node.Kind
  | file
  | directory
  | link
  deriving DecidableEq

def Node.kind : Node → Node.Kind
  | .file _ => .file
  | .directory => .directory
  | .link _ => .link

def SystemRoot.text? (r : SystemRoot) (h : Host) (rel : String) : Option String :=
  (h.readText (r.cpuFile rel)).toOption

theorem SystemRoot.toOption_readAttribute {α : Type} (r : SystemRoot) (h : Host)
    (reader : String → Except Failure α) (rel : String) :
    (r.readAttribute h reader rel).toOption =
      (r.text? h rel).bind fun text => (reader text).toOption := by
  unfold readAttribute text?
  cases h.readText (r.cpuFile rel) <;> rfl

theorem FileTree.isProper_iff {name : String} :
    IsProper name ↔ name ≠ "" ∧ name ≠ "." ∧ name ≠ ".." :=
  ⟨fun proper => ⟨proper.ne_empty, proper.ne_dot, proper.ne_dots⟩,
    fun ⟨filled, dot, dots⟩ => ⟨filled, dot, dots⟩⟩

instance : DecidablePred FileTree.IsProper := fun _ => decidable_of_iff _ FileTree.isProper_iff.symm

theorem Path.pieces_join {p : Path} {rel : String} (relative : isAbsolute rel = false)
    (filled : p.text ≠ "") (inside : p.text.toList.getLast? ≠ some '/') :
    (p.join rel).pieces = p.pieces ++ (Path.mk rel).pieces := by
  have text : (p.join rel).text.toList = p.text.toList ++ '/' :: rel.toList := by
    simp [join, relative, filled, inside]
  rw [pieces, text, Text.splitAt_append_cons, List.map_append]
  rfl

theorem Path.pieces_of_names {names : List String} (filled : names ≠ [])
    (plain : ∀ name ∈ names, '/' ∉ name.toList) :
    (Path.mk ("/".intercalate names)).pieces = names := by
  have chars : ("/".intercalate names).toList = ['/'].intercalate (names.map String.toList) := by
    rw [String.toList_intercalate]
    rfl
  have plain' : ∀ piece ∈ names.map String.toList, '/' ∉ piece := by simpa using plain
  rw [pieces, chars, Text.splitAt_intercalate '/' (by simpa using filled) plain', List.map_map]
  simp

theorem SystemRoot.pieces_cpuFile (r : SystemRoot) {rel : String}
    (relative : Path.isAbsolute rel = false) :
    (r.cpuFile rel).pieces =
      (r.top.join "sys/devices/system/cpu").pieces ++ (Path.mk rel).pieces := by
  obtain ⟨front, text⟩ := Cpu.Survey.exists_text_join r.top "sys/devices/system/cpu"
  apply Path.pieces_join relative <;> simp [text]

namespace Cpu

/-- The names in the node directory with what each of them names, in no order. -/
def Numa.kinds (h : Host) (r : SystemRoot) : Option (Multiset (String × Node.Kind)) :=
  (entries h r).toOption.map fun found => found.map fun e => (e.1, e.2.kind)

theorem Numa.count_eq (h : Host) (r : SystemRoot) :
    count h r =
      (kinds h r).elim 0 (Multiset.countP fun e => e.2 = .directory ∧ isNodeName e.1) := by
  unfold count kinds
  cases entries h r with
  | error fault => rfl
  | ok found =>
    have same (e : String × Node) : isNode e = (e.2.kind = .directory ∧ isNodeName e.1 : Bool) := by
      obtain ⟨name, node⟩ := e
      cases node <;> simp [isNode, Node.kind]
    simp only [Except.toOption, Option.map_some, Option.elim_some, Multiset.coe_countP,
      List.countP_map]
    exact List.countP_congr fun e _ => by simp [same]

structure Findings where
  core : Option UInt64
  package : Option UInt64
  caches : List (UInt64 × UInt64)

def CacheEntry.counted? : CacheEntry → Option (UInt64 × UInt64)
  | .counted level size => some (level, size)
  | _ => none

def Survey.findings (s : Survey) : Findings :=
  ⟨s.core.toOption, s.package.toOption, s.caches.filterMap CacheEntry.counted?⟩

theorem toOption_eq_some_iff {ε α : Type} {reading : Except ε α} {value : α} :
    reading.toOption = some value ↔ reading = .ok value := by
  refine ⟨eq_ok_of_toOption, ?_⟩
  rintro rfl
  rfl

namespace Topology

theorem foldl_countEntry_eq (entries : List CacheEntry) (t : CacheTotals) :
    entries.foldl countEntry t =
      (entries.filterMap CacheEntry.counted?).foldl (fun t e => t.add e.1 e.2) t := by
  induction entries generalizing t with
  | nil => rfl
  | cons e rest ih => cases e <;> exact ih _

theorem ofSurveys_of_findings {surveys surveys' : List Survey}
    (same : surveys.map Survey.findings = surveys'.map Survey.findings) :
    ofSurveys surveys = ofSurveys surveys' := by
  have cores_iff (surveys : List Survey) (id : UInt64) : (∃ s ∈ surveys, s.core = .ok id) ↔
      ∃ f ∈ surveys.map Survey.findings, f.core = some id := by
    simp [Survey.findings, toOption_eq_some_iff]
  have packages_iff (surveys : List Survey) (id : UInt64) : (∃ s ∈ surveys, s.package = .ok id) ↔
      ∃ f ∈ surveys.map Survey.findings, f.package = some id := by
    simp [Survey.findings, toOption_eq_some_iff]
  have caches_eq (surveys : List Survey) : (ofSurveys surveys).caches =
      ((surveys.map Survey.findings).flatMap Findings.caches).foldl
        (fun t e => t.add e.1 e.2) ∅ := by
    rw [caches_ofSurveys, foldl_countEntry_eq, List.filterMap_flatMap, List.flatMap_map]
    rfl
  have cores : (ofSurveys surveys).cores = (ofSurveys surveys').cores := by
    simp only [cores_ofSurveys, cores_iff, same]
  have packages : (ofSurveys surveys).packages = (ofSurveys surveys').packages := by
    simp only [packages_ofSurveys, packages_iff, same]
  have caches : (ofSurveys surveys).caches = (ofSurveys surveys').caches := by
    rw [caches_eq, caches_eq, same]
  have logical : surveys.length = surveys'.length := by
    simpa using congrArg List.length same
  calc
    _ = ⟨(ofSurveys surveys).cores, (ofSurveys surveys).packages, surveys.length,
          (ofSurveys surveys).caches⟩ := rfl
    _ = ofSurveys surveys' := by
      rw [cores, packages, caches, logical]
      rfl

end Topology

namespace Survey

/-- The attributes of a processor that are consulted, as named below the processors' directory.
After the first index without a list of sharers none is. -/
inductive Consulted (h : Host) (r : SystemRoot) (cpu : UInt64) : String → Prop
  | core : Consulted h r cpu (coreFile cpu)
  | package : Consulted h r cpu (packageFile cpu)
  | sharers {index : Nat} (reached : index ≤ probeEnd h r cpu) :
      Consulted h r cpu (sharersFile cpu index)
  | level {index : Nat} (before : index < probeEnd h r cpu) :
      Consulted h r cpu (levelFile cpu index)
  | size {index : Nat} (before : index < probeEnd h r cpu) :
      Consulted h r cpu (sizeFile cpu index)

theorem cpuName_toList (cpu : UInt64) :
    (cpuName cpu).toList = 'c' :: 'p' :: 'u' :: Nat.toDigits 10 cpu.toNat := by
  simp [cpuName]

theorem slash_not_mem_cpuName (cpu : UInt64) : '/' ∉ (cpuName cpu).toList := by
  rw [cpuName_toList]
  intro slash
  have digit : '/' ∈ Nat.toDigits 10 cpu.toNat := by simpa using slash
  exact Numeral.not_mem_toDigits (by decide) _ digit

theorem Consulted.exists_names {h : Host} {r : SystemRoot} {cpu : UInt64} {file : String}
    (consulted : Consulted h r cpu file) :
    ∃ names, file = "/".intercalate (cpuName cpu :: names) ∧
      ∀ name ∈ names, FileTree.IsProper name ∧ '/' ∉ name.toList := by
  have index (i : Nat) := And.intro (isProper_indexName i) (slash_not_mem_indexName i)
  cases consulted with
  | core =>
    refine ⟨["topology", "core_id"], String.toList_inj.1 (by simp [coreFile]), ?_⟩
    decide
  | package =>
    refine ⟨["topology", "physical_package_id"], String.toList_inj.1 (by simp [packageFile]), ?_⟩
    decide
  | @sharers i =>
    refine ⟨["cache", indexName i, "shared_cpu_list"],
      String.toList_inj.1 (by simp [sharersFile, cacheName, indexName]), ?_⟩
    simp only [List.forall_mem_cons, index]
    decide
  | @level i =>
    refine ⟨["cache", indexName i, "level"],
      String.toList_inj.1 (by simp [levelFile, cacheName, indexName]), ?_⟩
    simp only [List.forall_mem_cons, index]
    decide
  | @size i =>
    refine ⟨["cache", indexName i, "size"],
      String.toList_inj.1 (by simp [sizeFile, cacheName, indexName]), ?_⟩
    simp only [List.forall_mem_cons, index]
    decide

theorem findings_of (h : Host) (r : SystemRoot) (cpu : UInt64) :
    (of h r cpu).findings =
      ⟨(r.integer h (coreFile cpu)).toOption, (r.integer h (packageFile cpu)).toOption,
        (List.range (probeEnd h r cpu)).filterMap fun i => (entryAt h r cpu i).counted?⟩ := by
  have noted_toOption (file : String) (reading : Except Failure UInt64) :
      (noted file reading).toOption = reading.toOption := by
    cases reading <;> rfl
  rw [findings, caches_of, List.filterMap_map]
  simp only [of, noted_toOption]
  rfl

variable {h h' : Host} {r r' : SystemRoot} {cpu : UInt64}

theorem hasSharers_iff_of_text {index : Nat}
    (same : r.text? h (sharersFile cpu index) = r'.text? h' (sharersFile cpu index)) :
    HasSharers h r cpu index ↔ HasSharers h' r' cpu index := by
  simp only [HasSharers, ← toOption_eq_some_iff, SystemRoot.idSet,
    SystemRoot.toOption_readAttribute, same]

theorem counted?_entryAt (h : Host) (r : SystemRoot) (cpu : UInt64) (index : Nat) :
    (entryAt h r cpu index).counted? =
      (r.idSet h (sharersFile cpu index)).toOption.bind fun sharers =>
        if sharedBelow cpu sharers then none
        else (r.integer h (levelFile cpu index)).toOption.bind fun level =>
          (r.byteSize h (sizeFile cpu index)).toOption.map fun size => (level, size) := by
  unfold entryAt
  cases r.idSet h (sharersFile cpu index) with
  | error failure => rfl
  | ok sharers =>
    simp only [cacheEntry, Except.toOption, Option.bind_some]
    by_cases below : sharedBelow cpu sharers
    · rw [if_pos below, if_pos below]
      rfl
    · rw [if_neg below, if_neg below]
      cases r.integer h (levelFile cpu index) with
      | error failure => rfl
      | ok level => cases r.byteSize h (sizeFile cpu index) <;> rfl

theorem findings_of_consulted
    (same : ∀ file, Consulted h r cpu file → r.text? h file = r'.text? h' file) :
    (of h r cpu).findings = (of h' r' cpu).findings := by
  have ends : probeEnd h' r' cpu = probeEnd h r cpu := by
    refine probeEnd_eq_iff.2 ⟨fun shared => ?_, fun index before => ?_⟩
    · have last := hasSharers_iff_of_text (same _ (.sharers (Nat.le_refl _)))
      exact not_hasSharers_probeEnd h r cpu (last.2 shared)
    · have here := hasSharers_iff_of_text (same _ (.sharers (Nat.le_of_lt before)))
      exact here.1 (hasSharers_of_lt_probeEnd before)
  have caches : ∀ index ∈ List.range (probeEnd h r cpu),
      (entryAt h r cpu index).counted? = (entryAt h' r' cpu index).counted? := by
    intro index member
    have before := List.mem_range.1 member
    simp only [counted?_entryAt, SystemRoot.idSet, SystemRoot.integer, SystemRoot.byteSize,
      SystemRoot.toOption_readAttribute, same _ (.sharers (Nat.le_of_lt before)),
      same _ (.level before), same _ (.size before)]
  rw [findings_of, findings_of, ends, List.filterMap_congr caches]
  simp only [SystemRoot.integer, SystemRoot.toOption_readAttribute, same _ .core, same _ .package]

end Survey

/-- Two hosts agree, each under its own root, on all that a record is made from. The listing of the
first decides which attributes these are. -/
structure SameSources (h : Host) (r : SystemRoot) (h' : Host) (r' : SystemRoot) : Prop where
  listing : h.read (r.procFile "cpuinfo") = h'.read (r'.procFile "cpuinfo")
  nodes : Numa.kinds h r = Numa.kinds h' r'
  attributes : ∀ bytes, h.read (r.procFile "cpuinfo") = .ok bytes →
    ∀ cpu ∈ Topology.indices 0 (Stanza.ofBytes bytes), ∀ file, Survey.Consulted h r cpu file →
      r.text? h file = r'.text? h' file

end Cpu

def Failure.moved (path : Path) : Failure → Failure
  | .unreadable _ fault => .unreadable path fault
  | .notFound _ => .notFound path
  | .noProcessors _ => .noProcessors path
  | failure => failure

theorem Failure.moved_reading (path path' : Path) (fault : Fault) :
    (reading path fault).moved path' = reading path' fault := by
  cases fault <;> rfl

namespace Cpu

variable {h h' : Host} {r r' : SystemRoot}

theorem Report.ofListing_of_sameSources {bytes : List UInt8} (same : SameSources h r h' r')
    (read : h.read (r.procFile "cpuinfo") = .ok bytes) :
    ofListing h r bytes = ofListing h' r' bytes := by
  have topology : Topology.ofStanzas h r (Stanza.ofBytes bytes) =
      Topology.ofStanzas h' r' (Stanza.ofBytes bytes) := by
    apply Topology.ofSurveys_of_findings
    simp only [Topology.surveys, List.map_map]
    apply List.map_congr_left
    intro cpu listed
    exact Survey.findings_of_consulted (same.attributes bytes read cpu listed)
  have nodes : Numa.count h r = Numa.count h' r' := by
    rw [Numa.count_eq, Numa.count_eq, same.nodes]
  rw [ofListing, ofListing, topology, nodes]

/-- Hosts with the same sources have one record, or fail alike at the paths of their listings.
Whatever a listing says, the attributes among these sources stand in directories named for decimal
numbers, with no way up on the paths to them. -/
theorem collect_of_sameSources (same : SameSources h r h' r') :
    Report.collect h' r' = (Report.collect h r).mapError (.moved (r'.procFile "cpuinfo")) ∧
    ∀ cpu file, Survey.Consulted h r cpu file →
      ∃ names, (∀ name ∈ names, FileTree.IsProper name) ∧ (r.cpuFile file).pieces =
        (r.top.join "sys/devices/system/cpu").pieces ++ ("cpu" ++ toString cpu.toNat) :: names := by
  constructor
  · rw [Report.collect_eq, Report.collect_eq, ← same.listing]
    cases read : h.read (r.procFile "cpuinfo") with
    | error fault => simp only [Except.mapError, Failure.moved_reading]
    | ok bytes =>
      by_cases colon : 0x3A ∈ bytes
      · simp only [if_pos colon, Report.ofListing_of_sameSources same read]
        rfl
      · simp only [if_neg colon]
        rfl
  · intro cpu file consulted
    obtain ⟨names, rfl, plain⟩ := consulted.exists_names
    refine ⟨names, fun name member => (plain name member).1, ?_⟩
    have relative : Path.isAbsolute ("/".intercalate (Survey.cpuName cpu :: names)) = false := by
      simp [Path.isAbsolute, String.toList_intercalate, Survey.cpuName_toList]
    have unbroken : ∀ name ∈ Survey.cpuName cpu :: names, '/' ∉ name.toList :=
      List.forall_mem_cons.2
        ⟨Survey.slash_not_mem_cpuName cpu, fun name member => (plain name member).2⟩
    rw [r.pieces_cpuFile relative, Path.pieces_of_names (List.cons_ne_nil _ _) unbroken]
    rfl

/-- Two processors, named `0x0` and by a path, which makes the second one go by its position. -/
def trickyListing : List UInt8 := Utf8.encode "processor : 0x0\n\nprocessor : ../../../etc\n"

def trickyHostBelow (top : Location) (files : List (List String × String)) : Host where
  tree := files.foldl (fun t file =>
    t.place (file.1.reverse ++ ["system", "devices", "sys"] ++ top) (.file (Utf8.encode file.2)))
      (FileTree.place ∅ (["cpuinfo", "proc"] ++ top) (.file trickyListing))
  workingDirectory := []

def trickyFiles : List (List String × String) :=
  [(["node", "node0", "meminfo"], "1\n"),
   (["cpu", "cpu0", "topology", "core_id"], "0\n"),
   (["cpu", "cpu0", "cache", "index0", "shared_cpu_list"], "0\n"),
   (["cpu", "cpu0", "cache", "index0", "level"], "1\n"),
   (["cpu", "cpu0", "cache", "index0", "size"], "32K\n")]

/-- Files where the names in the listing lead if they are taken as they are, a cache after the first
missing one, a processor that is not listed and a file inside a node. -/
def decoyFiles : List (List String × String) :=
  [(["cpu", "cpu0x0", "topology", "core_id"], "7\n"),
   (["cpu", "cpu..", "online"], "1\n"),
   (["etc", "topology", "core_id"], "8\n"),
   (["cpu", "cpu0", "cache", "index2", "shared_cpu_list"], "0\n"),
   (["cpu", "cpu0", "cache", "index2", "level"], "2\n"),
   (["cpu", "cpu0", "cache", "index2", "size"], "1M\n"),
   (["cpu", "cpu2", "topology", "core_id"], "9\n"),
   (["node", "node0", "distance"], "10\n")]

def trickyHost : Host := trickyHostBelow [] trickyFiles

def decoyHost : Host := trickyHostBelow ["mnt"] (decoyFiles ++ trickyFiles)

def mounted : SystemRoot := ⟨⟨"/mnt"⟩⟩

theorem read_trickyHost :
    trickyHost.read (SystemRoot.standard.procFile "cpuinfo") = .ok trickyListing :=
  eq_ok_of_toOption (by decide +kernel)

theorem read_decoyHost : decoyHost.read (mounted.procFile "cpuinfo") = .ok trickyListing :=
  eq_ok_of_toOption (by decide +kernel)

theorem sameSources_decoyHost : SameSources trickyHost .standard decoyHost mounted where
  listing := by rw [read_trickyHost, read_decoyHost]
  nodes := by decide +kernel
  attributes := by
    intro bytes read cpu listed file consulted
    obtain rfl : trickyListing = bytes := Except.ok.inj (read_trickyHost.symm.trans read)
    have first : Survey.probeEnd trickyHost .standard 0 = 1 :=
      Survey.probeEnd_eq_iff.2 (by decide +kernel)
    have second : Survey.probeEnd trickyHost .standard 1 = 0 :=
      Survey.probeEnd_eq_iff.2 (by decide +kernel)
    have indices : Topology.indices 0 (Stanza.ofBytes trickyListing) = [0, 1] := by decide +kernel
    rw [indices, List.mem_pair] at listed
    rcases listed with rfl | rfl
    · cases consulted with
      | core => decide +kernel
      | package => decide +kernel
      | @sharers index reached =>
        obtain rfl | rfl : index = 0 ∨ index = 1 := by omega
        · decide +kernel
        · decide +kernel
      | @level index before =>
        obtain rfl : index = 0 := by omega
        decide +kernel
      | @size index before =>
        obtain rfl : index = 0 := by omega
        decide +kernel
    · cases consulted with
      | core => decide +kernel
      | package => decide +kernel
      | @sharers index reached =>
        obtain rfl : index = 0 := by omega
        decide +kernel
      | level before => omega
      | size before => omega

/-- The decoys change nothing: the record under the mount is that of the host without them, with two
processors, the one core id and the one cache. -/
theorem collect_decoyHost :
    SameSources trickyHost .standard decoyHost mounted ∧
    ∃ facts, Report.collect trickyHost .standard = .ok facts ∧
      Report.collect decoyHost mounted = .ok facts ∧
      facts.get? Key.logicalProcessors = some "2" ∧ facts.get? Key.cores = some "1" ∧
      facts.get? Key.cacheSize = some "32 KB" := by
  refine ⟨sameSources_decoyHost, Report.ofListing trickyHost .standard trickyListing, ?_⟩
  obtain ⟨same, -⟩ := collect_of_sameSources sameSources_decoyHost
  have collected : Report.collect trickyHost .standard =
      .ok (Report.ofListing trickyHost .standard trickyListing) := by
    have colon : 0x3A ∈ trickyListing := by decide +kernel
    simp only [Report.collect_eq, read_trickyHost, if_pos colon]
  rw [collected] at same
  exact ⟨collected, same, by decide +kernel⟩

end Cpu

end HostInventory
