import HostInventory.Proofs.CollectorSources
import HostInventory.Proofs.ConsultedFiles

/-! What the outcome of a collector depends on. A file that cannot be read leaves out the same part
of a section whatever the reason is, so hosts that agree on a collector's files have the same section
of it, and hosts that agree exactly the same events on the way to it. -/
namespace HostInventory

section Reading

variable {exact : Prop} {h h' : Host} {r : SystemRoot} {path : Path}

theorem Host.readText_alike (same : Alike Except.toOption exact (h.read path) (h'.read path)) :
    Alike Except.toOption exact (h.readText path) (h'.readText path) := by
  rcases same.value_or_error with ⟨bytes, read, read'⟩ | ⟨_, _, read, read', why⟩
  · simp only [readText, read, read']
    exact .of_eq rfl
  · simp only [readText, read, read']
    exact .error fun holds => by rw [why holds]

theorem Stanza.readAll_alike (same : Alike Except.toOption exact (h.read (r.procFile "cpuinfo"))
      (h'.read (r.procFile "cpuinfo"))) :
    Alike Except.toOption exact (readAll h r) (readAll h' r) := by
  rcases same.value_or_error with ⟨bytes, read, read'⟩ | ⟨_, _, read, read', why⟩
  · simp only [readAll, Host.readBytes, read, read']
    exact .of_eq rfl
  · simp only [readAll, Host.readBytes, read, read', Except.mapError]
    exact .error fun holds => by rw [why holds]

theorem SystemRoot.readAttribute_alike {α : Type} (reader : String → Except Failure α) {file : String}
    (same : Alike Except.toOption exact (h.readText (r.cpuFile file))
      (h'.readText (r.cpuFile file))) :
    Alike Except.toOption exact (r.readAttribute h reader file) (r.readAttribute h' reader file) := by
  rcases same.value_or_error with ⟨text, read, read'⟩ | ⟨_, _, read, read', why⟩
  · simp only [readAttribute, read, read']
    exact .of_eq rfl
  · simp only [readAttribute, read, read']
    exact .error why

end Reading

namespace Cpu

namespace Survey

variable {exact : Prop} {h h' : Host} {r : SystemRoot} {cpu : UInt64}

def SameAttributes (exact : Prop) (h h' : Host) (r : SystemRoot) (files : List String) : Prop :=
  ∀ file ∈ files,
    Alike Except.toOption exact (h.readText (r.cpuFile file)) (h'.readText (r.cpuFile file))

theorem cacheEntry_alike {index : Nat} {sharers : IdSet}
    (same : SameAttributes exact h h' r (entrySources h r cpu index sharers)) :
    Alike CacheEntry.counted? exact (cacheEntry h r cpu index sharers)
        (cacheEntry h' r cpu index sharers) ∧
      entrySources h' r cpu index sharers = entrySources h r cpu index sharers := by
  unfold entrySources at same ⊢
  unfold cacheEntry
  by_cases below : sharedBelow cpu sharers
  · simp only [if_pos below, and_true]
    exact .of_eq rfl
  · simp only [if_neg below] at same ⊢
    obtain ⟨level, sizes⟩ := List.forall_mem_cons.1 same
    rcases (r.readAttribute_alike Numeral.read level).value_or_error with
      ⟨_, read, read'⟩ | ⟨_, _, read, read', why⟩
    · rw [SystemRoot.integer, read] at sizes
      simp only [SystemRoot.integer, read, read', noted, Except.mapError, and_true]
      rcases (r.readAttribute_alike ByteSize.read (sizes _ List.mem_cons_self)).value_or_error with
        ⟨_, read, read'⟩ | ⟨_, _, read, read', why⟩
      · simp only [SystemRoot.byteSize, read, read']
        exact .of_eq rfl
      · simp only [SystemRoot.byteSize, read, read']
        exact ⟨rfl, fun holds => by rw [why holds]⟩
    · simp only [SystemRoot.integer, read, read', noted, Except.mapError, and_true]
      exact ⟨rfl, fun holds => by rw [why holds]⟩

/-- What counts of a processor's entries, and whether they came to an end. -/
def countedEntries (found : List CacheEntry × Option Skipped) : List (UInt64 × UInt64) × Bool :=
  (found.1.filterMap CacheEntry.counted?, found.2.isSome)

theorem cacheEntries_alike {budget index : Nat}
    (same : SameAttributes exact h h' r (cacheSources h r cpu budget index)) :
    Alike countedEntries exact (cacheEntries h r cpu budget index)
        (cacheEntries h' r cpu budget index) ∧
      cacheSources h' r cpu budget index = cacheSources h r cpu budget index := by
  induction budget generalizing index with
  | zero => exact ⟨.of_eq rfl, rfl⟩
  | succ budget ih =>
    unfold cacheSources at same ⊢
    obtain ⟨sharers, further⟩ := List.forall_mem_cons.1 same
    rcases (r.readAttribute_alike IdSet.read sharers).value_or_error with
      ⟨ids, read, read'⟩ | ⟨_, _, read, read', why⟩
    · rw [SystemRoot.idSet, read] at further
      obtain ⟨here, others⟩ := List.forall_mem_append.1 further
      obtain ⟨entry, sources⟩ := cacheEntry_alike here
      obtain ⟨rest, sources'⟩ := ih others
      obtain ⟨counted, ends⟩ := Prod.ext_iff.1 rest.seen
      simp only [countedEntries] at counted ends
      simp only [cacheEntries, SystemRoot.idSet, read, read', noted, Except.mapError, sources,
        sources', and_true]
      refine ⟨?_, fun holds => by rw [entry.same holds, rest.same holds]⟩
      simp only [countedEntries, List.filterMap_cons, entry.seen, counted, ends]
    · simp only [cacheEntries, SystemRoot.idSet, read, read', noted, Except.mapError, and_true]
      exact ⟨rfl, fun holds => by rw [why holds]⟩

theorem of_alike (same : SameAttributes exact h h' r (sources h r cpu)) :
    Alike findings exact (of h r cpu) (of h' r cpu) ∧ sources h' r cpu = sources h r cpu := by
  obtain ⟨core, package, caches⟩ : _ ∧ _ ∧ SameAttributes exact h h' r _ := by
    simpa only [SameAttributes, sources, List.forall_mem_cons] using same
  obtain ⟨entries, read⟩ := cacheEntries_alike caches
  obtain ⟨counted, ends⟩ := Prod.ext_iff.1 entries.seen
  -- The hosts have budgets of their own, as many as their trees have objects. Both see the end.
  have enough : (cacheEntries h' r cpu (budget h) 0).2.isSome :=
    ends.trans (isSome_stop_budget h r cpu)
  obtain ⟨entries', read'⟩ := cacheEntries_of_stop (isSome_stop_budget h' r cpu) enough
  have core := r.readAttribute_alike Numeral.read core
  have package := r.readAttribute_alike Numeral.read package
  have noted_toOption (file : String) (reading : Except Failure UInt64) :
      (noted file reading).toOption = reading.toOption := by
    cases reading <;> rfl
  refine ⟨⟨?_, fun holds => ?_⟩, by rw [sources, sources, read', read]⟩
  · simp only [countedEntries] at counted
    simp only [findings, of, noted_toOption, SystemRoot.integer, core.seen, package.seen, entries',
      counted]
  · simp only [of, SystemRoot.integer, core.same holds, package.same holds, entries',
      entries.same holds]

end Survey

variable {exact : Prop} {h h' : Host} {r : SystemRoot} {stanzas : List Stanza}

theorem surveys_alike (same : ∀ path ∈ attributeSources h r stanzas,
      Alike Except.toOption exact (h.read path) (h'.read path)) :
    Alike (List.map Survey.findings) exact (Topology.surveys h r stanzas)
        (Topology.surveys h' r stanzas) ∧
      attributeSources h' r stanzas = attributeSources h r stanzas := by
  have each (cpu : UInt64) (listed : cpu ∈ Topology.indices 0 stanzas) :
      Alike Survey.findings exact (Survey.of h r cpu) (Survey.of h' r cpu) ∧
        Survey.sources h' r cpu = Survey.sources h r cpu :=
    Survey.of_alike fun _ mem => Host.readText_alike (same _ (mem_attributeSources listed mem))
  refine ⟨⟨?_, fun holds => ?_⟩, ?_⟩
  · simp only [Topology.surveys, List.map_map]
    exact List.map_congr_left fun cpu listed => (each cpu listed).1.seen
  · exact List.map_congr_left fun cpu listed => (each cpu listed).1.same holds
  · refine List.flatMap_congr fun cpu listed => ?_
    rw [(each cpu listed).2]

end Cpu

def Outcome.section? (done : Outcome) : Option Json := done.result.toOption

namespace Collector

variable {exact : Prop} {m m' : Machine} {r : SystemRoot}

theorem cpuEvents_eq {h h' : Host} {stanzas : List Stanza}
    (surveys : Cpu.Topology.surveys h' r stanzas = Cpu.Topology.surveys h r stanzas)
    (nodes : h'.nodes r = h.nodes r) : cpuEvents h' r stanzas = cpuEvents h r stanzas := by
  unfold Host.nodes at nodes
  unfold cpuEvents Cpu.Numa.entries
  rw [surveys]
  cases found' : h'.list r.nodeDirectory <;> cases found : h.list r.nodeDirectory <;>
    simp_all [Except.map]

theorem run_cpu_alike (same : m.host.Agrees exact m'.host r (Cpu.sources m.host r)) :
    Alike Outcome.section? exact (cpu.run m r) (cpu.run m' r) ∧
      Cpu.sources m'.host r = Cpu.sources m.host r := by
  have listing := Stanza.readAll_alike (same.read _ List.mem_cons_self)
  unfold Cpu.sources at same ⊢
  rcases listing.value_or_error with ⟨stanzas, read, read'⟩ | ⟨_, _, read, read', why⟩
  · rw [read] at same
    obtain ⟨surveys, attributes⟩ := Cpu.surveys_alike (List.forall_mem_cons.1 same.read).2
    have topology : Cpu.Topology.ofStanzas m'.host r stanzas =
        Cpu.Topology.ofStanzas m.host r stanzas := Cpu.Topology.ofSurveys_of_findings surveys.seen
    have count : Cpu.Numa.count m'.host r = Cpu.Numa.count m.host r := by
      rw [Cpu.Numa.count_eq_nodes, Cpu.Numa.count_eq_nodes, same.nodes.seen]
    refine ⟨⟨?_, fun holds => ?_⟩, by simp only [read, read', attributes]⟩
    · simp only [Outcome.section?, cpu, Cpu.Report.collect, read, read', topology, count]
    · simp only [cpu, Cpu.Report.collect, read, read', topology, count,
        cpuEvents_eq (surveys.same holds) (same.nodes.same holds)]
  · refine ⟨⟨?_, fun holds => ?_⟩, by simp only [read, read']⟩
    · simp only [Outcome.section?, cpu, Cpu.Report.collect, read, read']
      rfl
    · simp only [cpu, Cpu.Report.collect, read, read', why holds]

theorem run_memory_alike (same : m.host.Agrees exact m'.host r [r.procFile "meminfo"]) :
    Alike Outcome.section? exact (memory.run m r) (memory.run m' r) := by
  have text := Host.readText_alike (same.read _ List.mem_cons_self)
  rcases text.value_or_error with ⟨_, read, read'⟩ | ⟨_, _, read, read', why⟩
  · refine .of_eq ?_
    simp only [memory, Memory.collect, read, read']
  · refine ⟨?_, fun holds => ?_⟩
    · simp only [Outcome.section?, memory, Memory.collect, read, read']
      rfl
    · simp only [memory, Memory.collect, read, read', why holds]

theorem addReading_congr {f : Facts} {fact : String} {reading reading' : Except Failure String}
    (alike : Alike Except.toOption exact reading reading') :
    Platform.addReading f (fact, reading') = Platform.addReading f (fact, reading) := by
  rcases alike.value_or_error with ⟨_, rfl, rfl⟩ | ⟨_, _, rfl, rfl, -⟩
  · rfl
  · rfl

theorem run_platform_alike (system : m.SameSystem m')
    (same : m.host.Agrees exact m'.host r (Platform.kernelFiles.map fun e => r.procFile e.2)) :
    Alike Outcome.section? exact (platform.run m r) (platform.run m' r) := by
  have texts (e : String × String) (mem : e ∈ Platform.kernelFiles) :=
    Host.readText_alike (same.read _ (List.mem_map_of_mem mem))
  have found (f : Facts) : (Platform.readings m'.host r).foldl Platform.addReading f =
      (Platform.readings m.host r).foldl Platform.addReading f := by
    rw [Platform.readings, Platform.readings, List.foldl_map, List.foldl_map]
    exact List.foldl_ext _ _ _ fun f e mem => addReading_congr (texts e mem)
  refine ⟨?_, fun holds => ?_⟩
  · simp only [Outcome.section?, platform, Platform.factsOf, found, system.system]
  · have readings : Platform.readings m'.host r = Platform.readings m.host r :=
      List.map_congr_left fun e mem => by rw [(texts e mem).same holds]
    simp only [platform, readings, system.system]

theorem run_filesystem_eq (system : m.SameSystem m') :
    filesystem.run m' r = filesystem.run m r := by
  simp only [filesystem, system.mounts]

theorem run_network_alike (system : m.SameSystem m') {entries : List Network.Entry}
    (listed : m.addresses = .ok entries)
    (same : m.host.Agrees exact m'.host r (Network.sources r entries)) :
    Alike Outcome.section? exact (network.run m r) (network.run m' r) := by
  have readings (name : String) (mem : name ∈ Network.firstNames entries) :
      Alike Except.toOption exact (Network.hardwareReading m.host r name)
        (Network.hardwareReading m'.host r name) :=
    Host.readText_alike (same.read _ (List.mem_map_of_mem mem))
  have addresses (name : String) (mem : name ∈ Network.firstNames entries) :
      Network.hardwareAddress? m'.host r name = Network.hardwareAddress? m.host r name := by
    rcases (readings name mem).value_or_error with ⟨_, read, read'⟩ | ⟨_, _, read, read', -⟩
    · simp only [Network.hardwareAddress?, read, read']
    · simp only [Network.hardwareAddress?, read, read']
  have report := Network.ofEntries_congr addresses
  refine ⟨?_, fun holds => ?_⟩
  · simp only [Outcome.section?, network, system.addresses, listed, report]
  · simp only [network, system.addresses, listed, report, hardwareEvents]
    congr 1
    refine List.filterMap_congr fun i mem => ?_
    rw [(readings i.name (Network.name_mem_firstNames mem)).same holds]

/-- A collector gives the same section, or none, where hosts agree on the files that it reads, and it
reads the same files. Where they agree exactly its failure and its events are the same too. -/
theorem run_alike {c : Collector} (known : c ∈ all) (system : m.SameSystem m')
    (same : m.host.Agrees exact m'.host r (sources m r c.name)) :
    Alike Outcome.section? exact (c.run m r) (c.run m' r) ∧
      sources m' r c.name = sources m r c.name := by
  simp only [all, List.mem_cons, List.not_mem_nil, or_false] at known
  rcases known with rfl | rfl | rfl | rfl | rfl
  · exact run_cpu_alike same
  · exact ⟨.of_eq (run_filesystem_eq system), by rw [sources_filesystem, sources_filesystem]⟩
  · exact ⟨run_memory_alike same, by simp only [sources, memory]⟩
  · cases listed : m.addresses with
    | error message =>
      simp only [sources, network, system.addresses, listed, and_true]
      exact .of_eq rfl
    | ok entries =>
      simp only [sources, network, listed] at same
      refine ⟨run_network_alike system listed same, ?_⟩
      simp only [sources, network, system.addresses, listed]
  · exact ⟨run_platform_alike system same, by simp only [sources, platform]⟩

end Collector

end HostInventory
