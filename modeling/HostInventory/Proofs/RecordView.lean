import HostInventory.Proofs.DecimalText
import HostInventory.Proofs.PhysicalCores
import HostInventory.Proofs.SnapshotSections

/-! The processor record and the summary that is read back from it. Counts and cache sizes are
written as texts and read as words by two separate functions; they agree on every host whose counts
are words, and the section of a snapshot hands the whole record on to the printed summary. -/
namespace HostInventory

theorem Facts.toNat_number?_of_get? {f : Facts} {key : String} {n : Nat} (fits : n < 2 ^ 64)
    (found : f.get? key = some (toString n)) : ((f.number? key).getD 0).toNat = n := by
  have word : Numeral.word? n = some (.ofNat n) := if_pos fits
  rw [number?, found, Option.bind_some, Numeral.readCount?_toString, word, Option.getD_some]
  exact UInt64.toNat_ofNat_of_lt' fits

theorem Stanza.readAll_eq_ok_iff {h : Host} {r : SystemRoot} {stanzas : List Stanza} :
    Stanza.readAll h r = .ok stanzas ↔ stanzas ≠ [] ∧
      ∃ bytes, h.readBytes (r.procFile "cpuinfo") = .ok bytes ∧ Stanza.ofBytes bytes = stanzas := by
  simp only [Stanza.readAll]
  cases h.readBytes (r.procFile "cpuinfo") with
  | error failure => simp
  | ok bytes =>
    cases found : Stanza.ofBytes bytes with
    | nil => simp_all
    | cons first rest =>
      simp only [found, Except.ok.injEq]
      constructor
      · rintro rfl
        exact ⟨List.cons_ne_nil _ _, bytes, rfl, found⟩
      · rintro ⟨-, _, rfl, same⟩
        rw [← same, found]

namespace Cpu

namespace Report

/-- The facts that are written after the identity, in that order. -/
def measured (first : Stanza) (t : Topology) (nodes : Nat) : List (String × String) := [
  (Key.packages, toString t.packages),
  (Key.cores, toString t.cores),
  (Key.logicalProcessors, toString t.logicalProcessors),
  (Key.cacheSizeL1, toString (t.caches.level 1).toNat),
  (Key.cacheSizeL2, toString (t.caches.level 2).toNat),
  (Key.cacheSizeL3, toString (t.caches.level 3).toNat),
  (Key.cacheSize, cacheSize first t),
  (Key.numaNodes, toString nodes)]

variable {first : Stanza} {t : Topology} {nodes : Nat}

theorem facts_eq_foldl_measured : facts first t nodes =
    (measured first t nodes).foldl (fun f e => f.insert e.1 e.2)
      ((Layout.of first).describe first ∅) :=
  rfl

theorem get?_facts {key value : String} (written : (key, value) ∈ measured first t nodes) :
    (facts first t nodes).get? key = some value := by
  have keys : ((measured first t nodes).map Prod.fst).Nodup := by
    have names : (measured first t nodes).map Prod.fst =
        [Key.packages, Key.cores, Key.logicalProcessors, Key.cacheSizeL1, Key.cacheSizeL2,
          Key.cacheSizeL3, Key.cacheSize, Key.numaNodes] := rfl
    rw [names]
    decide
  rw [facts_eq_foldl_measured, OrderedMap.get?_foldl_insert, OrderedMap.lookup_reverse keys,
    (OrderedMap.lookup_eq_some_iff keys).2 written, Option.some_or]

theorem cacheSize_eq_sizeText
    (computed : Layout.of first = .codes ∨ first.get? "cache size" = none ∨
      t.caches.isEmpty = false) :
    cacheSize first t = t.caches.sizeText := by
  unfold cacheSize
  split
  · simp_all
  · rfl

theorem cacheSize_eq_text {text : String} (layout : Layout.of first = .descriptive)
    (none : t.caches.isEmpty = true) (own : first.get? "cache size" = some text) :
    cacheSize first t = text := by
  simp [cacheSize, layout, own, none]

end Report

theorem cacheBytes?_of_isDigit {cs : List Char} (digits : ∀ c ∈ cs, c.isDigit) (filled : cs ≠ []) :
    Summary.cacheBytes? (String.ofList cs ++ " KB") =
      (Numeral.word? (Nat.ofDigitChars 10 cs 0)).map ByteSize.ofKib := by
  have unspaced : ∀ c ∈ cs, decide (c ≠ ' ') = true := by
    intro c hc
    refine decide_eq_true fun space => ?_
    exact absurd (space ▸ digits c hc) (by decide)
  have number : (String.ofList cs ++ " KB").toList.takeWhile (· ≠ ' ') = cs := by
    rw [String.toList_append, String.toList_ofList, List.takeWhile_append_of_pos unspaced]
    exact List.append_nil cs
  rw [Summary.cacheBytes?, number, Numeral.readCount?_of_isDigit digits filled]

theorem toNat_cacheSize_of_get? {f : Facts} {cs : List Char} (digits : ∀ c ∈ cs, c.isDigit)
    (filled : cs ≠ []) (fits : Nat.ofDigitChars 10 cs 0 < 2 ^ 64)
    (found : f.get? Key.cacheSize = some (String.ofList cs ++ " KB")) :
    (Summary.ofFacts f).cacheSize.toNat = min (1024 * Nat.ofDigitChars 10 cs 0) (2 ^ 64 - 1) := by
  have word : Numeral.word? (Nat.ofDigitChars 10 cs 0) = some (.ofNat (Nat.ofDigitChars 10 cs 0)) :=
    if_pos fits
  have bytes : (Summary.ofFacts f).cacheSize =
      ByteSize.ofKib (.ofNat (Nat.ofDigitChars 10 cs 0)) := by
    simp only [Summary.ofFacts, found, Option.bind_some, cacheBytes?_of_isDigit digits filled, word,
      Option.map_some, Option.getD_some]
  rw [bytes, ByteSize.ofKib, UInt64.toNat_ofNat_of_lt' fits,
    UInt64.toNat_ofNat_of_lt' (by simp only [UInt64.size]; omega), Nat.mul_comm]
  rfl

structure FitsWords (t : Topology) (nodes : Nat) : Prop where
  logicalProcessors : t.logicalProcessors < 2 ^ 64
  numaNodes : nodes < 2 ^ 64
  caches : (t.caches.level 1).toNat + (t.caches.level 2).toNat + (t.caches.level 3).toNat < 2 ^ 64

theorem CacheTotals.sizeText_eq (t : CacheTotals) :
    t.sizeText = String.ofList (Nat.toDigits 10 (t.sum.toNat / 1024)) ++ " KB" := by
  have kib : (t.sum / 1024).toNat = t.sum.toNat / 1024 := UInt64.toNat_div ..
  rw [sizeText, Numeral.decimal, kib]
  rfl

theorem toNat_cacheSize_of_sizeText {f : Facts} {t : CacheTotals}
    (fits : (t.level 1).toNat + (t.level 2).toNat + (t.level 3).toNat < 2 ^ 64)
    (found : f.get? Key.cacheSize = some t.sizeText) :
    (Summary.ofFacts f).cacheSize.toNat =
      1024 * (((t.level 1).toNat + (t.level 2).toNat + (t.level 3).toNat) / 1024) := by
  rw [t.sizeText_eq, CacheTotals.toNat_sum fits] at found
  have read := toNat_cacheSize_of_get? (fun _ => Numeral.isDigit_of_mem_toDigits)
    Nat.toDigits_ne_nil (by rw [Nat.ofDigitChars_ten_toDigits]; omega) found
  rw [read, Nat.ofDigitChars_ten_toDigits]
  omega

/-- The summary read back from a record states the topology and the nodes that it was written from.
Its cache size is the sum of the three levels in whole units of 1024 bytes, or what the first stanza
says where its text was taken over. -/
structure Agrees (first : Stanza) (t : Topology) (nodes : Nat) (f : Facts) : Prop where
  cores : (Summary.ofFacts f).cores.toNat = t.cores
  packages : (Summary.ofFacts f).packages.toNat = t.packages
  logicalProcessors : (Summary.ofFacts f).logicalProcessors.toNat = t.logicalProcessors
  numaNodes : (Summary.ofFacts f).numaNodes.toNat = nodes
  cacheSizeL1 : (Summary.ofFacts f).cacheSizeL1 = t.caches.level 1
  cacheSizeL2 : (Summary.ofFacts f).cacheSizeL2 = t.caches.level 2
  cacheSizeL3 : (Summary.ofFacts f).cacheSizeL3 = t.caches.level 3
  computed : Layout.of first = .codes ∨ first.get? "cache size" = none ∨ t.caches.isEmpty = false →
    (Summary.ofFacts f).cacheSize.toNat = 1024 *
      (((t.caches.level 1).toNat + (t.caches.level 2).toNat + (t.caches.level 3).toNat) / 1024)
  copied : Layout.of first = .descriptive → t.caches.isEmpty = true →
    ∀ text, first.get? "cache size" = some text → f.get? Key.cacheSize = some text ∧
      ∀ cs : List Char, (∀ c ∈ cs, c.isDigit) → cs ≠ [] → Nat.ofDigitChars 10 cs 0 < 2 ^ 64 →
        text = String.ofList cs ++ " KB" →
          (Summary.ofFacts f).cacheSize.toNat = min (1024 * Nat.ofDigitChars 10 cs 0) (2 ^ 64 - 1)

theorem agrees_facts {first : Stanza} {t : Topology} {nodes : Nat} (fits : FitsWords t nodes)
    (cores : t.cores ≤ t.logicalProcessors) (packages : t.packages ≤ t.logicalProcessors) :
    Agrees first t nodes (Report.facts first t nodes) := by
  have written {key value : String} (mem : (key, value) ∈ Report.measured first t nodes) :
      (Report.facts first t nodes).get? key = some value := Report.get?_facts mem
  -- of the record only these facts matter from here on
  generalize Report.facts first t nodes = f at written ⊢
  have count (key : String) {n : Nat} (small : n < 2 ^ 64)
      (mem : (key, toString n) ∈ Report.measured first t nodes) :=
    Facts.toNat_number?_of_get? small (written mem)
  have level (key : String) {size : UInt64}
      (mem : (key, toString size.toNat) ∈ Report.measured first t nodes) :=
    UInt64.toNat_inj.1 (count key size.toNat_lt mem)
  have text : f.get? Key.cacheSize = some (Report.cacheSize first t) :=
    written (by simp [Report.measured])
  have processors := fits.logicalProcessors
  refine ⟨count Key.cores (by omega) ?_, count Key.packages (by omega) ?_,
    count Key.logicalProcessors processors ?_, count Key.numaNodes fits.numaNodes ?_,
    level Key.cacheSizeL1 ?_, level Key.cacheSizeL2 ?_, level Key.cacheSizeL3 ?_,
    fun computed => ?_, fun layout none own found => ?_⟩
  -- each of the seven is one of the measured facts, the other two are about the size text
  iterate 7 simp [Report.measured]
  · rw [Report.cacheSize_eq_sizeText computed] at text
    exact toNat_cacheSize_of_sizeText fits.caches text
  · rw [Report.cacheSize_eq_text layout none found] at text
    refine ⟨text, fun cs digits filled small same => ?_⟩
    exact toNat_cacheSize_of_get? digits filled small (same ▸ text)

/-- The lines that show a record: the texts of its identity, the counts of the topology and of the
nodes in decimal, and a size for each level that has caches. -/
def shownLines (f : Facts) (t : Topology) (nodes : Nat) : List String :=
  let stepping := f.getD Key.stepping ""
  ["CPU:", "  Vendor: " ++ f.getD Key.vendor "",
    "  Model: " ++ f.getD Key.modelName "" ++ " (" ++ f.getD Key.model "" ++ ")"] ++
  (if stepping = "" then [] else ["  Stepping: " ++ stepping]) ++
  ["  Packages: " ++ toString t.packages, "  Physical cores: " ++ toString t.cores,
    "  Logical processors: " ++ toString t.logicalProcessors, "  NUMA nodes: " ++ toString nodes] ++
  ((f.get? Key.megahertz).bind Binary64.read?).toList.map
    (fun frequency => "  Frequency: " ++ frequency.wholeText ++ " MHz") ++
  [("L1", t.caches.level 1), ("L2", t.caches.level 2), ("L3", t.caches.level 3)].flatMap
    fun e => if e.2 = 0 then [] else ["  " ++ e.1 ++ " cache: " ++ ByteSize.text e.2]

theorem Agrees.lines_eq {first : Stanza} {t : Topology} {nodes : Nat} {f : Facts}
    (agrees : Agrees first t nodes f) : (Summary.ofFacts f).lines = shownLines f t nodes := by
  have stepping : (Summary.ofFacts f).stepping = f.getD Key.stepping "" := rfl
  have frequency : (Summary.ofFacts f).megahertz = (f.get? Key.megahertz).bind Binary64.read? := rfl
  have caches : Summary.cacheLine "L1" (t.caches.level 1) ++
      (Summary.cacheLine "L2" (t.caches.level 2) ++ Summary.cacheLine "L3" (t.caches.level 3)) =
      [("L1", t.caches.level 1), ("L2", t.caches.level 2), ("L3", t.caches.level 3)].flatMap
        fun e => Summary.cacheLine e.1 e.2 := by
    simp
  simp only [Summary.lines, shownLines, Numeral.decimal, agrees.cores, agrees.packages,
    agrees.logicalProcessors, agrees.numaNodes, agrees.cacheSizeL1, agrees.cacheSizeL2,
    agrees.cacheSizeL3, stepping, frequency, String.isEmpty_iff, List.append_assoc, caches]
  cases (f.get? Key.megahertz).bind Binary64.read? <;> rfl

theorem Report.collect_of_readAll {h : Host} {r : SystemRoot} {stanzas : List Stanza} {t : Topology}
    {nodes : Nat} (read : Stanza.readAll h r = .ok stanzas)
    (topology : Topology.ofStanzas h r stanzas = t) (count : Numa.count h r = nodes) :
    Report.collect h r = .ok (Report.facts (stanzas.headD ∅) t nodes) := by
  rw [Report.collect, read, ← topology, ← count]

theorem fitsWords_of_readAll {h : Host} {r : SystemRoot} {stanzas : List Stanza}
    (read : Stanza.readAll h r = .ok stanzas)
    (words : FitsWords (Topology.ofStanzas h r stanzas) (Numa.count h r)) :
    ∀ found, Stanza.readAll h r = .ok found →
      FitsWords (Topology.ofStanzas h r found) (Numa.count h r) := by
  intro found same
  rw [Except.ok.inj (same.symm.trans read)]
  exact words

theorem Report.exists_readAll_of_collect {h : Host} {r : SystemRoot} {facts : Facts}
    (collected : Report.collect h r = .ok facts) :
    ∃ first rest, Stanza.readAll h r = .ok (first :: rest) ∧
      facts = Report.facts first (Topology.ofStanzas h r (first :: rest)) (Numa.count h r) := by
  unfold Report.collect at collected
  cases read : Stanza.readAll h r with
  | error failure => simp [read] at collected
  | ok stanzas =>
    cases stanzas with
    | nil => exact absurd rfl (Stanza.readAll_eq_ok_iff.1 read).1
    | cons first rest =>
      rw [read] at collected
      exact ⟨first, rest, rfl, (Except.ok.inj collected).symm⟩

/-- A record that is collected agrees with the topology and the nodes of its host. The summary of
the snapshot that it becomes a section of has the lines that show exactly this record. -/
theorem collect_agrees {h : Host} {r : SystemRoot} {facts : Facts}
    (collected : Report.collect h r = .ok facts)
    (fits : ∀ stanzas, Stanza.readAll h r = .ok stanzas →
      FitsWords (Topology.ofStanzas h r stanzas) (Numa.count h r)) :
    (Json.ofFacts facts).facts? = some facts ∧
    ∃ first rest, Stanza.readAll h r = .ok (first :: rest) ∧
      let t := Topology.ofStanzas h r (first :: rest)
      let nodes := Numa.count h r
      Agrees first t nodes facts ∧
      ∀ record (m : Machine) (selection : Selection), m.host = h → selection.includes "cpu" →
        let s : Snapshot := ⟨(Snapshot.run record Collector.all r selection m).sections⟩
        ∃ before after, s.sections.entries = before ++ ("cpu", Json.ofFacts facts) :: after ∧
          s.summary = Text.unlines ("=== Host Facts ===" ::
            (before.flatMap Snapshot.block ++ "" :: shownLines facts t nodes ++
              after.flatMap Snapshot.block)) := by
  refine ⟨Json.facts?_ofFacts facts, ?_⟩
  -- ids are counted without repetition, so there are no more of them than processors
  obtain ⟨first, rest, read, written⟩ := Report.exists_readAll_of_collect collected
  have agrees : Agrees first (Topology.ofStanzas h r (first :: rest)) (Numa.count h r) facts :=
    written ▸ agrees_facts (fits _ read) (Topology.cores_le_logicalProcessors h r _)
      (Topology.packages_le_logicalProcessors h r _)
  refine ⟨first, rest, read, agrees, ?_⟩
  intro record m selection same selected s
  have result : (Collector.cpu.run m r).result = .ok (Json.ofFacts facts) := by
    simp only [Collector.cpu, same, collected, Except.map]
  have others : ∀ c ∈ Collector.all.tail, c.name ≠ Collector.cpu.name := by
    simp [Collector.all, Collector.cpu, Collector.filesystem, Collector.memory,
      Collector.network, Collector.platform]
  have found : s.sections.get? "cpu" = some (Json.ofFacts facts) :=
    Snapshot.get?_run_of_head selected others result
  obtain ⟨before, after, entries, lines⟩ := Snapshot.summaryLines_of_get? found
  rw [Snapshot.sectionLines_cpu, agrees.lines_eq] at lines
  exact ⟨before, after, entries, congrArg Text.unlines lines⟩

/-- Two processors whose caches are known from the first stanza only, and one memory node. -/
def plainHost : Host where
  tree := (FileTree.place ∅ ["cpuinfo", "proc"] (.file (Utf8.encode
    "processor : 0\ncache size : 36608 KB\n\nprocessor : 1\n"))).place
      ["node0", "node", "system", "devices", "sys"] .directory
  workingDirectory := []

def plainStanzas : List Stanza :=
  [.ofList [("processor", "0"), ("cache size", "36608 KB")], .ofList [("processor", "1")]]

theorem readAll_plainHost : Stanza.readAll plainHost .standard = .ok plainStanzas :=
  eq_ok_of_toOption (by decide +kernel)

theorem ofStanzas_plainHost : Topology.ofStanzas plainHost .standard plainStanzas = ⟨0, 0, 2, ∅⟩ := by
  decide +kernel

theorem count_plainHost : Numa.count plainHost .standard = 1 := by decide +kernel

theorem fitsWords_plainHost :
    FitsWords (Topology.ofStanzas plainHost .standard plainStanzas)
      (Numa.count plainHost .standard) := by
  rw [ofStanzas_plainHost, count_plainHost]
  constructor <;> decide +kernel

/-- Two processors of a package. One has a cache of its own and one that it shares. -/
def sharedHost : Host :=
  let attributes := Host.ofAttributes [
    (["cpu0", "topology", "core_id"], "0\n"),
    (["cpu0", "topology", "physical_package_id"], "0\n"),
    (["cpu0", "cache", "index0", "shared_cpu_list"], "0\n"),
    (["cpu0", "cache", "index0", "level"], "1\n"),
    (["cpu0", "cache", "index0", "size"], "24K\n"),
    (["cpu0", "cache", "index1", "shared_cpu_list"], "0-1\n"),
    (["cpu0", "cache", "index1", "level"], "2\n"),
    (["cpu0", "cache", "index1", "size"], "1M\n"),
    (["cpu1", "topology", "core_id"], "1\n"),
    (["cpu1", "topology", "physical_package_id"], "0\n")]
  { attributes with
    tree := attributes.tree.place ["cpuinfo", "proc"] (.file (Utf8.encode (
      "processor : 0\nvendor_id : GenuineIntel\nmodel : 85\nmodel name : Xeon\nstepping : 7\n" ++
      "cpu MHz : 2400.5\ncache size : 36608 KB\n\nprocessor : 1\n"))) }

def sharedStanzas : List Stanza := [
  .ofList [("processor", "0"), ("vendor_id", "GenuineIntel"), ("model", "85"),
    ("model name", "Xeon"), ("stepping", "7"), ("cpu MHz", "2400.5"), ("cache size", "36608 KB")],
  .ofList [("processor", "1")]]

theorem readAll_sharedHost : Stanza.readAll sharedHost .standard = .ok sharedStanzas :=
  eq_ok_of_toOption (by decide +kernel)

def sharedTopology : Topology := ⟨2, 1, 2, ⟨.ofList [(1, 24576), (2, 1048576)]⟩⟩

theorem ofStanzas_sharedHost :
    Topology.ofStanzas sharedHost .standard sharedStanzas = sharedTopology := by
  decide +kernel

theorem count_sharedHost : Numa.count sharedHost .standard = 0 := by decide +kernel

theorem fitsWords_sharedHost :
    FitsWords (Topology.ofStanzas sharedHost .standard sharedStanzas)
      (Numa.count sharedHost .standard) := by
  rw [ofStanzas_sharedHost, count_sharedHost]
  constructor <;> decide +kernel

def machineOf (h : Host) : Machine := ⟨h, ⟨none, .error "", ""⟩, [], .ok []⟩

def cpuSelection : Selection := ⟨some (.ofNames ["cpu"]), ∅⟩

theorem entries_cpuSelection {h : Host} {facts : Facts}
    (collected : Report.collect h .standard = .ok facts) :
    (Snapshot.run (fun m _ => m) Collector.all .standard cpuSelection
      (machineOf h)).sections.entries = [("cpu", Json.ofFacts facts)] := by
  have selected : Collector.all.filter (fun c => cpuSelection.includes c.name) = [Collector.cpu] := by
    rfl
  have result : (Collector.cpu.run (machineOf h) .standard).result = .ok (Json.ofFacts facts) := by
    simp only [Collector.cpu, machineOf, collected, Except.map]
  rw [Snapshot.run, selected, List.foldl_cons, List.foldl_nil, Snapshot.sections_step, result]
  rfl

/-- The text of the first stanza is read back as its number of bytes where no cache is counted, and
the summary of a host with caches shows its identity, its counts and the sums of its caches. -/
theorem collect_plainHost :
    (∃ facts, Report.collect plainHost .standard = .ok facts ∧
      (Summary.ofFacts facts).logicalProcessors.toNat = 2 ∧
      (Summary.ofFacts facts).numaNodes.toNat = 1 ∧
      (Summary.ofFacts facts).cacheSize.toNat = 37486592) ∧
    ∃ facts, Report.collect sharedHost .standard = .ok facts ∧
      (Summary.ofFacts facts).cacheSize.toNat = 1073152 ∧
      (Snapshot.collect (machineOf sharedHost) .standard cpuSelection).summary =
        "=== Host Facts ===\n\nCPU:\n  Vendor: GenuineIntel\n  Model: Xeon (85)\n  Stepping: 7\n" ++
        "  Packages: 1\n  Physical cores: 2\n  Logical processors: 2\n  NUMA nodes: 0\n" ++
        "  Frequency: 2400 MHz\n  L1 cache: 24 KiB\n  L2 cache: 1 MiB\n" := by
  constructor
  · have collected := Report.collect_of_readAll readAll_plainHost ofStanzas_plainHost count_plainHost
    obtain ⟨-, first, rest, read, agrees, -⟩ :=
      collect_agrees collected (fitsWords_of_readAll readAll_plainHost fitsWords_plainHost)
    have stanzas := Except.ok.inj (read.symm.trans readAll_plainHost)
    obtain rfl : first = plainStanzas.headD ∅ := (List.cons.inj stanzas).1
    rw [stanzas, ofStanzas_plainHost, count_plainHost] at agrees
    refine ⟨_, collected, agrees.logicalProcessors, agrees.numaNodes, ?_⟩
    have copied := agrees.copied (by decide +kernel) (by decide) "36608 KB" (by decide +kernel)
    exact copied.2 ['3', '6', '6', '0', '8'] (by simp) (by simp) (by decide) rfl
  · have collected :=
      Report.collect_of_readAll readAll_sharedHost ofStanzas_sharedHost count_sharedHost
    obtain ⟨-, first, rest, read, agrees, shown⟩ :=
      collect_agrees collected (fitsWords_of_readAll readAll_sharedHost fitsWords_sharedHost)
    rw [Except.ok.inj (read.symm.trans readAll_sharedHost), ofStanzas_sharedHost,
      count_sharedHost] at agrees shown
    have size := agrees.computed (.inr (.inr (by decide +kernel)))
    refine ⟨_, collected, size.trans (by decide +kernel), ?_⟩
    obtain ⟨before, after, entries, summary⟩ :=
      shown (fun m _ => m) (machineOf sharedHost) cpuSelection rfl (by decide +kernel)
    rw [entries_cpuSelection collected] at entries
    obtain ⟨rfl, same⟩ | ⟨-, same⟩ := List.append_eq_singleton_iff.1 entries.symm
    · cases same
      exact summary.trans (by decide +kernel)
    · cases same

end Cpu

end HostInventory
