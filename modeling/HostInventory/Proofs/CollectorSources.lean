import HostInventory.Collector
import HostInventory.Proofs.CacheProbe
import HostInventory.Proofs.InterfaceGroups
import HostInventory.Proofs.WalkedPlaces

/-! What collectors read, and hosts that agree on it. Where a file cannot be read, two hosts agree on
it even if their reasons differ, and agree exactly if these are the same too. -/
namespace HostInventory

/-- Whether two values are the same as seen through `view`, and even without it if `exact` holds. -/
structure Alike {α β : Type} (view : α → β) (exact : Prop) (a a' : α) : Prop where
  seen : view a' = view a
  same : exact → a' = a

namespace Alike

variable {α β ε : Type} {view : α → β} {exact : Prop} {a a' : α} {reading reading' : Except ε α}

theorem of_eq (same : a' = a) : Alike view exact a a' := ⟨by rw [same], fun _ => same⟩

theorem error {why why' : ε} (same : exact → why' = why) :
    Alike Except.toOption exact (.error why : Except ε α) (.error why') :=
  ⟨rfl, fun holds => by rw [same holds]⟩

theorem value_or_error (alike : Alike Except.toOption exact reading reading') :
    (∃ value, reading = .ok value ∧ reading' = .ok value) ∨
      ∃ why why', reading = .error why ∧ reading' = .error why' ∧ (exact → why' = why) := by
  obtain ⟨seen, same⟩ := alike
  cases reading <;> cases reading' <;> simp_all [Except.toOption]

end Alike

namespace Host

def visited (h : Host) (path : Path) : List Location := h.tree.visited h.workingDirectory path

def ending? (h : Host) (path : Path) : Option Location := h.tree.ending? h.workingDirectory path

def nodes (h : Host) (r : SystemRoot) : Except Fault (List (String × Node)) :=
  (h.list r.nodeDirectory).map (List.filter (·.2 = .directory))

/-- Whether two hosts agree on what is found at these paths and on the memory nodes. -/
structure Agrees (exact : Prop) (h h' : Host) (r : SystemRoot) (paths : List Path) : Prop where
  read : ∀ path ∈ paths, Alike Except.toOption exact (h.read path) (h'.read path)
  nodes : Alike Except.toOption exact (h.nodes r) (h'.nodes r)

/-- Hosts that differ at most in a file at one place. -/
structure DifferInFile (location : Location) (h h' : Host) : Prop where
  tree : h.tree.DifferInFile location h'.tree
  workingDirectory : h'.workingDirectory = h.workingDirectory

variable {exact : Prop} {h h' : Host} {r : SystemRoot} {location : Location} {paths : List Path}

theorem DifferInFile.read_compared (same : DifferInFile location h h') (path : Path) :
    h'.read path = h.read path ∨
      location ∈ h.visited path ∧
        (h.read path = .error (h.tree.obstacle location) ∧
          h'.read path = .error (h'.tree.obstacle location) ∨
        h.ending? path = some location) := by
  rw [read, read, same.workingDirectory]
  exact same.tree.read_compared _ path

theorem DifferInFile.nodes_compared (same : DifferInFile location h h') :
    h'.nodes r = h.nodes r ∨
      location ∈ h.visited r.nodeDirectory ∧ h.nodes r = .error (h.tree.obstacle location) ∧
        h'.nodes r = .error (h'.tree.obstacle location) := by
  rw [nodes, nodes, list, list, same.workingDirectory]
  rcases same.tree.list_compared h.workingDirectory r.nodeDirectory with same | ⟨mem, ends, ends'⟩
  · exact .inl same
  · exact .inr ⟨mem, by rw [ends]; rfl, by rw [ends']; rfl⟩

theorem DifferInFile.ending?_ne (same : DifferInFile location h h') {path : Path}
    (outside : h.ending? path ≠ some location) : h'.ending? path ≠ some location := by
  rw [ending?, same.workingDirectory]
  exact same.tree.ending?_ne outside

theorem DifferInFile.agrees_of_aside (same : DifferInFile location h h')
    (aside : ∀ path ∈ r.nodeDirectory :: paths, location ∉ h.visited path) :
    h.Agrees exact h' r paths where
  read path mem := by
    rcases same.read_compared path with same | ⟨looked, -⟩
    · exact .of_eq same
    · exact absurd looked (aside path (List.mem_cons_of_mem _ mem))
  nodes := by
    rcases same.nodes_compared with same | ⟨looked, -⟩
    · exact .of_eq same
    · exact absurd looked (aside _ List.mem_cons_self)

/-- A file that no path leads to can stand in the way, and then the faults may differ with it. -/
theorem DifferInFile.agrees (same : DifferInFile location h h')
    (outside : ∀ path ∈ paths, h.ending? path ≠ some location) :
    h.Agrees (h'.tree.obstacle location = h.tree.obstacle location) h' r paths where
  read path mem := by
    rcases same.read_compared path with same | ⟨-, ⟨stopped, stopped'⟩ | ends⟩
    · exact .of_eq same
    · rw [stopped, stopped']
      exact .error id
    · exact absurd ends (outside path mem)
  nodes := by
    rcases same.nodes_compared with same | ⟨-, stopped, stopped'⟩
    · exact .of_eq same
    · rw [stopped, stopped']
      exact .error id

end Host

namespace Cpu

namespace Survey

def entrySources (h : Host) (r : SystemRoot) (cpu : UInt64) (index : Nat) (sharers : IdSet) :
    List String :=
  if sharedBelow cpu sharers then []
  else
    levelFile cpu index ::
      match r.integer h (levelFile cpu index) with
      | .error _ => []
      | .ok _ => [sizeFile cpu index]

def cacheSources (h : Host) (r : SystemRoot) (cpu : UInt64) : Nat → Nat → List String
  | 0, _ => []
  | budget + 1, index =>
    sharersFile cpu index ::
      match r.idSet h (sharersFile cpu index) with
      | .error _ => []
      | .ok sharers =>
        entrySources h r cpu index sharers ++ cacheSources h r cpu budget (index + 1)

/-- The attributes that a survey reads, as named below the processors' directory. -/
def sources (h : Host) (r : SystemRoot) (cpu : UInt64) : List String :=
  coreFile cpu :: packageFile cpu :: cacheSources h r cpu (budget h) 0

variable {h : Host} {r : SystemRoot} {cpu : UInt64}

theorem cacheEntries_of_stop {budget budget' index : Nat}
    (ended : (cacheEntries h r cpu budget index).2.isSome)
    (ended' : (cacheEntries h r cpu budget' index).2.isSome) :
    cacheEntries h r cpu budget index = cacheEntries h r cpu budget' index ∧
      cacheSources h r cpu budget index = cacheSources h r cpu budget' index := by
  induction budget generalizing budget' index with
  | zero => cases ended
  | succ budget ih =>
    cases budget' with
    | zero => cases ended'
    | succ budget' =>
      rw [cacheEntries] at ended ended'
      simp only [cacheEntries, cacheSources]
      cases sharing : r.idSet h (sharersFile cpu index) with
      | error why => exact ⟨rfl, rfl⟩
      | ok sharers =>
        rw [sharing] at ended ended'
        obtain ⟨entries, sources⟩ := ih ended ended'
        simp only [noted, Except.mapError, entries, sources, and_self]

theorem isSome_stop {budget index : Nat} (start : index ≤ probeEnd h r cpu)
    (enough : probeEnd h r cpu < index + budget) :
    (cacheEntries h r cpu budget index).2.isSome := by
  cases last : r.idSet h (sharersFile cpu (probeEnd h r cpu)) with
  | ok sharers => exact absurd ⟨sharers, last⟩ (not_hasSharers_probeEnd h r cpu)
  | error why => rw [stop_cacheEntries start enough last, Option.isSome_some]

theorem isSome_stop_budget (h : Host) (r : SystemRoot) (cpu : UInt64) :
    (cacheEntries h r cpu (budget h) 0).2.isSome :=
  isSome_stop (Nat.zero_le _) (by simpa using probeEnd_lt_budget h r cpu)

end Survey

theorem Numa.isNode_eq_false {e : String × Node} (other : e.2 ≠ .directory) : isNode e = false := by
  obtain ⟨name, node⟩ := e
  cases node with
  | directory => exact absurd rfl other
  | file content => rfl
  | link target => rfl

variable {h : Host} {r : SystemRoot}

theorem Numa.count_eq_nodes (h : Host) (r : SystemRoot) :
    count h r = ((h.nodes r).toOption.map (List.countP isNode)).getD 0 := by
  unfold count entries Host.nodes
  cases h.list r.nodeDirectory with
  | error fault => rfl
  | ok found =>
    simp only [Except.map, Except.toOption, Option.map_some, Option.getD_some, List.countP_filter]
    refine List.countP_congr fun e _ => ?_
    by_cases directory : e.2 = .directory
    · simp [directory]
    · simp [isNode_eq_false directory]

def attributeSources (h : Host) (r : SystemRoot) (stanzas : List Stanza) : List Path :=
  (Topology.indices 0 stanzas).flatMap fun cpu => (Survey.sources h r cpu).map r.cpuFile

def sources (h : Host) (r : SystemRoot) : List Path :=
  r.procFile "cpuinfo" ::
    match Stanza.readAll h r with
    | .error _ => []
    | .ok stanzas => attributeSources h r stanzas

theorem mem_attributeSources {stanzas : List Stanza} {cpu : UInt64} {file : String}
    (listed : cpu ∈ Topology.indices 0 stanzas) (mem : file ∈ Survey.sources h r cpu) :
    r.cpuFile file ∈ attributeSources h r stanzas :=
  List.mem_flatMap.2 ⟨cpu, listed, List.mem_map_of_mem mem⟩

end Cpu

namespace Network

def sources (r : SystemRoot) (entries : List Entry) : List Path :=
  (firstNames entries).map fun name => (r.networkDirectory.join name).join "address"

variable {hardwareAddress hardwareAddress' : String → Option String} {entries : List Entry}

theorem ofEntries_congr
    (same : ∀ name ∈ firstNames entries, hardwareAddress' name = hardwareAddress name) :
    Report.ofEntries hardwareAddress' entries = Report.ofEntries hardwareAddress entries := by
  rw [Report.ofEntries, Report.ofEntries, group_eq_describedAll, group_eq_describedAll]
  congr 1
  refine List.map_congr_left fun name mem => ?_
  simp only [Interface.described, same name mem]

theorem name_mem_firstNames {i : Interface}
    (mem : i ∈ (Report.ofEntries hardwareAddress entries).interfaces) :
    i.name ∈ firstNames entries := by
  rw [Report.ofEntries, group_eq_describedAll] at mem
  obtain ⟨name, named, rfl⟩ := List.mem_map.1 mem
  exact named

end Network

/-- Machines that differ at most in the trees of their hosts. -/
structure Machine.SameSystem (m m' : Machine) : Prop where
  system : m'.system = m.system
  mounts : m'.mounts = m.mounts
  addresses : m'.addresses = m.addresses

namespace Collector

/-- The files that the collector of a name reads. -/
def sources (m : Machine) (r : SystemRoot) (name : String) : List Path :=
  match name with
  | "cpu" => Cpu.sources m.host r
  | "memory" => [r.procFile "meminfo"]
  | "network" =>
    match m.addresses with
    | .error _ => []
    | .ok entries => Network.sources r entries
  | "platform" => Platform.kernelFiles.map fun e => r.procFile e.2
  | _ => []

theorem sources_filesystem (m : Machine) (r : SystemRoot) : sources m r filesystem.name = [] := rfl

end Collector

end HostInventory
