import HostInventory.Cpu.Survey
import HostInventory.Proofs.DecimalText
import HostInventory.Proofs.PathWalk
import HostInventory.Proofs.TextPieces
import Mathlib.Data.Finset.Card
import Mathlib.Data.Finset.Image
import Mathlib.Order.Interval.Finset.Nat

/-! Where the caches of a processor end. Indices have names of their own, so a tree with `n`
objects cannot have a list of sharers under all of the first `n + 1` indices, and the survey's
budget always reaches the first index without one. Its entries are those of the indices before. -/
namespace HostInventory.Cpu.Survey

variable {h : Host} {r : SystemRoot} {cpu : UInt64}

def HasSharers (h : Host) (r : SystemRoot) (cpu : UInt64) (index : Nat) : Prop :=
  ∃ sharers, r.idSet h (sharersFile cpu index) = .ok sharers

instance : DecidablePred (HasSharers h r cpu) := fun index =>
  match found : r.idSet h (sharersFile cpu index) with
  | .ok sharers => .isTrue ⟨sharers, found⟩
  | .error _ => .isFalse fun ⟨sharers, h⟩ => by simp [h] at found

def indexName (index : Nat) : String := "index" ++ toString index

theorem indexName_injective : Function.Injective indexName := by
  intro i j h
  have chars := congrArg String.toList h
  have digits : Nat.toDigits 10 i = Nat.toDigits 10 j := by simpa [indexName] using chars
  have value := Numeral.value?_toDigits i
  rw [digits, Numeral.value?_toDigits j] at value
  exact (Option.some.inj value).symm

theorem isProper_indexName (index : Nat) : FileTree.IsProper (indexName index) := by
  have first : (indexName index).toList.head? = some 'i' := by simp [indexName]
  constructor <;> intro special <;> rw [special] at first <;> exact absurd first (by decide)

theorem slash_not_mem_indexName (index : Nat) : '/' ∉ (indexName index).toList := by
  intro h
  rw [indexName, String.toList_append, List.mem_append] at h
  rcases h with h | h
  · exact absurd h (by decide)
  · exact Numeral.not_mem_toDigits (c := '/') (by decide) index (by simpa using h)

theorem exists_text_join (p : Path) (rel : String) : ∃ front, (p.join rel).text = front ++ rel := by
  unfold Path.join
  split
  · exact ⟨"", by simp⟩
  · split
    · exact ⟨p.text, rfl⟩
    · exact ⟨p.text ++ "/", rfl⟩

theorem pieces_sharersFile (r : SystemRoot) (cpu : UInt64) (index : Nat) :
    ∃ front, (r.cpuFile (sharersFile cpu index)).pieces =
      front ++ indexName index :: ["shared_cpu_list"] := by
  obtain ⟨front, text⟩ :=
    exists_text_join (r.top.join "sys/devices/system/cpu") (sharersFile cpu index)
  have chars : (r.cpuFile (sharersFile cpu index)).text.toList =
      (front ++ cpuName cpu ++ "/cache").toList ++
        '/' :: ((indexName index).toList ++ '/' :: "shared_cpu_list".toList) := by
    rw [SystemRoot.cpuFile, text]
    simp [sharersFile, cacheName, indexName]
  refine ⟨(Text.splitAt '/' (front ++ cpuName cpu ++ "/cache").toList).map String.ofList, ?_⟩
  have last : '/' ∉ "shared_cpu_list".toList := by decide
  rw [Path.pieces, chars, Text.splitAt_append_cons, Text.splitAt_append_cons,
    Text.splitAt_of_not_mem (slash_not_mem_indexName index), Text.splitAt_of_not_mem last]
  simp

theorem hasName_of_hasSharers {index : Nat} (found : HasSharers h r cpu index) :
    h.tree.HasName (indexName index) := by
  obtain ⟨sharers, found⟩ := found
  obtain ⟨front, pieces⟩ := pieces_sharersFile r cpu index
  unfold SystemRoot.idSet SystemRoot.readAttribute Host.readText at found
  cases content : h.read (r.cpuFile (sharersFile cpu index)) with
  | error fault => simp [content] at found
  | ok bytes =>
    rw [Host.read] at content
    exact FileTree.hasName_of_read (isProper_indexName index) (List.cons_ne_nil _ _) pieces content

/-- Among the first indices, one more than the tree has objects, some has no list of sharers. -/
theorem exists_not_hasSharers (h : Host) (r : SystemRoot) (cpu : UInt64) :
    ∃ index ≤ h.tree.nodes.length, ¬HasSharers h r cpu index := by
  by_contra all
  simp only [not_exists, not_and, not_not] at all
  let named := (Finset.range (h.tree.nodes.length + 1)).image fun index => some (indexName index)
  have present : named ⊆ (h.tree.nodes.map fun e => e.1.head?).toFinset := by
    intro name hname
    obtain ⟨index, hindex, rfl⟩ := Finset.mem_image.1 hname
    have bound : index ≤ h.tree.nodes.length := by simpa [Nat.lt_succ_iff] using hindex
    exact List.mem_toFinset.2 (FileTree.mem_names_of_hasName (hasName_of_hasSharers (all _ bound)))
  have many : named.card = h.tree.nodes.length + 1 := by
    rw [Finset.card_image_of_injective _ fun _ _ same => indexName_injective (Option.some.inj same),
      Finset.card_range]
  have few := (Finset.card_le_card present).trans (List.toFinset_card_le _)
  rw [many, List.length_map] at few
  omega

/-- The first index without a list of sharers that can be read. -/
def probeEnd (h : Host) (r : SystemRoot) (cpu : UInt64) : Nat :=
  Nat.find <| (exists_not_hasSharers h r cpu).imp fun _ => And.right

theorem probeEnd_eq_iff {k : Nat} :
    probeEnd h r cpu = k ↔ ¬HasSharers h r cpu k ∧ ∀ index < k, HasSharers h r cpu index := by
  rw [probeEnd, Nat.find_eq_iff]
  simp only [not_not]

theorem hasSharers_of_lt_probeEnd {index : Nat} (before : index < probeEnd h r cpu) :
    HasSharers h r cpu index :=
  not_not.1 (Nat.find_min _ before)

theorem not_hasSharers_probeEnd (h : Host) (r : SystemRoot) (cpu : UInt64) :
    ¬HasSharers h r cpu (probeEnd h r cpu) :=
  Nat.find_spec ((exists_not_hasSharers h r cpu).imp fun _ => And.right)

theorem probeEnd_lt_budget (h : Host) (r : SystemRoot) (cpu : UInt64) :
    probeEnd h r cpu < budget h := by
  obtain ⟨index, bound, none⟩ := exists_not_hasSharers h r cpu
  exact Nat.lt_succ_of_le ((Nat.find_min' _ none).trans bound)

/-- What is read of the cache at an index; nothing is counted without a list of sharers. -/
def entryAt (h : Host) (r : SystemRoot) (cpu : UInt64) (index : Nat) : CacheEntry :=
  match r.idSet h (sharersFile cpu index) with
  | .ok sharers => cacheEntry h r cpu index sharers
  | .error _ => .elsewhere

theorem cacheEntries_eq (budget index : Nat) (start : index ≤ probeEnd h r cpu)
    (enough : probeEnd h r cpu < index + budget) :
    (cacheEntries h r cpu budget index).1 =
      (List.range' index (probeEnd h r cpu - index)).map (entryAt h r cpu) := by
  induction budget generalizing index with
  | zero => omega
  | succ budget ih =>
    rw [cacheEntries]
    rcases Nat.lt_or_eq_of_le start with before | rfl
    · obtain ⟨sharers, found⟩ := hasSharers_of_lt_probeEnd before
      obtain ⟨more, hmore⟩ : ∃ more, probeEnd h r cpu - index = more + 1 :=
        ⟨probeEnd h r cpu - index - 1, by omega⟩
      have rest := ih (index + 1) before (by omega)
      rw [show probeEnd h r cpu - (index + 1) = more by omega] at rest
      rw [hmore, List.range'_succ, List.map_cons, ← rest]
      simp [noted, found, entryAt, Except.mapError]
    · have none := not_hasSharers_probeEnd h r cpu
      cases found : r.idSet h (sharersFile cpu (probeEnd h r cpu)) with
      | ok sharers => exact absurd ⟨sharers, found⟩ none
      | error failure => simp [noted, Except.mapError]

theorem stop_cacheEntries {budget index : Nat} {why : Failure} (start : index ≤ probeEnd h r cpu)
    (enough : probeEnd h r cpu < index + budget)
    (failed : r.idSet h (sharersFile cpu (probeEnd h r cpu)) = .error why) :
    (cacheEntries h r cpu budget index).2 = some ⟨sharersFile cpu (probeEnd h r cpu), why⟩ := by
  induction budget generalizing index with
  | zero => omega
  | succ budget ih =>
    rw [cacheEntries]
    rcases Nat.lt_or_eq_of_le start with before | rfl
    · obtain ⟨sharers, found⟩ := hasSharers_of_lt_probeEnd before
      simp only [found, noted, Except.mapError]
      exact ih before (by omega)
    · simp only [failed, noted, Except.mapError]

theorem caches_of (h : Host) (r : SystemRoot) (cpu : UInt64) :
    (of h r cpu).caches = (List.range (probeEnd h r cpu)).map (entryAt h r cpu) := by
  have all := cacheEntries_eq (budget h) 0 (Nat.zero_le _)
    (by simpa using probeEnd_lt_budget h r cpu)
  rw [Nat.sub_zero, ← List.range_eq_range'] at all
  exact all

end HostInventory.Cpu.Survey
