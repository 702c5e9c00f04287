import HostInventory.Proofs.TopologyMeaning
import Mathlib.Logic.Relation
import Mathlib.Order.Bounds.Defs

/-! The probe for caches as the loop that it is, turn by turn and with no bound set on it. It takes a
turn at every index with a list of sharers, whatever else is there, and each such index has an object
of its own in the tree; so it comes to the first index without one and stays there. -/
namespace HostInventory

theorem Failure.reading_cases (path : Path) (fault : Fault) :
    reading path fault = .notFound path ∨ reading path fault = .unreadable path fault := by
  cases fault with
  | missing => exact .inl rfl
  | _ => exact .inr rfl

theorem Host.readText_eq_error {h : Host} {path : Path} {failure : Failure}
    (failed : h.readText path = .error failure) :
    failure = .notFound path ∨ ∃ fault, failure = .unreadable path fault := by
  unfold readText at failed
  split at failed
  · cases failed
    exact (Failure.reading_cases path _).imp_right fun other => ⟨_, other⟩
  · split at failed
    · cases failed
      exact .inr ⟨.notUtf8, rfl⟩
    · cases failed

namespace Cpu.Survey

open Relation

inductive EndsAt (h : Host) (r : SystemRoot) (cpu : UInt64) (index : Nat) : Failure → Prop
  | missing : h.readText (r.cpuFile (sharersFile cpu index)) =
      .error (.notFound (r.cpuFile (sharersFile cpu index))) →
      EndsAt h r cpu index (.notFound (r.cpuFile (sharersFile cpu index)))
  | unreadable {fault : Fault} : h.readText (r.cpuFile (sharersFile cpu index)) =
      .error (.unreadable (r.cpuFile (sharersFile cpu index)) fault) →
      EndsAt h r cpu index (.unreadable (r.cpuFile (sharersFile cpu index)) fault)
  | rejected {text : String} {why : Failure} :
      h.readText (r.cpuFile (sharersFile cpu index)) = .ok text → IdSet.read text = .error why →
      EndsAt h r cpu index why

/-- There is a list of sharers at an index, but no cache to count: a sharer has a lower number, or
level or size cannot be read. -/
inductive PassedOver (h : Host) (r : SystemRoot) (cpu : UInt64) (index : Nat) : Prop
  | lowerSharer {sharers : IdSet} {id : UInt64} :
      r.idSet h (sharersFile cpu index) = .ok sharers → id ∈ sharers → id < cpu →
      PassedOver h r cpu index
  | noLevel {sharers : IdSet} {why : Failure} :
      r.idSet h (sharersFile cpu index) = .ok sharers →
      r.integer h (levelFile cpu index) = .error why → PassedOver h r cpu index
  | noSize {sharers : IdSet} {why : Failure} :
      r.idSet h (sharersFile cpu index) = .ok sharers →
      r.byteSize h (sizeFile cpu index) = .error why → PassedOver h r cpu index

/-- A probe between two turns: the index that it has come to and the totals so far. -/
structure Probe where
  index : Nat
  totals : CacheTotals

/-- One turn of a probe whose index goes on by `next`: the cache at the index is counted or passed
over. -/
inductive Turn (h : Host) (r : SystemRoot) (cpu : UInt64) (next : Nat → Nat) : Probe → Probe → Prop
  | on {p : Probe} {sharers : IdSet} : r.idSet h (sharersFile cpu p.index) = .ok sharers →
      Turn h r cpu next p
        ⟨next p.index, Topology.countEntry p.totals (cacheEntry h r cpu p.index sharers)⟩

def EndsIn (h : Host) (r : SystemRoot) (cpu : UInt64) (next : Nat → Nat) (p q : Probe) : Prop :=
  ReflTransGen (Turn h r cpu next) p q ∧ ∀ q', ¬Turn h r cpu next q q'

def nextWord (index : Nat) : Nat := (index + 1) % 2 ^ 64

/-- A counter with room for as many indices as the tree has objects, and for one more. -/
def CountsObjects (h : Host) (next : Nat → Nat) : Prop :=
  ∀ index ≤ h.tree.nodes.length, next index = index + 1

variable {h : Host} {r : SystemRoot} {cpu : UInt64}

section Ends

variable {index : Nat}

theorem endsAt_iff {why : Failure} :
    EndsAt h r cpu index why ↔ r.idSet h (sharersFile cpu index) = .error why := by
  unfold SystemRoot.idSet SystemRoot.readAttribute
  constructor
  · intro ends
    cases ends with
    | missing absent => simp only [absent]
    | unreadable failed => simp only [failed]
    | rejected read refused => simp only [read, refused]
  · intro failed
    cases read : h.readText (r.cpuFile (sharersFile cpu index)) with
    | ok text =>
      simp only [read] at failed
      exact .rejected read failed
    | error failure =>
      simp only [read, Except.error.injEq] at failed
      subst failed
      rcases Host.readText_eq_error read with rfl | ⟨fault, rfl⟩
      · exact .missing read
      · exact .unreadable read

theorem exists_endsAt_iff : (∃ why, EndsAt h r cpu index why) ↔ ¬HasSharers h r cpu index := by
  simp only [endsAt_iff, HasSharers]
  cases r.idSet h (sharersFile cpu index) <;> simp

theorem isLeast_probeEnd (h : Host) (r : SystemRoot) (cpu : UInt64) :
    IsLeast {index | ∃ why, EndsAt h r cpu index why} (probeEnd h r cpu) := by
  refine ⟨exists_endsAt_iff.2 (not_hasSharers_probeEnd h r cpu), fun index ends => ?_⟩
  by_contra before
  exact exists_endsAt_iff.1 ends (hasSharers_of_lt_probeEnd (Nat.not_le.1 before))

theorem not_endsAt_of_empty (empty : h.readText (r.cpuFile (sharersFile cpu index)) = .ok "")
    (why : Failure) : ¬EndsAt h r cpu index why := by
  rw [endsAt_iff]
  simp only [SystemRoot.idSet, SystemRoot.readAttribute, empty]
  exact fun refused => by cases refused

end Ends

section Turns

variable {next : Nat → Nat} {t : CacheTotals} {p q : Probe}

theorem Turn.hasSharers (turn : Turn h r cpu next p q) : HasSharers h r cpu p.index := by
  cases turn with
  | on found => exact ⟨_, found⟩

theorem turn_iff :
    Turn h r cpu next p q ↔ HasSharers h r cpu p.index ∧
      q = ⟨next p.index, Topology.countEntry p.totals (entryAt h r cpu p.index)⟩ := by
  constructor
  · intro turn
    refine ⟨turn.hasSharers, ?_⟩
    cases turn with
    | on found => rw [entryAt, found]
  · rintro ⟨⟨sharers, found⟩, rfl⟩
    rw [entryAt, found]
    exact .on found

theorem level_le_of_turn (turn : Turn h r cpu next p q) (level : UInt64) :
    p.totals.level level ≤ q.totals.level level := by
  obtain ⟨-, rfl⟩ := turn_iff.1 turn
  exact Topology.level_le_level_countEntry p.totals _ level

theorem level_le_of_turns (turns : ReflTransGen (Turn h r cpu next) p q) (level : UInt64) :
    p.totals.level level ≤ q.totals.level level := by
  induction turns with
  | refl => exact UInt64.le_refl _
  | tail _ turn ih => exact UInt64.le_trans ih (level_le_of_turn turn level)

def totalsBefore (h : Host) (r : SystemRoot) (cpu : UInt64) (t : CacheTotals) (index : Nat) :
    CacheTotals :=
  ((List.range index).map (entryAt h r cpu)).foldl Topology.countEntry t

theorem totalsBefore_succ (t : CacheTotals) (index : Nat) :
    totalsBefore h r cpu t (index + 1) =
      Topology.countEntry (totalsBefore h r cpu t index) (entryAt h r cpu index) := by
  rw [totalsBefore, List.range_succ, List.map_append, List.foldl_append]
  rfl

theorem totalsBefore_probeEnd (t : CacheTotals) :
    totalsBefore h r cpu t (probeEnd h r cpu) =
      (of h r cpu).caches.foldl Topology.countEntry t := by
  rw [totalsBefore, caches_of]

/-- Where a probe that started with `t` can stand: at or before the end, with what was counted up to
there. -/
structure OnTheWay (h : Host) (r : SystemRoot) (cpu : UInt64) (t : CacheTotals) (p : Probe) :
    Prop where
  index_le : p.index ≤ probeEnd h r cpu
  totals_eq : p.totals = totalsBefore h r cpu t p.index

theorem probeEnd_le (h : Host) (r : SystemRoot) (cpu : UInt64) :
    probeEnd h r cpu ≤ h.tree.nodes.length :=
  Nat.le_of_lt_succ (probeEnd_lt_budget h r cpu)

variable (counts : CountsObjects h next)
include counts

theorem CountsObjects.next_eq {index : Nat} (reached : index ≤ probeEnd h r cpu) :
    next index = index + 1 :=
  counts index (reached.trans (probeEnd_le h r cpu))

theorem OnTheWay.turn (way : OnTheWay h r cpu t p) (turn : Turn h r cpu next p q) :
    OnTheWay h r cpu t q := by
  obtain ⟨shared, rfl⟩ := turn_iff.1 turn
  have before : p.index < probeEnd h r cpu := by
    refine Nat.lt_of_le_of_ne way.index_le fun last => ?_
    exact not_hasSharers_probeEnd h r cpu (last ▸ shared)
  rw [counts.next_eq way.index_le, way.totals_eq, ← totalsBefore_succ]
  exact ⟨before, rfl⟩

theorem onTheWay_of_turns (turns : ReflTransGen (Turn h r cpu next) ⟨0, t⟩ p) :
    OnTheWay h r cpu t p := by
  induction turns with
  | refl => exact ⟨Nat.zero_le _, rfl⟩
  | tail _ turn ih => exact ih.turn counts turn

theorem turns_to {index : Nat} (reached : index ≤ probeEnd h r cpu) :
    ReflTransGen (Turn h r cpu next) ⟨0, t⟩ ⟨index, totalsBefore h r cpu t index⟩ := by
  induction index with
  | zero => exact .refl
  | succ index ih =>
    refine .tail (ih (Nat.le_of_succ_le reached)) (turn_iff.2 ⟨?_, ?_⟩)
    · exact hasSharers_of_lt_probeEnd reached
    · rw [totalsBefore_succ, counts.next_eq (Nat.le_of_succ_le reached)]

/-- The probe ends at the first index without a list of sharers, and nowhere else. -/
theorem endsIn_iff :
    EndsIn h r cpu next ⟨0, t⟩ q ↔
      q = ⟨probeEnd h r cpu, (of h r cpu).caches.foldl Topology.countEntry t⟩ := by
  rw [← totalsBefore_probeEnd]
  constructor
  · rintro ⟨turns, rest⟩
    have way := onTheWay_of_turns counts turns
    have last : q.index = probeEnd h r cpu := by
      refine Nat.le_antisymm way.index_le (Nat.not_lt.1 fun before => ?_)
      exact rest _ (turn_iff.2 ⟨hasSharers_of_lt_probeEnd before, rfl⟩)
    rw [← last, ← way.totals_eq]
  · rintro rfl
    refine ⟨turns_to counts (Nat.le_refl _), fun q' turn => ?_⟩
    exact not_hasSharers_probeEnd h r cpu turn.hasSharers

end Turns

theorem countsObjects_nextWord (room : h.tree.nodes.length + 1 < 2 ^ 64) :
    CountsObjects h nextWord := by
  intro index reached
  exact Nat.mod_eq_of_lt (by omega)

theorem turn_of_passedOver {next : Nat → Nat} {index : Nat} (passed : PassedOver h r cpu index)
    (t : CacheTotals) : Turn h r cpu next ⟨index, t⟩ ⟨next index, t⟩ := by
  obtain ⟨shared, silent⟩ : HasSharers h r cpu index ∧
      ∀ level size, ¬Counts h r cpu index level size := by
    cases passed with
    | lowerSharer found member below =>
      refine ⟨⟨_, found⟩, fun level size counts => ?_⟩
      obtain ⟨sharers, again, lowest⟩ := counts.lowest
      rw [found] at again
      cases again
      exact lowest _ member below
    | noLevel found failed =>
      refine ⟨⟨_, found⟩, fun level size counts => ?_⟩
      have read := counts.level_read
      rw [failed] at read
      cases read
    | noSize found failed =>
      refine ⟨⟨_, found⟩, fun level size counts => ?_⟩
      have read := counts.size_read
      rw [failed] at read
      cases read
  refine turn_iff.2 ⟨shared, ?_⟩
  cases entry : entryAt h r cpu index with
  | counted level size => exact absurd (entryAt_eq_counted_iff.1 entry) (silent level size)
  | elsewhere => rfl
  | skipped reason => rfl

theorem stop_of (h : Host) (r : SystemRoot) (cpu : UInt64) :
    ∃ why, EndsAt h r cpu (probeEnd h r cpu) why ∧
      (of h r cpu).stop = some ⟨sharersFile cpu (probeEnd h r cpu), why⟩ := by
  obtain ⟨why, ends⟩ := (isLeast_probeEnd h r cpu).1
  exact ⟨why, ends, stop_cacheEntries (Nat.zero_le _)
    (by simpa using probeEnd_lt_budget h r cpu) (endsAt_iff.1 ends)⟩

/-- On every tree the probe of a processor ends, and it does so at the first index where no list of
sharers can be had. The survey has the entries up to there and the failure that was met. Neither an
empty list nor an entry that is passed over ends it, totals are never lowered on the way, and a
counter of 64 bits is enough for it unless the tree has nearly as many objects as that counts. -/
theorem probe_ends (h : Host) (r : SystemRoot) (cpu : UInt64) :
    IsLeast {index | ∃ why, EndsAt h r cpu index why} (probeEnd h r cpu) ∧
    probeEnd h r cpu ≤ h.tree.nodes.length ∧
    (of h r cpu).caches = (List.range (probeEnd h r cpu)).map (entryAt h r cpu) ∧
    (∃ why, EndsAt h r cpu (probeEnd h r cpu) why ∧
      (of h r cpu).stop = some ⟨sharersFile cpu (probeEnd h r cpu), why⟩) ∧
    (∀ index, h.readText (r.cpuFile (sharersFile cpu index)) = .ok "" →
      ∀ why, ¬EndsAt h r cpu index why) ∧
    (∀ index, PassedOver h r cpu index →
      ∀ next t, Turn h r cpu next ⟨index, t⟩ ⟨next index, t⟩) ∧
    CountsObjects h (· + 1) ∧
    (h.tree.nodes.length + 1 < 2 ^ 64 → CountsObjects h nextWord) ∧
    ∀ next, CountsObjects h next → ∀ t q,
      (EndsIn h r cpu next ⟨0, t⟩ q ↔
        q = ⟨probeEnd h r cpu, (of h r cpu).caches.foldl Topology.countEntry t⟩) ∧
      (ReflTransGen (Turn h r cpu next) ⟨0, t⟩ q →
        q.index ≤ probeEnd h r cpu ∧ next q.index = q.index + 1 ∧
          ∀ level, t.level level ≤ q.totals.level level) := by
  refine ⟨isLeast_probeEnd h r cpu, probeEnd_le h r cpu, caches_of h r cpu, stop_of h r cpu,
    fun index => not_endsAt_of_empty, fun index passed next t => turn_of_passedOver passed t,
    fun index _ => rfl, countsObjects_nextWord, fun next counts t q => ⟨endsIn_iff counts, ?_⟩⟩
  intro turns
  have reached := (onTheWay_of_turns counts turns).index_le
  exact ⟨reached, counts.next_eq reached, level_le_of_turns turns⟩

/-- A processor that passes over a cache shared with a lower one and over one with an empty list and
no level, adds the next, and has a gap after it. -/
def gapHost : Host := .ofAttributes
  [(["cpu1", "cache", "index0", "shared_cpu_list"], "0-1\n"),
   (["cpu1", "cache", "index1", "shared_cpu_list"], "\n"),
   (["cpu1", "cache", "index2", "shared_cpu_list"], "1\n"),
   (["cpu1", "cache", "index2", "level"], "2\n"),
   (["cpu1", "cache", "index2", "size"], "1M\n"),
   (["cpu1", "cache", "index4", "shared_cpu_list"], "1\n"),
   (["cpu1", "cache", "index4", "level"], "3\n"),
   (["cpu1", "cache", "index4", "size"], "8M\n")]

theorem probe_gapHost :
    gapHost.tree.nodes.length + 1 < 2 ^ 64 ∧
    EndsIn gapHost .standard 1 nextWord ⟨0, ∅⟩ ⟨3, CacheTotals.add ∅ 2 1048576⟩ := by
  have room : gapHost.tree.nodes.length + 1 < 2 ^ 64 := by decide +kernel
  have last : probeEnd gapHost .standard 1 = 3 := probeEnd_eq_iff.2 (by decide +kernel)
  have totals : (of gapHost .standard 1).caches.foldl Topology.countEntry ∅ =
      CacheTotals.add ∅ 2 1048576 := by decide +kernel
  obtain ⟨-, -, -, -, -, -, -, words, run⟩ := probe_ends gapHost .standard 1
  exact ⟨room, (run nextWord (words room) ∅ _).1.2 (by rw [last, totals])⟩

end Cpu.Survey

end HostInventory
