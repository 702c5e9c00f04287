import HostInventory.Collector
import HostInventory.Proofs.ByteDamage

/-! When there is no processor record. Reading the listing is the only step that fails, and what is
read lists a processor exactly if it has a colon in it, among whatever other bytes. All that is read
of the processors afterwards can be absent or damaged without a failure. -/
namespace HostInventory

theorem Failure.reading_of_ne_missing (path : Path) {fault : Fault} (other : fault ≠ .missing) :
    reading path fault = .unreadable path fault := by
  unfold reading
  split
  · contradiction
  · rfl

theorem Failure.reading_injective (path : Path) : Function.Injective (reading path) := by
  intro fault fault' same
  by_cases missing : fault = .missing <;> by_cases missing' : fault' = .missing
  · rw [missing, missing']
  · rw [missing, reading_of_ne_missing path missing'] at same
    cases same
  · rw [missing', reading_of_ne_missing path missing] at same
    cases same
  · rw [reading_of_ne_missing path missing, reading_of_ne_missing path missing'] at same
    exact (Failure.unreadable.inj same).2

theorem Failure.reading_ne_noProcessors (path : Path) (fault : Fault) :
    reading path fault ≠ .noProcessors path := by
  intro same
  unfold reading at same
  split at same <;> cases same

theorem Stanza.ofBytes_eq_nil_iff {bytes : List UInt8} : ofBytes bytes = [] ↔ 0x3A ∉ bytes := by
  have other : ':' ≠ '\n' := by decide
  rw [ofBytes, ofChars, ofLines_eq_nil_iff, ← Utf8.colon_mem_decodeLossy_iff,
    ← Text.mem_splitAt_iff other]
  simp [Text.lines]

theorem Stanza.readAll_of_bytes {h : Host} {r : SystemRoot} {bytes : List UInt8}
    (read : h.read (r.procFile "cpuinfo") = .ok bytes) :
    readAll h r =
      if 0x3A ∈ bytes then .ok (ofBytes bytes)
      else .error (.noProcessors (r.procFile "cpuinfo")) := by
  have content : h.readBytes (r.procFile "cpuinfo") = .ok bytes := by
    rw [Host.readBytes, read]
    rfl
  simp only [readAll, content]
  split
  · rename_i none
    rw [if_neg (ofBytes_eq_nil_iff.1 none)]
  · rename_i some
    rw [if_pos (by_contra fun absent => some (ofBytes_eq_nil_iff.2 absent))]

namespace Cpu

def Report.ofListing (h : Host) (r : SystemRoot) (bytes : List UInt8) : Facts :=
  facts ((Stanza.ofBytes bytes).headD ∅) (Topology.ofStanzas h r (Stanza.ofBytes bytes))
    (Numa.count h r)

theorem Report.collect_eq (h : Host) (r : SystemRoot) :
    collect h r =
      match h.read (r.procFile "cpuinfo") with
      | .error fault => .error (.reading (r.procFile "cpuinfo") fault)
      | .ok bytes =>
        if 0x3A ∈ bytes then .ok (ofListing h r bytes)
        else .error (.noProcessors (r.procFile "cpuinfo")) := by
  unfold collect
  cases read : h.read (r.procFile "cpuinfo") with
  | error fault => simp only [Stanza.readAll, Host.readBytes, read, Except.mapError]
  | ok bytes =>
    rw [Stanza.readAll_of_bytes read]
    by_cases colon : 0x3A ∈ bytes
    · simp only [if_pos colon]
      rfl
    · simp only [if_neg colon]

variable {h : Host} {r : SystemRoot}

theorem Report.collect_eq_reading_iff {fault : Fault} :
    collect h r = .error (.reading (r.procFile "cpuinfo") fault) ↔
      h.read (r.procFile "cpuinfo") = .error fault := by
  rw [collect_eq]
  cases h.read (r.procFile "cpuinfo") with
  | error fault' => simp [(Failure.reading_injective _).eq_iff]
  | ok bytes =>
    by_cases colon : 0x3A ∈ bytes <;> simp [colon, (Failure.reading_ne_noProcessors _ _).symm]

theorem Report.collect_eq_noProcessors_iff :
    collect h r = .error (.noProcessors (r.procFile "cpuinfo")) ↔
      ∃ bytes, h.read (r.procFile "cpuinfo") = .ok bytes ∧ 0x3A ∉ bytes := by
  rw [collect_eq]
  cases h.read (r.procFile "cpuinfo") with
  | error fault => simp [Failure.reading_ne_noProcessors]
  | ok bytes => by_cases colon : 0x3A ∈ bytes <;> simp [colon]

theorem Report.exists_collect_iff :
    (∃ facts, collect h r = .ok facts) ↔
      ∃ bytes, h.read (r.procFile "cpuinfo") = .ok bytes ∧ 0x3A ∈ bytes := by
  rw [collect_eq]
  cases h.read (r.procFile "cpuinfo") with
  | error fault => simp
  | ok bytes => by_cases colon : 0x3A ∈ bytes <;> simp [colon]

theorem Report.collect_eq_error_iff_of_read {h' : Host}
    (same : h'.read (r.procFile "cpuinfo") = h.read (r.procFile "cpuinfo")) {failure : Failure} :
    collect h' r = .error failure ↔ collect h r = .error failure := by
  rw [collect_eq, collect_eq, same]
  cases h.read (r.procFile "cpuinfo") with
  | error fault => rfl
  | ok bytes => by_cases colon : 0x3A ∈ bytes <;> simp [colon]

/-- A listing that is missing, one that cannot be read for another reason and one without a colon
are three failures, each at the path of the listing. Any other listing gives a record, whatever else
the host has, and the collector of the record succeeds and fails as its record does. -/
theorem collect_outcome (h : Host) (r : SystemRoot) :
    (Report.collect h r = .error (.notFound (r.procFile "cpuinfo")) ↔
      h.read (r.procFile "cpuinfo") = .error .missing) ∧
    (∀ fault, fault ≠ .missing →
      (Report.collect h r = .error (.unreadable (r.procFile "cpuinfo") fault) ↔
        h.read (r.procFile "cpuinfo") = .error fault)) ∧
    (Report.collect h r = .error (.noProcessors (r.procFile "cpuinfo")) ↔
      ∃ bytes, h.read (r.procFile "cpuinfo") = .ok bytes ∧ 0x3A ∉ bytes) ∧
    ((∃ facts, Report.collect h r = .ok facts) ↔
      ∃ bytes, h.read (r.procFile "cpuinfo") = .ok bytes ∧ 0x3A ∈ bytes) ∧
    (∀ h' : Host, h'.read (r.procFile "cpuinfo") = h.read (r.procFile "cpuinfo") →
      ∀ failure, Report.collect h' r = .error failure ↔ Report.collect h r = .error failure) ∧
    ∀ m : Machine, m.host = h →
      (∀ failure, (Collector.cpu.run m r).result = .error failure ↔
        Report.collect h r = .error failure) ∧
      ∀ value, (Collector.cpu.run m r).result = .ok value ↔
        ∃ facts, Report.collect h r = .ok facts ∧ Json.ofFacts facts = value := by
  refine ⟨@Report.collect_eq_reading_iff h r .missing, fun fault other => ?_,
    Report.collect_eq_noProcessors_iff, Report.exists_collect_iff,
    fun h' same _ => Report.collect_eq_error_iff_of_read same, ?_⟩
  · rw [← Failure.reading_of_ne_missing _ other]
    exact Report.collect_eq_reading_iff
  · rintro m rfl
    have result : (Collector.cpu.run m r).result = (Report.collect m.host r).map Json.ofFacts := rfl
    rw [result]
    cases Report.collect m.host r <;> simp [Except.map]

end Cpu

end HostInventory
