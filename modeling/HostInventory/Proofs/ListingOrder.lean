import HostInventory.Proofs.TopologyMeaning

/-! The order of a listing. Whether a cache counts for a processor is decided by the numbers of its
sharers and never by which processor was surveyed first, so surveys in any order give one topology.
Stanzas that carry their own numbers can be listed in any order, with repetitions. -/
namespace HostInventory.Cpu.Topology

theorem ofSurveys_of_perm {surveys surveys' : List Survey} (perm : surveys.Perm surveys') :
    ofSurveys surveys = ofSurveys surveys' := by
  have cores : (ofSurveys surveys).cores = (ofSurveys surveys').cores := by
    simp only [cores_ofSurveys, perm.mem_iff]
  have packages : (ofSurveys surveys).packages = (ofSurveys surveys').packages := by
    simp only [packages_ofSurveys, perm.mem_iff]
  have caches : (ofSurveys surveys).caches = (ofSurveys surveys').caches := by
    rw [caches_ofSurveys, caches_ofSurveys]
    exact foldl_countEntry_of_perm (perm.flatMap_right _) ∅
  have logical : (ofSurveys surveys).logicalProcessors = (ofSurveys surveys').logicalProcessors :=
    perm.length_eq
  cases left : ofSurveys surveys
  cases right : ofSurveys surveys'
  simp_all

theorem indices_of_numbered (position : Nat) {stanzas : List Stanza}
    (numbered : ∀ s ∈ stanzas, s.index?.isSome) :
    indices position stanzas = stanzas.map fun s => s.index?.getD 0 := by
  induction stanzas generalizing position with
  | nil => rfl
  | cons s rest ih =>
    obtain ⟨index, own⟩ := Option.isSome_iff_exists.1 (numbered s List.mem_cons_self)
    have others := ih (position + 1) fun s hs => numbered s (List.mem_cons_of_mem _ hs)
    simp [indices, own, others]

/-- Stanzas with numbers of their own give the same topology in any order. -/
theorem ofStanzas_of_perm (h : Host) (r : SystemRoot) {stanzas stanzas' : List Stanza}
    (numbered : ∀ s ∈ stanzas, s.index?.isSome) (perm : stanzas.Perm stanzas') :
    ofStanzas h r stanzas = ofStanzas h r stanzas' := by
  have numbered' : ∀ s ∈ stanzas', s.index?.isSome := fun s hs => numbered s (perm.mem_iff.2 hs)
  unfold ofStanzas surveys
  rw [indices_of_numbered 0 numbered, indices_of_numbered 0 numbered']
  exact ofSurveys_of_perm ((perm.map _).map _)

/-- Two processors with caches of `2 ^ 64 - 2 ^ 30` and `2 ^ 31` bytes. -/
def vastHost : Host := .ofAttributes
  [(["cpu0", "cache", "index0", "shared_cpu_list"], "0\n"),
   (["cpu0", "cache", "index0", "level"], "3\n"),
   (["cpu0", "cache", "index0", "size"], "17179869183G\n"),
   (["cpu1", "cache", "index0", "shared_cpu_list"], "1\n"),
   (["cpu1", "cache", "index0", "level"], "3\n"),
   (["cpu1", "cache", "index0", "size"], "2G\n")]

def vastStanzas : List Stanza :=
  [.ofList [("processor", "0")], .ofList [("processor", "1")], .ofList [("processor", "1")]]

/-- As listed, the total stops at the largest word before the last stanza; listed backwards, it
does so only there. -/
theorem ofStanzas_vastHost :
    (∀ s ∈ vastStanzas, s.index?.isSome) ∧ vastStanzas.Perm vastStanzas.reverse ∧
    ofStanzas vastHost .standard vastStanzas = ofStanzas vastHost .standard vastStanzas.reverse ∧
    (ofStanzas vastHost .standard vastStanzas).caches.level 3 = .ofNat (2 ^ 64 - 1) := by
  have numbered : ∀ s ∈ vastStanzas, s.index?.isSome := by decide +kernel
  have perm := (List.reverse_perm vastStanzas).symm
  refine ⟨numbered, perm, ofStanzas_of_perm vastHost .standard numbered perm, ?_⟩
  decide +kernel

end HostInventory.Cpu.Topology
