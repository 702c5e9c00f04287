import HostInventory.Proofs.TopologyMeaning
import Mathlib.Data.Finite.Prod
import Mathlib.Data.Set.Finite.Range

/-! Physical cores and the core count. A core id names a core inside its package, while the count
collects core ids alone, so it is the number of physical cores on the hosts where no core id is
reported in two packages, and on no others. -/
namespace HostInventory.Cpu.Topology

open Survey

def IsIdentified (h : Host) (r : SystemRoot) (stanzas : List Stanza) : Prop :=
  ∀ p, (∃ package, r.integer h (packageFile (cpuAt stanzas p)) = .ok package) ∧
    ∃ core, r.integer h (coreFile (cpuAt stanzas p)) = .ok core

/-- The physical cores of the listed processors, each a package id with a core id. -/
def physicalCores (h : Host) (r : SystemRoot) (stanzas : List Stanza) : Set (UInt64 × UInt64) :=
  {core | ∃ p, r.integer h (packageFile (cpuAt stanzas p)) = .ok core.1 ∧
    r.integer h (coreFile (cpuAt stanzas p)) = .ok core.2}

theorem finite_and_ncard_le_of_readings {α β : Type} {n : Nat} {f : α → β}
    (injective : Function.Injective f) (reading : Fin n → β) :
    {v | ∃ p, reading p = f v}.Finite ∧ {v | ∃ p, reading p = f v}.ncard ≤ n := by
  have sub : f '' {v | ∃ p, reading p = f v} ⊆ Set.range reading := by
    rintro _ ⟨v, ⟨p, hp⟩, rfl⟩
    exact ⟨p, hp⟩
  constructor
  · exact Set.Finite.of_finite_image ((Set.finite_range reading).subset sub) injective.injOn
  · calc
      _ = (f '' {v | ∃ p, reading p = f v}).ncard := (Set.ncard_image_of_injective _ injective).symm
      _ ≤ (Set.range reading).ncard := Set.ncard_le_ncard sub (Set.finite_range reading)
      _ = (reading '' Set.univ).ncard := by rw [Set.image_univ]
      _ ≤ (Set.univ : Set (Fin n)).ncard := Set.ncard_image_le Set.finite_univ
      _ = n := by rw [Set.ncard_univ, Nat.card_fin]

theorem ok_injective {α : Type} : Function.Injective (Except.ok : α → Except Failure α) :=
  fun _ _ => Except.ok.inj

section

variable (h : Host) (r : SystemRoot) (stanzas : List Stanza)

theorem finite_physicalCores_and_ncard_le :
    (physicalCores h r stanzas).Finite ∧ (physicalCores h r stanzas).ncard ≤ stanzas.length := by
  unfold physicalCores
  have readings := finite_and_ncard_le_of_readings (ok_injective.prodMap ok_injective) fun p =>
    (r.integer h (packageFile (cpuAt stanzas p)), r.integer h (coreFile (cpuAt stanzas p)))
  simpa only [Prod.map, Prod.mk.injEq] using readings

theorem finite_physicalCores : (physicalCores h r stanzas).Finite :=
  (finite_physicalCores_and_ncard_le h r stanzas).1

theorem ncard_physicalCores_le_logicalProcessors :
    (physicalCores h r stanzas).ncard ≤ (ofStanzas h r stanzas).logicalProcessors := by
  rw [logicalProcessors_ofStanzas]
  exact (finite_physicalCores_and_ncard_le h r stanzas).2

theorem cores_le_logicalProcessors :
    (ofStanzas h r stanzas).cores ≤ (ofStanzas h r stanzas).logicalProcessors := by
  rw [cores_ofStanzas, logicalProcessors_ofStanzas]
  exact (finite_and_ncard_le_of_readings ok_injective _).2

theorem packages_le_logicalProcessors :
    (ofStanzas h r stanzas).packages ≤ (ofStanzas h r stanzas).logicalProcessors := by
  rw [packages_ofStanzas, logicalProcessors_ofStanzas]
  exact (finite_and_ncard_le_of_readings ok_injective _).2

end

variable {h : Host} {r : SystemRoot} {stanzas : List Stanza}

theorem coreIds_eq_image (ids : IsIdentified h r stanzas) :
    coreIds h r stanzas = Prod.snd '' physicalCores h r stanzas := by
  ext core
  constructor
  · rintro ⟨p, hcore⟩
    obtain ⟨package, hpackage⟩ := (ids p).1
    exact ⟨(package, core), ⟨p, hpackage, hcore⟩, rfl⟩
  · rintro ⟨_, ⟨p, -, hcore⟩, rfl⟩
    exact ⟨p, hcore⟩

theorem packageIds_eq_image (ids : IsIdentified h r stanzas) :
    packageIds h r stanzas = Prod.fst '' physicalCores h r stanzas := by
  ext package
  constructor
  · rintro ⟨p, hpackage⟩
    obtain ⟨core, hcore⟩ := (ids p).2
    exact ⟨(package, core), ⟨p, hpackage, hcore⟩, rfl⟩
  · rintro ⟨_, ⟨p, hpackage, -⟩, rfl⟩
    exact ⟨p, hpackage⟩

theorem packages_le_ncard_physicalCores (ids : IsIdentified h r stanzas) :
    (ofStanzas h r stanzas).packages ≤ (physicalCores h r stanzas).ncard := by
  rw [packages_ofStanzas, packageIds_eq_image ids]
  exact Set.ncard_image_le (finite_physicalCores h r stanzas)

theorem cores_le_ncard_physicalCores (ids : IsIdentified h r stanzas) :
    (ofStanzas h r stanzas).cores ≤ (physicalCores h r stanzas).ncard := by
  rw [cores_ofStanzas, coreIds_eq_image ids]
  exact Set.ncard_image_le (finite_physicalCores h r stanzas)

theorem cores_eq_ncard_physicalCores_iff (ids : IsIdentified h r stanzas) :
    (ofStanzas h r stanzas).cores = (physicalCores h r stanzas).ncard ↔
      Set.InjOn Prod.snd (physicalCores h r stanzas) := by
  rw [cores_ofStanzas, coreIds_eq_image ids]
  exact Set.ncard_image_iff (finite_physicalCores h r stanzas)

theorem injOn_snd_iff {cores : Set (UInt64 × UInt64)} :
    Set.InjOn Prod.snd cores ↔
      ∀ core package package', (package, core) ∈ cores → (package', core) ∈ cores →
        package = package' := by
  constructor
  · intro apart core package package' one other
    exact congrArg Prod.fst (apart one other rfl)
  · rintro apart ⟨package, core⟩ one ⟨package', _⟩ other rfl
    rw [apart core package package' one other]

/-- The core count never exceeds the number of physical cores, nor do these the processors. It is
that number, and lies between the counts of packages and of processors, exactly when no core id is
reported in two packages. -/
theorem cores_of_isIdentified (ids : IsIdentified h r stanzas) :
    (ofStanzas h r stanzas).cores ≤ (physicalCores h r stanzas).ncard ∧
    (physicalCores h r stanzas).ncard ≤ (ofStanzas h r stanzas).logicalProcessors ∧
    ((ofStanzas h r stanzas).cores = (physicalCores h r stanzas).ncard ∧
        (ofStanzas h r stanzas).packages ≤ (ofStanzas h r stanzas).cores ∧
        (ofStanzas h r stanzas).cores ≤ (ofStanzas h r stanzas).logicalProcessors ↔
      ∀ core package package', (package, core) ∈ physicalCores h r stanzas →
        (package', core) ∈ physicalCores h r stanzas → package = package') := by
  have few := cores_le_ncard_physicalCores ids
  have listed := ncard_physicalCores_le_logicalProcessors h r stanzas
  refine ⟨few, listed, ?_⟩
  rw [← injOn_snd_iff, ← cores_eq_ncard_physicalCores_iff ids]
  constructor
  · exact fun counted => counted.1
  · intro counted
    refine ⟨counted, ?_, few.trans listed⟩
    rw [counted]
    exact packages_le_ncard_physicalCores ids

/-- Two processors in packages `0` and `1`, the first with core id `0`. -/
def dualHost (core : String) : Host := .ofAttributes
  [(["cpu0", "topology", "physical_package_id"], "0\n"),
   (["cpu0", "topology", "core_id"], "0\n"),
   (["cpu1", "topology", "physical_package_id"], "1\n"),
   (["cpu1", "topology", "core_id"], core)]

def dualStanzas : List Stanza := [.ofList [("processor", "0")], .ofList [("processor", "1")]]

theorem cpuAt_dualStanzas (p : Fin dualStanzas.length) :
    cpuAt dualStanzas p = 0 ∨ cpuAt dualStanzas p = 1 := by
  revert p
  decide +kernel

/-- Two packages whose only cores have the same id: one core is counted, fewer than packages. -/
theorem cores_dualHost_of_shared_id :
    IsIdentified (dualHost "0\n") .standard dualStanzas ∧
    (physicalCores (dualHost "0\n") .standard dualStanzas).ncard = 2 ∧
    (ofStanzas (dualHost "0\n") .standard dualStanzas).cores = 1 ∧
    ¬(ofStanzas (dualHost "0\n") .standard dualStanzas).packages ≤
      (ofStanzas (dualHost "0\n") .standard dualStanzas).cores := by
  have ids : IsIdentified (dualHost "0\n") .standard dualStanzas := by
    intro p
    rcases cpuAt_dualStanzas p with cpu | cpu <;> rw [cpu]
    · exact ⟨⟨0, eq_ok_of_toOption (by decide +kernel)⟩, 0, eq_ok_of_toOption (by decide +kernel)⟩
    · exact ⟨⟨1, eq_ok_of_toOption (by decide +kernel)⟩, 0, eq_ok_of_toOption (by decide +kernel)⟩
  have cores : (ofStanzas (dualHost "0\n") .standard dualStanzas).cores = 1 := by decide +kernel
  have packages : (ofStanzas (dualHost "0\n") .standard dualStanzas).packages = 2 := by
    decide +kernel
  have logical : (ofStanzas (dualHost "0\n") .standard dualStanzas).logicalProcessors = 2 :=
    logicalProcessors_ofStanzas _ _ _
  have atLeast := packages_le_ncard_physicalCores ids
  have atMost := ncard_physicalCores_le_logicalProcessors (dualHost "0\n") .standard dualStanzas
  refine ⟨ids, ?_, cores, ?_⟩ <;> omega

theorem cores_dualHost_of_own_ids :
    (ofStanzas (dualHost "1\n") .standard dualStanzas).cores =
      (physicalCores (dualHost "1\n") .standard dualStanzas).ncard := by
  have package₀ : SystemRoot.standard.integer (dualHost "1\n") (packageFile 0) = .ok 0 :=
    eq_ok_of_toOption (by decide +kernel)
  have package₁ : SystemRoot.standard.integer (dualHost "1\n") (packageFile 1) = .ok 1 :=
    eq_ok_of_toOption (by decide +kernel)
  have core₀ : SystemRoot.standard.integer (dualHost "1\n") (coreFile 0) = .ok 0 :=
    eq_ok_of_toOption (by decide +kernel)
  have core₁ : SystemRoot.standard.integer (dualHost "1\n") (coreFile 1) = .ok 1 :=
    eq_ok_of_toOption (by decide +kernel)
  have ids : IsIdentified (dualHost "1\n") .standard dualStanzas := by
    intro p
    rcases cpuAt_dualStanzas p with cpu | cpu <;> rw [cpu]
    · exact ⟨⟨0, package₀⟩, 0, core₀⟩
    · exact ⟨⟨1, package₁⟩, 1, core₁⟩
  refine ((cores_of_isIdentified ids).2.2.2 ?_).1
  -- the package and the core of a listed processor have one number
  have same {core : UInt64 × UInt64}
      (listed : core ∈ physicalCores (dualHost "1\n") .standard dualStanzas) :
      core.1 = core.2 := by
    obtain ⟨p, hpackage, hcore⟩ := listed
    rcases cpuAt_dualStanzas p with cpu | cpu <;> rw [cpu] at hpackage hcore
    · exact Except.ok.inj ((hpackage.symm.trans package₀).trans (core₀.symm.trans hcore))
    · exact Except.ok.inj ((hpackage.symm.trans package₁).trans (core₁.symm.trans hcore))
  intro core package package' one other
  exact (same one).trans (same other).symm

end HostInventory.Cpu.Topology
