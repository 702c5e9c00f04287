import HostInventory.Cpu.Identity
import HostInventory.Proofs.MapEntries

/-! What the identity of a processor writes into a record of facts. A layout has at most one value
for each of six fields and writes those that it has: the names of a pair of codes all three or none
of them, a stepping only from two numbers, a text as it stands. All else in the record stays, and
writing once more changes nothing. -/
namespace HostInventory.Cpu.Layout

/-- What a layout has to write for a stanza: fields, and the value for each if there is one. -/
def writes (s : Stanza) : Layout → List (String × Option String)
  | .codes => [
    (Key.model, (codeNames? s).map Prod.fst),
    (Key.vendor, (codeNames? s).map fun named => named.2.vendor),
    (Key.modelName, (codeNames? s).map fun named => named.2.model),
    (Key.family, some "none"),
    (Key.stepping, stepping? s)]
  | .descriptive => copied.map fun pair => (pair.2, s.get? pair.1)

def fields : Layout → List String
  | .codes => [Key.model, Key.vendor, Key.modelName, Key.family, Key.stepping]
  | .descriptive => copied.map Prod.snd

def identityKeys : List String :=
  [Key.vendor, Key.model, Key.modelName, Key.family, Key.stepping, Key.megahertz]

variable {s : Stanza} {f : Facts} {l : Layout}

theorem describe_eq_foldl (l : Layout) (s : Stanza) (f : Facts) :
    l.describe s f = (l.writes s).foldl (fun f e => f.insert? e.1 e.2) f := by
  cases l with
  | codes =>
    rw [describe, describeCodes, writes]
    cases codeNames? s <;> rfl
  | descriptive =>
    rw [describe, describeTexts, writes, List.foldl_map]

theorem map_fst_writes (l : Layout) (s : Stanza) : (l.writes s).map Prod.fst = l.fields := by
  cases l <;> rfl

theorem nodup_writes (l : Layout) (s : Stanza) : ((l.writes s).map Prod.fst).Nodup := by
  rw [map_fst_writes]
  cases l <;> decide

theorem get?_describe (l : Layout) (s : Stanza) (f : Facts) (key : String) :
    (l.describe s f).get? key = (OrderedMap.lookup key (l.writes s)).join.or (f.get? key) := by
  rw [describe_eq_foldl, OrderedMap.get?_foldl_insert? (l.nodup_writes s)]

theorem describe_describe (l : Layout) (s : Stanza) (f : Facts) :
    l.describe s (l.describe s f) = l.describe s f := by
  apply OrderedMap.ext_get?
  intro key
  rw [get?_describe, get?_describe]
  cases (OrderedMap.lookup key (l.writes s)).join <;> rfl

theorem fields_subset (l : Layout) : l.fields ⊆ identityKeys := by
  cases l <;> decide

theorem get?_describe_of_not_mem {key : String} (other : key ∉ identityKeys) :
    (l.describe s f).get? key = f.get? key := by
  have absent : OrderedMap.lookup key (l.writes s) = none :=
    OrderedMap.lookup_eq_none_iff.2 fun e mem same =>
      other (l.fields_subset (l.map_fst_writes s ▸ List.mem_map.2 ⟨e, mem, same⟩))
  rw [get?_describe, absent]
  rfl

/-- What is written from a pair of codes: vendor, model and model name if both are numbers, a
stepping if variant and revision are, and that there is no family. -/
structure NamesCodes (s : Stanza) (f f' : Facts) : Prop where
  named : ∀ implementer part i p, s.get? "CPU implementer" = some implementer →
    s.get? "CPU part" = some part → Numeral.read implementer = .ok i → Numeral.read part = .ok p →
    f'.get? Key.vendor = some (Catalog.namesOf implementer part i p).vendor ∧
    f'.get? Key.model = some part ∧
    f'.get? Key.modelName = some (Catalog.namesOf implementer part i p).model
  unnamed : s.number? "CPU implementer" = none ∨ s.number? "CPU part" = none →
    f'.get? Key.vendor = f.get? Key.vendor ∧ f'.get? Key.model = f.get? Key.model ∧
    f'.get? Key.modelName = f.get? Key.modelName
  family : f'.get? Key.family = some "none"
  stepped : ∀ variant revision, s.number? "CPU variant" = some variant →
    s.number? "CPU revision" = some revision → f'.get? Key.stepping =
      some ("r" ++ toString variant.toNat ++ "p" ++ toString revision.toNat)
  unstepped : s.number? "CPU variant" = none ∨ s.number? "CPU revision" = none →
    f'.get? Key.stepping = f.get? Key.stepping
  megahertz : f'.get? Key.megahertz = f.get? Key.megahertz

/-- The field has the stanza's text, or what it had before if the stanza has none. -/
def Copies (s : Stanza) (source key : String) (f f' : Facts) : Prop :=
  (∀ text, s.get? source = some text → f'.get? key = some text) ∧
  (s.get? source = none → f'.get? key = f.get? key)

structure CopiesTexts (s : Stanza) (f f' : Facts) : Prop where
  vendor : Copies s "vendor_id" Key.vendor f f'
  model : Copies s "model" Key.model f f'
  modelName : Copies s "model name" Key.modelName f f'
  family : Copies s "cpu family" Key.family f f'
  stepping : Copies s "stepping" Key.stepping f f'
  megahertz : Copies s "cpu MHz" Key.megahertz f f'

theorem codeNames?_eq_some {implementer part : String} {i p : UInt64}
    (first : s.get? "CPU implementer" = some implementer) (second : s.get? "CPU part" = some part)
    (readFirst : Numeral.read implementer = .ok i) (readSecond : Numeral.read part = .ok p) :
    codeNames? s = some (part, Catalog.namesOf implementer part i p) := by
  simp only [codeNames?, first, second, Catalog.resolve?, readFirst, readSecond, Option.map_some]

theorem codeNames?_eq_none
    (h : s.number? "CPU implementer" = none ∨ s.number? "CPU part" = none) :
    codeNames? s = none := by
  rw [codeNames?]
  split
  · rename_i implementer part first second
    rw [Catalog.resolve?]
    split
    · rename_i i p readFirst readSecond
      simp [Stanza.number?, first, second, readFirst, readSecond, Except.toOption] at h
    · rfl
  · rfl

theorem stepping?_eq_some {variant revision : UInt64}
    (first : s.number? "CPU variant" = some variant)
    (second : s.number? "CPU revision" = some revision) :
    stepping? s = some ("r" ++ toString variant.toNat ++ "p" ++ toString revision.toNat) := by
  rw [stepping?, first, second]
  rfl

theorem stepping?_eq_none
    (h : s.number? "CPU variant" = none ∨ s.number? "CPU revision" = none) :
    stepping? s = none := by
  rw [stepping?]
  split
  · simp_all
  · rfl

theorem namesCodes_describe (s : Stanza) (f : Facts) :
    NamesCodes s f (Layout.codes.describe s f) where
  named implementer part i p first second readFirst readSecond := by
    have names := codeNames?_eq_some first second readFirst readSecond
    simp only [get?_describe, writes, names]
    exact ⟨rfl, rfl, rfl⟩
  unnamed h := by
    have names := codeNames?_eq_none h
    simp only [get?_describe, writes, names]
    exact ⟨rfl, rfl, rfl⟩
  family := by
    rw [get?_describe]
    rfl
  stepped variant revision first second := by
    simp only [get?_describe, writes, stepping?_eq_some first second]
    rfl
  unstepped h := by
    simp only [get?_describe, writes, stepping?_eq_none h]
    rfl
  megahertz := by
    rw [get?_describe]
    rfl

theorem copies_describe {source key : String} (mem : (source, key) ∈ copied) (s : Stanza)
    (f : Facts) : Copies s source key f (Layout.descriptive.describe s f) := by
  have written : OrderedMap.lookup key (Layout.descriptive.writes s) = some (s.get? source) :=
    (OrderedMap.lookup_eq_some_iff (nodup_writes _ s)).2 (List.mem_map.2 ⟨_, mem, rfl⟩)
  rw [Copies, get?_describe, written]
  constructor
  · intro text found
    rw [found]
    rfl
  · intro absent
    rw [absent]
    rfl

theorem copiesTexts_describe (s : Stanza) (f : Facts) :
    CopiesTexts s f (Layout.descriptive.describe s f) where
  vendor := copies_describe (by decide) s f
  model := copies_describe (by decide) s f
  modelName := copies_describe (by decide) s f
  family := copies_describe (by decide) s f
  stepping := copies_describe (by decide) s f
  megahertz := copies_describe (by decide) s f

/-- A stanza with an implementer code writes the names of its codes and its stepping, all or none of
either, and any other stanza writes the texts that it has. Fields that do not tell the identity,
such as counts and cache sizes, stay as they were, and writing once more changes nothing. -/
theorem describe_identity (s : Stanza) (f : Facts) :
    (∀ code, s.get? "CPU implementer" = some code →
      NamesCodes s f ((Layout.of s).describe s f)) ∧
    (s.get? "CPU implementer" = none → CopiesTexts s f ((Layout.of s).describe s f)) ∧
    (∀ key, key ∉ identityKeys → ((Layout.of s).describe s f).get? key = f.get? key) ∧
    (∀ key ∈ [Key.cores, Key.logicalProcessors, Key.packages, Key.numaNodes, Key.cacheSize,
        Key.cacheSizeL1, Key.cacheSizeL2, Key.cacheSizeL3],
      ((Layout.of s).describe s f).get? key = f.get? key) ∧
    (Layout.of s).describe s ((Layout.of s).describe s f) = (Layout.of s).describe s f := by
  refine ⟨fun code found => ?_, fun absent => ?_, fun key => get?_describe_of_not_mem,
    fun key mem => ?_, describe_describe _ s f⟩
  · have layout : Layout.of s = .codes := by simp [Layout.of, OrderedMap.contains, found]
    rw [layout]
    exact namesCodes_describe s f
  · have layout : Layout.of s = .descriptive := by simp [Layout.of, OrderedMap.contains, absent]
    rw [layout]
    exact copiesTexts_describe s f
  · apply get?_describe_of_not_mem
    revert key
    decide

/-- Codes with a variant and no revision, written over a stepping that was there before. -/
theorem describe_unrevised :
    let s : Stanza := OrderedMap.ofList
      [("CPU implementer", "0x41"), ("CPU part", "0xd0c"), ("CPU variant", "0x3")]
    let f : Facts := OrderedMap.ofList [("stepping", "7"), ("cpu_cores", "4")]
    ((Layout.of s).describe s f).get? Key.modelName = some "Neoverse-N1" ∧
    ((Layout.of s).describe s f).get? Key.stepping = some "7" ∧
    ((Layout.of s).describe s f).get? Key.cores = some "4" := by
  intro s f
  obtain ⟨coded, -, frame, -⟩ := describe_identity s f
  have written := coded "0x41" rfl
  obtain ⟨-, -, modelName⟩ := written.named "0x41" "0xd0c" 0x41 0xd0c rfl rfl rfl rfl
  exact ⟨modelName, written.unstepped (.inr rfl), frame Key.cores (by decide)⟩

end HostInventory.Cpu.Layout
