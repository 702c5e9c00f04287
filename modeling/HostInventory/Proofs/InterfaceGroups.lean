import HostInventory.Network.Report
import Mathlib.Data.List.Induction
import Mathlib.Data.List.Nodup
import Mathlib.Data.List.Perm.Basic

/-! Addresses grouped by interface. An interface stands where its first entry put it and holds what
its own entries say, however they are mixed with those of others, so each address is listed once. -/
namespace HostInventory.Network

inductive Family
  | v4
  | v6
  deriving DecidableEq

def Address.family : Address → Family
  | v4 _ => .v4
  | v6 _ => .v6

def firstNames (entries : List Entry) : List String := (entries.map Entry.interface).eraseDups

def ownEntries (name : String) (entries : List Entry) : List Entry :=
  entries.filter fun e => e.interface = name

def ofFamily (family : Family) (entries : List Entry) : List Entry :=
  entries.filter fun e => e.address.family = family

def texts (entries : List Entry) : List String := entries.map fun e => e.address.text

/-- The interface that a name and all entries with this name describe. -/
def Interface.described (hardwareAddress : String → Option String) (name : String)
    (own : List Entry) : Interface where
  name := name
  hardwareAddress := hardwareAddress name
  ipv4 := texts (ofFamily .v4 own)
  ipv6 := texts (ofFamily .v6 own)
  ipv4Network := (ofFamily .v4 own).head?.bind fun e => e.netmask.bind e.address.networkText?
  ipv6Network := (ofFamily .v6 own).head?.bind fun e => e.netmask.bind e.address.networkText?
  loopback := own.head?.any Entry.loopback

theorem network?_eq_none_iff (e : Entry) :
    e.network? = none ↔ ∀ mask, e.netmask = some mask → mask.family ≠ e.address.family := by
  rw [Entry.network?, Option.bind_eq_none_iff]
  refine forall₂_congr fun mask _ => ?_
  cases e.address <;> cases mask <;> simp [Address.networkText?, Address.family]

section Grouping

variable (hardwareAddress : String → Option String)

theorem described_single (e : Entry) :
    Interface.described hardwareAddress e.interface [e] =
      (Interface.opened hardwareAddress e).add e := by
  cases family : e.address <;>
    simp [Interface.described, Interface.opened, Interface.add, Entry.network?, ofFamily, texts,
      Address.family, family]

theorem head?_bind_append (f : Entry → Option String) (own : List Entry) (e : Entry) :
    (own ++ [e]).head?.bind f = if (texts own).isEmpty then f e else own.head?.bind f := by
  cases own <;> simp [texts]

theorem texts_append (own : List Entry) (e : Entry) :
    texts (own ++ [e]) = texts own ++ [e.address.text] :=
  List.map_append

theorem ofFamily_append (family : Family) (own : List Entry) (e : Entry) :
    ofFamily family (own ++ [e]) =
      ofFamily family own ++ if e.address.family = family then [e] else [] := by
  simp [ofFamily, List.filter_cons]

theorem described_append (name : String) {own : List Entry} (filled : own ≠ []) (e : Entry) :
    Interface.described hardwareAddress name (own ++ [e]) =
      (Interface.described hardwareAddress name own).add e := by
  have first : (own ++ [e]).head? = own.head? := List.head?_append_of_ne_nil _ filled
  cases address : e.address with
  | v4 bits =>
    simp only [Interface.described, Interface.add, Entry.network?, ofFamily_append, address,
      Address.family, first, if_true, reduceCtorEq, if_false, List.append_nil, texts_append,
      head?_bind_append]
  | v6 bits =>
    simp only [Interface.described, Interface.add, Entry.network?, ofFamily_append, address,
      Address.family, first, if_true, reduceCtorEq, if_false, List.append_nil, texts_append,
      head?_bind_append]

theorem mem_firstNames {name : String} {entries : List Entry} :
    name ∈ firstNames entries ↔ ∃ e ∈ entries, e.interface = name := by
  rw [firstNames, List.mem_eraseDups, List.mem_map]

theorem firstNames_append (entries : List Entry) (e : Entry) :
    firstNames (entries ++ [e]) =
      firstNames entries ++ if e.interface ∈ firstNames entries then [] else [e.interface] := by
  simp only [firstNames, List.map_append, List.map_cons, List.map_nil, List.eraseDups_append,
    List.mem_eraseDups]
  congr 1
  by_cases known : e.interface ∈ entries.map Entry.interface
  · rw [List.removeAll, List.filter_cons_of_neg (by simpa using known), if_pos known]
    rfl
  · rw [List.removeAll, List.filter_cons_of_pos (by simpa using known), if_neg known]
    rfl

theorem nodup_firstNames (entries : List Entry) : (firstNames entries).Nodup := by
  induction entries using List.reverseRecOn with
  | nil => exact List.nodup_nil
  | append_singleton entries e ih =>
    rw [firstNames_append]
    split
    · rwa [List.append_nil]
    · rename_i new
      exact ih.append (List.nodup_singleton _) (by simpa using new)

theorem ownEntries_append (name : String) (entries : List Entry) (e : Entry) :
    ownEntries name (entries ++ [e]) =
      ownEntries name entries ++ if e.interface = name then [e] else [] := by
  simp [ownEntries, List.filter_cons]

theorem ownEntries_eq_nil_iff {name : String} {entries : List Entry} :
    ownEntries name entries = [] ↔ name ∉ firstNames entries := by
  rw [mem_firstNames]
  simp [ownEntries]

theorem place_map (interface : String → Interface) (named : ∀ name, (interface name).name = name)
    (e : Entry) {names : List String} (distinct : names.Nodup) :
    place hardwareAddress e (names.map interface) =
      if e.interface ∈ names then
        names.map fun name => if name = e.interface then (interface name).add e else interface name
      else names.map interface ++ [(Interface.opened hardwareAddress e).add e] := by
  induction names with
  | nil => rfl
  | cons name rest ih =>
    obtain ⟨new, distinct⟩ := List.nodup_cons.1 distinct
    rw [List.map_cons, place, named]
    by_cases here : name = e.interface
    · have others : ∀ other ∈ rest, other ≠ e.interface := fun other mem same =>
        new (here.trans same.symm ▸ mem)
      rw [if_pos here, if_pos (here ▸ List.mem_cons_self), List.map_cons, if_pos here]
      congr 1
      exact List.map_congr_left fun other mem => (if_neg (others other mem)).symm
    · rw [if_neg here, ih distinct, List.map_cons, if_neg here]
      by_cases later : e.interface ∈ rest
      · rw [if_pos later, if_pos (List.mem_cons_of_mem _ later)]
      · rw [if_neg later, if_neg (List.not_mem_cons_of_ne_of_not_mem (Ne.symm here) later)]
        rfl

def describedAll (entries : List Entry) : List Interface :=
  (firstNames entries).map fun name =>
    Interface.described hardwareAddress name (ownEntries name entries)

theorem place_describedAll (entries : List Entry) (e : Entry) :
    place hardwareAddress e (describedAll hardwareAddress entries) =
      describedAll hardwareAddress (entries ++ [e]) := by
  rw [describedAll, place_map _ _ (fun _ => rfl) e (nodup_firstNames entries), describedAll,
    firstNames_append]
  by_cases known : e.interface ∈ firstNames entries
  · rw [if_pos known, if_pos known, List.append_nil]
    refine List.map_congr_left fun name mem => ?_
    rw [ownEntries_append]
    by_cases here : e.interface = name
    · have filled : ownEntries name entries ≠ [] := fun none => ownEntries_eq_nil_iff.1 none mem
      rw [if_pos here.symm, if_pos here, described_append _ _ filled]
    · rw [if_neg (Ne.symm here), if_neg here, List.append_nil]
  · have none := ownEntries_eq_nil_iff.2 known
    rw [if_neg known, if_neg known, List.map_append, List.map_singleton, ownEntries_append, none,
      if_pos rfl, List.nil_append, described_single]
    congr 1
    refine List.map_congr_left fun name mem => ?_
    have other : e.interface ≠ name := fun same => known (same ▸ mem)
    rw [ownEntries_append, if_neg other, List.append_nil]

theorem group_eq_describedAll (entries : List Entry) :
    group hardwareAddress entries = describedAll hardwareAddress entries := by
  induction entries using List.reverseRecOn with
  | nil => rfl
  | append_singleton entries e ih =>
    rw [← place_describedAll, ← ih, group, List.foldl_append]
    rfl

end Grouping

section Addresses

theorem flatMap_ownEntries_perm (entries : List Entry) {names : List String}
    (distinct : names.Nodup) :
    (names.flatMap fun name => ownEntries name entries).Perm
      (entries.filter fun e => e.interface ∈ names) := by
  induction names with
  | nil => simp
  | cons name rest ih =>
    obtain ⟨new, distinct⟩ := List.nodup_cons.1 distinct
    have parts := List.filter_append_perm (fun e => e.interface = name)
      (entries.filter fun e => e.interface ∈ name :: rest)
    have own : (entries.filter fun e => e.interface ∈ name :: rest).filter
        (fun e => e.interface = name) = ownEntries name entries := by
      rw [List.filter_filter, ownEntries]
      refine List.filter_congr fun e _ => ?_
      by_cases here : e.interface = name <;> simp [here]
    have others : (entries.filter fun e => e.interface ∈ name :: rest).filter
        (fun e => !decide (e.interface = name)) = entries.filter fun e => e.interface ∈ rest := by
      rw [List.filter_filter]
      refine List.filter_congr fun e _ => ?_
      by_cases here : e.interface = name <;> simp [here, new]
    rw [own, others] at parts
    exact ((ih distinct).append_left _).trans parts

def Interface.listed (i : Interface) : List (String × String) :=
  (i.ipv4 ++ i.ipv6).map fun text => (i.name, text)

variable (hardwareAddress : String → Option String)

theorem listed_described_perm (name : String) (entries : List Entry) :
    (Interface.described hardwareAddress name (ownEntries name entries)).listed.Perm
      ((ownEntries name entries).map fun e => (e.interface, e.address.text)) := by
  have families := List.filter_append_perm (fun e => e.address.family = .v4)
    (ownEntries name entries)
  have sixth : (ownEntries name entries).filter (fun e => !decide (e.address.family = .v4)) =
      ofFamily .v6 (ownEntries name entries) := by
    refine List.filter_congr fun e _ => ?_
    cases e.address <;> rfl
  rw [sixth] at families
  have own : ∀ e ∈ ownEntries name entries,
      (name, e.address.text) = (e.interface, e.address.text) := by
    intro e mem
    rw [(by simpa [ownEntries] using (List.mem_filter.1 mem).2 : e.interface = name)]
  rw [← List.map_congr_left own]
  have all := families.map fun e => (name, e.address.text)
  simpa [Interface.listed, Interface.described, texts, ofFamily, Function.comp_def] using all

theorem listed_describedAll_perm (entries : List Entry) :
    ((describedAll hardwareAddress entries).flatMap Interface.listed).Perm
      (entries.map fun e => (e.interface, e.address.text)) := by
  have every : entries.filter (fun e => e.interface ∈ firstNames entries) = entries :=
    List.filter_eq_self.2 fun e mem => by simpa using mem_firstNames.2 ⟨e, mem, rfl⟩
  have sorted := flatMap_ownEntries_perm entries (nodup_firstNames entries)
  rw [every] at sorted
  have listed := List.Perm.flatMap_left (firstNames entries) fun name _ =>
    listed_described_perm hardwareAddress name entries
  rw [← List.map_flatMap] at listed
  rw [describedAll, List.flatMap_map]
  exact listed.trans (sorted.map _)

end Addresses

/-- Whether `picked` is the value of the first interface outside the loopback that has one. -/
def IsFirstOutside (interfaces : List Interface) (value : Interface → Option String)
    (picked : Option String) : Prop :=
  ∀ text, picked = some text ↔ ∃ before i after, interfaces = before ++ i :: after ∧
    i.loopback = false ∧ value i = some text ∧ ∀ j ∈ before, j.loopback = false → value j = none

theorem isFirstOutside_findSome? (interfaces : List Interface)
    (value : Interface → Option String) :
    IsFirstOutside interfaces value
      ((interfaces.filter fun i => !i.loopback).findSome? value) := by
  have outside : (interfaces.filter fun i => !i.loopback).findSome? value =
      interfaces.findSome? fun i => if i.loopback then none else value i := by
    induction interfaces with
    | nil => rfl
    | cons i rest ih => cases loopback : i.loopback <;> simp [List.findSome?_cons, loopback, ih]
  have passed (i : Interface) : (if i.loopback then none else value i) = none ↔
      (i.loopback = false → value i = none) := by
    cases i.loopback <;> simp
  have found (i : Interface) (text : String) :
      (if i.loopback then none else value i) = some text ↔
        i.loopback = false ∧ value i = some text := by
    cases i.loopback <;> simp
  intro text
  simp only [outside, List.findSome?_eq_some_iff, passed, found, and_assoc]

/-- What a report has to say of a list of entries. -/
structure Report.Gathers (hardwareAddress : String → Option String) (entries : List Entry)
    (r : Report) : Prop where
  order : r.interfaces.map Interface.name = firstNames entries
  distinct : (r.interfaces.map Interface.name).Nodup
  own : ∀ i ∈ r.interfaces, i = .described hardwareAddress i.name (ownEntries i.name entries)
  once : (r.interfaces.flatMap Interface.listed).Perm
    (entries.map fun e => (e.interface, e.address.text))
  ipv4 : IsFirstOutside r.interfaces (fun i => i.ipv4.head?) r.ipv4
  ipv6 : IsFirstOutside r.interfaces (fun i => i.ipv6.head?) r.ipv6
  hardwareAddress : IsFirstOutside r.interfaces (fun i => i.hardwareAddress) r.hardwareAddress

theorem gathers_ofEntries (hardwareAddress : String → Option String) (entries : List Entry) :
    (Report.ofEntries hardwareAddress entries).Gathers hardwareAddress entries := by
  have interfaces : (Report.ofEntries hardwareAddress entries).interfaces =
      describedAll hardwareAddress entries := group_eq_describedAll hardwareAddress entries
  have order : (Report.ofEntries hardwareAddress entries).interfaces.map Interface.name =
      firstNames entries := by
    rw [interfaces, describedAll, List.map_map]
    exact List.map_id _
  refine ⟨order, order ▸ nodup_firstNames entries, ?_, ?_, isFirstOutside_findSome? _ _,
    isFirstOutside_findSome? _ _, isFirstOutside_findSome? _ _⟩
  · rw [interfaces]
    intro i mem
    obtain ⟨name, -, rfl⟩ := List.mem_map.1 mem
    rfl
  · rw [interfaces]
    exact listed_describedAll_perm hardwareAddress entries

/-- Grouping keeps every address once, in the interface of its name and in order, and the first
entry of an interface or of its family decides the rest, so a network is missing exactly if that
entry has no mask of its family. How entries of different interfaces are mixed makes no
difference. -/
theorem ofEntries_groups (hardwareAddress : String → Option String) (entries : List Entry) :
    (Report.ofEntries hardwareAddress entries).Gathers hardwareAddress entries ∧
    (∀ e ∈ entries, e.netmask.bind e.address.networkText? = none ↔
      ∀ mask, e.netmask = some mask → mask.family ≠ e.address.family) ∧
    ∀ entries', firstNames entries' = firstNames entries →
      (∀ name, ownEntries name entries' = ownEntries name entries) →
      Report.ofEntries hardwareAddress entries' = Report.ofEntries hardwareAddress entries := by
  refine ⟨gathers_ofEntries hardwareAddress entries, fun e _ => network?_eq_none_iff e, ?_⟩
  intro entries' order own
  have same : describedAll hardwareAddress entries' = describedAll hardwareAddress entries := by
    simp only [describedAll, order, own]
  rw [Report.ofEntries, Report.ofEntries, group_eq_describedAll, group_eq_describedAll, same]

/-- An address of the interface `en0`, of which the first has no mask. -/
def wiredEntry (last : BitVec 32) (netmask : Option Address) : Entry :=
  ⟨"en0", false, .v4 (0x0A000000#32 + last), netmask⟩

def loopbackEntry : Entry := ⟨"lo", true, .v4 0x7F000001#32, some (.v4 0xFF000000#32)⟩

def mixedEntries : List Entry :=
  [wiredEntry 7 none, loopbackEntry, wiredEntry 8 (some (.v4 0xFFFF0000#32))]

def sortedEntries : List Entry :=
  [wiredEntry 7 none, wiredEntry 8 (some (.v4 0xFFFF0000#32)), loopbackEntry]

/-- The loopback entry between those of `en0` goes to its own interface, and the mask of the second
address gives `en0` no network. -/
theorem ofEntries_mixedEntries :
    firstNames mixedEntries = firstNames sortedEntries ∧
    (∀ name, ownEntries name mixedEntries = ownEntries name sortedEntries) ∧
    Report.ofEntries (fun _ => none) mixedEntries = Report.ofEntries (fun _ => none) sortedEntries ∧
    (Report.ofEntries (fun _ => none) mixedEntries).interfaces =
      [⟨"en0", none, ["10.0.0.7", "10.0.0.8"], [], none, none, false⟩,
        ⟨"lo", none, ["127.0.0.1"], [], some "127.0.0.0/8", none, true⟩] := by
  have order : firstNames mixedEntries = firstNames sortedEntries := by decide +kernel
  have own (name : String) : ownEntries name mixedEntries = ownEntries name sortedEntries := by
    by_cases wired : "en0" = name
    · subst wired
      decide +kernel
    · simp [ownEntries, mixedEntries, sortedEntries, wiredEntry, wired, List.filter_cons]
  exact ⟨order, own, (ofEntries_groups (fun _ => none) sortedEntries).2.2 mixedEntries order own,
    by decide +kernel⟩

end HostInventory.Network
