/-! Finite maps as lists of entries in strictly increasing key order. The order is part of the
type, so two maps that answer every look-up alike are equal, and listing a map lists its keys
in ascending order. -/
namespace HostInventory

structure OrderedMap (κ ν : Type) [LT κ] where
  entries : List (κ × ν)
  increasing : entries.Pairwise fun a b => a.1 < b.1

namespace OrderedMap

variable {κ ν : Type}

section Entries

variable [DecidableEq κ]

/-- The value of the first entry under `k`. -/
def lookup (k : κ) : List (κ × ν) → Option ν
  | [] => none
  | e :: rest => if e.1 = k then some e.2 else lookup k rest

theorem lookup_eq_none_iff {k : κ} {es : List (κ × ν)} :
    lookup k es = none ↔ ∀ e ∈ es, e.1 ≠ k := by
  induction es with
  | nil => simp [lookup]
  | cons e rest ih => by_cases h : e.1 = k <;> simp [lookup, h, ih]

theorem mem_of_lookup {k : κ} {v : ν} {es : List (κ × ν)} (h : lookup k es = some v) :
    (k, v) ∈ es := by
  induction es with
  | nil => simp [lookup] at h
  | cons e rest ih =>
    by_cases hk : e.1 = k
    · simp only [lookup, hk, if_true, Option.some.injEq] at h
      simp [← hk, ← h]
    · simp only [lookup, hk, if_false] at h
      exact List.mem_cons_of_mem _ (ih h)

end Entries

variable [LT κ]

instance [DecidableEq κ] [DecidableEq ν] : DecidableEq (OrderedMap κ ν) := fun m n =>
  if h : m.entries = n.entries then .isTrue (by cases m; cases n; simp_all)
  else .isFalse fun e => h (e ▸ rfl)

def empty : OrderedMap κ ν := ⟨[], .nil⟩

instance : EmptyCollection (OrderedMap κ ν) := ⟨empty⟩

instance : Inhabited (OrderedMap κ ν) := ⟨empty⟩

def size (m : OrderedMap κ ν) : Nat := m.entries.length

def isEmpty (m : OrderedMap κ ν) : Bool := m.entries.isEmpty

def keys (m : OrderedMap κ ν) : List κ := m.entries.map Prod.fst

section Get

variable [DecidableEq κ]

def get? (m : OrderedMap κ ν) (k : κ) : Option ν := lookup k m.entries

def getD (m : OrderedMap κ ν) (k : κ) (fallback : ν) : ν := (m.get? k).getD fallback

def contains (m : OrderedMap κ ν) (k : κ) : Bool := (m.get? k).isSome

@[simp] theorem get?_empty (k : κ) : (empty : OrderedMap κ ν).get? k = none := rfl

theorem lt_of_lookup_tail {e : κ × ν} {rest : List (κ × ν)} {k : κ}
    (h : (e :: rest).Pairwise fun a b => a.1 < b.1) (hk : lookup k rest ≠ none) : e.1 < k := by
  obtain ⟨v, hv⟩ := Option.ne_none_iff_exists'.1 hk
  exact (List.pairwise_cons.1 h).1 _ (mem_of_lookup hv)

end Get

section Insertion

variable [DecidableLT κ]

/-- A new key goes before the first greater one; a key already there gets the new value. -/
def insertEntry (k : κ) (v : ν) : List (κ × ν) → List (κ × ν)
  | [] => [(k, v)]
  | e :: rest =>
    if k < e.1 then (k, v) :: e :: rest
    else if e.1 < k then e :: insertEntry k v rest
    else (k, v) :: rest

theorem mem_insertEntry {k : κ} {v : ν} {a : κ × ν} {es : List (κ × ν)}
    (h : a ∈ insertEntry k v es) : a = (k, v) ∨ a ∈ es := by
  induction es with
  | nil => simpa [insertEntry] using h
  | cons e rest ih =>
    rw [insertEntry] at h
    split at h
    · simpa using h
    · split at h
      · rcases List.mem_cons.1 h with h | h
        · exact .inr (h ▸ List.mem_cons_self)
        · exact (ih h).imp id (List.mem_cons_of_mem _)
      · rcases List.mem_cons.1 h with h | h
        · exact .inl h
        · exact .inr (List.mem_cons_of_mem _ h)

end Insertion

variable [LE κ] [Std.IsLinearOrder κ] [Std.LawfulOrderLT κ]

theorem eq_of_not_lt {a b : κ} (h₁ : ¬a < b) (h₂ : ¬b < a) : a = b :=
  Std.le_antisymm (Std.not_lt.1 h₂) (Std.not_lt.1 h₁)

section Extensionality

variable [DecidableEq κ]

theorem entries_eq_of_lookup {es fs : List (κ × ν)}
    (he : es.Pairwise fun a b => a.1 < b.1) (hf : fs.Pairwise fun a b => a.1 < b.1)
    (h : ∀ k, lookup k es = lookup k fs) : es = fs := by
  induction es generalizing fs with
  | nil =>
    cases fs with
    | nil => rfl
    | cons f rest => simpa [lookup] using h f.1
  | cons e es ih =>
    cases fs with
    | nil => simpa [lookup] using h e.1
    | cons f fs =>
      have hkey : e.1 = f.1 := by
        refine eq_of_not_lt (fun hlt => ?_) fun hlt => ?_
        · have := h e.1
          rw [lookup, if_pos rfl, lookup, if_neg fun q => Std.lt_irrefl (q ▸ hlt)] at this
          exact absurd (Std.lt_trans hlt (lt_of_lookup_tail hf (this ▸ by simp))) Std.lt_irrefl
        · have := h f.1
          rw [lookup, if_neg fun q => Std.lt_irrefl (q ▸ hlt), lookup, if_pos rfl] at this
          exact absurd (Std.lt_trans hlt (lt_of_lookup_tail he (this ▸ by simp))) Std.lt_irrefl
      have hval : e.2 = f.2 := by
        have := h e.1
        rw [lookup, if_pos rfl, lookup, if_pos hkey.symm] at this
        exact Option.some.inj this
      have hrest : es = fs := by
        refine ih (List.pairwise_cons.1 he).2 (List.pairwise_cons.1 hf).2 fun k => ?_
        by_cases hk : e.1 = k
        · have h₁ : lookup k es = none :=
            lookup_eq_none_iff.2 fun a ha q =>
              Std.lt_irrefl (q ▸ hk ▸ (List.pairwise_cons.1 he).1 a ha)
          have h₂ : lookup k fs = none :=
            lookup_eq_none_iff.2 fun a ha q =>
              Std.lt_irrefl (q ▸ hk ▸ hkey ▸ (List.pairwise_cons.1 hf).1 a ha)
          rw [h₁, h₂]
        · have := h k
          rwa [lookup, if_neg hk, lookup, if_neg (hkey ▸ hk)] at this
      rw [hrest, show e = f from Prod.ext hkey hval]

/-- Maps that answer every look-up alike are equal. -/
theorem ext_get? {m n : OrderedMap κ ν} (h : ∀ k, m.get? k = n.get? k) : m = n := by
  have := entries_eq_of_lookup m.increasing n.increasing h
  cases m; cases n; simp_all

end Extensionality

variable [DecidableLT κ]

theorem increasing_insertEntry (k : κ) (v : ν) {es : List (κ × ν)}
    (h : es.Pairwise fun a b => a.1 < b.1) :
    (insertEntry k v es).Pairwise fun a b => a.1 < b.1 := by
  induction es with
  | nil => simp [insertEntry]
  | cons e rest ih =>
    obtain ⟨he, hr⟩ := List.pairwise_cons.1 h
    rw [insertEntry]
    split
    · rename_i hk
      refine List.pairwise_cons.2 ⟨fun a ha => ?_, h⟩
      rcases List.mem_cons.1 ha with ha | ha
      · exact ha ▸ hk
      · exact Std.lt_trans hk (he a ha)
    · split
      · rename_i hk
        refine List.pairwise_cons.2 ⟨fun a ha => ?_, ih hr⟩
        rcases mem_insertEntry ha with ha | ha
        · exact ha ▸ hk
        · exact he a ha
      · rename_i h₁ h₂
        exact List.pairwise_cons.2 ⟨fun a ha => eq_of_not_lt h₁ h₂ ▸ he a ha, hr⟩

def insert (m : OrderedMap κ ν) (k : κ) (v : ν) : OrderedMap κ ν :=
  ⟨insertEntry k v m.entries, increasing_insertEntry k v m.increasing⟩

/-- The map unchanged if there is no value to insert. -/
def insert? (m : OrderedMap κ ν) (k : κ) : Option ν → OrderedMap κ ν
  | none => m
  | some v => m.insert k v

/-- Later pairs win over earlier ones with the same key. -/
def ofList (pairs : List (κ × ν)) : OrderedMap κ ν :=
  pairs.foldl (fun m e => m.insert e.1 e.2) empty

variable [DecidableEq κ]

theorem lookup_insertEntry (k k' : κ) (v : ν) (es : List (κ × ν)) :
    lookup k' (insertEntry k v es) = if k = k' then some v else lookup k' es := by
  induction es with
  | nil => simp [insertEntry, lookup]
  | cons e rest ih =>
    rw [insertEntry]
    split
    · simp [lookup]
    · split
      · rename_i h
        have hne : e.1 ≠ k := fun he => Std.lt_irrefl (he ▸ h)
        by_cases he : e.1 = k'
        · subst he; simp [lookup, hne.symm]
        · simp [lookup, he, ih]
      · rename_i h₁ h₂
        have hk := eq_of_not_lt h₁ h₂
        by_cases h : k = k' <;> simp [lookup, h, ← hk]

/-- What `insert` puts under its key is found there, and no other look-up changes. -/
theorem get?_insert (m : OrderedMap κ ν) (k k' : κ) (v : ν) :
    (m.insert k v).get? k' = if k = k' then some v else m.get? k' :=
  lookup_insertEntry k k' v m.entries

end OrderedMap

end HostInventory
