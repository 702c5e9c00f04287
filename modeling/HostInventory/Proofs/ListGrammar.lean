import HostInventory.IdSet.ListText
import HostInventory.Proofs.IdSetRuns
import HostInventory.Proofs.NumeralForms
import HostInventory.Proofs.TextPieces

/-! The texts that are read as id sets. Apart from a blank text, which is the empty set, they are
pieces with commas between them, each an integer or two integers around a hyphen, and they are read
as the union of what the pieces stand for. One piece of any other form fails them all. -/
namespace HostInventory.IdSet

/-- A piece and the ids that it stands for. -/
inductive IsPiece : List Char → IdRange → Prop
  | id {cs : List Char} {n : UInt64} : Numeral.read (String.ofList cs) = .ok n →
      IsPiece cs (.single n)
  | range {cs ds : List Char} {first last : UInt64} :
      Numeral.read (String.ofList cs) = .ok first → Numeral.read (String.ofList ds) = .ok last →
      (ordered : first ≤ last) → last.toNat - first.toNat < 2 ^ 20 →
      IsPiece (cs ++ '-' :: ds) ⟨first, last, ordered⟩

def pieces (text : String) : List (List Char) := (Text.trim text.toList).splitOn ','

inductive Denotes (text : String) (s : IdSet) : Prop
  | blank : Text.trim text.toList = [] → s = empty → Denotes text s
  | union : Text.trim text.toList ≠ [] → (∀ piece ∈ pieces text, ∃ r, IsPiece piece r) →
      (∀ id, id ∈ s ↔ ∃ piece ∈ pieces text, ∃ r, IsPiece piece r ∧ r.Holds id) → Denotes text s

inductive NoNumber : List Char → Prop
  | empty : NoNumber []
  | blank {cs : List Char} {c : Char} : c ∈ cs → Text.isBlank c → NoNumber cs
  | sign {cs : List Char} {c : Char} : c = '+' ∨ c = '-' → NoNumber (c :: cs)
  | tooLarge {cs : List Char} {n : Nat} : Numeral.Spells cs n → 2 ^ 64 ≤ n → NoNumber cs

/-- Pieces that stand for no ids. -/
inductive Faulty : List Char → Prop
  | id {cs : List Char} : '-' ∉ cs → NoNumber cs → Faulty cs
  | first {cs ds : List Char} : NoNumber cs → Faulty (cs ++ '-' :: ds)
  | last {cs ds : List Char} : NoNumber ds → Faulty (cs ++ '-' :: ds)
  | reversed {cs ds : List Char} {first last : UInt64} :
      Numeral.read (String.ofList cs) = .ok first → Numeral.read (String.ofList ds) = .ok last →
      last < first → Faulty (cs ++ '-' :: ds)
  | tooWide {cs ds : List Char} {first last : UInt64} :
      Numeral.read (String.ofList cs) = .ok first → Numeral.read (String.ofList ds) = .ok last →
      2 ^ 20 ≤ last.toNat - first.toNat → Faulty (cs ++ '-' :: ds)

section Pieces

variable {piece cs ds : List Char} {r : IdRange} {n : UInt64}

theorem hyphen_not_mem_of_read (h : Numeral.read (String.ofList cs) = .ok n) : '-' ∉ cs :=
  fun hyphen => absurd ((Numeral.spells_of_read h).isAlphanum '-' hyphen) (by decide)

theorem readPiece_eq_ok_iff : readPiece piece = .ok r ↔ IsPiece piece r := by
  constructor
  · intro found
    unfold readPiece at found
    split at found
    · cases number : Numeral.read (String.ofList piece) with
      | error => simp [number, Except.map] at found
      | ok n =>
        rw [number] at found
        cases found
        exact .id number
    · rename_i cs ds cut
      obtain ⟨rfl, -⟩ := Text.eq_of_cut? cut
      split at found
      · cases found
      rename_i first readFirst
      split at found
      · cases found
      rename_i last readLast
      split at found
      · rename_i ordered
        split at found
        · cases found
        · rename_i narrow
          cases found
          exact .range readFirst readLast ordered (Nat.lt_of_not_le narrow)
      · cases found
  · intro form
    cases form with
    | id number =>
      rw [readPiece, Text.cut?_of_not_mem (hyphen_not_mem_of_read number)]
      simp only [number]
      rfl
    | range readFirst readLast ordered narrow =>
      have narrow : ¬maxSpan ≤ _ := Nat.not_le.2 narrow
      rw [readPiece, Text.cut?_append_cons (hyphen_not_mem_of_read readFirst)]
      simp only [readFirst, readLast, dif_pos ordered, if_neg narrow]

theorem IsPiece.of_hyphen (h : IsPiece (cs ++ '-' :: ds) r) :
    Numeral.read (String.ofList cs) = .ok r.first ∧
    Numeral.read (String.ofList ds) = .ok r.last ∧ r.last.toNat - r.first.toNat < 2 ^ 20 := by
  generalize whole : cs ++ '-' :: ds = piece at h
  cases h with
  | id number => exact absurd (by simp [← whole]) (hyphen_not_mem_of_read number)
  | range readFirst readLast ordered narrow =>
    obtain ⟨rfl, -, rfl⟩ := (List.append_cons_inj_of_notMem (hyphen_not_mem_of_read readFirst)
      (hyphen_not_mem_of_read readLast)).1 whole.symm
    exact ⟨readFirst, readLast, narrow⟩

theorem IsPiece.bounds {first last : UInt64} (h : IsPiece (cs ++ '-' :: ds) r)
    (readFirst : Numeral.read (String.ofList cs) = .ok first)
    (readLast : Numeral.read (String.ofList ds) = .ok last) :
    first ≤ last ∧ last.toNat - first.toNat < 2 ^ 20 := by
  obtain ⟨ownFirst, ownLast, narrow⟩ := h.of_hyphen
  obtain rfl : first = r.first := Except.ok.inj (readFirst.symm.trans ownFirst)
  obtain rfl : last = r.last := Except.ok.inj (readLast.symm.trans ownLast)
  exact ⟨r.ordered, narrow⟩

theorem IsPiece.size_le (h : IsPiece piece r) : r.size ≤ 2 ^ 20 := by
  cases h with
  | id => simp [IdRange.size, IdRange.single]
  | range _ _ _ narrow =>
    simp only [IdRange.size]
    omega

theorem read_ne_ok_of_noNumber (h : NoNumber cs) (n : UInt64) :
    Numeral.read (String.ofList cs) ≠ .ok n := by
  intro number
  have spelled := Numeral.spells_of_read number
  cases h with
  | empty => exact spelled.ne_nil rfl
  | blank mem blank => exact Numeral.not_isBlank_of_isAlphanum (spelled.isAlphanum _ mem) blank
  | sign sign =>
    have letter := spelled.isAlphanum _ List.mem_cons_self
    rcases sign with rfl | rfl <;> exact absurd letter (by decide)
  | tooLarge other large =>
    rw [Numeral.read_of_large (by simpa using other) large] at number
    cases number

theorem not_isPiece_of_faulty (h : Faulty piece) (r : IdRange) : ¬IsPiece piece r := by
  intro form
  cases h with
  | id plain none =>
    cases form with
    | id number => exact read_ne_ok_of_noNumber none _ number
    | range => exact plain (by simp)
  | first none => exact read_ne_ok_of_noNumber none _ form.of_hyphen.1
  | last none => exact read_ne_ok_of_noNumber none _ form.of_hyphen.2.1
  | reversed readFirst readLast lower =>
    exact UInt64.not_le.2 lower (form.bounds readFirst readLast).1
  | tooWide readFirst readLast wide =>
    exact Nat.not_le.2 (form.bounds readFirst readLast).2 wide

theorem IsPiece.unique {t : IdRange} (hr : IsPiece piece r) (ht : IsPiece piece t) : r = t :=
  Except.ok.inj ((readPiece_eq_ok_iff.2 hr).symm.trans (readPiece_eq_ok_iff.2 ht))

end Pieces

section Lists

variable {list : List (List Char)} {ranges : List IdRange} {text : String} {s : IdSet}

theorem readPieces_eq_ok_iff : readPieces list = .ok ranges ↔ List.Forall₂ IsPiece list ranges := by
  induction list generalizing ranges with
  | nil => cases ranges <;> simp [readPieces]
  | cons piece list ih =>
    rw [readPieces, List.forall₂_cons_left_iff]
    constructor
    · intro found
      split at found
      · cases found
      · rename_i r first
        cases rest : readPieces list with
        | error => simp [rest, Except.map] at found
        | ok others =>
          rw [rest] at found
          cases found
          exact ⟨r, others, readPiece_eq_ok_iff.1 first, ih.1 rest, rfl⟩
    · rintro ⟨r, others, first, rest, rfl⟩
      rw [readPiece_eq_ok_iff.2 first, ih.2 rest]
      rfl

theorem exists_forall₂_iff :
    (∃ ranges, List.Forall₂ IsPiece list ranges) ↔ ∀ piece ∈ list, ∃ r, IsPiece piece r := by
  induction list with
  | nil => simp
  | cons piece list ih =>
    rw [List.forall_mem_cons, ← ih]
    constructor
    · rintro ⟨_, forms⟩
      cases forms with
      | cons first rest => exact ⟨⟨_, first⟩, _, rest⟩
    · rintro ⟨⟨r, first⟩, ranges, rest⟩
      exact ⟨r :: ranges, .cons first rest⟩

theorem sum_size_le (h : List.Forall₂ IsPiece list ranges) :
    (ranges.map IdRange.size).sum ≤ 2 ^ 20 * list.length := by
  induction h with
  | nil => simp
  | cons first _ ih =>
    have narrow := first.size_le
    rw [List.map_cons, List.sum_cons, List.length_cons]
    omega

theorem exists_holds_iff (h : List.Forall₂ IsPiece list ranges) (id : UInt64) :
    (∃ r ∈ ranges, r.Holds id) ↔ ∃ piece ∈ list, ∃ r, IsPiece piece r ∧ r.Holds id := by
  induction h with
  | nil => simp
  | @cons piece r list ranges first _ ih =>
    have here : (∃ t, IsPiece piece t ∧ t.Holds id) ↔ r.Holds id :=
      ⟨fun ⟨t, other, hold⟩ => first.unique other ▸ hold, fun hold => ⟨r, first, hold⟩⟩
    simp only [List.mem_cons, exists_eq_or_imp, ih, here]

theorem read_eq_ok_iff_of_filled (filled : Text.trim text.toList ≠ []) :
    read text = .ok s ↔
      ∃ ranges, List.Forall₂ IsPiece (pieces text) ranges ∧ s = ofRanges ranges := by
  have eq : read text = (readPieces (pieces text)).map ofRanges := by
    rw [read, pieces, ← Text.splitAt_eq_splitOn]
    split
    · contradiction
    · rfl
  rw [eq]
  cases found : readPieces (pieces text) with
  | error failure =>
    simp only [← readPieces_eq_ok_iff, found, Except.map]
    simp
  | ok ranges =>
    simp only [← readPieces_eq_ok_iff, found, Except.map]
    simp [eq_comm]

theorem read_eq_ok_of_blank (blank : Text.trim text.toList = []) : read text = .ok empty := by
  rw [read, blank]

theorem read_eq_ok_iff_denotes : read text = .ok s ↔ Denotes text s := by
  by_cases blank : Text.trim text.toList = []
  · rw [read_eq_ok_of_blank blank]
    constructor
    · rintro ⟨⟩
      exact .blank blank rfl
    · intro denotes
      cases denotes with
      | blank _ none => rw [none]
      | union filled => exact absurd blank filled
  · rw [read_eq_ok_iff_of_filled blank]
    constructor
    · rintro ⟨ranges, forms, rfl⟩
      refine .union blank (exists_forall₂_iff.1 ⟨ranges, forms⟩) fun id => ?_
      rw [mem_ofRanges, exists_holds_iff forms]
    · intro denotes
      cases denotes with
      | blank none => exact absurd none blank
      | union _ all union =>
        obtain ⟨ranges, forms⟩ := exists_forall₂_iff.2 all
        refine ⟨ranges, forms, eq_of_mem_iff fun id => ?_⟩
        rw [union, mem_ofRanges, exists_holds_iff forms]

theorem exists_denotes_iff :
    (∃ s, Denotes text s) ↔
      (Text.trim text.toList ≠ [] → ∀ piece ∈ pieces text, ∃ r, IsPiece piece r) := by
  constructor
  · rintro ⟨s, denotes⟩ filled
    cases denotes with
    | blank none => exact absurd none filled
    | union _ all => exact all
  · intro all
    by_cases blank : Text.trim text.toList = []
    · exact ⟨empty, .blank blank rfl⟩
    · obtain ⟨ranges, forms⟩ := exists_forall₂_iff.2 (all blank)
      exact ⟨_, read_eq_ok_iff_denotes.1 ((read_eq_ok_iff_of_filled blank).2 ⟨ranges, forms, rfl⟩)⟩

theorem exists_read_error_iff :
    (∃ failure, read text = .error failure) ↔
      Text.trim text.toList ≠ [] ∧ ∃ piece ∈ pieces text, ∀ r, ¬IsPiece piece r := by
  have outcome : (∃ failure, read text = .error failure) ↔ ¬∃ s, read text = .ok s := by
    cases read text <;> simp
  simp only [outcome, read_eq_ok_iff_denotes, exists_denotes_iff]
  push Not
  rfl

theorem ncard_le_of_read (h : read text = .ok s) :
    {id | id ∈ s}.ncard ≤ 2 ^ 20 * (pieces text).length := by
  by_cases blank : Text.trim text.toList = []
  · rw [read_eq_ok_of_blank blank] at h
    cases h
    simp
  · obtain ⟨ranges, forms, rfl⟩ := (read_eq_ok_iff_of_filled blank).1 h
    exact (ncard_ofRanges_le ranges).trans (sum_size_le forms)

/-- A text is read exactly if it is blank or each of its pieces is an integer or a range that is in
order and not too wide, and then as the union of its pieces, which bounds the number of ids. Any
other piece makes it unreadable, as do an empty one, a blank or a sign inside, a range that is
reversed or too wide, and an integer of more than 64 bits. -/
theorem read_iff_denotes (text : String) :
    (∀ s, read text = .ok s ↔ Denotes text s) ∧
    ((∃ failure, read text = .error failure) ↔
      Text.trim text.toList ≠ [] ∧ ∃ piece ∈ pieces text, ∀ r, ¬IsPiece piece r) ∧
    (Text.trim text.toList ≠ [] → ∀ piece ∈ pieces text, Faulty piece →
      ∃ failure, read text = .error failure) ∧
    ∀ s, read text = .ok s → {id | id ∈ s}.ncard ≤ 2 ^ 20 * (pieces text).length := by
  refine ⟨fun s => read_eq_ok_iff_denotes, exists_read_error_iff, ?_, fun s => ncard_le_of_read⟩
  intro filled piece mem faulty
  exact exists_read_error_iff.2 ⟨filled, piece, mem, not_isPiece_of_faulty faulty⟩

theorem denotes_mixedList :
    Denotes " 0x2,1-3,2\n" ⟨[⟨1, 3, by decide⟩], by simp⟩ ∧
    {id | id ∈ (⟨[⟨1, 3, by decide⟩], by simp⟩ : IdSet)}.ncard ≤ 2 ^ 20 * 3 ∧
    ∃ failure, read "1,,3" = .error failure :=
  ⟨((read_iff_denotes _).1 _).1 rfl, (read_iff_denotes " 0x2,1-3,2\n").2.2.2 _ rfl,
    (read_iff_denotes "1,,3").2.2.1 (by decide) [] (by decide) (.id (by simp) .empty)⟩

end Lists

end HostInventory.IdSet
