import HostInventory.Proofs.ByteDamage

/-! The order of texts. Texts are compared character by character, and since the bytes of a
character keep the order of its code, comparing the bytes of two texts gives the same. -/
namespace HostInventory.Utf8

theorem digits_lt_of_lt {m n : Nat} (below : m < n) (code : n < 0x110000) :
    m / 262144 % 8 < n / 262144 % 8 ∨ m / 262144 % 8 = n / 262144 % 8 ∧
      (m / 4096 % 64 < n / 4096 % 64 ∨ m / 4096 % 64 = n / 4096 % 64 ∧
        (m / 64 % 64 < n / 64 % 64 ∨ m / 64 % 64 = n / 64 % 64 ∧ m % 64 < n % 64)) := by
  have lower : m / 262144 % 8 = m / 262144 := by omega
  have upper : n / 262144 % 8 = n / 262144 := by omega
  rw [lower, upper]
  rcases Nat.lt_or_ge (m / 262144) (n / 262144) with first | first
  · exact .inl first
  · rcases Nat.lt_or_ge (m / 4096) (n / 4096) with second | second
    · omega
    · omega

theorem utf8EncodeChar_append_lt {a b : Char} (below : a < b) (x y : List UInt8) :
    String.utf8EncodeChar a ++ x < String.utf8EncodeChar b ++ y := by
  have codes : a.val.toNat < b.val.toNat := below
  have most : b.val.toNat < 0x110000 := by
    have valid := b.valid
    omega
  simp only [String.utf8EncodeChar]
  generalize a.val.toNat = m at codes
  generalize b.val.toNat = n at codes most
  have digits := digits_lt_of_lt codes most
  split_ifs <;>
    simp only [List.cons_append, List.nil_append, List.cons_lt_cons_iff, UInt8.lt_iff_toNat_lt,
      ← UInt8.toNat_inj] <;>
    simp (disch := simp only [UInt8.size]; omega) only [UInt8.toNat_ofNat_of_lt'] <;>
    omega

theorem flatMap_utf8EncodeChar_lt {cs ds : List Char} (below : cs < ds) :
    cs.flatMap String.utf8EncodeChar < ds.flatMap String.utf8EncodeChar := by
  induction cs generalizing ds with
  | nil =>
    cases ds with
    | nil => exact absurd below (List.lt_irrefl _)
    | cons d ds =>
      rw [List.flatMap_nil, List.flatMap_cons]
      obtain ⟨first, more, bytes⟩ := List.exists_cons_of_ne_nil (@String.utf8EncodeChar_ne_nil d)
      rw [bytes]
      exact List.nil_lt_cons _ _
  | cons c cs ih =>
    cases ds with
    | nil => exact absurd below (List.not_lt_nil _)
    | cons d ds =>
      rw [List.flatMap_cons, List.flatMap_cons]
      rcases List.cons_lt_cons_iff.1 below with first | ⟨rfl, rest⟩
      · exact utf8EncodeChar_append_lt first _ _
      · exact List.append_left_lt (ih rest)

theorem encode_lt_encode_iff {s t : String} : encode s < encode t ↔ s < t := by
  have keeps {s t : String} (below : s < t) : encode s < encode t := by
    rw [encode_eq, encode_eq]
    exact flatMap_utf8EncodeChar_lt below
  refine ⟨fun below => ?_, keeps⟩
  by_contra other
  by_cases greater : t < s
  · exact List.lt_asymm below (keeps greater)
  · rw [OrderedMap.eq_of_not_lt other greater] at below
    exact List.lt_irrefl _ below

end HostInventory.Utf8
