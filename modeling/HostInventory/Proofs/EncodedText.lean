import HostInventory.Proofs.ByteDamage

/-! Bytes without damage. The decoder takes exactly the bytes that are written for a text, so whether
bytes are well-formed can be said without it. -/
namespace HostInventory

namespace Utf8

variable {bits due : Nat} {low high : UInt8} {bytes : List UInt8} {cs : List Char}

theorem exists_continuation (whole : items (.inside bits due low high) bytes = cs.map some) :
    ∃ b rest, bytes = b :: rest ∧ low.toNat ≤ b.toNat ∧ b.toNat ≤ high.toNat ∧
      (feed (.inside bits due low high) b).1 ++ items (feed (.inside bits due low high) b).2 rest =
        cs.map some := by
  cases bytes with
  | nil => cases cs <;> simp [items, finish] at whole
  | cons b rest =>
    by_cases continues : low ≤ b ∧ b ≤ high
    · exact ⟨b, rest, rfl, UInt8.le_iff_toNat_le.1 continues.1, UInt8.le_iff_toNat_le.1 continues.2,
        whole⟩
    · rw [items, feed, if_neg continues] at whole
      cases cs <;> simp at whole

theorem exists_of_last (whole : items (.inside bits 1 low high) bytes = cs.map some) :
    ∃ b rest cs', bytes = b :: rest ∧ low.toNat ≤ b.toNat ∧ b.toNat ≤ high.toNat ∧
      cs = Char.ofNat (bits * 64 + b.toNat % 64) :: cs' ∧ items .ground rest = cs'.map some := by
  obtain ⟨b, rest, rfl, above, below, whole⟩ := exists_continuation whole
  have continues : low ≤ b ∧ b ≤ high :=
    ⟨UInt8.le_iff_toNat_le.2 above, UInt8.le_iff_toNat_le.2 below⟩
  rw [feed, if_pos continues] at whole
  cases cs with
  | nil => simp at whole
  | cons c cs' =>
    obtain ⟨first, others⟩ : Char.ofNat (bits * 64 + b.toNat % 64) = c ∧
        items .ground rest = cs'.map some := by simpa using whole
    exact ⟨b, rest, cs', rfl, above, below, by rw [first], others⟩

theorem exists_of_next (whole : items (.inside bits (due + 2) low high) bytes = cs.map some) :
    ∃ b rest, bytes = b :: rest ∧ low.toNat ≤ b.toNat ∧ b.toNat ≤ high.toNat ∧
      items (.inside (bits * 64 + b.toNat % 64) (due + 1) 0x80 0xBF) rest = cs.map some := by
  obtain ⟨b, rest, rfl, above, below, whole⟩ := exists_continuation whole
  have continues : low ≤ b ∧ b ≤ high :=
    ⟨UInt8.le_iff_toNat_le.2 above, UInt8.le_iff_toNat_le.2 below⟩
  rw [feed, if_pos continues] at whole
  exact ⟨b, rest, rfl, above, below, by simpa using whole⟩

theorem utf8EncodeChar_ofNat {n : Nat} (valid : n.isValidChar) :
    String.utf8EncodeChar (Char.ofNat n) =
      if n ≤ 0x7f then [.ofNat n]
      else if n ≤ 0x7ff then [.ofNat (n / 64 % 32 + 192), .ofNat (n % 64 + 128)]
      else if n ≤ 0xffff then
        [.ofNat (n / 4096 % 16 + 224), .ofNat (n / 64 % 64 + 128), .ofNat (n % 64 + 128)]
      else [.ofNat (n / 262144 % 8 + 240), .ofNat (n / 4096 % 64 + 128), .ofNat (n / 64 % 64 + 128),
        .ofNat (n % 64 + 128)] := by
  have code : (Char.ofNat n).val.toNat = n := by
    rw [Char.ofNat, dif_pos valid]
    rfl
  simp only [String.utf8EncodeChar, code]

theorem ofNat_eq {n : Nat} {b : UInt8} (same : n = b.toNat) : UInt8.ofNat n = b := by
  rw [same, UInt8.ofNat_toNat]

theorem utf8EncodeChar_of_one {b : UInt8} (lead : b.toNat < 0x80) :
    String.utf8EncodeChar (.ofNat b.toNat) = [b] := by
  have valid : b.toNat.isValidChar := .inl (by omega)
  rw [utf8EncodeChar_ofNat valid, if_pos (by omega), UInt8.ofNat_toNat]

theorem utf8EncodeChar_of_two {b b₁ : UInt8} (lead : 0xC2 ≤ b.toNat ∧ b.toNat < 0xE0)
    (tail : 0x80 ≤ b₁.toNat ∧ b₁.toNat ≤ 0xBF) :
    String.utf8EncodeChar (.ofNat (b.toNat % 32 * 64 + b₁.toNat % 64)) = [b, b₁] := by
  generalize code : b.toNat % 32 * 64 + b₁.toNat % 64 = n
  have valid : n.isValidChar := .inl (by omega)
  rw [utf8EncodeChar_ofNat valid, if_neg (by omega), if_pos (by omega), ofNat_eq (b := b) (by omega),
    ofNat_eq (b := b₁) (by omega)]

theorem utf8EncodeChar_of_three {b b₁ b₂ : UInt8} (lead : 0xE0 ≤ b.toNat ∧ b.toNat < 0xF0)
    (low : (if b = 0xE0 then 0xA0 else 0x80 : UInt8).toNat ≤ b₁.toNat)
    (high : b₁.toNat ≤ (if b = 0xED then 0x9F else 0xBF : UInt8).toNat)
    (tail : 0x80 ≤ b₂.toNat ∧ b₂.toNat ≤ 0xBF) :
    String.utf8EncodeChar
      (.ofNat ((b.toNat % 16 * 64 + b₁.toNat % 64) * 64 + b₂.toNat % 64)) = [b, b₁, b₂] := by
  generalize code : (b.toNat % 16 * 64 + b₁.toNat % 64) * 64 + b₂.toNat % 64 = n
  have second : 0x80 ≤ b₁.toNat ∧ b₁.toNat ≤ 0xBF ∧ (b.toNat = 0xE0 → 0xA0 ≤ b₁.toNat) ∧
      (b.toNat = 0xED → b₁.toNat ≤ 0x9F) := by
    simp only [← UInt8.toNat_inj, UInt8.reduceToNat] at low high
    split_ifs at low high <;> simp only [UInt8.reduceToNat] at low high <;> omega
  have valid : n.isValidChar := by
    simp only [Nat.isValidChar]
    omega
  rw [utf8EncodeChar_ofNat valid, if_neg (by omega), if_neg (by omega), if_pos (by omega),
    ofNat_eq (b := b) (by omega), ofNat_eq (b := b₁) (by omega), ofNat_eq (b := b₂) (by omega)]

theorem utf8EncodeChar_of_four {b b₁ b₂ b₃ : UInt8} (lead : 0xF0 ≤ b.toNat ∧ b.toNat < 0xF5)
    (low : (if b = 0xF0 then 0x90 else 0x80 : UInt8).toNat ≤ b₁.toNat)
    (high : b₁.toNat ≤ (if b = 0xF4 then 0x8F else 0xBF : UInt8).toNat)
    (tail : 0x80 ≤ b₂.toNat ∧ b₂.toNat ≤ 0xBF) (tail' : 0x80 ≤ b₃.toNat ∧ b₃.toNat ≤ 0xBF) :
    String.utf8EncodeChar
      (.ofNat (((b.toNat % 8 * 64 + b₁.toNat % 64) * 64 + b₂.toNat % 64) * 64 + b₃.toNat % 64)) =
      [b, b₁, b₂, b₃] := by
  generalize code : ((b.toNat % 8 * 64 + b₁.toNat % 64) * 64 + b₂.toNat % 64) * 64 +
    b₃.toNat % 64 = n
  have second : 0x80 ≤ b₁.toNat ∧ b₁.toNat ≤ 0xBF ∧ (b.toNat = 0xF0 → 0x90 ≤ b₁.toNat) ∧
      (b.toNat = 0xF4 → b₁.toNat ≤ 0x8F) := by
    simp only [← UInt8.toNat_inj, UInt8.reduceToNat] at low high
    split_ifs at low high <;> simp only [UInt8.reduceToNat] at low high <;> omega
  have valid : n.isValidChar := .inr (by omega)
  rw [utf8EncodeChar_ofNat valid, if_neg (by omega), if_neg (by omega), if_neg (by omega),
    ofNat_eq (b := b) (by omega), ofNat_eq (b := b₁) (by omega), ofNat_eq (b := b₂) (by omega),
    ofNat_eq (b := b₃) (by omega)]

theorem exists_first {b : UInt8} (whole : items .ground (b :: bytes) = cs.map some) :
    ∃ c cs' rest, cs = c :: cs' ∧ b :: bytes = String.utf8EncodeChar c ++ rest ∧
      items .ground rest = cs'.map some := by
  rw [items, feed, start] at whole
  by_cases ascii : b < 0x80
  · rw [if_pos ascii] at whole
    cases cs with
    | nil => simp at whole
    | cons c cs' =>
      obtain ⟨first, others⟩ : Char.ofNat b.toNat = c ∧ items .ground bytes = cs'.map some := by
        simpa using whole
      exact ⟨c, cs', bytes, rfl, by rw [← first, utf8EncodeChar_of_one ascii]; rfl, others⟩
  by_cases stray : b < 0xC2
  · rw [if_neg ascii, if_pos stray] at whole
    cases cs <;> simp at whole
  by_cases two : b < 0xE0
  · rw [if_neg ascii, if_neg stray, if_pos two] at whole
    obtain ⟨b₁, rest, cs', rfl, low, high, rfl, others⟩ := exists_of_last whole
    exact ⟨_, cs', rest, rfl,
      by rw [utf8EncodeChar_of_two ⟨Nat.not_lt.1 stray, two⟩ ⟨low, high⟩]; rfl, others⟩
  by_cases three : b < 0xF0
  · rw [if_neg ascii, if_neg stray, if_neg two, if_pos three] at whole
    obtain ⟨b₁, rest, rfl, low, high, whole⟩ := exists_of_next whole
    obtain ⟨b₂, rest, cs', rfl, low', high', rfl, others⟩ := exists_of_last whole
    exact ⟨_, cs', rest, rfl,
      by rw [utf8EncodeChar_of_three ⟨Nat.not_lt.1 two, three⟩ low high ⟨low', high'⟩]; rfl, others⟩
  by_cases four : b < 0xF5
  · rw [if_neg ascii, if_neg stray, if_neg two, if_neg three, if_pos four] at whole
    obtain ⟨b₁, rest, rfl, low, high, whole⟩ := exists_of_next whole
    obtain ⟨b₂, rest, rfl, low', high', whole⟩ := exists_of_next whole
    obtain ⟨b₃, rest, cs', rfl, low'', high'', rfl, others⟩ := exists_of_last whole
    exact ⟨_, cs', rest, rfl,
      by rw [utf8EncodeChar_of_four ⟨Nat.not_lt.1 three, four⟩ low high ⟨low', high'⟩
        ⟨low'', high''⟩]; rfl, others⟩
  · rw [if_neg ascii, if_neg stray, if_neg two, if_neg three, if_neg four] at whole
    cases cs <;> simp at whole

theorem eq_flatMap_of_items (whole : items .ground bytes = cs.map some) :
    bytes = cs.flatMap String.utf8EncodeChar := by
  induction cs generalizing bytes with
  | nil =>
    cases bytes with
    | nil => rfl
    | cons b bytes =>
      obtain ⟨c, cs', rest, empty, -⟩ := exists_first whole
      cases empty
  | cons c cs ih =>
    cases bytes with
    | nil => simp [items, finish] at whole
    | cons b bytes =>
      obtain ⟨c', cs', rest, shape, first, others⟩ := exists_first whole
      obtain ⟨rfl, rfl⟩ := List.cons.inj shape
      rw [first, List.flatMap_cons, ← ih others]

theorem items_eq_of_mapM {found : List Item} (whole : found.mapM id = some cs) :
    found = cs.map some := by
  induction found generalizing cs with
  | nil =>
    cases whole
    rfl
  | cons item rest ih =>
    cases item with
    | none => simp at whole
    | some c =>
      obtain ⟨cs', others, rfl⟩ : ∃ cs', rest.mapM id = some cs' ∧ c :: cs' = cs := by
        simpa [List.mapM_cons, Option.bind_eq_some_iff] using whole
      rw [ih others]
      rfl

theorem decode?_encode (text : String) : decode? (encode text) = some text.toList := by
  have each : id ∘ some = (pure : Char → Option Char) := rfl
  rw [decode?, items_encode, List.mapM_map, each, List.mapM_pure, List.map_id']
  rfl

theorem decode?_eq_some_iff : decode? bytes = some cs ↔ bytes = encode (String.ofList cs) := by
  constructor
  · intro whole
    rw [encode_eq, String.toList_ofList]
    exact eq_flatMap_of_items (items_eq_of_mapM whole)
  · rintro rfl
    rw [decode?_encode, String.toList_ofList]

end Utf8

theorem Host.readText_eq_ok_iff {h : Host} {path : Path} {text : String} :
    h.readText path = .ok text ↔
      ∃ content, h.read path = .ok (Utf8.encode content) ∧
        String.ofList (Text.trim content.toList) = text := by
  constructor
  · intro read
    cases found : h.read path with
    | error fault => simp [readText, found] at read
    | ok bytes =>
      cases decoded : Utf8.decode? bytes with
      | none => simp [readText, found, decoded] at read
      | some cs =>
        simp only [readText, found, decoded, Except.ok.injEq] at read
        exact ⟨String.ofList cs, by rw [Utf8.decode?_eq_some_iff.1 decoded],
          by rw [String.toList_ofList, read]⟩
  · rintro ⟨content, found, rfl⟩
    simp only [readText, found, Utf8.decode?_encode]

end HostInventory
