import HostInventory.Proofs.StanzaBlocks

/-! The bytes of a listing, damaged or not. The bytes of a text are read as this text. An ASCII byte
ends whatever character stands open before it, as one damaged piece, and is read for itself. So a
blank line parts the bytes before it from those after it in every state of the decoder, and no
damage on one side reaches the stanzas on the other. -/
namespace HostInventory

namespace Utf8

section RoundTrip

theorem encode_eq (text : String) : encode text = text.toList.flatMap String.utf8EncodeChar := by
  rw [encode, String.toUTF8_eq_toByteArray, ← String.ofList_toList (s := text),
    String.toByteArray_ofList, String.toList_ofList, List.utf8Encode, List.toList_data_toByteArray]

theorem start_ofNat_of_ascii : ∀ n < 128, start (.ofNat n) = ([some (Char.ofNat n)], .ground) := by
  decide

theorem start_ofNat_of_two : ∀ n < 32, 2 ≤ n →
    start (.ofNat (n % 32 + 192)) = ([], .inside n 1 0x80 0xBF) := by
  decide

theorem start_ofNat_of_three : ∀ n < 16, start (.ofNat (n % 16 + 224)) =
    ([], .inside n 2 (if n = 0 then 0xA0 else 0x80) (if n = 13 then 0x9F else 0xBF)) := by
  decide

theorem start_ofNat_of_four : ∀ n < 5, start (.ofNat (n % 8 + 240)) =
    ([], .inside n 3 (if n = 0 then 0x90 else 0x80) (if n = 4 then 0x8F else 0xBF)) := by
  decide

theorem items_cons_of_start {b : UInt8} {found : List Item} {s : State}
    (first : start b = (found, s)) (bytes : List UInt8) :
    items .ground (b :: bytes) = found ++ items s bytes := by
  rw [items, feed, first]

variable {bits due digit : Nat} {low high : UInt8}

theorem feed_ofNat (small : digit < 64) (above : low.toNat ≤ digit + 128)
    (below : digit + 128 ≤ high.toNat) :
    feed (.inside bits due low high) (.ofNat (digit + 128)) =
      if due ≤ 1 then ([some (Char.ofNat (bits * 64 + digit))], .ground)
      else ([], .inside (bits * 64 + digit) (due - 1) 0x80 0xBF) := by
  have code : (UInt8.ofNat (digit + 128)).toNat = digit + 128 :=
    UInt8.toNat_ofNat_of_lt' (by simp only [UInt8.size]; omega)
  have continues : low ≤ .ofNat (digit + 128) ∧ .ofNat (digit + 128) ≤ high := by
    simp only [UInt8.le_iff_toNat_le, code]
    exact ⟨above, below⟩
  have rest : (digit + 128) % 64 = digit := by omega
  rw [feed, if_pos continues, code, rest]

theorem items_last (small : digit < 64) (bytes : List UInt8) :
    items (.inside bits 1 0x80 0xBF) (.ofNat (digit + 128) :: bytes) =
      some (Char.ofNat (bits * 64 + digit)) :: items .ground bytes := by
  have below : digit + 128 ≤ (0xBF : UInt8).toNat := by
    simp only [UInt8.reduceToNat]
    omega
  rw [items, feed_ofNat small (Nat.le_add_left ..) below]
  rfl

theorem items_next (small : digit < 64) (above : low.toNat ≤ digit + 128)
    (below : digit + 128 ≤ high.toNat) (bytes : List UInt8) :
    items (.inside bits (due + 2) low high) (.ofNat (digit + 128) :: bytes) =
      items (.inside (bits * 64 + digit) (due + 1) 0x80 0xBF) bytes := by
  rw [items, feed_ofNat small above below]
  rfl

theorem items_utf8EncodeChar (c : Char) (bytes : List UInt8) :
    items .ground (String.utf8EncodeChar c ++ bytes) = some c :: items .ground bytes := by
  have valid : c.toNat < 0xD800 ∨ 0xDFFF < c.toNat ∧ c.toNat < 0x110000 := c.valid
  have code : c.val.toNat = c.toNat := rfl
  have same : Char.ofNat c.toNat = c := Char.ofNat_toNat c
  generalize c.toNat = n at same valid code
  subst same
  have digit (m : Nat) : m % 64 < 64 := Nat.mod_lt m (by decide)
  simp only [String.utf8EncodeChar, code]
  split_ifs with one two three <;> simp only [List.cons_append, List.nil_append]
  · exact items_cons_of_start (start_ofNat_of_ascii n (by omega)) bytes
  · have whole : n / 64 * 64 + n % 64 = n := by omega
    have first := start_ofNat_of_two (n / 64) (by omega) (by omega)
    rw [items_cons_of_start first, items_last (digit n), whole, List.nil_append]
  · have whole : (n / 4096 * 64 + n / 64 % 64) * 64 + n % 64 = n := by omega
    have first := start_ofNat_of_three (n / 4096) (by omega)
    rw [items_cons_of_start first, items_next (digit _), items_last (digit n), whole,
      List.nil_append]
    -- the code is neither overlong nor a surrogate, so the second byte is within its bounds
    · split_ifs <;> simp only [UInt8.reduceToNat] <;> omega
    · split_ifs <;> simp only [UInt8.reduceToNat] <;> omega
  · have whole : ((n / 262144 * 64 + n / 4096 % 64) * 64 + n / 64 % 64) * 64 + n % 64 = n := by
      omega
    have first := start_ofNat_of_four (n / 262144) (by omega)
    rw [items_cons_of_start first, items_next (digit _), items_next (digit _),
      items_last (digit n), whole, List.nil_append]
    · simp only [UInt8.reduceToNat]; omega
    · simp only [UInt8.reduceToNat]; omega
    · split_ifs <;> simp only [UInt8.reduceToNat] <;> omega
    · split_ifs <;> simp only [UInt8.reduceToNat] <;> omega

theorem items_encode (text : String) : items .ground (encode text) = text.toList.map some := by
  rw [encode_eq]
  induction text.toList with
  | nil => rfl
  | cons c rest ih => rw [List.flatMap_cons, items_utf8EncodeChar, ih, List.map_cons]

theorem decodeLossy_encode (text : String) : decodeLossy (encode text) = text.toList := by
  rw [decodeLossy, items_encode, List.map_map]
  exact List.map_id _

end RoundTrip

section Damage

/-- Only characters beyond ASCII can still come of a character that stands open. -/
def State.Wide : State → Prop
  | .ground => True
  | .inside bits due low high => 0x80 ≤ low.toNat ∧ high.toNat ≤ 0xBF ∧
      (due ≤ 1 → 2 ≤ bits) ∧ (1 < due → 1 ≤ bits ∨ 0x90 ≤ low.toNat)

theorem wide_start (b : UInt8) : (start b).2.Wide := by
  unfold start
  simp only [UInt8.lt_iff_toNat_lt, ← UInt8.toNat_inj, UInt8.reduceToNat]
  split_ifs <;> simp only [State.Wide, UInt8.reduceToNat] <;> omega

theorem wide_feed {s : State} (wide : s.Wide) (b : UInt8) : (feed s b).2.Wide := by
  cases s with
  | ground => exact wide_start b
  | inside bits due low high =>
    obtain ⟨tail, top, last, more⟩ := wide
    unfold feed
    simp only [UInt8.le_iff_toNat_le]
    split_ifs with continues
    · trivial
    · simp only [State.Wide, UInt8.reduceToNat]
      omega
    · exact wide_start b

theorem feed_ascii {s : State} (wide : s.Wide) {b : UInt8} (ascii : b < 0x80) :
    feed s b = (finish s ++ [some (Char.ofNat b.toNat)], .ground) := by
  have alone : start b = ([some (Char.ofNat b.toNat)], .ground) := if_pos ascii
  cases s with
  | ground => exact alone
  | inside bits due low high =>
    have outside : ¬(low ≤ b ∧ b ≤ high) := by
      have tail := wide.1
      simp only [UInt8.lt_iff_toNat_lt, UInt8.le_iff_toNat_le, UInt8.reduceToNat] at ascii ⊢
      omega
    rw [feed, if_neg outside, alone]
    rfl

/-- What comes before an ASCII byte is read as if the bytes ended there. -/
theorem items_append_ascii {s : State} (wide : s.Wide) (before after : List UInt8) {b : UInt8}
    (ascii : b < 0x80) :
    items s (before ++ b :: after) =
      items s before ++ some (Char.ofNat b.toNat) :: items .ground after := by
  induction before generalizing s with
  | nil => simp [items, feed_ascii wide ascii]
  | cons x before ih => simp [items, ih (wide_feed wide x)]

theorem decodeLossy_append_newline (before after : List UInt8) :
    decodeLossy (before ++ 0x0A :: after) = decodeLossy before ++ '\n' :: decodeLossy after := by
  have ground : State.ground.Wide := trivial
  rw [decodeLossy, items_append_ascii ground before after (by decide), List.map_append]
  rfl

theorem ofNat_eq_colon_iff {n : Nat} : Char.ofNat n = ':' ↔ n = 0x3A := by
  constructor
  · intro same
    by_cases valid : n.isValidChar
    · have code : (Char.ofNat n).toNat = n := by
        rw [Char.ofNat, dif_pos valid]
        rfl
      rw [← code, same]
      rfl
    · rw [Char.ofNat, dif_neg valid] at same
      exact absurd same (by decide)
  · rintro rfl
    rfl

theorem colon_mem_start_iff (b : UInt8) : some ':' ∈ (start b).1 ↔ b = 0x3A := by
  by_cases ascii : b < 0x80
  · rw [start, if_pos ascii, List.mem_singleton, Option.some.injEq, eq_comm, ofNat_eq_colon_iff,
      ← UInt8.toNat_inj]
    rfl
  · have other : b ≠ 0x3A := fun same => ascii (same ▸ by decide)
    have silent : some ':' ∉ (start b).1 := by
      rw [start, if_neg ascii]
      split_ifs <;> simp
    simp [other, silent]

theorem colon_mem_feed_iff {s : State} (wide : s.Wide) (b : UInt8) :
    some ':' ∈ (feed s b).1 ↔ b = 0x3A := by
  cases s with
  | ground => exact colon_mem_start_iff b
  | inside bits due low high =>
    obtain ⟨tail, top, last, more⟩ := wide
    by_cases continues : low ≤ b ∧ b ≤ high
    · have other : b ≠ 0x3A := by
        rintro rfl
        simp only [UInt8.le_iff_toNat_le, UInt8.reduceToNat] at continues
        omega
      rw [feed, if_pos continues]
      by_cases complete : due ≤ 1
      · have beyond : Char.ofNat (bits * 64 + b.toNat % 64) ≠ ':' := by
          rw [Ne, ofNat_eq_colon_iff]
          omega
        simp [complete, other, beyond.symm]
      · simp [complete, other]
    · rw [feed, if_neg continues]
      simpa using colon_mem_start_iff b

theorem colon_mem_items_iff {s : State} (wide : s.Wide) (bytes : List UInt8) :
    some ':' ∈ items s bytes ↔ 0x3A ∈ bytes := by
  induction bytes generalizing s with
  | nil => cases s <;> simp [items, finish]
  | cons b bytes ih =>
    rw [items, List.mem_append, colon_mem_feed_iff wide, ih (wide_feed wide b), List.mem_cons,
      eq_comm]

theorem colon_mem_decodeLossy_iff (bytes : List UInt8) :
    ':' ∈ decodeLossy bytes ↔ 0x3A ∈ bytes := by
  have ground : State.ground.Wide := trivial
  rw [← colon_mem_items_iff ground, decodeLossy, List.mem_map]
  constructor
  · rintro ⟨item, member, colon⟩
    cases item with
    | none => exact absurd colon (by decide)
    | some c => exact (show c = ':' from colon) ▸ member
  · intro member
    exact ⟨some ':', member, rfl⟩

end Damage

end Utf8

namespace Stanza

theorem ofBytes_encode (text : String) : ofBytes (Utf8.encode text) = ofText text := by
  rw [ofBytes, Utf8.decodeLossy_encode, ofText]

theorem ofChars_append_blank_line (before after : List Char) :
    ofChars (before ++ '\n' :: '\n' :: after) = ofChars before ++ ofChars after := by
  have lines : Text.lines (before ++ '\n' :: '\n' :: after) =
      Text.lines before ++ [] :: Text.lines after := by
    rw [Text.lines, Text.splitAt_append_cons, Text.splitAt, if_pos rfl]
    rfl
  rw [ofChars, lines, ofLines_append_blank _ _ rfl]
  rfl

theorem ofBytes_append_blank_line (before after : List UInt8) :
    ofBytes (before ++ [0x0A, 0x0A] ++ after) = ofBytes before ++ ofBytes after := by
  have shape : before ++ [0x0A, 0x0A] ++ after = before ++ 0x0A :: [] ++ 0x0A :: after := by simp
  have chars : Utf8.decodeLossy (before ++ [0x0A, 0x0A] ++ after) =
      Utf8.decodeLossy before ++ '\n' :: '\n' :: Utf8.decodeLossy after := by
    rw [shape, Utf8.decodeLossy_append_newline, Utf8.decodeLossy_append_newline]
    simp [Utf8.decodeLossy, Utf8.items, Utf8.finish]
  rw [ofBytes, chars, ofChars_append_blank_line]
  rfl

/-- A blank line keeps the stanzas of any bytes before it apart from those of any bytes after it, so
pieces with blank lines between them list what each of them lists, in their order. -/
theorem ofBytes_of_pieces (a b : List UInt8) (pieces : List (List UInt8)) :
    ofBytes (a ++ [0x0A, 0x0A] ++ b) = ofBytes a ++ ofBytes b ∧
    ofBytes ([0x0A, 0x0A].intercalate pieces) = pieces.flatMap ofBytes := by
  refine ⟨ofBytes_append_blank_line a b, ?_⟩
  induction pieces with
  | nil => rfl
  | cons piece rest ih =>
    by_cases alone : rest = []
    · simp [alone]
    · rw [List.intercalate_cons_of_ne_nil alone, ofBytes_append_blank_line, ih, List.flatMap_cons]

end Stanza

end HostInventory
