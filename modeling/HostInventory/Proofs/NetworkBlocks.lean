import HostInventory.Proofs.AddressText
import HostInventory.Proofs.InterfaceGroups

/-! The network that an address and a mask name. Under a mask of leading ones only the bits that it
covers count, and the name has the address with all other bits cleared and the number of ones. Two
addresses are given the same name exactly if they agree in the bits that are covered. -/
namespace HostInventory.Network

section Bits

variable {w p : Nat} {mask a : BitVec w}

theorem getMsbD_of_leading (le : p ≤ w) (leading : ∀ i < w, mask.getMsbD i = decide (i < p))
    (i : Nat) : mask.getMsbD i = decide (i < p) := by
  by_cases inside : i < w
  · exact leading i inside
  · rw [BitVec.getMsbD_of_ge _ _ (Nat.le_of_not_lt inside), decide_eq_false (by omega)]

theorem getMsbD_and_of_leading (le : p ≤ w) (leading : ∀ i < w, mask.getMsbD i = decide (i < p))
    (i : Nat) : (a &&& mask).getMsbD i = (decide (i < p) && a.getMsbD i) := by
  rw [BitVec.getMsbD_and, getMsbD_of_leading le leading, Bool.and_comm]

theorem ones_of_leading (le : p ≤ w) (leading : ∀ i < w, mask.getMsbD i = decide (i < p)) :
    ones mask = p := by
  have bit : ∀ i ∈ List.range w, (mask.getLsbD i = true ↔ decide (w - p ≤ i) = true) := by
    intro i mem
    have inside : i < w := List.mem_range.1 mem
    rw [BitVec.getLsbD_eq_getMsbD, leading _ (by omega), decide_eq_true inside, Bool.true_and,
      decide_eq_true_iff, decide_eq_true_iff]
    omega
  -- counted from the least significant bit, the zeros come first
  have places : List.range w = List.range (w - p) ++ (List.range p).map (w - p + ·) := by
    rw [← List.range_add, Nat.sub_add_cancel le]
  have lower : (List.range (w - p)).countP (fun i => decide (w - p ≤ i)) = 0 := by
    apply List.countP_eq_zero.2
    intro i mem
    have below := List.mem_range.1 mem
    simpa only [decide_eq_true_iff, Nat.not_le] using below
  have upper : ((List.range p).map (w - p + ·)).countP (fun i => decide (w - p ≤ i)) = p := by
    rw [List.countP_map, List.countP_eq_length.2, List.length_range]
    intro i _
    exact decide_eq_true (Nat.le_add_right _ _)
  rw [ones, List.countP_congr bit, places, List.countP_append, lower, upper, Nat.zero_add]

end Bits

namespace Address

def width : Address → Nat
  | v4 _ => 32
  | v6 _ => 128

/-- The bits of an address, the most significant one first. -/
def bit : Address → Nat → Bool
  | v4 bits, i => bits.getMsbD i
  | v6 bits, i => bits.getMsbD i

/-- The mask has `p` ones and then zeros. -/
structure IsMask (m : Address) (p : Nat) : Prop where
  le_width : p ≤ m.width
  bit : ∀ i < m.width, m.bit i = decide (i < p)

/-- The address `n` is `a` with all bits after the first `p` cleared. -/
structure IsNetwork (a : Address) (p : Nat) (n : Address) : Prop where
  family : n.family = a.family
  bit : ∀ i, n.bit i = (decide (i < p) && a.bit i)

variable {a b m n n' : Address} {p : Nat}

@[elab_as_elim]
theorem family_cases {motive : Address → Address → Prop} (family : a.family = b.family)
    (fourth : ∀ x y, motive (v4 x) (v4 y)) (sixth : ∀ x y, motive (v6 x) (v6 y)) :
    motive a b := by
  cases a with
  | v4 x =>
    cases b with
    | v4 y => exact fourth x y
    | v6 y => cases family
  | v6 x =>
    cases b with
    | v4 y => cases family
    | v6 y => exact sixth x y

theorem eq_of_bit (family : n.family = n'.family) : (∀ i, n.bit i = n'.bit i) → n = n' := by
  refine family_cases family (fun x y same => ?_) fun x y same => ?_
  · exact congrArg v4 (BitVec.eq_of_getMsbD_eq fun i _ => same i)
  · exact congrArg v6 (BitVec.eq_of_getMsbD_eq fun i _ => same i)

theorem eq_of_text (family : n.family = n'.family) : n.text = n'.text → n = n' := by
  refine family_cases family (fun x y same => ?_) fun x y same => ?_
  · exact congrArg v4 (textV4_injective same)
  · exact congrArg v6 (textV6_injective same)

theorem exists_isNetwork (family : a.family = m.family) : m.IsMask p →
    ∃ n, a.IsNetwork p n ∧ a.networkText? m = some (n.text ++ "/" ++ toString p) := by
  refine family_cases family (fun bits mask leading => ?_) fun bits mask leading => ?_
  · have counted : ones mask = p := ones_of_leading leading.le_width leading.bit
    refine ⟨v4 (bits &&& mask), ⟨rfl, getMsbD_and_of_leading leading.le_width leading.bit⟩, ?_⟩
    rw [networkText?, counted]
    rfl
  · have counted : ones mask = p := ones_of_leading leading.le_width leading.bit
    refine ⟨v6 (bits &&& mask), ⟨rfl, getMsbD_and_of_leading leading.le_width leading.bit⟩, ?_⟩
    rw [networkText?, counted]
    rfl

theorem IsNetwork.eq_iff (family : a.family = b.family) (h : a.IsNetwork p n)
    (h' : b.IsNetwork p n') : n = n' ↔ ∀ i < p, a.bit i = b.bit i := by
  constructor
  · intro same i below
    have bit := h.bit i
    rw [same, h'.bit, decide_eq_true below, Bool.true_and, Bool.true_and] at bit
    exact bit.symm
  · intro same
    apply eq_of_bit (h.family.trans (family.trans h'.family.symm))
    intro i
    rw [h.bit, h'.bit]
    by_cases below : i < p
    · rw [same i below]
    · simp [below]

theorem networkText?_eq_iff (family : a.family = m.family) (family' : b.family = m.family)
    (mask : m.IsMask p) :
    a.networkText? m = b.networkText? m ↔ ∀ i < p, a.bit i = b.bit i := by
  have families := family.trans family'.symm
  obtain ⟨n, network, named⟩ := exists_isNetwork family mask
  obtain ⟨n', network', named'⟩ := exists_isNetwork family' mask
  have networks := network.family.trans (families.trans network'.family.symm)
  rw [named, named', ← network.eq_iff families network', Option.some.injEq,
    String.append_left_inj, String.append_left_inj]
  exact ⟨eq_of_text networks, congrArg text⟩

/-- An address and a mask of its family name the address with the bits under the zeros cleared, in
its usual text, and the number of ones. That address names the same network, and of two addresses
both do exactly if they agree under the ones. A mask of the other family names nothing. -/
theorem networkText?_names_block :
    (∀ (a m : Address) (p : Nat), a.family = m.family → m.IsMask p →
      ∃ n text, a.IsNetwork p n ∧ IsWritten n text ∧
        a.networkText? m = some (text ++ "/" ++ toString p) ∧
        n.networkText? m = a.networkText? m) ∧
    (∀ (a b m : Address) (p : Nat), a.family = m.family → b.family = m.family → m.IsMask p →
      (a.networkText? m = b.networkText? m ↔ ∀ i < p, a.bit i = b.bit i)) ∧
    ∀ a m : Address, a.family ≠ m.family → a.networkText? m = none := by
  refine ⟨fun a m p family mask => ?_, fun a b m p => networkText?_eq_iff, fun a m other => ?_⟩
  · obtain ⟨n, network, named⟩ := exists_isNetwork family mask
    refine ⟨n, n.text, network, isWritten_text n, named, ?_⟩
    rw [networkText?_eq_iff (network.family.trans family) family mask]
    intro i below
    rw [network.bit, decide_eq_true below, Bool.true_and]
  · cases a with
    | v4 =>
      cases m with
      | v4 => exact absurd rfl other
      | v6 => rfl
    | v6 =>
      cases m with
      | v4 => rfl
      | v6 => exact absurd rfl other

theorem networkText?_mappedBlock :
    let a := v6 (mapped 0x0A010203#32)
    let b := v6 (mapped 0x0A810203#32)
    let m := v6 (BitVec.allOnes 128 <<< 23)
    m.IsMask 105 ∧ a.networkText? m = some "::ffff:10.0.0.0/105" ∧
    (∃ n text, a.IsNetwork 105 n ∧ IsWritten n text ∧
      a.networkText? m = some (text ++ "/" ++ toString 105) ∧ n.networkText? m = a.networkText? m) ∧
    a.networkText? m ≠ b.networkText? m ∧ a.networkText? (v4 0xFF000000#32) = none := by
  intro a b m
  have mask : m.IsMask 105 := ⟨by decide, by decide +kernel⟩
  obtain ⟨named, agree, mixed⟩ := networkText?_names_block
  refine ⟨mask, by decide +kernel, named a m 105 rfl mask, fun same => ?_, mixed a _ (by decide)⟩
  have bit := (agree a b m 105 rfl rfl mask).1 same 104 (by decide)
  exact absurd bit (by decide)

end Address

end HostInventory.Network
