/-! Blank characters, those with the Unicode property White_Space, and the removal of blanks
around and inside a text. -/
namespace HostInventory.Text

def isBlank (c : Char) : Bool :=
  let n := c.toNat
  (0x09 ≤ n && n ≤ 0x0D) || n == 0x20 || n == 0x85 || n == 0xA0 || n == 0x1680 ||
    (0x2000 ≤ n && n ≤ 0x200A) || n == 0x2028 || n == 0x2029 || n == 0x202F || n == 0x205F ||
    n == 0x3000

def trimLeft (cs : List Char) : List Char := cs.dropWhile isBlank

def trimRight (cs : List Char) : List Char := (cs.reverse.dropWhile isBlank).reverse

def trim (cs : List Char) : List Char := trimRight (trimLeft cs)

def squeeze (cs : List Char) : List Char := cs.filter fun c => !isBlank c

theorem trim_of_all_blank {cs : List Char} (h : ∀ c ∈ cs, isBlank c) : trim cs = [] := by
  have : trimLeft cs = [] := by
    induction cs with
    | nil => rfl
    | cons c cs ih => simp_all [trimLeft]
  simp [trim, this, trimRight]

end HostInventory.Text
