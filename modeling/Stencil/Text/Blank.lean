/-!
# Blank characters

The characters that count as blank space around a number, a name or a word: the ASCII blanks, the
four information separators, the next-line character and the Unicode space separators.
`strip` takes them off both ends of a text and touches nothing inside it.
-/

namespace Stencil.Text

/-- A blank character. -/
def isBlank (c : Char) : Bool :=
  let n := c.toNat
  (0x09 ≤ n && n ≤ 0x0d) || (0x1c ≤ n && n ≤ 0x20) || n == 0x85 || n == 0xa0 || n == 0x1680 ||
    (0x2000 ≤ n && n ≤ 0x200a) || n == 0x2028 || n == 0x2029 || n == 0x202f || n == 0x205f ||
    n == 0x3000

/-- The text from its first character that is not blank. -/
def stripStart (cs : List Char) : List Char := cs.dropWhile isBlank

/-- The text up to its last character that is not blank. -/
def stripEnd (cs : List Char) : List Char := (cs.reverse.dropWhile isBlank).reverse

/-- The text without the blanks at its two ends. -/
def strip (cs : List Char) : List Char := stripEnd (stripStart cs)

/-- The ASCII capital letters become small; every other character stays. -/
def lowercase (cs : List Char) : List Char := cs.map Char.toLower

/-! ## Basic facts -/

@[simp] theorem strip_nil : strip [] = [] := rfl

theorem stripStart_eq_self {c : Char} {cs : List Char} (h : isBlank c = false) :
    stripStart (c :: cs) = c :: cs := by
  simp [stripStart, h]

end Stencil.Text
