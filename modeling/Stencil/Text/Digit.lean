/-!
# Decimal digits of all scripts

Every decimal digit of Unicode (general category Nd) stands in a run of ten consecutive characters
that begins with its zero, so the zeros describe the whole class: the value of a digit is its
distance from the zero of its run.
-/

namespace Stencil.Text

/-- The zero of each run of decimal digits, in increasing order. -/
def digitZeros : List Nat :=
  [0x30, 0x660, 0x6f0, 0x7c0, 0x966, 0x9e6, 0xa66, 0xae6, 0xb66, 0xbe6, 0xc66, 0xce6, 0xd66,
   0xde6, 0xe50, 0xed0, 0xf20, 0x1040, 0x1090, 0x17e0, 0x1810, 0x1946, 0x19d0, 0x1a80, 0x1a90,
   0x1b50, 0x1bb0, 0x1c40, 0x1c50, 0xa620, 0xa8d0, 0xa900, 0xa9d0, 0xa9f0, 0xaa50, 0xabf0,
   0xff10, 0x104a0, 0x10d30, 0x11066, 0x110f0, 0x11136, 0x111d0, 0x112f0, 0x11450, 0x114d0,
   0x11650, 0x116c0, 0x11730, 0x118e0, 0x11950, 0x11c50, 0x11d50, 0x11da0, 0x16a60, 0x16ac0,
   0x16b50, 0x1d7ce, 0x1d7d8, 0x1d7e2, 0x1d7ec, 0x1d7f6, 0x1e140, 0x1e2f0, 0x1e950, 0x1fbf0]

/-- The value of a decimal digit of any script. -/
def digitValue? (c : Char) : Option Nat :=
  if c.toNat < 0x80 then
    if c.isDigit then some (c.toNat - 0x30) else none
  else
    (digitZeros.find? fun z => z ≤ c.toNat && c.toNat < z + 10).map (c.toNat - ·)

/-- A decimal digit of any script. -/
def isDecimalDigit (c : Char) : Bool := (digitValue? c).isSome

/-- The ASCII digit for a value below ten. -/
def digitChar (n : Nat) : Char := Char.ofNat (0x30 + n)

/-- A decimal digit of any script becomes the ASCII digit of its value; other characters stay. -/
def asciiDigit (c : Char) : Char := ((digitValue? c).map digitChar).getD c

/-! ## Basic facts -/

theorem digitValue?_of_isDigit {c : Char} (h : c.isDigit = true) :
    digitValue? c = some (c.toNat - 0x30) := by
  have hlt : c.toNat < 0x80 := by
    simp only [Char.isDigit, Bool.and_eq_true, decide_eq_true_eq] at h
    have : c.val.toNat ≤ 0x39 := h.2
    exact Nat.lt_of_le_of_lt this (by decide)
  simp [digitValue?, hlt, h]

/-- The digits of ASCII and of three other scripts, two numerals that are no decimal digits. -/
example : ['7', '٣', '५', '２', '²', 'Ⅳ'].map digitValue? =
    [some 7, some 3, some 5, some 2, none, none] := by decide

end Stencil.Text
