import Stencil.Text.Blank
import Stencil.Text.Digit
import Stencil.Text.Hex

/-!
# Integers as text

Integers have any size, but between them and their decimal text stands a limit: text of more than
`digitLimit` digits is neither written nor read. Reading allows blanks around the number, a sign,
decimal digits of every script and a single underscore between two digits.
-/

namespace Stencil.Integer

open Text

/-- Powers of naturals as they are computed, also where powers in a monoid are known. -/
@[default_instance 20000]
instance (priority := high) powNat : Pow Nat Nat := instPowNat

/-- The most digits that decimal text may have. -/
def digitLimit : Nat := 4300

/-- The least number that has more digits than the limit. -/
def limitBound : Nat := 10 ^ digitLimit

/-- The decimal digits of a natural number, the highest first. -/
def digits (n : Nat) : List Char := Nat.toDigits 10 n

/-- The decimal text of an integer of any size. -/
def text (n : Int) : List Char :=
  if n < 0 then '-' :: digits n.natAbs else digits n.natAbs

/-- The integer has decimal text within the limit. -/
def isWritable (n : Int) : Bool := n.natAbs < limitBound

/-- The decimal text of an integer, if it keeps the limit. -/
def text? (n : Int) : Option (List Char) := if isWritable n then some (text n) else none

/-- Drop the underscores of a number. Each must stand between two digits. `afterDigit` says whether
the character before the text is a digit. -/
def ungroup? (isDigit : Char → Bool) (afterDigit : Bool) : List Char → Option (List Char)
  | [] => some []
  | ['_'] => none
  | '_' :: c :: cs =>
    if afterDigit && isDigit c then (ungroup? isDigit true cs).map (c :: ·) else none
  | c :: cs => (ungroup? isDigit (isDigit c) cs).map (c :: ·)

/-- The value of a digit in a base up to sixteen. -/
def digitIn? (base : Nat) (c : Char) : Option Nat :=
  (hexValue? c).filter (· < base)

/-- The number that a text of digits stands for. The text must hold a digit and nothing else, in
base ten no more digits than the limit. -/
def magnitude? (base : Nat) (cs : List Char) : Option Nat := do
  let cs ← ungroup? (fun c => (digitIn? base c).isSome) false cs
  if cs.isEmpty || (base == 10 && digitLimit < cs.length) then none
  else cs.foldlM (fun n c => (digitIn? base c).map (base * n + ·)) 0

/-- A sign and the rest of a text; a text without a sign is positive. -/
def splitSign : List Char → Bool × List Char
  | '-' :: cs => (true, cs)
  | '+' :: cs => (false, cs)
  | cs => (false, cs)

/-- The rest of a text after the mark of its base, if it begins with one. -/
def dropBaseMark (base : Nat) : List Char → List Char
  | '0' :: c :: cs =>
    let c := c.toLower
    if (base == 2 && c == 'b') || (base == 8 && c == 'o') || (base == 16 && c == 'x') then cs
    else '0' :: c :: cs
  | cs => cs

/-- The negative or positive integer of a size. -/
def signed (negative : Bool) (n : Nat) : Int := if negative then -(n : Int) else n

/-- Read an integer in a base. -/
def read? (base : Nat) (cs : List Char) : Option Int :=
  let (negative, cs) := splitSign ((strip cs).map asciiDigit)
  (magnitude? base (dropBaseMark base cs)).map (signed negative)

/-! ## Basic facts -/

@[simp] theorem text?_eq_none {n : Int} : text? n = none ↔ isWritable n = false := by
  cases h : isWritable n <;> simp [text?, h]

theorem text?_eq_some {n : Int} {cs : List Char} :
    text? n = some cs ↔ isWritable n = true ∧ cs = text n := by
  cases h : isWritable n <;> simp [text?, h, eq_comm]

/-- Blanks, signs, other scripts and underscores. -/
example : [" 42\n", "-007", "+1_000", "١٢", "_1", "1__0", "- 1", ""].map
      (fun s : String => read? 10 s.toList) =
    [some 42, some (-7), some 1000, some 12, none, none, none, none] := by decide +kernel

/-- Other bases may carry their mark. -/
example : (read? 16 "0xfF".toList, read? 8 "17".toList, read? 2 "0b101".toList, read? 8 "9".toList)
    = (some 255, some 15, some 5, none) := by decide +kernel

end Stencil.Integer
