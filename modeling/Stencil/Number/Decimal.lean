import Stencil.Number.Integer

/-!
# Decimal numbers

A decimal number keeps every digit it was written with: `1.50` and `1.5` are the same number and
different decimals. Beside the finite ones there are the two infinities and the quiet and
signalling not-a-numbers, which may carry a payload.

**Text.** `text` writes a finite decimal positionally while its exponent is at most zero and its
first digit stands at most six places behind the point, and in scientific notation otherwise.
`read?` takes both notations with blanks around them and drops underscores; a finite decimal must
keep the exponent range `maxExponent`, `minExponent`.

**Value.** `canonical` strips the zeros at the end of a coefficient, so two finite decimals stand
for one number exactly if their canonical forms are equal; `toInt?` gives the integer that a finite
decimal stands for, if it stands for one.
-/

namespace Stencil

open Text

/-- A decimal number. A finite one is the coefficient times a power of ten. -/
inductive Decimal where
  | finite (negative : Bool) (coefficient : Nat) (exponent : Int)
  | infinity (negative : Bool)
  | nan (negative signaling : Bool) (payload : Nat)
deriving DecidableEq, Inhabited

namespace Decimal

/-- The greatest exponent that the first digit may have. -/
def maxExponent : Int := 999999999999999999

/-- The least exponent that the last digit may have. -/
def minExponent : Int := -1999999999999999997

/-- The count of decimal digits of a number; zero has one. -/
def digitCount (n : Nat) : Nat := (Integer.digits n).length

/-- The exponent of the first digit. -/
def adjusted (coefficient : Nat) (exponent : Int) : Int := exponent + digitCount coefficient - 1

/-! ## Writing -/

/-- A minus sign if one is due. -/
def signText (negative : Bool) : List Char := if negative then ['-'] else []

/-- An exponent with its sign. -/
def exponentText (e : Int) : List Char :=
  (if e < 0 then '-' else '+') :: Integer.digits e.natAbs

/-- Digits with a point before the last `places` of them, and zeros in front where they are too few. -/
def positional (ds : List Char) (places : Nat) : List Char :=
  if places = 0 then ds
  else if places < ds.length then
    ds.take (ds.length - places) ++ '.' :: ds.drop (ds.length - places)
  else '0' :: '.' :: List.replicate (places - ds.length) '0' ++ ds

/-- Digits with a point after the first, and an exponent. -/
def scientific (ds : List Char) (e : Int) : List Char :=
  match ds with
  | d :: d' :: ds => d :: '.' :: d' :: ds ++ 'E' :: exponentText e
  | ds => ds ++ 'E' :: exponentText e

/-- The text of a decimal. -/
def text : Decimal → List Char
  | finite negative coefficient exponent =>
    let ds := Integer.digits coefficient
    let first := adjusted coefficient exponent
    signText negative ++
      if exponent ≤ 0 && -6 ≤ first then positional ds exponent.natAbs else scientific ds first
  | infinity negative => signText negative ++ "Infinity".toList
  | nan negative signaling payload =>
    signText negative ++ (if signaling then "sNaN" else "NaN").toList ++
      if payload = 0 then [] else Integer.digits payload

/-! ## Reading -/

/-- The number that a text of ASCII digits stands for; no digits stand for zero. -/
def natOf? (cs : List Char) : Option Nat :=
  cs.foldlM (fun n c => if c.isDigit then some (10 * n + (c.toNat - 0x30)) else none) 0

/-- Cut a text before the first character of a kind; the second part is `none` without one. -/
def splitAtFirst (p : Char → Bool) (cs : List Char) : List Char × Option (List Char) :=
  match cs.dropWhile (!p ·) with
  | [] => (cs, none)
  | _ :: rest => (cs.takeWhile (!p ·), some rest)

/-- The exponent after the mark: a sign if any and at least one digit. No text stands for zero. -/
def exponentOf? : Option (List Char) → Option Int
  | none => some 0
  | some cs =>
    let (negative, ds) := Integer.splitSign cs
    if ds.isEmpty then none else (natOf? ds).map (Integer.signed negative)

/-- The exponents of the first and of the last digit keep the range. -/
def inRange (coefficient : Nat) (exponent : Int) : Bool :=
  adjusted coefficient exponent ≤ maxExponent && minExponent ≤ exponent

/-- Read a finite decimal behind its sign: digits with a point among them, then an exponent. -/
def readFinite? (negative : Bool) (cs : List Char) : Option Decimal := do
  let (mantissa, exponent) := splitAtFirst (fun c => c == 'e' || c == 'E') cs
  let exponent ← exponentOf? exponent
  let (whole, fraction) := splitAtFirst (· == '.') mantissa
  let ds := whole ++ fraction.getD []
  let coefficient ← natOf? ds
  let exponent := exponent - (fraction.getD []).length
  if !ds.isEmpty && inRange coefficient exponent then some (.finite negative coefficient exponent)
  else none

/-- Read a decimal that has neither blanks nor underscores nor digits of other scripts. -/
def readPlain? (cs : List Char) : Option Decimal :=
  let (negative, cs) := Integer.splitSign cs
  match cs.map Char.toLower with
  | 'n' :: 'a' :: 'n' :: ds => (natOf? ds).map (.nan negative false)
  | 's' :: 'n' :: 'a' :: 'n' :: ds => (natOf? ds).map (.nan negative true)
  | ['i', 'n', 'f'] | ['i', 'n', 'f', 'i', 'n', 'i', 't', 'y'] => some (.infinity negative)
  | _ => readFinite? negative cs

/-- Read a decimal. -/
def read? (cs : List Char) : Option Decimal :=
  readPlain? (((strip cs).filter (· != '_')).map asciiDigit)

/-! ## Value -/

/-- Move zeros from the end of a coefficient into the exponent. -/
def stripZeros : (fuel : Nat) → Nat → Int → Nat × Int
  | 0, n, e => (n, e)
  | fuel + 1, n, e => if n % 10 = 0 then stripZeros fuel (n / 10) (e + 1) else (n, e)

/-- The one form of a finite decimal that ends in no zero; zero has the exponent zero and no sign. -/
def canonical (negative : Bool) (coefficient : Nat) (exponent : Int) : Bool × Nat × Int :=
  if coefficient = 0 then (false, 0, 0)
  else (negative, stripZeros (digitCount coefficient) coefficient exponent)

/-- The integer that a coefficient and an exponent stand for, if they stand for one. -/
def toNat? (coefficient : Nat) (exponent : Int) : Option Nat :=
  if coefficient = 0 then some 0
  else if 0 ≤ exponent then some (coefficient * 10 ^ exponent.natAbs)
  else if digitCount coefficient ≤ exponent.natAbs then none
  else if coefficient % 10 ^ exponent.natAbs = 0 then some (coefficient / 10 ^ exponent.natAbs)
  else none

/-- The integer that a decimal stands for, if it stands for one. -/
def toInt? : Decimal → Option Int
  | finite negative coefficient exponent =>
    (toNat? coefficient exponent).map (Integer.signed negative)
  | _ => none

/-- The decimal of an integer. -/
def ofInt (n : Int) : Decimal := .finite (n < 0) n.natAbs 0

/-- Both notations on both sides of the bound, and the specials. -/
example : ["1.50", "1E5", "0.000001", "0.0000001", "-0.00", "0e-8", "nan12", "-SNAN", "+inf",
        "1e1000000000000000000", ".", "1._5"].map (fun s : String => (read? s.toList).map text) =
      ["1.50", "1E+5", "0.000001", "1E-7", "-0.00", "0E-8", "NaN12", "-sNaN", "Infinity"].map
        (fun s : String => some s.toList) ++ [none, none, some "1.5".toList] := by decide +kernel

end Decimal
end Stencil
