import Stencil.Number.Decimal

/-!
# Double-precision numbers

The doubles of one sign, listed by size, begin with zero and are equally spaced between two powers
of two. So a finite double is a sign and a *rank*, its place in that list, and `units` gives its
size as a multiple of the least positive double, 2 to the power -1074. The next double up is the
next rank, and a rank is even exactly if the last bit of the mantissa is zero.

**Rounding.** `round` finds the rank of a positive rational number: it takes the greatest rank
whose size is not above the number and compares the number with the midpoint to the next rank; a
number on the midpoint goes to the even rank. Ranks past the last finite one mean infinity.
-/

namespace Stencil

/-- A double-precision number; all not-a-numbers are one. -/
inductive Double where
  | finite (negative : Bool) (rank : Nat) (isFinite : rank < 2047 * 2 ^ 52)
  | infinity (negative : Bool)
  | nan
deriving DecidableEq, Inhabited

namespace Double

/-- The rank of infinity: 2046 steps of the exponent with a mantissa of 52 bits each, and the
numbers below the least normal one. -/
def ranks : Nat := 2047 * 2 ^ 52

/-- The size of a rank as a multiple of the least positive double. -/
def units (rank : Nat) : Nat :=
  if rank < 2 ^ 53 then rank
  else (2 ^ 52 + rank % 2 ^ 52) * 2 ^ (rank / 2 ^ 52 - 1)

/-- There are so many units in one. -/
def scale : Nat := 2 ^ 1074

/-- The greatest rank of at most so many units. -/
def rankBelow (size : Nat) : Nat :=
  if size < 2 ^ 53 then size
  else
    let e := size.log2 - 52
    e * 2 ^ 52 + size / 2 ^ e

/-- The rank nearest to a quotient, in units; of two equally near ranks the even one. -/
def roundRank (num den : Nat) : Nat :=
  let rank := rankBelow (num / den)
  let twice := 2 * num
  let middle := den * (units rank + units (rank + 1))
  if twice < middle || (twice == middle && rank % 2 == 0) then rank else rank + 1

/-- The number with a sign and a rank; a rank past the finite ones is infinity. -/
def ofRank (negative : Bool) (rank : Nat) : Double :=
  if h : rank < 2047 * 2 ^ 52 then .finite negative rank h else .infinity negative

/-- The double nearest to a sign and a quotient. -/
def round (negative : Bool) (num den : Nat) : Double :=
  ofRank negative (roundRank (num * scale) den)

/-- Zero with its sign. -/
def zero (negative : Bool) : Double := ofRank negative 0

/-- A finite number. -/
def isFinite : Double → Bool
  | .finite .. => true
  | _ => false

/-! ## From and to other numbers -/

/-- The double nearest to an integer; none if that is infinite. -/
def ofInt? (n : Int) : Option Double :=
  let x := round (n < 0) n.natAbs 1
  if x.isFinite then some x else none

/-- The double nearest to a decimal coefficient and exponent. A number whose first digit stands past
the 400th place on either side is infinite or zero without further arithmetic. -/
def ofScientific (negative : Bool) (coefficient : Nat) (exponent : Int) : Double :=
  let first := Decimal.adjusted coefficient exponent
  if coefficient = 0 || first < -400 then zero negative
  else if 400 < first then .infinity negative
  else if 0 ≤ exponent then round negative (coefficient * 10 ^ exponent.natAbs) 1
  else round negative coefficient (10 ^ exponent.natAbs)

/-- The double nearest to a decimal; a signalling not-a-number has none. -/
def ofDecimal? : Decimal → Option Double
  | .finite negative coefficient exponent => some (ofScientific negative coefficient exponent)
  | .infinity negative => some (.infinity negative)
  | .nan _ signaling _ => if signaling then none else some .nan

/-- The integer that a double stands for, if it stands for one. -/
def toInt? : Double → Option Int
  | .finite negative rank _ =>
    if units rank % scale = 0 then some (Integer.signed negative (units rank / scale)) else none
  | _ => none

/-- A finite double as a coefficient and an exponent of ten: a unit is `5 ^ 1074` over
`10 ^ 1074`. -/
def decimalParts (rank : Nat) : Nat × Int := (units rank * 5 ^ 1074, -1074)

/-! ## Arithmetic -/

/-- The units of a finite double with its sign. -/
def signedUnits (negative : Bool) (rank : Nat) : Int := Integer.signed negative (units rank)

/-- The double nearest to a sum. -/
def add : Double → Double → Double
  | .finite s a _, .finite t b _ =>
    let sum := signedUnits s a + signedUnits t b
    if sum = 0 then zero (s && t) else ofRank (sum < 0) (roundRank sum.natAbs 1)
  | .infinity s, .infinity t => if s == t then .infinity s else .nan
  | .infinity s, .finite .. => .infinity s
  | .finite .., .infinity t => .infinity t
  | _, _ => .nan

/-- The double nearest to a product. -/
def mul : Double → Double → Double
  | .finite s a _, .finite t b _ => ofRank (s != t) (roundRank (units a * units b) scale)
  | .infinity s, .infinity t => .infinity (s != t)
  | .infinity s, .finite t b _ => if b = 0 then .nan else .infinity (s != t)
  | .finite s a _, .infinity t => if a = 0 then .nan else .infinity (s != t)
  | _, _ => .nan

/-- The number with the other sign. -/
def neg : Double → Double
  | .finite s a h => .finite (!s) a h
  | .infinity s => .infinity (!s)
  | .nan => .nan

/-! ## Basic facts -/

theorem units_of_lt {rank : Nat} (h : rank < 2 ^ 53) : units rank = rank := if_pos h

@[simp] theorem isFinite_ofRank {negative : Bool} {rank : Nat} :
    (ofRank negative rank).isFinite = true ↔ rank < 2047 * 2 ^ 52 := by
  unfold ofRank
  split
  · next h => exact iff_of_true rfl h
  · next h => exact iff_of_false Bool.false_ne_true h

/-- One, and the number after it. -/
example : (round false 1 1, units (1023 * 2 ^ 52), units (1023 * 2 ^ 52 + 1)) =
    (ofRank false (1023 * 2 ^ 52), 2 ^ 1074, 2 ^ 1074 + 2 ^ 1022) := by decide +kernel

end Double
end Stencil
