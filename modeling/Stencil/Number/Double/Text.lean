import Stencil.Number.Double.Basic

/-!
# Doubles as text

**Writing.** A double is written with the fewest digits that read back as it, and of several texts
of that length the nearest to it. The numbers that read back as a double of rank `r` lie between
the midpoints to its two neighbours; the midpoints belong to it if `r` is even. So `shortest?`
looks for the first count of digits at which one of the two decimals next to the double lies
between them. `layout` states how the digits are then set out.

**Reading.** A text is rounded to the nearest double. `read?` allows blanks around the number,
digits of every script and single underscores between digits.
-/

namespace Stencil.Double

open Text

/-- How the shortest digits are set out. -/
structure Layout where
  /-- A number is positional if the exponent of its first digit is at least this … -/
  leastPositional : Int
  /-- … and below this. -/
  scientificFrom : Int
  /-- A positional number without a fraction shows one zero behind the point. -/
  keepPoint : Bool
  /-- The mark before an exponent. -/
  mark : Char
  /-- The least count of digits of an exponent. -/
  exponentWidth : Nat

/-- Positional from 0.0001 up to below ten to the sixteenth, `1.0` with its point, `1e+16` and
`1e-05` with a signed exponent of at least two digits. -/
def layout : Layout where
  leastPositional := -4
  scientificFrom := 16
  keepPoint := true
  mark := 'e'
  exponentWidth := 2

/-! ## The shortest digits -/

/-- The exponent of the first decimal digit of a positive rank. The rank is multiplied by ten to the
330th first, so that a digit stands before the point. -/
def firstExponent (rank : Nat) : Int :=
  (Decimal.digitCount (units rank * 10 ^ 330 / scale) : Int) - 331

/-- Compare a multiple of a power of ten with half a count of units. -/
def compareHalf (d : Nat) (e : Int) (halves : Nat) : Ordering :=
  if 0 ≤ e then compare (d * 10 ^ e.natAbs * (2 * scale)) halves
  else compare (d * (2 * scale)) (halves * 10 ^ e.natAbs)

/-- The multiple of a power of ten reads back as the rank. -/
def readsBack (rank : Nat) (d : Nat) (e : Int) : Bool :=
  let low := compareHalf d e (units (rank - 1) + units rank)
  let high := compareHalf d e (units rank + units (rank + 1))
  if rank % 2 = 0 then low != .lt && high != .gt else low == .gt && high == .lt

/-- The greatest multiple of a power of ten that is not above the rank. -/
def gridBelow (rank : Nat) (e : Int) : Nat :=
  if 0 ≤ e then units rank / (scale * 10 ^ e.natAbs) else units rank * 10 ^ e.natAbs / scale

/-- Of a multiple of a power of ten and the next, the lower one is the nearer to the rank. -/
def lowerIsNearer (rank d : Nat) (e : Int) : Bool :=
  match compareHalf (2 * d + 1) e (4 * units rank) with
  | .lt => false
  | .gt => true
  | .eq => d % 2 == 0

/-- The multiple of a power of ten that is nearest to the rank among those that read back as it. -/
def candidate? (rank : Nat) (e : Int) : Option Nat :=
  let d := gridBelow rank e
  match readsBack rank d e, readsBack rank (d + 1) e with
  | true, true => some (if lowerIsNearer rank d e then d else d + 1)
  | true, false => some d
  | false, true => some (d + 1)
  | false, false => none

/-- Look for digits that read back, with the last digit at an exponent and then ever lower. -/
def shortest? (rank : Nat) : (tries : Nat) → Int → Nat × Int
  | 0, e => (gridBelow rank e, e)
  | tries + 1, e =>
    match candidate? rank e with
    | some d => (d, e)
    | none => shortest? rank tries (e - 1)

/-- The shortest digits of a positive rank, without zeros at their end, and the exponent of the last
of them. Seventeen digits always suffice. -/
def shortestDigits (rank : Nat) : Nat × Int :=
  let (d, e) := shortest? rank 17 (firstExponent rank)
  Decimal.stripZeros (Decimal.digitCount d) d e

/-! ## Writing -/

/-- Zeros in front of a text up to a width. -/
def padZeros (width : Nat) (cs : List Char) : List Char :=
  List.replicate (width - cs.length) '0' ++ cs

/-- Set out digits whose last has an exponent. -/
def Layout.write (l : Layout) (ds : List Char) (e : Int) : List Char :=
  let first := e + ds.length - 1
  if l.leastPositional ≤ first && first < l.scientificFrom then
    if 0 ≤ e then
      ds ++ List.replicate e.natAbs '0' ++ if l.keepPoint then ['.', '0'] else []
    else Decimal.positional ds e.natAbs
  else
    (match ds with
      | d :: d' :: ds => d :: '.' :: d' :: ds
      | ds => ds) ++
      l.mark :: (if first < 0 then '-' else '+') ::
        padZeros l.exponentWidth (Integer.digits first.natAbs)

/-- The text of a finite number that is not negative. -/
def rankText (rank : Nat) : List Char :=
  if rank = 0 then layout.write ['0'] 0
  else
    let (d, e) := shortestDigits rank
    layout.write (Integer.digits d) e

/-- The text of a double. -/
def text : Double → List Char
  | .finite negative rank _ => Decimal.signText negative ++ rankText rank
  | .infinity negative => Decimal.signText negative ++ "inf".toList
  | .nan => "nan".toList

/-! ## Reading -/

/-- Read a number that has neither blanks nor underscores nor digits of other scripts. -/
def readPlain? (cs : List Char) : Option Double :=
  let (negative, cs) := Integer.splitSign cs
  match cs.map Char.toLower with
  | ['n', 'a', 'n'] => some .nan
  | ['i', 'n', 'f'] | ['i', 'n', 'f', 'i', 'n', 'i', 't', 'y'] => some (.infinity negative)
  | _ => do
    let (mantissa, exponent) := Decimal.splitAtFirst (fun c => c == 'e' || c == 'E') cs
    let exponent ← Decimal.exponentOf? exponent
    let (whole, fraction) := Decimal.splitAtFirst (· == '.') mantissa
    let ds := whole ++ fraction.getD []
    let coefficient ← Decimal.natOf? ds
    if ds.isEmpty then none
    else some (ofScientific negative coefficient (exponent - (fraction.getD []).length))

/-- Read a double. -/
def read? (cs : List Char) : Option Double := do
  let cs ← Integer.ungroup? Char.isDigit false ((strip cs).map asciiDigit)
  readPlain? cs

/-! ## Basic facts -/

/-- The least and the greatest double, the two ends of positional notation, a long one. -/
example : ["5e-324", "1.7976931348623157e+308", "1e+16", "1000000000000000.0", "0.0001", "1e-05",
        "-0.0", "0.30000000000000004", "9007199254740992.0", "-inf", "nan"].all
      (fun s : String => (read? s.toList).map text == some s.toList) = true := by decide +kernel

end Stencil.Double
