import Stencil.Calendar
import Stencil.Yaml.Character

/-!
# Timestamps in documents

A timestamp is a date, or a date and a time of day, perhaps with a fraction of a second and a zone.
`parse?` reads its parts without asking whether they name a day; `moment?` and `date?` ask. A bare
date counts as a timestamp by itself only if month and day have two digits.
-/

namespace Stencil.Yaml

/-- The time of day in a timestamp as it was written. -/
structure ClockParts where
  hour : Nat
  minute : Nat
  second : Nat
  /-- The digits of the fraction. -/
  fraction : List Char
  /-- The lead over universal time in seconds, if a zone was written. -/
  offset? : Option Int

/-- A timestamp as it was written. -/
structure Timestamp where
  date : Date
  /-- Month and day have two digits each. -/
  isPadded : Bool
  clock? : Option ClockParts

namespace Timestamp

/-- The value of a text of ASCII digits. -/
def valueOf (ds : List Char) : Nat := ds.foldl (fun n c => 10 * n + (c.toNat - 0x30)) 0

/-- One or two digits at the start of a text: their count, their value and the rest. -/
def shortNumber? : List Char → Option (Nat × Nat × List Char)
  | c :: d :: cs =>
    if c.isDigit then
      if d.isDigit then some (2, valueOf [c, d], cs) else some (1, valueOf [c], d :: cs)
    else none
  | [c] => if c.isDigit then some (1, valueOf [c], []) else none
  | [] => none

/-- The minutes of a zone that is the rest of a text, if any are written. -/
def zoneMinutes? : List Char → Option Nat
  | [] => some 0
  | ':' :: cs => do
    let (minutes, rest) ← Date.number? 2 cs
    if rest.isEmpty then some minutes else none
  | _ => none

/-- The zone that is the rest of a text; without text there is none. -/
def zone? (cs : List Char) : Option (Option Int) :=
  if cs.isEmpty then some none
  else match cs.dropWhile isGap with
    | ['Z'] => some (some 0)
    | sign :: cs =>
      if sign == '+' || sign == '-' then do
        let (_, hours, cs) ← shortNumber? cs
        let minutes ← zoneMinutes? cs
        return some (Integer.signed (sign == '-') (hours * 3600 + minutes * 60))
      else none
    | [] => none

/-- The rest of a text behind what parts a date from a time. -/
def afterGap? : List Char → Option (List Char)
  | c :: cs =>
    if c == 'T' || c == 't' then some cs
    else if isGap c then some (cs.dropWhile isGap)
    else none
  | [] => none

/-- The digits of a fraction at the start of a text, and the rest. -/
def fractionOf : List Char → List Char × List Char
  | '.' :: cs => (cs.takeWhile Char.isDigit, cs.dropWhile Char.isDigit)
  | cs => ([], cs)

/-- The time of day that is the rest of a text. -/
def clockOf? (cs : List Char) : Option ClockParts := do
  let (_, hour, cs) ← shortNumber? cs
  let (minute, cs) ← Date.number? 2 (← Date.skip? ':' cs)
  let (second, cs) ← Date.number? 2 (← Date.skip? ':' cs)
  let (fraction, cs) := fractionOf cs
  let offset? ← zone? cs
  return ⟨hour, minute, second, fraction, offset?⟩

/-- Read a timestamp. -/
def parse? (cs : List Char) : Option Timestamp := do
  let (year, cs) ← Date.number? 4 cs
  let (monthDigits, month, cs) ← shortNumber? (← Date.skip? '-' cs)
  let (dayDigits, day, cs) ← shortNumber? (← Date.skip? '-' cs)
  let isPadded := monthDigits == 2 && dayDigits == 2
  if cs.isEmpty then return ⟨⟨year, month, day⟩, isPadded, none⟩
  else
    let clock ← clockOf? (← afterGap? cs)
    return ⟨⟨year, month, day⟩, isPadded, some clock⟩

/-- The text is a timestamp by itself. -/
def isTimestamp (cs : List Char) : Bool :=
  match parse? cs with
  | some t => t.clock?.isSome || t.isPadded
  | none => false

/-- The microseconds of a fraction: its first six digits, filled up with zeros. -/
def microseconds (fraction : List Char) : Nat :=
  valueOf (fraction.take 6) * 10 ^ (6 - (fraction.take 6).length)

/-- The moment of a date and a time of day. -/
def moment (d : Date) (c : ClockParts) : Moment where
  date := d
  hour := c.hour
  minute := c.minute
  second := c.second
  microsecond := microseconds c.fraction
  offset? := c.offset?

/-! ## Basic facts -/

/-- With a zone, with blanks around the time, and two dates of which one is too short. -/
example : ["2001-12-14t21:59:43.10-05:00", "2001-12-14 21:59:43.1 -5", "2001-01-01",
      "2001-1-1", "2001-1-1 1:02:03", "2001-01-01T"].map (fun s : String => isTimestamp s.toList) =
    [true, true, true, false, true, false] := by decide +kernel

end Timestamp
end Stencil.Yaml
