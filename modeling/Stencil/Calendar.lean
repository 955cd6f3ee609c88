import Stencil.Number.Integer

/-!
# Dates and moments

Days of the Gregorian calendar in the years 1 to 9999, and moments: a day, a time to the
microsecond and perhaps the distance of the local clock from universal time. `Date` and `Moment`
hold what they are given; `isValid` says whether it names a day, or a time of a day. The texts are
those of ISO 8601 with a choice of the character between day and time.
-/

namespace Stencil

open Text

/-- A day of the calendar. -/
structure Date where
  year : Nat
  month : Nat
  day : Nat
deriving DecidableEq, Inhabited

/-- A time of a day. The offset is the lead of the local clock over universal time in seconds. -/
structure Moment where
  date : Date
  hour : Nat
  minute : Nat
  second : Nat
  microsecond : Nat
  offset? : Option Int
deriving DecidableEq, Inhabited

/-- A number with zeros in front up to a width. -/
def paddedDigits (width n : Nat) : List Char :=
  let ds := Integer.digits n
  List.replicate (width - ds.length) '0' ++ ds

namespace Date

/-- Every fourth year is a leap year, of the full centuries every fourth. -/
def isLeap (year : Nat) : Bool := year % 4 == 0 && (year % 100 != 0 || year % 400 == 0)

/-- The count of days in a month. -/
def daysInMonth (year month : Nat) : Nat :=
  if month == 2 then if isLeap year then 29 else 28
  else if month == 4 || month == 6 || month == 9 || month == 11 then 30
  else 31

/-- The date names a day. -/
def isValid (d : Date) : Bool :=
  1 ≤ d.year && d.year ≤ 9999 && 1 ≤ d.month && d.month ≤ 12 && 1 ≤ d.day &&
    d.day ≤ daysInMonth d.year d.month

/-- The text `2020-02-29`. -/
def text (d : Date) : List Char :=
  paddedDigits 4 d.year ++ '-' :: paddedDigits 2 d.month ++ '-' :: paddedDigits 2 d.day

/-- The count of days before a date since the beginning of the year 1. -/
def dayNumber (d : Date) : Nat :=
  let y := d.year - 1
  365 * y + y / 4 - y / 100 + y / 400 +
    (List.range (d.month - 1)).foldl (fun n m => n + daysInMonth d.year (m + 1)) (d.day - 1)

end Date

namespace Moment

/-- The length of a day in seconds. -/
def daySeconds : Int := 86400

/-- The moment names a time of a day, and its clock is less than a day away. -/
def isValid (t : Moment) : Bool :=
  t.date.isValid && t.hour < 24 && t.minute < 60 && t.second < 60 && t.microsecond < 1000000 &&
    match t.offset? with
    | none => true
    | some o => -daySeconds < o && o < daySeconds

/-- An offset as sign, hours, minutes and, if there are any, seconds. -/
def offsetText (o : Int) : List Char :=
  let n := o.natAbs
  (if o < 0 then '-' else '+') :: paddedDigits 2 (n / 3600) ++ ':' :: paddedDigits 2 (n / 60 % 60) ++
    if n % 60 = 0 then [] else ':' :: paddedDigits 2 (n % 60)

/-- The text of a moment with a character between day and time. Microseconds and offset are written
only if there are any. -/
def text (between : Char) (t : Moment) : List Char :=
  t.date.text ++ between :: paddedDigits 2 t.hour ++ ':' :: paddedDigits 2 t.minute ++
    ':' :: paddedDigits 2 t.second ++
    (if t.microsecond = 0 then [] else '.' :: paddedDigits 6 t.microsecond) ++
    (t.offset?.map offsetText).getD []

/-- The microseconds since the beginning of the year 1 on a clock of universal time. -/
def instant (t : Moment) (offset : Int) : Int :=
  ((t.date.dayNumber * 86400 + t.hour * 3600 + t.minute * 60 + t.second : Nat) - offset) * 1000000 +
    t.microsecond

end Moment

/-! ## Reading ISO texts -/

namespace Date

/-- A number from exactly so many ASCII digits at the start of a text, and the rest. -/
def number? (width : Nat) (cs : List Char) : Option (Nat × List Char) :=
  let ds := cs.take width
  if ds.length = width && ds.all Char.isDigit then
    some (ds.foldl (fun n c => 10 * n + (c.toNat - 0x30)) 0, cs.drop width)
  else none

/-- The rest of a text behind a character. -/
def skip? (c : Char) : List Char → Option (List Char)
  | [] => none
  | d :: cs => if c == d then some cs else none

/-- A date at the start of a text, and the rest. -/
def readFrom? (cs : List Char) : Option (Date × List Char) := do
  let (year, cs) ← number? 4 cs
  let (month, cs) ← number? 2 (← skip? '-' cs)
  let (day, cs) ← number? 2 (← skip? '-' cs)
  return (⟨year, month, day⟩, cs)

/-- Read the text of a date. -/
def read? (cs : List Char) : Option Date := do
  let (d, rest) ← readFrom? cs
  if rest.isEmpty then some d else none

end Date

namespace Moment

/-- The microseconds at the start of a text, if it goes on with a point. -/
def fractionFrom? : List Char → Option (Nat × List Char)
  | '.' :: cs => Date.number? 6 cs
  | cs => some (0, cs)

/-- The seconds of an offset at the start of a text, if it goes on with a colon. -/
def secondsFrom? : List Char → Option (Nat × List Char)
  | ':' :: cs => Date.number? 2 cs
  | cs => some (0, cs)

/-- An offset that is the whole of a text; no text stands for no offset. -/
def offsetOf? : List Char → Option (Option Int)
  | [] => some none
  | sign :: cs =>
    if sign == '+' || sign == '-' then do
      let (hours, cs) ← Date.number? 2 cs
      let (minutes, cs) ← Date.number? 2 (← Date.skip? ':' cs)
      let (seconds, cs) ← secondsFrom? cs
      if cs.isEmpty then
        return some (Integer.signed (sign == '-') (hours * 3600 + minutes * 60 + seconds))
      else none
    else none

/-- Read the text of a moment with a character between day and time. -/
def read? (between : Char) (cs : List Char) : Option Moment := do
  let (date, cs) ← Date.readFrom? cs
  let (hour, cs) ← Date.number? 2 (← Date.skip? between cs)
  let (minute, cs) ← Date.number? 2 (← Date.skip? ':' cs)
  let (second, cs) ← Date.number? 2 (← Date.skip? ':' cs)
  let (microsecond, cs) ← fractionFrom? cs
  let offset? ← offsetOf? cs
  return ⟨date, hour, minute, second, microsecond, offset?⟩

end Moment

/-! ## Basic facts -/

/-- The leap days of three years. -/
example : [1900, 2000, 2020].map (fun y => (Date.mk y 2 29).isValid) = [false, true, true] := by
  decide

/-- A moment with all its parts reads back. -/
example : (Moment.read? 'T' "2001-12-14T21:59:43.100000-05:30".toList).map (Moment.text 'T') =
    some "2001-12-14T21:59:43.100000-05:30".toList := by decide +kernel

end Stencil
