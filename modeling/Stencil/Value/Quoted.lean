import Stencil.Text.Quoted
import Stencil.Value

/-!
# Values in messages

The form in which messages show a value, exact enough to tell `1`, `1.0` and `'1'` apart: texts and
bytes are quoted, decimals and days name their type. A value that holds an integer past the limit
of decimal text has no such form.
-/

namespace Stencil.Value

open Text

/-- Texts with a separator between them. -/
def joinWith (separator : List Char) : List (List Char) → List Char
  | [] => []
  | [cs] => cs
  | cs :: rest => cs ++ separator ++ joinWith separator rest

/-- A call of a name with arguments. -/
def call (name : String) (arguments : List (List Char)) : List Char :=
  name.toList ++ '(' :: joinWith [',', ' '] arguments ++ [')']

/-- A number as an argument that is left out if it is zero. -/
def argument? (name : String) (n : Int) : List (List Char) :=
  if n = 0 then [] else [name.toList ++ '=' :: Integer.text n]

/-- The quoted form of an offset: whole days before it and seconds of a day. -/
def quotedOffset (o : Int) : List Char :=
  if o = 0 then "datetime.timezone.utc".toList
  else
    call "datetime.timezone"
      [call "datetime.timedelta" (argument? "days" (o / 86400) ++ argument? "seconds" (o % 86400))]

/-- The quoted form of a date. -/
def quotedDate (d : Date) : List Char :=
  call "datetime.date" ([d.year, d.month, d.day].map Integer.digits)

/-- The quoted form of a moment. Zero microseconds are left out, and zero seconds before them. -/
def quotedMoment (t : Moment) : List Char :=
  let clock :=
    if t.microsecond ≠ 0 then [t.second, t.microsecond]
    else if t.second ≠ 0 then [t.second] else []
  let numbers := [t.date.year, t.date.month, t.date.day, t.hour, t.minute] ++ clock
  let zone := (t.offset?.map fun o => "tzinfo=".toList ++ quotedOffset o).toList
  call "datetime.datetime" (numbers.map Integer.digits ++ zone)

/-- The items of a tuple; a single one has a comma after it. -/
def quotedTuple : List (List Char) → List Char
  | [cs] => '(' :: cs ++ [',', ')']
  | parts => '(' :: joinWith [',', ' '] parts ++ [')']

mutual

/-- The quoted form of a value. -/
def quoted? : Value → Option (List Char)
  | null => some "None".toList
  | bool b => some (if b then "True" else "False").toList
  | int n => Integer.text? n
  | float x => some x.text
  | decimal d => some (call "Decimal" [quoted d.text])
  | text s => some (quoted s.toList)
  | list items => (quotedItems? items).map fun parts =>
      '[' :: joinWith [',', ' '] parts ++ [']']
  | tuple items => (quotedItems? items).map quotedTuple
  | document entries => (quotedEntries? entries).map fun parts =>
      '\x7b' :: joinWith [',', ' '] parts ++ ['\x7d']
  | set [] => some "set()".toList
  | set items => (quotedItems? items).map fun parts =>
      '\x7b' :: joinWith [',', ' '] parts ++ ['\x7d']
  | bytes data => some (quotedBytes data)
  | date d => some (quotedDate d)
  | moment t => some (quotedMoment t)

/-- The quoted forms of some values. -/
def quotedItems? : List Value → Option (List (List Char))
  | [] => some []
  | v :: vs =>
    match v.quoted?, quotedItems? vs with
    | some cs, some rest => some (cs :: rest)
    | _, _ => none

/-- The quoted forms of the entries of a document. -/
def quotedEntries? : List (Value × Value) → Option (List (List Char))
  | [] => some []
  | (k, v) :: es =>
    match k.quoted?, v.quoted?, quotedEntries? es with
    | some key, some value, some rest => some ((key ++ ':' :: ' ' :: value) :: rest)
    | _, _, _ => none

end

/-- The plain form of a value that is no text: scalars by their text, all else quoted. -/
def plain? : Value → Option (List Char)
  | text s => some s.toList
  | decimal d => some d.text
  | date d => some d.text
  | moment t => some (t.text ' ')
  | v => v.quoted?

/-! ## Basic facts -/

@[simp] theorem quoted?_text (s : String) : (text s).quoted? = some (quoted s.toList) := by
  simp [quoted?]

/-- Tuples, sets and moments. -/
example : [tuple [int 1], set [], moment ⟨⟨2020, 2, 29⟩, 1, 2, 0, 0, some (-19800)⟩].map quoted? =
    ["(1,)", "set()", "datetime.datetime(2020, 2, 29, 1, 2, tzinfo=datetime.timezone(" ++
      "datetime.timedelta(days=-1, seconds=66600)))"].map (fun s : String => some s.toList) := by
  decide +kernel

end Stencil.Value
