import Stencil.Argument
import Stencil.Json

/-!
# Coercion

Bringing a value into a shape. Null has every shape and a value that has the shape already stays as
it is; beyond that each shape takes what can be read as it without loss of meaning: integral
numbers and text as integers, numbers and text as floats and decimals, `yes`, `no`, `1`, `0`,
`true`, `false` as booleans, everything as a list of one item, and everything as text, containers
as JSON.

A value that a shape does not take is refused with a `ConversionError`, which keeps the quoted form
of the value for its message. Four causes lie in the numbers themselves: an integer past the limit
of decimal text cannot be written, not even into a message, an integer past the greatest double is
no float, and a signalling not-a-number is neither float nor integer.
-/

namespace Stencil

open Text

/-- A value that cannot be brought into a shape. -/
structure ConversionError where
  value : Value
  /-- The name of the shape. -/
  shape : String
  /-- What else there is to say; may be empty. -/
  reason : String
  /-- The value as the message shows it. -/
  shown : List Char
  shown_eq : value.quoted? = some shown

namespace ConversionError

/-- The error for a value, if the value can be shown. -/
def ofValue? (value : Value) (shape reason : String) : Option ConversionError :=
  match h : value.quoted? with
  | some shown => some ⟨value, shape, reason, shown, h⟩
  | none => none

/-- The words for an error. -/
def message (e : ConversionError) : String :=
  "Cannot convert " ++ e.value.typeName ++ " value " ++ String.ofList e.shown ++ " to " ++ e.shape ++
    if e.reason.isEmpty then "" else ": " ++ e.reason

end ConversionError

/-- Why a value has no counterpart in a shape. -/
inductive CoercionError where
  /-- The shape does not take the value. -/
  | refused (e : ConversionError)
  /-- An integer is past the limit of decimal text. -/
  | oversizedInteger
  /-- An integer is past the greatest double. -/
  | beyondDouble
  /-- A signalling not-a-number. -/
  | signalingNaN

namespace Coercion

/-- The refusal of a value by a shape. -/
def refuse (v : Value) (s : Shape) (reason : String) : Except CoercionError α :=
  match ConversionError.ofValue? v s.name reason with
  | some e => .error (.refused e)
  | none => .error .oversizedInteger

/-! ## One function for each shape -/

/-- The JSON text of a container. -/
def containerText (v : Value) : Except CoercionError String :=
  match Json.compact v with
  | .ok cs => .ok (String.ofList cs)
  | .error e => refuse v .string e.message

/-- The plain form of a value that is no container. -/
def plainText (v : Value) : Except CoercionError String :=
  match v.plain? with
  | some cs => .ok (String.ofList cs)
  | none => .error .oversizedInteger

/-- A value as text. -/
def toText : Value → Except CoercionError String
  | .text s => .ok s
  | .bool b => .ok (if b then "true" else "false")
  | .list items => containerText (.list items)
  | .tuple items => containerText (.tuple items)
  | .document entries => containerText (.document entries)
  | v => plainText v

/-- What is said of a number that is no integer. -/
def notIntegral : String := "not an integral number"

/-- A value as an integer. A decimal past the greatest double is taken for infinite. -/
def toInteger : Value → Except CoercionError Int
  | .int n => .ok n
  | .float x =>
    match x.toInt? with
    | some n => .ok n
    | none => refuse (.float x) .integer notIntegral
  | .decimal d =>
    match Double.ofDecimal? d with
    | none => .error .signalingNaN
    | some x =>
      match (if x.isFinite then d.toInt? else none) with
      | some n => .ok n
      | none => refuse (.decimal d) .integer notIntegral
  | .text s =>
    match Integer.read? 10 s.toList with
    | some n => .ok n
    | none => refuse (.text s) .integer ""
  | v => refuse v .integer ""

/-- A value as a float. -/
def toFloat : Value → Except CoercionError Double
  | .int n => (Double.ofInt? n).elim (.error .beyondDouble) .ok
  | .float x => .ok x
  | .decimal d =>
    match Double.ofDecimal? d with
    | some x => .ok x
    | none => .error .signalingNaN
  | .text s =>
    match Double.read? s.toList with
    | some x => .ok x
    | none => refuse (.text s) .float ""
  | v => refuse v .float ""

/-- The decimal that a text stands for, on behalf of a value. -/
def readDecimal (v : Value) (cs : List Char) : Except CoercionError Decimal :=
  match Decimal.read? cs with
  | some d => .ok d
  | none => refuse v .decimal ""

/-- A value as a decimal. A float becomes the decimal of its shortest text. -/
def toDecimal : Value → Except CoercionError Decimal
  | .int n =>
    match Integer.text? n with
    | some cs => readDecimal (.int n) cs
    | none => .error .oversizedInteger
  | .float x => readDecimal (.float x) x.text
  | .decimal d => .ok d
  | .text s => readDecimal (.text s) s.toList
  | v => refuse v .decimal ""

/-- The words for true. -/
def trueWords : List String := ["true", "yes", "1"]

/-- The words for false. -/
def falseWords : List String := ["false", "no", "0"]

/-- A value as a boolean. -/
def toBoolean : Value → Except CoercionError Bool
  | .bool b => .ok b
  | .int n =>
    if n = 1 then .ok true else if n = 0 then .ok false else refuse (.int n) .boolean ""
  | .text s =>
    let word := Argument.normalName s
    if trueWords.contains word then .ok true
    else if falseWords.contains word then .ok false
    else refuse (.text s) .boolean ""
  | v => refuse v .boolean ""

/-- A value as a list: a list or tuple with its items, all else as the only item. -/
def toItems : Value → List Value
  | .list items => items
  | .tuple items => items
  | v => [v]

/-- A value as a document. -/
def toDocument : Value → Except CoercionError Document
  | .document entries => .ok entries
  | v => refuse v .document ""

/-! ## Any shape -/

/-- Bring a value that is not null into a shape. -/
def convert (s : Shape) (v : Value) : Except CoercionError Value :=
  match s with
  | .any => .ok v
  | .string => (toText v).map .text
  | .integer => (toInteger v).map .int
  | .float => (toFloat v).map .float
  | .decimal => (toDecimal v).map .decimal
  | .boolean => (toBoolean v).map .bool
  | .list => .ok (.list (toItems v))
  | .document => (toDocument v).map .document

/-- Bring a value into a shape; null stays null. -/
def coerce (s : Shape) (v : Value) : Except CoercionError Value :=
  match v with
  | .null => .ok .null
  | v => convert s v

/-- Bring a value into a shape, or the default if the result is null. -/
def applyDefault (s : Shape) (v default : Value) : Except CoercionError Value := do
  match ← coerce s v with
  | .null => coerce s default
  | result => return result

/-! ## Basic facts -/

@[simp] theorem coerce_null (s : Shape) : coerce s .null = .ok .null := rfl

theorem coerce_of_ne_null {s : Shape} {v : Value} (h : v ≠ .null) : coerce s v = convert s v := by
  unfold coerce
  split
  · exact absurd rfl h
  · rfl

@[simp] theorem coerce_any (v : Value) : coerce .any v = .ok v := by cases v <;> rfl

@[simp] theorem coerce_string_text (s : String) : coerce .string (.text s) = .ok (.text s) := rfl

end Coercion
end Stencil
