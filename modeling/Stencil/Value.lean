import Stencil.Calendar
import Stencil.Number.Double.Text

/-!
# Values

The values that templates, scopes and stores hold: scalars, lists and tuples of values, documents
and sets. A document keeps its entries in the order in which they came; its keys are values of any
kind.
-/

namespace Stencil

/-- A value. -/
inductive Value where
  | null
  | bool (b : Bool)
  | int (n : Int)
  | float (x : Double)
  | decimal (d : Decimal)
  | text (s : String)
  | list (items : List Value)
  | tuple (items : List Value)
  | document (entries : List (Value × Value))
  | set (items : List Value)
  | bytes (data : List UInt8)
  | date (d : Date)
  | moment (t : Moment)
deriving Inhabited

/-- The entries of a document in order. -/
abbrev Document := List (Value × Value)

namespace Value

/-- The value is there. -/
def isNull : Value → Bool
  | null => true
  | _ => false

/-- The name of a value's type, as messages give it. -/
def typeName : Value → String
  | null => "NoneType"
  | bool _ => "bool"
  | int _ => "int"
  | float _ => "float"
  | decimal _ => "Decimal"
  | text _ => "str"
  | list _ => "list"
  | tuple _ => "tuple"
  | document _ => "dict"
  | set _ => "set"
  | bytes _ => "bytes"
  | date _ => "date"
  | moment _ => "datetime"

@[simp] theorem isNull_iff {v : Value} : v.isNull = true ↔ v = null := by
  cases v <;> simp [isNull]

end Value
end Stencil
