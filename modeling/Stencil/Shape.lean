/-!
# Shapes

The shape of a result is the kind of value that a resolved placeholder is converted to.
-/

namespace Stencil

/-- The kind of value that a result has. -/
inductive Shape where
  | string
  | integer
  | float
  | decimal
  | boolean
  | list
  | document
  | any
deriving DecidableEq, Inhabited

namespace Shape

/-- Every shape, in the order in which messages list them. -/
def every : List Shape := [string, integer, float, decimal, boolean, list, document, any]

/-- The name of a shape. -/
def name : Shape → String
  | string => "string"
  | integer => "integer"
  | float => "float"
  | decimal => "decimal"
  | boolean => "boolean"
  | list => "list"
  | document => "document"
  | any => "any"

/-- A text with several placeholders has a result only in these shapes. -/
def holdsText : Shape → Bool
  | string | any => true
  | _ => false

theorem mem_every (s : Shape) : s ∈ every := by cases s <;> decide

end Shape
end Stencil
