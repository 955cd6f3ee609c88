import Stencil.Value
import Stencil.Yaml.Base64
import Stencil.Yaml.Tag

/-!
# Values as nodes

The node that a value is written as. Lists and tuples are sequences, documents mappings, a set is a
mapping of its items to null. A decimal is a float whose text keeps its digits.
-/

namespace Stencil.Yaml

namespace Node

/-- The text of a float. In exponent notation a point and a zero are put in, without which the text
would not be read as a float. -/
def floatText : Double → List Char
  | .nan => ".nan".toList
  | .infinity negative => Decimal.signText negative ++ ".inf".toList
  | x =>
    let cs := x.text
    if cs.contains '.' then cs
    else cs.flatMap fun c => if c == 'e' then ['.', '0', 'e'] else [c]

/-- The null node. -/
def nullNode : Node := .scalar .null "null".toList

mutual

/-- The node of a value; an integer past the limit of decimal text has none. -/
def ofValue? : Value → Option Node
  | .null => some nullNode
  | .bool b => some (.scalar .bool (if b then "true" else "false").toList)
  | .int n => (Integer.text? n).map (.scalar .int)
  | .float x => some (.scalar .float (floatText x))
  | .decimal d => some (.scalar .float d.text)
  | .text s => some (.scalar .text s.toList)
  | .list items => (ofItems? items).map (.sequence .sequence)
  | .tuple items => (ofItems? items).map (.sequence .sequence)
  | .document entries => (ofEntries? entries).map (.mapping .mapping)
  | .set items => (ofItems? items).map fun nodes => .mapping .set (nodes.map (·, nullNode))
  | .bytes data => some (.scalar .binary (Base64.encode data))
  | .date d => some (.scalar .timestamp d.text)
  | .moment t => some (.scalar .timestamp (t.text ' '))

/-- The nodes of some values. -/
def ofItems? : List Value → Option (List Node)
  | [] => some []
  | v :: vs =>
    match ofValue? v, ofItems? vs with
    | some n, some ns => some (n :: ns)
    | _, _ => none

/-- The nodes of the entries of a document. -/
def ofEntries? : List (Value × Value) → Option (List (Node × Node))
  | [] => some []
  | (k, v) :: es =>
    match ofValue? k, ofValue? v, ofEntries? es with
    | some a, some b, some ns => some ((a, b) :: ns)
    | _, _, _ => none

end

end Node
end Stencil.Yaml
