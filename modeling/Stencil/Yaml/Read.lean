import Stencil.Library

/-!
# Reading documents

From bytes to a value: the bytes are decoded, line breaks unified, the text is cut into tokens, and
the value of the node is taken that they stand for. A text without a document has the value null.
JSON is read by the same rules, of which it is a part. What the document does not tell, the library
does.
-/

namespace Stencil.Yaml

/-- The value of a node. -/
def valueOf (lib : Library) (n : Node) : Except Fault Value :=
  (if n.holdsItself then lib.unrolled n else n.value).map (Value.ordered lib.order)

/-- The value of a document. -/
def readText (lib : Library) (cs : List Char) : Except Fault Value := do
  match ← (TokenStream.ofText (Text.unifyBreaks cs)).node? with
  | some n => valueOf lib n
  | none => return .null

/-- The value of a document in a file. -/
def read (lib : Library) (data : List UInt8) : Except Fault Value :=
  if lib.isTooDeep data then .error .tooDeep
  else match readable? data with
    | some cs => readText lib cs
    | none => .error (lib.broken data)

/-! ## Basic facts -/

/-- An alias behind its anchor, and one inside it. -/
example : (read .plain "a: &x [1]\nb: *x".toUTF8.data.toList).isOk = true ∧
    (read .plain "&x [*x]".toUTF8.data.toList).isOk = false := by decide +kernel

end Stencil.Yaml
