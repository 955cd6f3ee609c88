import Stencil.Json
import Stencil.Library
import Stencil.Yaml.Render
import Stencil.Yaml.Represent

/-!
# Output

A filled template as the text of a file, in YAML unless JSON is asked for. Where one object stands in
several places, YAML text refers to the first of them. An object that is a part of itself has no JSON
text.
-/

namespace Stencil

/-- The value is an object that YAML text refers to when it stands in several places. Null, booleans,
integers, floats, texts, bytes and the empty tuple are written out each time. -/
def Value.isShared : Value → Bool
  | list _ | document _ | set _ | decimal _ | date _ | moment _ => true
  | tuple items => !items.isEmpty
  | _ => false

/-- The names of the parts of a value, as far as text may refer to them. -/
def Value.names (objects : Position → Option Nat) (v : Value) : Position → Option Nat := fun p =>
  if (v.part? p).any isShared then objects p else none

namespace OutputFormat

/-- The text of a value whose parts have names. -/
def writeNamed (names : Position → Option Nat) (v : Value) (format : OutputFormat) :
    Except Json.Error (List Char) :=
  match format with
  | json => (Json.indented names v).map (· ++ ['\n'])
  | yaml =>
    match Yaml.Node.ofValue? v with
    | some n => .ok (Yaml.Sheet.ofNode names n).render
    | none => .error .oversizedInteger

/-- The text of a value whose parts are all apart. -/
def write (v : Value) (format : OutputFormat) : Except Json.Error (List Char) :=
  format.writeNamed (fun _ => none) v

/-- The text of a result, as the library writes it. -/
def textOf (lib : Library) (v : Value) (format : OutputFormat) : Except Json.Error (List Char) :=
  if lib.hasNoRoom format v then .error .tooDeep else format.writeNamed (v.names (lib.objects v)) v

end OutputFormat
end Stencil
