import Stencil.Text.Line
import Stencil.Text.Utf8
import Stencil.Yaml.Grammar
import Stencil.Yaml.Meaning

/-!
# What can be wrong with documents

**Files that are no text.** A reader takes a file piece by piece and parses what it has. If the file
is no text of readable characters to its end, that may be found out before or after a fault of the
document itself (`Stops`).

**Scalars.** A document of the right form has no value if the text of a scalar does not name what its
tag promises (`Node.Flaw`).

**Circles.** A node that is a part of itself (`Node.holdsItself`) has no value of its own here.
-/

namespace Stencil.Yaml

open Text

/-! ## Files that are no text -/

/-- The text of a file, if a document may hold all of it. -/
def readable? (data : List UInt8) : Option (List Char) :=
  (Utf8.decode? data).filter fun cs => cs.all isReadable

/-- How reading may end if a file is no readable text to its end. -/
inductive Stops (data : List UInt8) : Fault → Prop
  /-- The bytes are no text. -/
  | bytes (h : Utf8.decode? data = none) : Stops data .undecodable
  /-- A beginning of the file holds a character that no document may hold. -/
  | character {head : List UInt8} {cs : List Char} (hhead : head <+: data)
      (hcs : Utf8.decode? head = some cs) (h : cs.all isReadable = false) : Stops data .malformed
  /-- A beginning of the file is at fault, whatever comes behind it. -/
  | form {head : List UInt8} {cs : List Char} {f : Fault} (hhead : head <+: data)
      (hcs : Utf8.decode? head = some cs)
      (h : ∀ more, (TokenStream.ofText (unifyBreaks (cs ++ more))).node? = .error f) : Stops data f

/-- A byte with which a collection, an item or an entry may begin. -/
def isOpening (b : UInt8) : Bool := ['[', '\x7b', '-', '?', ':'].any fun c => c.toNat = b.toNat

/-- How many such bytes a file holds: at least as many as its collections lie inside each other. -/
def openings (data : List UInt8) : Nat := data.countP isOpening

/-! ## Flaws of nodes -/

/-- A tag that not every text suits. -/
def Tag.promises : Tag → Bool
  | .bool | .int | .float | .timestamp => true
  | _ => false

namespace Node

/-- A node is a part of another, at any depth. -/
inductive IsPart (whole : Node) : Node → Prop
  | self : IsPart whole whole
  | item {tag : Tag} {items : List Node} {n : Node} (h : IsPart whole (.sequence tag items))
      (hn : n ∈ items) : IsPart whole n
  | key {tag : Tag} {entries : List (Node × Node)} {k v : Node}
      (h : IsPart whole (.mapping tag entries)) (he : (k, v) ∈ entries) : IsPart whole k
  | value {tag : Tag} {entries : List (Node × Node)} {k v : Node}
      (h : IsPart whole (.mapping tag entries)) (he : (k, v) ∈ entries) : IsPart whole v

/-- What is wrong with a node that has no value, apart from its form. -/
inductive Flaw (whole : Node) : Fault → Prop
  /-- The text of a part does not name what its tag promises. -/
  | unnamed {n : Node} {cs : List Char} {f : Fault} (hpart : IsPart whole n)
      (hpromises : n.tag.promises = true) (htext : n.scalarText? = some cs)
      (h : Scalar.value n.tag cs = .error f) : Flaw whole f
  /-- A mapping stands for a moment. -/
  | notText {entries : List (Node × Node)} (hpart : IsPart whole (.mapping .timestamp entries)) :
      Flaw whole .notText

/-! ## Circles -/

mutual

/-- A part of the node stands for a node around it. -/
def holdsItself : Node → Bool
  | scalar tag _ => tag = .enclosing
  | sequence _ items => anyHoldsItself items
  | mapping _ entries => anyEntryHoldsItself entries

/-- A part of some of the nodes stands for a node around it. -/
def anyHoldsItself : List Node → Bool
  | [] => false
  | n :: ns => n.holdsItself || anyHoldsItself ns

/-- A part of some of the entries stands for a node around it. -/
def anyEntryHoldsItself : List (Node × Node) → Bool
  | [] => false
  | (k, v) :: es => k.holdsItself || v.holdsItself || anyEntryHoldsItself es

end

end Node
end Stencil.Yaml
