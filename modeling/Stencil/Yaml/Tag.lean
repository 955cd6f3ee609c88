/-!
# Tags

The tag of a node says what kind of value the node stands for. The tags of the common schema have
names of their own here; every other tag keeps its full name.
-/

namespace Stencil.Yaml

/-- A tag. -/
inductive Tag where
  | null
  | bool
  | int
  | float
  | text
  | timestamp
  | binary
  | merge
  | value
  | indicator
  | sequence
  | mapping
  | set
  | orderedMap
  | pairs
  /-- The tag `!`, which leaves the choice to the content. -/
  | unspecific
  /-- No tag that is written: what stands for a node inside that node. -/
  | enclosing
  | other (name : String)
deriving DecidableEq, Inhabited

namespace Tag

/-- What the full names of the common schema begin with. -/
def schema : String := "tag:yaml.org,2002:"

/-- The common tags by the last part of their names. -/
def table : List (String × Tag) :=
  [("null", null), ("bool", bool), ("int", int), ("float", float), ("str", text),
   ("timestamp", timestamp), ("binary", binary), ("merge", merge), ("value", value),
   ("yaml", indicator), ("seq", sequence), ("map", mapping), ("set", set), ("omap", orderedMap),
   ("pairs", pairs)]

/-- The tag with a full name. -/
def ofName (name : String) : Tag :=
  if name == "!" then unspecific
  else ((table.find? fun entry => schema ++ entry.1 == name).map Prod.snd).getD (other name)

/-- The short form in which a tag is written. -/
def shorthand (t : Tag) : List Char :=
  match t with
  | unspecific => ['!']
  | other name => '!' :: '<' :: name.toList ++ ['>']
  | t => '!' :: '!' :: ((table.find? fun entry => entry.2 == t).map fun e => e.1.toList).getD []

end Tag

/-- A node of a document: what was written, with the tag that says what it stands for. -/
inductive Node where
  | scalar (tag : Tag) (text : List Char)
  | sequence (tag : Tag) (items : List Node)
  | mapping (tag : Tag) (entries : List (Node × Node))
deriving Inhabited

/-- What stands for an alias inside the node of its own anchor. -/
def Node.enclosing : Node := .scalar .enclosing []

/-- The tag of a node. -/
def Node.tag : Node → Tag
  | scalar tag _ => tag
  | sequence tag _ => tag
  | mapping tag _ => tag

/-! ## Basic facts -/

/-- A full name and a short form. -/
example : Tag.ofName "tag:yaml.org,2002:float" = .float ∧ Tag.float.shorthand = "!!float".toList ∧
    Tag.ofName "!own" = .other "!own" := by decide +kernel

end Stencil.Yaml
