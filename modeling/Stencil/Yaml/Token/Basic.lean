/-!
# Tokens

What the text of a document consists of: scalars with the anchors, aliases and tags before them, and
the marks of its structure. The blocks that indentation opens and closes have tokens of their own,
as has a key that only the colon behind it gives away.
-/

namespace Stencil.Yaml

/-- A tag as it is written: a handle, unless it is verbatim, and what comes behind it. -/
structure TagText where
  handle? : Option String
  suffix : String
deriving DecidableEq

/-- A line in front of a document. -/
inductive Directive where
  /-- The version of the format, of which only the first number counts. -/
  | version (major : Nat)
  /-- What a handle stands for. -/
  | handle (name meaning : String)
  /-- A directive of another kind, which says nothing. -/
  | other
deriving DecidableEq

/-- A token. -/
inductive Token where
  | directive (d : Directive)
  | documentStart
  | documentEnd
  | sequenceBlock
  | mappingBlock
  | blockEnd
  | openBracket
  | closeBracket
  | openBrace
  | closeBrace
  | comma
  | dash
  | key
  | value
  | reference (name : String)
  | anchor (name : String)
  | tag (t : TagText)
  | scalar (text : List Char) (isPlain : Bool)
  | streamEnd
deriving DecidableEq, Inhabited

end Stencil.Yaml
