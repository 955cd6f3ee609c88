import Stencil.Yaml.Character
import Stencil.Yaml.Plain

/-!
# The style of scalars

How a scalar is written: plain, in single quotes, in double quotes or as a literal block. The
`Traits` of a text say which styles can hold it. Plain style must leave no doubt where the text
begins and ends and must not look like markup, single quotes can hold no special character and no
blanks at a line break, double quotes can hold everything.
-/

namespace Stencil.Yaml

/-- A character that can stand in a document as itself. -/
def isPlainChar (c : Char) : Bool :=
  let n := c.toNat
  c == '\n' || (0x20 ≤ n && n ≤ 0x7e) || n == 0x85 || (0xa0 ≤ n && n ≤ 0xd7ff) ||
    (0xe000 ≤ n && n ≤ 0xfffd && n != 0xfeff) || (0x10000 ≤ n && n < 0x10ffff)

/-- How a scalar is written. -/
inductive Style where
  | plain
  | single
  | double
  | literal
deriving DecidableEq

/-- What of a text bears on its style. -/
structure Traits where
  isEmpty : Bool
  isMultiline : Bool
  allowsPlain : Bool
  allowsSingle : Bool
  allowsLiteral : Bool
deriving DecidableEq

namespace Traits

/-- The characters with which no plain text begins. -/
def leadingIndicators : List Char :=
  ['#', ',', '[', ']', '\x7b', '\x7d', '&', '*', '!', '|', '>', '\x27', '\x22', '%', '@', '\x60']

/-- The first character would be taken for markup. -/
def leadsWithIndicator : List Char → Bool
  | [] => false
  | c :: cs =>
    leadingIndicators.contains c || ((c == '?' || c == ':' || c == '-') && endsHere cs)

/-- A later character would be taken for markup: a colon before a blank, a hash behind one. -/
def holdsIndicator : List Char → Bool
  | [] => false
  | [_] => false
  | a :: b :: cs =>
    (b == ':' && endsHere cs) || (b == '#' && isBlankOrBreak a) || holdsIndicator (b :: cs)

/-- Two characters of some kinds follow each other. -/
def follows (p q : Char → Bool) : List Char → Bool
  | a :: b :: cs => (p a && q b) || follows p q (b :: cs)
  | _ => false

/-- A space. -/
def isSpace (c : Char) : Bool := c == ' '

/-- The character begins or ends a plain text badly. -/
def isBadEnd (c : Option Char) : Bool := (c.map fun c => isSpace c || isBreak c).getD false

/-- The traits of a text. -/
def ofText (cs : List Char) : Traits :=
  if cs.isEmpty then
    { isEmpty := true, isMultiline := false, allowsPlain := true, allowsSingle := true,
      allowsLiteral := false }
  else
    let multiline := cs.any isBreak
    let special := cs.any (!isPlainChar ·) || follows isSpace isBreak cs
    let indented := follows isBreak isSpace cs
    let marked := beginsLikeMarker cs || leadsWithIndicator cs || holdsIndicator cs
    { isEmpty := false
      isMultiline := multiline
      allowsPlain := !multiline && !special && !marked && !isBadEnd cs.head? && !isBadEnd cs.getLast?
      allowsSingle := !special && !indented
      allowsLiteral := !special && cs.getLast? != some ' ' }

end Traits

/-- The style of a scalar with a tag. `isPlainTag` says whether the plain text would be given this
tag, `isKey` whether the scalar is written as a key on one line. Bytes ask for a literal block. -/
def Style.choose (tag : Tag) (isPlainTag isKey : Bool) (t : Traits) : Style :=
  if tag = .binary then
    if t.allowsLiteral && !isKey then .literal else .double
  else if isPlainTag && t.allowsPlain && !(isKey && (t.isEmpty || t.isMultiline)) then .plain
  else if t.allowsSingle && !(isKey && t.isMultiline) then .single
  else .double

/-! ## Basic facts -/

/-- Which texts may stand plain. -/
example : ["a b", "a: b", "a:b", "- a", "-a", "a #b", "a#b", " a", "%a%", "x%a%", "---", "a\tb"].map
      (fun s : String => (Traits.ofText s.toList).allowsPlain) =
    [true, false, true, false, true, false, true, false, false, true, false, false] := by
  decide +kernel

end Stencil.Yaml
