import Stencil.Text.Blank

/-!
# Paths

The path of a file: slashes at the start and the names between slashes. Empty names and single dots
say nothing and are dropped; double dots stay, for what they mean hangs on the files that are there.
Two slashes at the start are kept apart from one, more than two count as one.
-/

namespace Stencil

/-- The path of a file. -/
structure Path where
  /-- The slashes at the start. -/
  root : List Char
  names : List (List Char)
deriving DecidableEq, Inhabited

namespace Path

/-- The names between the slashes of a text. `name` is the present name, backwards. -/
def split (name : List Char) : List Char → List (List Char)
  | [] => [name.reverse]
  | c :: cs => if c == '/' then name.reverse :: split [] cs else split (c :: name) cs

/-- The name says something. -/
def isProper (name : List Char) : Bool := !name.isEmpty && name != ['.']

/-- The path that a text stands for. -/
def ofText (cs : List Char) : Path where
  root := match (cs.takeWhile (· == '/')).length with
    | 0 => []
    | 2 => ['/', '/']
    | _ => ['/']
  names := (split [] cs).filter isProper

/-- Names with slashes between them. -/
def join : List (List Char) → List Char
  | [] => []
  | [name] => name
  | name :: names => name ++ '/' :: join names

/-- The text of a path. -/
def text (p : Path) : List Char :=
  if p.root.isEmpty && p.names.isEmpty then ['.'] else p.root ++ join p.names

/-- The path of the directory around a file. -/
def parent (p : Path) : Path := { p with names := p.names.dropLast }

/-- The last name; there may be none. -/
def name (p : Path) : List Char := p.names.getLast?.getD []

/-- The name from its last point on, unless the point stands at its start or end. -/
def suffix (p : Path) : List Char :=
  let tail := (p.name.reverse.takeWhile (· != '.')).reverse
  let stem := p.name.length - tail.length - 1
  if tail.isEmpty || tail.length = p.name.length || stem = 0 then [] else '.' :: tail

/-- No file can have the path. -/
def isUnusable (p : Path) : Bool := p.names.any (·.contains '\x00')

/-! ## Basic facts -/

/-- Names that say nothing, and the two kinds of roots. -/
example : ["./a//b.yaml", "", ".", "a/../b/", "//x", "///x", "/"].map
      (fun s : String => String.ofList (ofText s.toList).text) =
    ["a/b.yaml", ".", ".", "a/../b", "//x", "/x", "/"] := by decide +kernel

/-- Suffixes. -/
example : ["a/b.tar.gz", ".hidden", "a.", "..", "a", ".a.YML"].map
      (fun s : String => String.ofList (ofText s.toList).suffix) = [".gz", "", "", "", "", ".YML"] := by
  decide +kernel

end Path
end Stencil
