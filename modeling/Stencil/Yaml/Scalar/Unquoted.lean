import Stencil.Yaml.Scalar.Gap

/-!
# Scalars without quotes

A plain scalar runs until something that cannot be part of it: a colon before a blank, a hash behind
one, inside brackets a comma, a question mark or another bracket, a line that is not indented past
the blocks around it, or the start or end of a document.
-/

namespace Stencil.Yaml.Unquoted

/-- A character that ends a plain scalar inside brackets. -/
def isFlowIndicator (c : Char) : Bool :=
  c == ',' || c == '[' || c == ']' || c == '\x7b' || c == '\x7d'

/-- The character is no part of a plain scalar. `rest` is the text behind it. -/
def endsAt (inFlow : Bool) (c : Char) (rest : List Char) : Bool :=
  c == '\t' || (inFlow && (c == '?' || isFlowIndicator c)) ||
    (c == ':' && (endsHere rest || (inFlow && (rest.head?.map isFlowIndicator).getD false)))

/-- The character cannot go on with a plain scalar behind a gap. -/
def endsBehind (inFlow : Bool) (margin column : Nat) (gap : Gap) (c : Char) : Bool :=
  match gap with
  | .nothing => false
  | .blanks _ => c == '#'
  | .lines .. => c == '#' || (!inFlow && column < margin)

/-- What was read of a plain scalar. -/
structure Result where
  text : List Char
  /-- What comes behind the scalar and the gap after it. -/
  rest : List Char
  /-- A line was broken behind the last word. -/
  crossed : Bool

/-- Read the rest of a plain scalar. `reversed` is the text so far, backwards, and `column` counts
the spaces since the last line break. -/
def scanFrom (inFlow : Bool) (margin : Nat) (reversed : List Char) (gap : Gap) (column : Nat) :
    List Char → Result
  | [] => ⟨reversed.reverse, [], gap.isCrossing⟩
  | c :: rest =>
    if c == ' ' then scanFrom inFlow margin reversed (gap.addBlank c) (column + 1) rest
    else if isBreak c then
      if beginsWithMarker rest then ⟨reversed.reverse, rest, true⟩
      else scanFrom inFlow margin reversed (gap.addBreak c) 0 rest
    else if endsBehind inFlow margin column gap c || endsAt inFlow c rest then
      ⟨reversed.reverse, c :: rest, gap.isCrossing⟩
    else scanFrom inFlow margin (c :: gap.text.reverse ++ reversed) .nothing column rest

/-- Read a plain scalar. Its lines after the first stand at the margin or behind it, unless brackets
are open. -/
def scan (inFlow : Bool) (margin : Nat) (cs : List Char) : Result :=
  scanFrom inFlow margin [] .nothing 0 cs

/-- The text begins a plain scalar. -/
def startsHere (inFlow : Bool) : List Char → Bool
  | [] => false
  | c :: rest =>
    !(isBlankOrBreak c || isFlowIndicator c ||
        ['-', '?', ':', '#', '&', '*', '!', '|', '>', '\x27', '\x22', '%', '@', '\x60'].contains c) ||
      (!endsHere rest && (c == '-' || (!inFlow && (c == '?' || c == ':'))))

/-! ## Basic facts -/

/-- Where plain scalars end. -/
example : ["a b: c", "a #b", "a#b", "a\n b\n\n c\nd", "a:b, c"].map
      (fun s : String => let r := scan false 1 s.toList; (String.ofList r.text, r.rest.length)) =
    [("a b", 3), ("a", 2), ("a#b", 0), ("a b\nc", 1), ("a:b, c", 0)] := by decide +kernel

end Stencil.Yaml.Unquoted
