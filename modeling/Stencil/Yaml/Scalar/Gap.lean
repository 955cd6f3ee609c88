import Stencil.Yaml.Character

/-!
# Gaps in scalars

Blanks and line breaks between the words of a scalar that runs over several lines. Blanks within a
line stand for themselves. Blanks around a line break are dropped; a single line feed stands for a
space, and of several line breaks the first is dropped if it is a line feed.
-/

namespace Stencil.Yaml

/-- What was read since the last word. -/
inductive Gap where
  | nothing
  /-- Blanks of one line, backwards. -/
  | blanks (reversed : List Char)
  /-- A line break, and the further ones, backwards. The first is missing if it was escaped. -/
  | lines (first? : Option Char) (reversed : List Char)
deriving DecidableEq

namespace Gap

/-- The text that a gap stands for. -/
def text : Gap → List Char
  | nothing => []
  | blanks reversed => reversed.reverse
  | lines none reversed => reversed.reverse
  | lines (some c) reversed =>
    if c != '\n' then c :: reversed.reverse
    else if reversed.isEmpty then [' '] else reversed.reverse

/-- The gap with one more blank. -/
def addBlank (c : Char) : Gap → Gap
  | nothing => blanks [c]
  | blanks reversed => blanks (c :: reversed)
  | g => g

/-- The gap with one more line break. -/
def addBreak (c : Char) : Gap → Gap
  | lines first? reversed => lines first? (breakChar c :: reversed)
  | _ => lines (some (breakChar c)) []

/-- The gap crosses a line. -/
def isCrossing : Gap → Bool
  | lines .. => true
  | _ => false

/-! ## Basic facts -/

/-- Unless a line was broken the blanks stand for themselves. -/
theorem text_addBlank {g : Gap} (h : g.isCrossing = false) (c : Char) :
    (g.addBlank c).text = g.text ++ [c] ∧ (g.addBlank c).isCrossing = false := by
  cases g with
  | nothing => exact ⟨rfl, rfl⟩
  | blanks reversed => exact ⟨List.reverse_cons, rfl⟩
  | lines first? reversed => cases h

/-- One line feed, two of them, and a separator of lines. -/
example : (nothing.addBreak '\n').text = [' '] ∧
    (((blanks [' ']).addBreak '\x85').addBreak '\n').text = ['\n'] ∧
    (nothing.addBreak '\u2028').text = ['\u2028'] := by decide

end Gap
end Stencil.Yaml
