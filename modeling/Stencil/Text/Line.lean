/-!
# Lines

Two views of line ends. `lines` cuts a text at every character or pair that ends a line, `unifyBreaks`
turns the line ends of all platforms into the line feed when a file is read.
-/

namespace Stencil.Text

/-- A character that ends a line: line feed, vertical tab, form feed, carriage return, the three
higher information separators, next line, and the Unicode line and paragraph separators. -/
def isLineEnd (c : Char) : Bool :=
  let n := c.toNat
  (0x0a ≤ n && n ≤ 0x0d) || (0x1c ≤ n && n ≤ 0x1e) || n == 0x85 || n == 0x2028 || n == 0x2029

/-- Cut a text at its line ends. `line` is what was read of the present line, `open?` says whether
a last line without an end stands there. -/
def linesFrom (line : List Char) (isOpen : Bool) : List Char → List (List Char)
  | [] => if isOpen then [line.reverse] else []
  | '\r' :: '\n' :: cs => line.reverse :: linesFrom [] false cs
  | c :: cs =>
    if isLineEnd c then line.reverse :: linesFrom [] false cs
    else linesFrom (c :: line) true cs

/-- The lines of a text without their ends; a text that ends a line has no empty line after it. -/
def lines (cs : List Char) : List (List Char) := linesFrom [] false cs

/-- Carriage return and line feed together, and a carriage return alone, become a line feed. -/
def unifyBreaks : List Char → List Char
  | [] => []
  | '\r' :: '\n' :: cs => '\n' :: unifyBreaks cs
  | c :: cs => (if c == '\r' then '\n' else c) :: unifyBreaks cs

/-! ## Basic facts -/

@[simp] theorem lines_nil : lines [] = [] := rfl

theorem not_mem_unifyBreaks (cs : List Char) : '\r' ∉ unifyBreaks cs := by
  fun_induction unifyBreaks cs with
  | case1 => exact List.not_mem_nil
  | case2 cs ih => exact List.not_mem_cons_of_ne_of_not_mem (by decide) ih
  | case3 c cs _ ih =>
    refine List.not_mem_cons_of_ne_of_not_mem ?_ ih
    by_cases h : c = '\r'
    · subst h; decide
    · rw [if_neg (by simpa using h)]; exact Ne.symm h

/-- A line feed at the end closes the last line and opens none. -/
example : lines "a\r\nb\n\nc".toList = ["a", "b", "", "c"].map String.toList ∧
    lines "a\n".toList = ["a".toList] := by decide +kernel

end Stencil.Text
