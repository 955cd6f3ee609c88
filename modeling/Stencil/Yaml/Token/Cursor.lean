import Stencil.Yaml.Character

/-!
# The cursor

A place in a document: the text that is left, the count of characters before it, and its line and
column. Columns are counted without byte order marks.
-/

namespace Stencil.Yaml

/-- A place in a document. -/
structure Cursor where
  rest : List Char
  index : Nat := 0
  line : Nat := 0
  column : Nat := 0

namespace Cursor

/-- The mark that may stand at the start of a text. -/
def byteOrderMark : Char := '\ufeff'

/-- The place behind the next character. -/
def next (p : Cursor) : Cursor :=
  match p.rest with
  | [] => p
  | c :: cs =>
    if isBreak c then ⟨cs, p.index + 1, p.line + 1, 0⟩
    else if c == byteOrderMark then { p with rest := cs, index := p.index + 1 }
    else { p with rest := cs, index := p.index + 1, column := p.column + 1 }

/-- The place some characters further. -/
def advance (p : Cursor) : Nat → Cursor
  | 0 => p
  | n + 1 => p.next.advance n

/-- The place where a given end of the text is left. -/
def advanceTo (p : Cursor) (rest : List Char) : Cursor :=
  p.advance (p.rest.length - rest.length)

/-! ## Basic facts -/

@[simp] theorem rest_next (p : Cursor) : p.next.rest = p.rest.tail := by
  unfold next
  split
  · next h => simp [h]
  · next h =>
    split
    · simp [h]
    · split <;> simp [h]

theorem rest_advance (p : Cursor) (n : Nat) : (p.advance n).rest = p.rest.drop n := by
  induction n generalizing p with
  | zero => rfl
  | succ n ih => rw [advance, ih, rest_next, List.drop_tail]

end Cursor
end Stencil.Yaml
