/-!
# Placeholders

A placeholder is a key between two percent signs; the key has at least one character and no percent
sign, and there is no way to escape the sign. `pieces` cuts a text into literals and placeholders
from left to right: a percent sign opens a placeholder if a key and a closing sign follow, and
belongs to a literal otherwise. A closing sign never opens the next placeholder.

Beside it stand two direct views: `whole?` asks whether the whole text is one placeholder, and
`occursIn` whether one stands anywhere.
-/

namespace Stencil

/-- A part of a text. -/
inductive Piece where
  | literal (cs : List Char)
  | token (key : List Char)
deriving DecidableEq

namespace Piece

/-- A placeholder with its signs. -/
def tokenText (key : List Char) : List Char := '%' :: key ++ ['%']

/-- The text of a piece. -/
def text : Piece → List Char
  | literal cs => cs
  | token key => tokenText key

end Piece

/-- A placeholder in its place: the characters from `start` up to before `stop`. -/
structure Placeholder where
  key : List Char
  start : Nat
  stop : Nat
deriving DecidableEq

namespace Placeholder

/-- The text of a placeholder with its signs. -/
def text (p : Placeholder) : List Char := Piece.tokenText p.key

/-- A literal, left out if it is empty. -/
def literal? (reversed : List Char) : List Piece :=
  if reversed.isEmpty then [] else [.literal reversed.reverse]

/-- Cut the rest of a text. `before` is the literal read so far, backwards. In `open?` stand, also
backwards, the characters behind a percent sign that may open a placeholder. -/
def piecesFrom (before : List Char) : (open? : Option (List Char)) → List Char → List Piece
  | none, [] => literal? before
  | some key, [] => literal? (key ++ '%' :: before)
  | none, c :: cs =>
    if c = '%' then piecesFrom before (some []) cs else piecesFrom (c :: before) none cs
  | some [], c :: cs =>
    if c = '%' then piecesFrom ('%' :: before) (some []) cs else piecesFrom before (some [c]) cs
  | some (k :: key), c :: cs =>
    if c = '%' then literal? before ++ .token (k :: key).reverse :: piecesFrom [] none cs
    else piecesFrom before (some (c :: k :: key)) cs

/-- The literals and placeholders of a text. -/
def pieces (cs : List Char) : List Piece := piecesFrom [] none cs

/-- The placeholders among pieces that begin at a place. -/
def locate (start : Nat) : List Piece → List Placeholder
  | [] => []
  | .literal cs :: ps => locate (start + cs.length) ps
  | .token key :: ps =>
    let stop := start + key.length + 2
    ⟨key, start, stop⟩ :: locate stop ps

/-- Every placeholder of a text from left to right. -/
def scan (cs : List Char) : List Placeholder := locate 0 (pieces cs)

/-- The key, if the whole text is one placeholder. -/
def whole? : List Char → Option (List Char)
  | '%' :: cs =>
    let key := cs.takeWhile (· != '%')
    if !key.isEmpty && cs.dropWhile (· != '%') == ['%'] then some key else none
  | _ => none

/-- The text behind a percent sign begins with a key and a closing sign. -/
def closes (cs : List Char) : Bool :=
  !(cs.takeWhile (· != '%')).isEmpty && !(cs.dropWhile (· != '%')).isEmpty

/-- A placeholder stands somewhere in the text. -/
def occursIn : List Char → Bool
  | [] => false
  | c :: cs => (c == '%' && closes cs) || occursIn cs

/-! ## Basic facts -/

@[simp] theorem pieces_nil : pieces [] = [] := rfl

theorem flatMap_literal? (reversed : List Char) :
    (literal? reversed).flatMap Piece.text = reversed.reverse := by
  unfold literal?
  split <;> simp_all [Piece.text]

/-- Cutting a text loses nothing. -/
theorem flatMap_piecesFrom (before : List Char) (open? : Option (List Char)) (cs : List Char) :
    (piecesFrom before open? cs).flatMap Piece.text =
      before.reverse ++ (match open? with | none => [] | some key => '%' :: key.reverse) ++ cs := by
  fun_induction piecesFrom before open? cs <;>
    simp_all [flatMap_literal?, Piece.text, Piece.tokenText]

theorem flatMap_pieces (cs : List Char) : (pieces cs).flatMap Piece.text = cs := by
  simpa [pieces] using flatMap_piecesFrom [] none cs

/-- Runs of percent signs, and a closing sign that opens nothing. -/
example : (scan "%%a%b%c%".toList).map (fun p => (String.ofList p.key, p.start, p.stop)) =
    [("a", 1, 4), ("c", 5, 8)] := by decide +kernel

end Placeholder
end Stencil
