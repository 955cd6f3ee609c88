import Stencil.Proofs.Placeholder.Views

/-!
# Scanning two texts in a row

A percent sign that is left over at the end of a text may open a placeholder that reaches into the
text behind it, and from there on that text is cut in another way. If none is left over behind the
last placeholder (`rest`), what is found in each of the texts does not depend on the other.

**Pieces.** The pieces of two such texts in a row are those of the first in front of those of the
second (`join`), with one literal instead of two where literals meet at the seam. When the first
text ends, the scanner has at most a literal in its hands: an opening would be a percent sign left
over.

**Readers of pieces.** What reads pieces does not see the seam if it makes of two literals in a row
the same as of one. For the places of placeholders this is shown here.

Main results: `pieces_append` and `scan_append`. By `whole?_append_eq_none` two such texts that are
no single placeholder do not become one in a row.
-/

namespace Stencil.Placeholder

/-! ## Joining pieces -/

/-- A piece in front of others. Two literals in a row become one. -/
def prepend : Piece → List Piece → List Piece
  | .literal l, .literal m :: ps => .literal (l ++ m) :: ps
  | p, ps => p :: ps

/-- Pieces in front of others, without a seam between two literals. -/
def join (ps qs : List Piece) : List Piece := ps.foldr prepend qs

@[simp] theorem join_nil (qs : List Piece) : join [] qs = qs := rfl

@[simp] theorem join_cons (p : Piece) (ps qs : List Piece) :
    join (p :: ps) qs = prepend p (join ps qs) := rfl

/-- A token behind a literal keeps it apart from what is joined. -/
theorem join_literal?_token (before key : List Char) (ps qs : List Piece) :
    join (literal? before ++ .token key :: ps) qs =
      literal? before ++ .token key :: join ps qs := by
  cases before <;> rfl

theorem join_literal?_literal? (before after : List Char) :
    join (literal? before) (literal? after) = literal? (after ++ before) := by
  cases before <;> cases after <;> simp [literal?, prepend]

theorem join_literal?_literal?_token (before after key : List Char) (ps : List Piece) :
    join (literal? before) (literal? after ++ .token key :: ps) =
      literal? (after ++ before) ++ .token key :: ps := by
  cases before <;> cases after <;> simp [literal?, prepend]

/-! ## The scanner at the seam -/

/-- A literal that is read already only lengthens the first literal of what is to come. -/
theorem piecesFrom_append_before (after before : List Char) (open? : Option (List Char))
    (cs : List Char) :
    piecesFrom (after ++ before) open? cs = join (literal? before) (piecesFrom after open? cs) := by
  fun_induction piecesFrom after open? cs with
  | case1 after => rw [piecesFrom, join_literal?_literal?]
  | case2 after key => rw [piecesFrom, join_literal?_literal?, List.append_assoc, List.cons_append]
  | case3 after cs ih => rw [piecesFrom, if_pos rfl, ih]
  | case4 after c cs hc ih => rw [piecesFrom, if_neg hc, ← ih, List.cons_append]
  | case5 after cs ih => rw [piecesFrom, if_pos rfl, ← ih, List.cons_append]
  | case6 after c cs hc ih => rw [piecesFrom, if_neg hc, ih]
  | case7 after k key cs ih => rw [piecesFrom, if_pos rfl, join_literal?_literal?_token]
  | case8 after k key c cs hc ih => rw [piecesFrom, if_neg hc, ih]

/-- No percent sign is left over behind the last placeholder. -/
def EndsClear (ps : List Piece) : Prop := ∀ l, ps.getLast? = some (.literal l) → '%' ∉ l

theorem EndsClear.of_append_cons {ps qs : List Piece} {p : Piece}
    (h : EndsClear (ps ++ p :: qs)) : EndsClear qs := by
  intro l hl
  refine h l ?_
  cases qs with
  | nil => cases hl
  | cons q qs => simpa using hl

/-- An opening that is never closed is left over. -/
theorem not_endsClear_opening (key before : List Char) :
    ¬ EndsClear (literal? (key ++ '%' :: before)) := by
  intro h
  have hclear := h (key ++ '%' :: before).reverse (by simp [literal?])
  simp at hclear

/-- **The scanner at the seam.** From any point on, if it leaves nothing over, it comes to the
second text as to a new one. -/
theorem piecesFrom_append (before : List Char) (open? : Option (List Char)) (a b : List Char)
    (h : EndsClear (piecesFrom before open? a)) :
    piecesFrom before open? (a ++ b) = join (piecesFrom before open? a) (pieces b) := by
  fun_induction piecesFrom before open? a with
  | case1 before => exact piecesFrom_append_before [] before none b
  | case2 before key =>
    -- Only an opening could reach over the seam.
    exact absurd h (not_endsClear_opening key before)
  | case3 before cs ih => rw [List.cons_append, piecesFrom, if_pos rfl, ih h]
  | case4 before c cs hc ih => rw [List.cons_append, piecesFrom, if_neg hc, ih h]
  | case5 before cs ih => rw [List.cons_append, piecesFrom, if_pos rfl, ih h]
  | case6 before c cs hc ih => rw [List.cons_append, piecesFrom, if_neg hc, ih h]
  | case7 before k key cs ih =>
    -- The placeholder is complete, so what is left over stands behind it.
    rw [List.cons_append, piecesFrom, if_pos rfl, ih h.of_append_cons, join_literal?_token]
  | case8 before k key c cs hc ih => rw [List.cons_append, piecesFrom, if_neg hc, ih h]

/-! ## What is left over -/

theorem length_text_token (key : List Char) : (Piece.token key).text.length = key.length + 2 :=
  length_tokenText key

/-- A literal at the end of pieces belongs to what stands behind the last placeholder. The pieces
begin at `place`; between `start` and `place` stand literals. -/
theorem subset_rest {cs l : List Char} {ps : List Piece} {start place : Nat} (hs : start ≤ place)
    (hcs : cs.drop place = ps.flatMap Piece.text) (hl : ps.getLast? = some (.literal l)) :
    l ⊆ rest cs start (locate place ps) := by
  induction ps generalizing start place with
  | nil => cases hl
  | cons p ps ih =>
    rw [List.flatMap_cons] at hcs
    have htail := drop_of_drop_eq hcs
    cases ps with
    | nil =>
      cases hl
      have hl : cs.drop place = l := by simpa [Piece.text] using hcs
      rw [locate, locate, rest, ← hl]
      exact List.drop_subset_drop_left cs hs
    | cons q ps =>
      rw [List.getLast?_cons_cons] at hl
      cases p with
      | literal m => exact ih (Nat.le_add_right_of_le hs) htail hl
      | token key =>
        rw [length_text_token, ← Nat.add_assoc] at htail
        exact ih le_rfl htail hl

theorem endsClear_pieces {cs : List Char} (h : '%' ∉ rest cs 0 (scan cs)) :
    EndsClear (pieces cs) := by
  intro l hl hmem
  have hrest : l ⊆ rest cs 0 (scan cs) := subset_rest le_rfl (flatMap_pieces cs).symm hl
  exact h (hrest hmem)

/-- **The pieces of two texts in a row** are those of the first and those of the second, if no
percent sign is left over behind the last placeholder of the first. -/
theorem pieces_append {a : List Char} (h : '%' ∉ rest a 0 (scan a)) (b : List Char) :
    pieces (a ++ b) = join (pieces a) (pieces b) :=
  piecesFrom_append [] none a b (endsClear_pieces h)

/-! ## Places -/

/-- A placeholder further on in a text. -/
def shift (n : Nat) (p : Placeholder) : Placeholder := ⟨p.key, n + p.start, n + p.stop⟩

theorem locate_add (n start : Nat) (ps : List Piece) :
    locate (n + start) ps = (locate start ps).map (shift n) := by
  induction ps generalizing start with
  | nil => rfl
  | cons p ps ih =>
    cases p with
    | literal l => rw [locate, locate, Nat.add_assoc, ih]
    | token key => simp only [locate, List.map_cons, shift, Nat.add_assoc, ih]

/-- Two literals in a row take as much room as one. -/
theorem locate_prepend (start : Nat) (p : Piece) (ps : List Piece) :
    locate start (prepend p ps) = locate start (p :: ps) := by
  fun_cases prepend p ps with
  | case1 l m ps => rw [locate, locate, locate, List.length_append, Nat.add_assoc]
  | case2 => rfl

theorem locate_join (start : Nat) (ps qs : List Piece) :
    locate start (join ps qs) =
      locate start ps ++ locate (start + (ps.flatMap Piece.text).length) qs := by
  induction ps generalizing start with
  | nil => rfl
  | cons p ps ih =>
    rw [join_cons, locate_prepend, List.flatMap_cons, List.length_append, ← Nat.add_assoc]
    cases p with
    | literal l => exact ih _
    | token key =>
      rw [length_text_token, ← Nat.add_assoc]
      exact congrArg _ (ih _)

/-- **The placeholders of two texts in a row** are those of the first, and behind them those of the
second. -/
theorem scan_append {a : List Char} (h : '%' ∉ rest a 0 (scan a)) (b : List Char) :
    scan (a ++ b) = scan a ++ (scan b).map (shift a.length) := by
  rw [scan, pieces_append h, locate_join, flatMap_pieces, Nat.zero_add]
  exact congrArg _ (locate_add a.length 0 (pieces b))

/-- A percent sign that is left over opens a placeholder across the seam. -/
example : scan ("5% of ".toList ++ "%n%".toList) = [⟨" of ".toList, 1, 7⟩] := by decide +kernel

/-! ## Whole placeholders -/

/-- Two texts that are no single placeholder are none in a row either. -/
theorem whole?_append_eq_none {a b : List Char} (h : '%' ∉ rest a 0 (scan a))
    (ha : whole? a = none) (hb : whole? b = none) : whole? (a ++ b) = none := by
  rw [Option.eq_none_iff_forall_ne_some] at ha hb ⊢
  intro key hkey
  obtain ⟨hk, htext⟩ := whole?_eq_some_iff.1 hkey
  have hscan := scan_eq_singleton_iff.2 ⟨hk, htext⟩
  rw [scan_append h] at hscan
  cases hs : scan a with
  | nil =>
    -- The first text has no percent sign, so it does not begin with one.
    rw [hs, rest, List.drop_zero] at h
    cases a with
    | nil => exact hb key hkey
    | cons c a =>
      obtain ⟨rfl, -⟩ := List.cons.inj htext
      exact h List.mem_cons_self
  | cons p ps =>
    -- The first text holds a placeholder as long as both texts.
    rw [hs, List.cons_append] at hscan
    obtain ⟨rfl, -⟩ := List.cons.inj hscan
    have hstop : (a ++ b).length ≤ a.length :=
      ((leftmostScan_scan a).span _ (hs ▸ List.mem_cons_self)).2.2
    rw [List.length_append] at hstop
    have hnil : b = [] := List.length_eq_zero_iff.1 (by omega)
    rw [hnil, List.append_nil] at hkey
    exact ha key hkey

end Stencil.Placeholder
