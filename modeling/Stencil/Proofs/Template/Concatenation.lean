import Stencil.Proofs.Placeholder.Concatenation
import Stencil.Proofs.Template.Text

/-!
# Filling two texts in a row

If no percent sign is left over behind the last placeholder of a text, then filling it and another
text in a row comes to filling the one and then the other: the events of the first come before those
of the second, a failure of the first ends it, and the results stand in a row.

Texts that are one placeholder are left out. Such a text becomes a value, which need not be a text,
and inside a longer text the same placeholder has other rules for null and for absent keys.

Main result: `text_append`.
-/

namespace Stencil.Fill

open Placeholder

variable (env : Environment) (default : Value)

/-- Two literals in a row are composed as one. -/
theorem compose_prepend (p : Piece) (ps : List Piece) :
    compose env default (prepend p ps) = compose env default (p :: ps) := by
  fun_cases prepend p ps with
  | case1 l m ps => simp only [compose, bind_assoc, pure_bind, List.append_assoc]
  | case2 => rfl

/-- **Composing does not see the seam.** Pieces that are joined are composed one part after the
other. -/
theorem compose_join (ps qs : List Piece) :
    compose env default (join ps qs) = do
      let first ← compose env default ps
      let second ← compose env default qs
      return first ++ second := by
  induction ps with
  | nil => simp only [join_nil, compose, pure_bind, List.nil_append, bind_pure]
  | cons p ps ih =>
    rw [join_cons, compose_prepend]
    cases p with
    | literal l => simp only [compose, ih, bind_assoc, pure_bind, List.append_assoc]
    | token key => simp only [compose, ih, bind_assoc, pure_bind, List.append_assoc]

/-- The composed text of a string. -/
def composed (s : String) : Filling String := do
  let cs ← compose env default (pieces s.toList)
  return String.ofList cs

/-- In a textual shape a text that is no single placeholder is composed. -/
theorem text_eq_composed {shape : Shape} {s : String} (h : whole? s.toList = none)
    (hs : shape.holdsText = true) :
    text env shape default s = Value.text <$> composed env default s := by
  rw [text, h, composed]
  simp only [hs, if_true, map_eq_pure_bind, bind_assoc, pure_bind]

theorem composed_append {a : String} (h : '%' ∉ rest a.toList 0 (scan a.toList)) (b : String) :
    composed env default (a ++ b) = do
      let first ← composed env default a
      let second ← composed env default b
      return first ++ second := by
  rw [composed, String.toList_append, pieces_append h, compose_join]
  simp only [composed, bind_assoc, pure_bind, String.ofList_append]

/-- **Two texts in a row.** If no percent sign is left over behind the last placeholder of the first
text, the placeholders of both in a row are those of the first and, further on, those of the second.
If moreover neither of them is a single placeholder, each becomes a text in a textual shape, and the
two in a row become the one text and the other behind it. The first is filled before the second, so
an error of the first is the error of both. -/
theorem text_append (shape : Shape) {a b : String}
    (h : '%' ∉ rest a.toList 0 (scan a.toList)) :
    scan (a ++ b).toList = scan a.toList ++ (scan b.toList).map (shift a.length) ∧
    (whole? a.toList = none → whole? b.toList = none → shape = .string ∨ shape = .any →
      ∃ first second : Filling String,
        text env shape default a = Value.text <$> first ∧
        text env shape default b = Value.text <$> second ∧
        text env shape default (a ++ b) = Value.text <$> do
          let s ← first
          let t ← second
          return s ++ t) := by
  constructor
  · rw [String.toList_append, scan_append h, String.length_toList]
  · intro ha hb hshape
    have hs : shape.holdsText = true := by rcases hshape with rfl | rfl <;> rfl
    have hab : whole? (a ++ b).toList = none := by
      rw [String.toList_append]
      exact whole?_append_eq_none h ha hb
    refine ⟨composed env default a, composed env default b, ?_, ?_, ?_⟩
    · exact text_eq_composed env default ha hs
    · exact text_eq_composed env default hb hs
    · rw [text_eq_composed env default hab hs, composed_append env default h]

/-- Percent signs that open nothing stand around the placeholders and in the value of the first. -/
theorem text_append_stray :
    let env : Environment := { globals := [(.text "n", .text "5%")] }
    '%' ∉ rest "%%n%=".toList 0 (scan "%%n%=".toList) ∧
      whole? "%%n%=".toList = none ∧ whole? "%%m%%".toList = none ∧
      scan ("%%n%=" ++ "%%m%%").toList = [⟨"n".toList, 1, 4⟩, ⟨"m".toList, 6, 9⟩] ∧
      (text env .string .null ("%%n%=" ++ "%%m%%")).outcome = .ok (.text "%5%=%%m%%") := by
  intro env
  have hrest : '%' ∉ rest "%%n%=".toList 0 (scan "%%n%=".toList) := by decide +kernel
  have ha : whole? "%%n%=".toList = none := by decide +kernel
  have hb : whole? "%%m%%".toList = none := by decide +kernel
  have hn : (text env .string .null "%%n%=").outcome = .ok (.text "%5%=") := by rfl
  have hm : (text env .string .null "%%m%%").outcome = .ok (.text "%%m%%") := by rfl
  obtain ⟨hscan, hfill⟩ := text_append env .null .string hrest
  obtain ⟨first, second, hfirst, hsecond, hboth⟩ := hfill ha hb (Or.inl rfl)
  refine ⟨hrest, ha, hb, ?_, ?_⟩
  · rw [hscan]
    decide +kernel
  · rw [hfirst, Traced.outcome_map, map_eq_ok_iff] at hn
    rw [hsecond, Traced.outcome_map, map_eq_ok_iff] at hm
    obtain ⟨s, hs, heq⟩ := hn
    obtain ⟨t, ht, heq'⟩ := hm
    cases heq
    cases heq'
    rw [hboth, Traced.outcome_map, Traced.outcome_both, hs, ht]
    rfl

end Stencil.Fill
