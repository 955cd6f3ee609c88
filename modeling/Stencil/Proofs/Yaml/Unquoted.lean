import Mathlib.Data.Bool.AllAny
import Stencil.Proofs.Yaml.Scanning
import Stencil.Yaml.Scalar.Unquoted

/-!
# Words without quotes

A word of letters, digits and the signs of numbers is read as it is, with the filler behind it, up
to what ends a plain scalar between brackets or to the end of the text (`scan_word`).
-/

namespace Stencil.Yaml.Unquoted

variable {inFlow : Bool} {margin column : Nat} {reversed v w cs : List Char} {gap : Gap} {c : Char}

/-! ## Words -/

/-- A letter, a digit, a point or a sign. -/
def isLetter (c : Char) : Bool := c.isAlphanum || ['.', '-', '+'].contains c

/-- No letter is one of the characters that are none. -/
theorem ne_of_isLetter (h : isLetter c = true) {d : Char} (hd : isLetter d = false) : c ≠ d := by
  rintro rfl
  rw [h] at hd
  cases hd

theorem isBreak_of_isLetter (h : isLetter c = true) : isBreak c = false := by
  have hfeed : c ≠ '\n' := ne_of_isLetter h (by decide)
  have hline : c ≠ '\x85' := ne_of_isLetter h (by decide)
  have hseparator : c ≠ '\u2028' := ne_of_isLetter h (by decide)
  have hparagraph : c ≠ '\u2029' := ne_of_isLetter h (by decide)
  simp [isBreak, hfeed, hline, hseparator, hparagraph]

theorem endsAt_of_isLetter (h : isLetter c = true) (rest : List Char) :
    endsAt inFlow c rest = false := by
  have htab : c ≠ '\t' := ne_of_isLetter h (by decide)
  have hcolon : c ≠ ':' := ne_of_isLetter h (by decide)
  have hquestion : c ≠ '?' := ne_of_isLetter h (by decide)
  have hindicator : isFlowIndicator c = false := by
    simp only [isFlowIndicator, Bool.or_eq_false_iff, beq_eq_false_iff_ne]
    exact ⟨⟨⟨⟨ne_of_isLetter h (by decide), ne_of_isLetter h (by decide)⟩,
      ne_of_isLetter h (by decide)⟩, ne_of_isLetter h (by decide)⟩, ne_of_isLetter h (by decide)⟩
  simp [endsAt, htab, hcolon, hquestion, hindicator]

theorem scanFrom_word (hw : ∀ c ∈ w, isLetter c = true) :
    scanFrom inFlow margin reversed .nothing column (w ++ cs) =
      scanFrom inFlow margin (w.reverse ++ reversed) .nothing column cs := by
  induction w generalizing reversed with
  | nil => rfl
  | cons c w ih =>
    obtain ⟨hc, hw⟩ := List.forall_mem_cons.1 hw
    have hspace : (c == ' ') = false := by
      rw [beq_eq_false_iff_ne]
      exact ne_of_isLetter hc (by decide)
    have hends : (endsBehind inFlow margin column .nothing c ||
        endsAt inFlow c (w ++ cs)) = false := by
      rw [endsAt_of_isLetter hc, Bool.or_false]
      rfl
    rw [List.cons_append, scanFrom, hspace, isBreak_of_isLetter hc, hends, if_neg Bool.false_ne_true,
      if_neg Bool.false_ne_true, if_neg Bool.false_ne_true, ih hw, List.reverse_cons,
      List.append_assoc]
    rfl

/-! ## What ends a word -/

/-- The text ends, or between brackets a comma or a closing bracket stands. -/
def Stops (inFlow : Bool) (cs : List Char) : Prop :=
  cs = [] ∨ inFlow = true ∧ ∃ c ds, cs = c :: ds ∧ c ∈ [',', ']', '\x7d']

theorem isSolid_of_stops (h : Stops inFlow cs) : isSolid cs = true := by
  rcases h with rfl | ⟨-, c, ds, rfl, hc⟩
  · rfl
  · have hall : ∀ c ∈ [',', ']', '\x7d'], isSolid [c] = true := List.all_eq_true.1 rfl
    exact hall c hc

/-- Filler before the end of a word is no mark of a document. -/
theorem beginsWithMarker_of_stops (hv : ∀ c ∈ v, isFiller c = true) (h : Stops inFlow cs) :
    beginsWithMarker (v ++ cs) = false := by
  cases v with
  | nil =>
    rcases h with rfl | ⟨-, c, ds, rfl, hc⟩
    · rfl
    · have hall : ∀ c ∈ [',', ']', '\x7d'], c ≠ '-' ∧ c ≠ '.' :=
        List.all_iff_forall_prop.1 (by decide)
      exact beginsWithMarker_cons (hall c hc).1 (hall c hc).2 ds
  | cons c v =>
    have hc := hv c List.mem_cons_self
    simp only [isFiller, Bool.or_eq_true, beq_iff_eq] at hc
    rcases hc with rfl | rfl
    · exact beginsWithMarker_cons (by decide) (by decide) _
    · exact beginsWithMarker_cons (by decide) (by decide) _

theorem scanFrom_filler (hv : ∀ c ∈ v, isFiller c = true) (h : Stops inFlow cs) :
    scanFrom inFlow margin reversed gap column (v ++ cs) =
      ⟨reversed.reverse, cs, gap.isCrossing || v.contains '\n'⟩ := by
  induction v generalizing gap column with
  | nil =>
    rcases h with rfl | ⟨hflow, c, ds, rfl, hc⟩
    · simp [scanFrom]
    · have hall : ∀ c ∈ [',', ']', '\x7d'], (c == ' ') = false ∧ isBreak c = false ∧
          isFlowIndicator c = true := List.all_iff_forall_prop.1 (by decide)
      obtain ⟨hspace, hbreak, hindicator⟩ := hall c hc
      have hends : endsAt inFlow c ds = true := by simp [endsAt, hflow, hindicator]
      rw [List.nil_append, scanFrom, hspace, hbreak, hends, Bool.or_true]
      simp
  | cons c v ih =>
    obtain ⟨hc, hothers⟩ := List.forall_mem_cons.1 hv
    simp only [isFiller, Bool.or_eq_true, beq_iff_eq] at hc
    rw [List.cons_append, scanFrom]
    rcases hc with rfl | rfl
    · rw [if_pos (by decide), ih hothers]
      cases gap <;> simp [Gap.addBlank, Gap.isCrossing]
    · rw [if_neg (by decide), if_pos (by decide), beginsWithMarker_of_stops hothers h,
        if_neg Bool.false_ne_true, ih hothers]
      cases gap <;> simp [Gap.addBreak, Gap.isCrossing]

/-- **A word is read with the filler behind it.** -/
theorem scan_word (hw : ∀ c ∈ w, isLetter c = true) (hv : ∀ c ∈ v, isFiller c = true)
    (h : Stops inFlow cs) :
    scan inFlow margin (w ++ (v ++ cs)) = ⟨w, cs, v.contains '\n'⟩ := by
  rw [scan, scanFrom_word hw, scanFrom_filler hv h, List.append_nil, List.reverse_reverse]
  rfl

end Stencil.Yaml.Unquoted
