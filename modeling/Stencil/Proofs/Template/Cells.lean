import Stencil.Proofs.Template.Text

/-!
# Lists and tables cell by cell

Filling a list fills each of its items in order, and filling a table each of its rows: both are
`mapM`. So what holds of every filled text holds of every cell.

A filled text is null or of the kind that its shape stands for (`text_fits`). A single placeholder
gives a coerced value, and a text with several parts gives text, but only in the textual shapes.
-/

namespace Stencil.Fill

variable {env : Environment} {shape : Shape} {default : Value}

theorem fits_of_coerced {v w : Value} (h : coerced shape v = .ok w) : shape.Fits w := by
  rw [coerced] at h
  rcases hc : Coercion.coerce shape v with e | u
  · rw [hc] at h
    cases h
  · rw [hc] at h
    cases h
    exact Coercion.fits_of_coerce hc

theorem fits_of_wholeResult {s : String} {key : List Char} {w : Value}
    (h : wholeResult env shape default s key = .ok w) : shape.Fits w := by
  rw [wholeResult] at h
  split at h <;> exact fits_of_coerced h

/-- A filled text is null or of the kind that its shape stands for. -/
theorem text_fits {s : String} {w : Value} (h : (text env shape default s).outcome = .ok w) :
    shape.Fits w := by
  cases hw : Placeholder.whole? s.toList with
  | some key =>
    rw [text_of_whole env shape default hw, whole_outcome] at h
    exact fits_of_wholeResult h
  | none =>
    cases hs : shape.holdsText with
    | false =>
      rw [text_outcome_of_not_textual env shape default hw hs] at h
      cases h
      exact Or.inl rfl
    | true =>
      rw [text_outcome_of_textual env shape default hw hs, map_eq_ok_iff] at h
      obtain ⟨cs, -, rfl⟩ := h
      -- Only the two textual shapes get here, and both take text.
      cases shape with
      | string => exact Or.inr ⟨_, rfl⟩
      | any => exact Or.inr trivial
      | _ => cases hs

theorem item_fits {v w : Value} (h : (item env shape default v).outcome = .ok w) :
    shape.Fits w := by
  cases v with
  | null =>
    cases h
    exact Or.inl rfl
  | text s => exact text_fits h
  | _ => cases h

theorem row_fits {v w : Value} (h : (row env shape default v).outcome = .ok w) :
    shape.FitsRow w := by
  unfold row at h
  split at h
  · cases h
    exact Or.inl rfl
  · split at h
    · rw [items_eq_mapM, Traced.outcome_map, map_eq_ok_iff] at h
      obtain ⟨ws, hws, rfl⟩ := h
      rw [Traced.outcome_mapM] at hws
      refine Or.inr ⟨ws, rfl, fun w hw => ?_⟩
      obtain ⟨v, -, hv⟩ := exists_of_mapM_ok hws w hw
      exact item_fits hv
    · cases h

theorem rows_fit {vs ws : List Value} (h : (rows env shape default vs).outcome = .ok ws) :
    shape.FitsTable (.list ws) := by
  rw [rows_eq_mapM, Traced.outcome_mapM] at h
  refine Or.inr ⟨ws, rfl, fun w hw => ?_⟩
  obtain ⟨v, -, hv⟩ := exists_of_mapM_ok h w hw
  exact row_fits hv

end Stencil.Fill
