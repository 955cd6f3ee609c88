import Stencil.Coercion
import Stencil.Proofs.Itemwise

/-!
# Coercion is a typed projection

Every shape but `any` stands for one kind of values (`Shape.Holds`). Bringing a value into a shape
projects it onto the values of that kind and null.

**The image.** Null stays null and nothing else becomes null. Whatever else comes out is of the kind
that the shape stands for, so a boolean is never a result in the integer shape.

**The fixed points.** A value that is of the kind already comes back as it is. Hence a result that
is brought into the same shape again does not change.
-/

namespace Stencil

/-- The value is of the kind that a shape stands for. -/
def Shape.Holds : Shape → Value → Prop
  | string, v => ∃ s, v = .text s
  | integer, v => ∃ n, v = .int n
  | float, v => ∃ x, v = .float x
  | decimal, v => ∃ d, v = .decimal d
  | boolean, v => ∃ b, v = .bool b
  | list, v => ∃ vs, v = .list vs
  | document, v => ∃ es, v = .document es
  | any, _ => True

/-- The value is null or of the kind that a shape stands for. -/
def Shape.Fits (s : Shape) (v : Value) : Prop := v = .null ∨ s.Holds v

/-- The value is null or a list of values that fit. -/
def Shape.FitsRow (s : Shape) (v : Value) : Prop :=
  v = .null ∨ ∃ ws, v = .list ws ∧ ∀ w ∈ ws, s.Fits w

/-- The value is null or a list of rows that fit. -/
def Shape.FitsTable (s : Shape) (v : Value) : Prop :=
  v = .null ∨ ∃ ws, v = .list ws ∧ ∀ w ∈ ws, s.FitsRow w

namespace Coercion

variable {s : Shape} {v w : Value}

/-- Converted values are of the kind of the shape. -/
theorem holds_of_convert (h : convert s v = .ok w) : s.Holds w := by
  cases s with
  | any => trivial
  | list =>
    cases h
    exact ⟨_, rfl⟩
  | string | integer | float | decimal | boolean | document =>
    obtain ⟨a, -, rfl⟩ := (map_eq_ok_iff _).1 h
    exact ⟨a, rfl⟩

/-- A value that is of the kind already is not converted. -/
theorem convert_of_holds (h : s.Holds v) : convert s v = .ok v := by
  cases s with
  | any => rfl
  | string | integer | float | decimal | boolean | list | document =>
    obtain ⟨a, rfl⟩ := h
    rfl

/-- Null is of no kind. -/
theorem not_holds_null (hs : s ≠ .any) : ¬ s.Holds .null := by
  intro h
  cases s with
  | any => exact hs rfl
  | string | integer | float | decimal | boolean | list | document =>
    obtain ⟨a, ha⟩ := h
    cases ha

/-- Nothing but null becomes null. -/
theorem coerce_ne_null (h : v ≠ .null) : coerce s v ≠ .ok .null := by
  intro hc
  rw [coerce_of_ne_null h] at hc
  by_cases hs : s = .any
  · subst hs
    cases hc
    exact h rfl
  · exact not_holds_null hs (holds_of_convert hc)

theorem coerce_string (h : v ≠ .null) : coerce .string v = (toText v).map .text :=
  coerce_of_ne_null h

theorem coerce_integer (h : v ≠ .null) : coerce .integer v = (toInteger v).map .int :=
  coerce_of_ne_null h

theorem coerce_decimal (h : v ≠ .null) : coerce .decimal v = (toDecimal v).map .decimal :=
  coerce_of_ne_null h

theorem coerce_boolean (h : v ≠ .null) : coerce .boolean v = (toBoolean v).map .bool :=
  coerce_of_ne_null h

/-- A result is null exactly if the value was. -/
theorem null_iff_of_coerce (h : coerce s v = .ok w) : w = .null ↔ v = .null := by
  constructor
  · rintro rfl
    by_contra hv
    exact coerce_ne_null hv h
  · rintro rfl
    cases h
    rfl

/-- A result that is not null is of the kind of the shape. -/
theorem holds_of_coerce (hv : v ≠ .null) (h : coerce s v = .ok w) : s.Holds w :=
  holds_of_convert (by rwa [coerce_of_ne_null hv] at h)

theorem fits_of_coerce (h : coerce s v = .ok w) : s.Fits w := by
  by_cases hv : v = .null
  · exact Or.inl ((null_iff_of_coerce h).2 hv)
  · exact Or.inr (holds_of_coerce hv h)

/-- Values that fit a shape are the fixed points of bringing into it. -/
theorem coerce_of_fits (h : s.Fits v) : coerce s v = .ok v := by
  rcases h with rfl | h
  · rfl
  · by_cases hv : v = .null
    · subst hv
      rfl
    · rw [coerce_of_ne_null hv]
      exact convert_of_holds h

/-- Bringing into a shape a second time changes nothing. -/
theorem coerce_of_coerce (h : coerce s v = .ok w) : coerce s w = .ok w :=
  coerce_of_fits (fits_of_coerce h)

end Coercion
end Stencil
