import Stencil.Proofs.Engine.Operation
import Stencil.Proofs.Template.Text

/-!
# Converting later

A text that is one placeholder can be filled without a shape, and the result be brought into the
shape afterwards: the value, the failure and the trace are the same. The default is chosen by what
is null, and conversions neither make null nor take it away, so it does not matter whether the value
is converted before or after the choice.

In the shape `string` the same holds of every text, because a composed text is text already.

Main result: `substituteText_factor`.
-/

namespace Stencil

namespace Coercion

/-- The default may be chosen before the value is converted. -/
theorem applyDefault_any (v default : Value) :
    applyDefault .any v default = .ok (Fill.counted v default) := by
  rw [Fill.applyDefault_eq, coerce_any]

end Coercion

namespace Fill

open Placeholder

variable (env : Environment) (shape : Shape) (default : Value)

/-- Bring a result into a shape. -/
def converting (shape : Shape) (v : Value) : Filling Value := coercing (Coercion.coerce shape v)

theorem coercing_ok_bind {α β : Type} (a : α) (f : α → Filling β) :
    (coercing (.ok a) >>= f) = f a :=
  Traced.ofExcept_ok_bind a f

theorem whole_factor (s : String) (key : List Char) :
    whole env shape default s key = whole env .any default s key >>= converting shape := by
  rw [whole, whole, bind_assoc]
  refine congrArg _ (funext fun found => ?_)
  cases found with
  | none =>
    dsimp only
    rw [bind_assoc, Coercion.coerce_any]
    refine congrArg _ (funext fun _ => ?_)
    exact (coercing_ok_bind _ _).symm
  | some v =>
    dsimp only
    rw [applyDefault_eq, Coercion.applyDefault_any, coercing_ok_bind]
    rfl

theorem text_factor {s : String}
    (h : (∃ key, whole? s.toList = some key) ∨ shape = .string) :
    text env shape default s = text env .any default s >>= converting shape := by
  cases hw : whole? s.toList with
  | some key =>
    rw [text_of_whole _ _ _ hw, text_of_whole _ _ _ hw]
    exact whole_factor env shape default s key
  | none =>
    obtain ⟨key, hkey⟩ | rfl := h
    · rw [hw] at hkey
      cases hkey
    · rw [text, text, hw]
      simp only [Shape.holdsText, if_true]
      rw [bind_assoc]
      refine congrArg _ (funext fun cs => ?_)
      rw [pure_bind, converting, Coercion.coerce_string_text]
      rfl

/-- The text of a value may be taken from its coercion to text. -/
theorem converting_textOf? (v : Value) :
    (converting .string v >>= fun w => coercing (textOf? w)) = coercing (textOf? v) := by
  by_cases hv : v = .null
  · subst hv
    rfl
  · rw [converting, Coercion.coerce_string hv, textOf?_eq_toText hv]
    rcases Coercion.toText v with e | s <;> rfl

end Fill

namespace Engine

open Fill Placeholder

/-- Filling in a shape is filling without a shape and bringing the result into the shape: for a text
that is one placeholder in every shape, and for every text in the shape `string`. -/
theorem substituteText_factor {r : Request} {shape : Shape}
    (hs : Shape.ofArgument r.shape = .ok shape) {s : String}
    (h : (∃ key, whole? s.toList = some key) ∨ shape = .string) :
    substituteText r (.text s) =
      substituteText { r with shape := .shape .any } (.text s) >>= converting shape := by
  rw [substituteText, substituteText, hs, Shape.ofArgument_shape, naming_ok_bind, naming_ok_bind]
  rcases Selector.ofArgument r.selector with e | selector
  · rfl
  · rw [naming_ok_bind, naming_ok_bind]
    exact text_factor _ shape _ h

end Engine
end Stencil
