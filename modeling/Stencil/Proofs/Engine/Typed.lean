import Stencil.Proofs.Engine.Operation
import Stencil.Proofs.Template.Cells

/-!
# Results have the shape asked for

The operations for texts, lists and tables take a shape. Whatever the template, the default and the
scopes are, a result can only be null or made of cells that fit the shape, because each cell is a
coerced value or a composed text. That an operation has a result at all means that its shape was
valid.

Main result: `substitute_typed`.
-/

namespace Stencil.Engine

open Coercion

variable {r : Request}

theorem substituteText_fits {v w : Value} (h : (substituteText r v).outcome = .ok w) :
    ∃ shape, Shape.ofArgument r.shape = .ok shape ∧ shape.Fits w := by
  rw [substituteText, naming_bind_eq_ok_iff] at h
  obtain ⟨shape, hs, h⟩ := h
  obtain ⟨selector, -, h⟩ := naming_bind_eq_ok_iff.1 h
  exact ⟨shape, hs, Fill.item_fits h⟩

theorem substituteList_fits {v w : Value} (h : (substituteList r v).outcome = .ok w) :
    ∃ shape, Shape.ofArgument r.shape = .ok shape ∧ shape.FitsRow w := by
  rw [substituteList, naming_bind_eq_ok_iff] at h
  obtain ⟨shape, hs, h⟩ := h
  obtain ⟨selector, -, h⟩ := naming_bind_eq_ok_iff.1 h
  exact ⟨shape, hs, Fill.row_fits h⟩

theorem substituteTable_fits {v w : Value} (h : (substituteTable r v).outcome = .ok w) :
    ∃ shape, Shape.ofArgument r.shape = .ok shape ∧ shape.FitsTable w := by
  rw [substituteTable, naming_bind_eq_ok_iff] at h
  obtain ⟨shape, hs, h⟩ := h
  obtain ⟨selector, -, h⟩ := naming_bind_eq_ok_iff.1 h
  refine ⟨shape, hs, ?_⟩
  split at h
  · cases h
    exact Or.inl rfl
  · split at h
    · rw [Traced.outcome_map, map_eq_ok_iff] at h
      obtain ⟨ws, hws, rfl⟩ := h
      exact Fill.rows_fit hws
    · cases h

/-- **Results have the shape asked for.** Bringing a value into a shape gives null for null only,
and else a value of the kind that the shape stands for, in the shape `any` the value itself. It
leaves alone what is of this kind already, so a second time changes nothing. Hence a filled text,
and every cell of a filled list or table, is null or of the kind of the shape. -/
theorem substitute_typed :
    (∀ s v w, coerce s v = .ok w →
      (w = .null ↔ v = .null) ∧ (v ≠ .null → s.Holds w) ∧ (s = .any → w = v) ∧
        coerce s w = .ok w) ∧
    (∀ s v, s.Holds v → coerce s v = .ok v) ∧
    (∀ r v w, (substituteText r v).outcome = .ok w →
      ∃ shape, Shape.ofArgument r.shape = .ok shape ∧ shape.Fits w) ∧
    (∀ r v w, (substituteList r v).outcome = .ok w →
      ∃ shape, Shape.ofArgument r.shape = .ok shape ∧ shape.FitsRow w) ∧
    (∀ r v w, (substituteTable r v).outcome = .ok w →
      ∃ shape, Shape.ofArgument r.shape = .ok shape ∧ shape.FitsTable w) := by
  refine ⟨fun s v w h => ⟨null_iff_of_coerce h, fun hv => holds_of_coerce hv h, ?_,
    coerce_of_coerce h⟩, fun s v h => coerce_of_fits (Or.inr h), fun _ _ _ => substituteText_fits,
    fun _ _ _ => substituteList_fits, fun _ _ _ => substituteTable_fits⟩
  rintro rfl
  rw [coerce_any] at h
  exact (Except.ok.inj h).symm

/-- An integer from a text with blanks; a text that is more than its placeholder has no cell. -/
theorem substitute_typed_integer :
    let r : Request := { shape := .shape .integer, scopes := [some [(.text "n", .text " 42 ")]] }
    let cells : Value := .list [.int 42, .null]
    (substituteList r (.list [.text "%n%", .text "n is %n%"])).outcome = .ok cells ∧
      Shape.integer.Holds (.int 42) ∧ coerce .integer (.int 42) = .ok (.int 42) ∧
      Shape.integer.Fits (.int 42) ∧ Shape.integer.FitsRow cells ∧
      Shape.integer.FitsTable (.list [cells, .null]) := by
  intro r cells
  obtain ⟨hcoerce, hholds, htext, hlist, htable⟩ := substitute_typed
  have hint : Shape.integer.Holds (.int 42) :=
    (hcoerce .integer (.text " 42 ") (.int 42) rfl).2.1 (by simp)
  obtain ⟨_, ⟨⟩, hfits⟩ := htext r (.text "%n%") (.int 42) rfl
  obtain ⟨_, ⟨⟩, hrow⟩ := hlist r (.list [.text "%n%", .text "n is %n%"]) cells rfl
  obtain ⟨_, ⟨⟩, hrows⟩ := htable r (.list [.list [.text "%n%", .text "n is %n%"], .null])
    (.list [cells, .null]) rfl
  exact ⟨rfl, hint, hholds _ _ hint, hfits, hrow, hrows⟩

end Stencil.Engine
