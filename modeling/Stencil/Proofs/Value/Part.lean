import Stencil.Document
import Stencil.Value.Part

/-!
# Keys at any depth

The keys inside a value are those of its parts, and the order in which the items of its sets come does
not change them (`KeysAre.ordered`).
-/

namespace Stencil.Value

variable {k v : Value} {vs : List Value} {es : Document} {p : Value → Prop}
  {order : List Value → List Value}

/-! ## Collections -/

theorem keysAre_list : KeysAre p (.list vs) ↔ ∀ v ∈ vs, KeysAre p v := by
  constructor
  · intro h v hv k hk
    exact h k (.item hv hk)
  · intro h k hk
    cases hk with
    | item hv hk => exact h _ hv k hk

theorem keysAre_tuple : KeysAre p (.tuple vs) ↔ ∀ v ∈ vs, KeysAre p v := by
  constructor
  · intro h v hv k hk
    exact h k (.part hv hk)
  · intro h k hk
    cases hk with
    | part hv hk => exact h _ hv k hk

theorem keysAre_document :
    KeysAre p (.document es) ↔ ∀ e ∈ es, p e.1 ∧ KeysAre p e.2 := by
  constructor
  · intro h e he
    exact ⟨h _ (.key he), fun k hk => h k (.value he hk)⟩
  · intro h k hk
    cases hk with
    | key he => exact (h _ he).1
    | value he hk => exact (h _ he).2 k hk

/-! ## The order of sets -/

/-- Only documents become documents. -/
theorem ordered_eq_document (h : v.ordered order = .document es) :
    ∃ es' : Document, v = .document es' ∧ es = es'.map fun e => (e.1, e.2.ordered order) := by
  cases v with
  | document es' =>
    rw [ordered, orderedEntries_eq_map] at h
    cases h
    exact ⟨es', rfl, rfl⟩
  | _ => simp [ordered] at h

theorem ordered_eq_list (h : v.ordered order = .list vs) :
    ∃ vs', v = .list vs' ∧ vs = vs'.map (ordered order) := by
  cases v with
  | list vs' =>
    rw [ordered, orderedItems_eq_map] at h
    cases h
    exact ⟨vs', rfl, rfl⟩
  | _ => simp [ordered] at h

theorem ordered_eq_tuple (h : v.ordered order = .tuple vs) :
    ∃ vs', v = .tuple vs' ∧ vs = vs'.map (ordered order) := by
  cases v with
  | tuple vs' =>
    rw [ordered, orderedItems_eq_map] at h
    cases h
    exact ⟨vs', rfl, rfl⟩
  | _ => simp [ordered] at h

theorem isKeyIn_of_ordered (h : k.IsKeyIn (v.ordered order)) : k.IsKeyIn v := by
  generalize hw : v.ordered order = w at h
  induction h generalizing v with
  | key he =>
    obtain ⟨es', rfl, rfl⟩ := ordered_eq_document hw
    obtain ⟨e, hmem, ⟨⟩⟩ := List.mem_map.1 he
    exact .key hmem
  | value he _ ih =>
    obtain ⟨es', rfl, rfl⟩ := ordered_eq_document hw
    obtain ⟨e, hmem, ⟨⟩⟩ := List.mem_map.1 he
    exact .value hmem (ih rfl)
  | item hv _ ih =>
    obtain ⟨vs', rfl, rfl⟩ := ordered_eq_list hw
    obtain ⟨v, hmem, rfl⟩ := List.mem_map.1 hv
    exact .item hmem (ih rfl)
  | part hv _ ih =>
    obtain ⟨vs', rfl, rfl⟩ := ordered_eq_tuple hw
    obtain ⟨v, hmem, rfl⟩ := List.mem_map.1 hv
    exact .part hmem (ih rfl)

theorem KeysAre.ordered (h : v.KeysAre p) : (v.ordered order).KeysAre p :=
  fun k hk => h k (isKeyIn_of_ordered hk)

end Stencil.Value
