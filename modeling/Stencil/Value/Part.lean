import Stencil.Value

/-!
# Parts of values

The parts of a list, a tuple or a set are its items, those of a document its keys and values in
turn. A `Position` leads to a part at any depth, and what is said of all parts of a value, such as
the names of the objects that they are, is a function of positions.
-/

namespace Stencil

/-- The way to a part of a value: for each level the number of a part. -/
abbrev Position := List Nat

namespace Position

variable {α : Type}

/-- What is said of the first part and its own parts. -/
def first (labels : Position → α) : Position → α := fun p => labels (0 :: p)

/-- What is said of the parts behind the first one. -/
def rest (labels : Position → α) : Position → α := fun p => labels (p.modifyHead (· + 1))

@[simp] theorem first_const (a : α) : first (fun _ => a) = fun _ => a := rfl

@[simp] theorem rest_const (a : α) : rest (fun _ => a) = fun _ => a := rfl

end Position

namespace Value

/-- The parts of a value. A null stands behind each item of a set, which is written as a document
of its items. -/
def parts : Value → List Value
  | list items | tuple items => items
  | set items => items.flatMap fun v => [v, null]
  | document entries => entries.flatMap fun e => [e.1, e.2]
  | _ => []

/-- The part at a position. -/
def part? (v : Value) : Position → Option Value
  | [] => some v
  | i :: p => v.parts[i]?.bind (part? · p)

/-- The value is a scalar of those that are read. -/
def isScalar : Value → Bool
  | null | bool _ | int _ | float _ | text _ | bytes _ | date _ | moment _ => true
  | _ => false

/-- A value is a key of some document inside another one, at any depth. Sets are not looked into. -/
inductive IsKeyIn (k : Value) : Value → Prop
  | key {v : Value} {es : Document} (h : (k, v) ∈ es) : IsKeyIn k (.document es)
  | value {k' v : Value} {es : Document} (he : (k', v) ∈ es) (h : IsKeyIn k v) :
      IsKeyIn k (.document es)
  | item {v : Value} {vs : List Value} (hv : v ∈ vs) (h : IsKeyIn k v) : IsKeyIn k (.list vs)
  | part {v : Value} {vs : List Value} (hv : v ∈ vs) (h : IsKeyIn k v) : IsKeyIn k (.tuple vs)

/-- All keys inside a value have a property. -/
def KeysAre (p : Value → Prop) (v : Value) : Prop := ∀ k : Value, k.IsKeyIn v → p k

/-! ## Depth -/

mutual

/-- How many levels of lists, tuples, sets and documents a value has. -/
def depth : Value → Nat
  | list items => depthOfItems items + 1
  | tuple items => depthOfItems items + 1
  | set items => depthOfItems items + 1
  | document entries => depthOfEntries entries + 1
  | _ => 0

/-- The depth of the deepest of some values. -/
def depthOfItems : List Value → Nat
  | [] => 0
  | v :: vs => max v.depth (depthOfItems vs)

/-- The depth of the deepest key or value of some entries. -/
def depthOfEntries : List (Value × Value) → Nat
  | [] => 0
  | (k, v) :: es => max (max k.depth v.depth) (depthOfEntries es)

end

/-! ## The order of sets -/

mutual

/-- The value with the items of its sets in an order. -/
def ordered (order : List Value → List Value) : Value → Value
  | list items => list (orderedItems order items)
  | tuple items => tuple (orderedItems order items)
  | document entries => document (orderedEntries order entries)
  | set items => set (order items)
  | v => v

/-- Some values with the items of their sets in an order. -/
def orderedItems (order : List Value → List Value) : List Value → List Value
  | [] => []
  | v :: vs => v.ordered order :: orderedItems order vs

/-- Some entries with the items of the sets in their values in an order. -/
def orderedEntries (order : List Value → List Value) :
    List (Value × Value) → List (Value × Value)
  | [] => []
  | (k, v) :: es => (k, v.ordered order) :: orderedEntries order es

end

/-! ## Basic facts -/

theorem orderedItems_eq_map (order : List Value → List Value) (vs : List Value) :
    orderedItems order vs = vs.map (ordered order) := by
  induction vs with
  | nil => rfl
  | cons v vs ih => rw [orderedItems, ih, List.map_cons]

theorem orderedEntries_eq_map (order : List Value → List Value) (es : List (Value × Value)) :
    orderedEntries order es = es.map fun e => (e.1, e.2.ordered order) := by
  induction es with
  | nil => rfl
  | cons e es ih => rw [orderedEntries, ih, List.map_cons]

/-- The value behind the second key of a document. -/
example : (document [(text "a", null), (text "b", list [int 1])]).part? [3, 0] = some (int 1) := rfl

end Value
end Stencil
