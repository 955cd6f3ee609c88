import Stencil.Value.Key

/-!
# Documents as ordered maps

Looking up and changing the entries of a document. No two entries have the same key: `insert` gives
a key that is there its new value in its old place and under its old spelling, and puts a new key
at the end.
-/

namespace Stencil.Document

/-- The value of a key. -/
def find? (key : Value) : Document → Option Value
  | [] => none
  | (k, v) :: es => if k.sameKey key then some v else find? key es

/-- The key is there. -/
def contains (key : Value) (d : Document) : Bool := (find? key d).isSome

/-- Give a key a value. -/
def insert (key value : Value) : Document → Document
  | [] => [(key, value)]
  | (k, v) :: es => if k.sameKey key then (k, value) :: es else (k, v) :: insert key value es

/-- Take a key out. -/
def erase (key : Value) : Document → Document
  | [] => []
  | (k, v) :: es => if k.sameKey key then es else (k, v) :: erase key es

/-- Give many keys their values, one after the other. -/
def update (d : Document) (entries : List (Value × Value)) : Document :=
  entries.foldl (fun d e => insert e.1 e.2 d) d

/-- The document of some entries: a key that comes again keeps its first place and takes its last
value. -/
def ofEntries (entries : List (Value × Value)) : Document := update [] entries

/-- The keys in order. -/
def keys (d : Document) : List Value := d.map Prod.fst

/-- No key comes twice. -/
def Distinct (d : Document) : Prop := (keys d).Pairwise fun a b => a.sameKey b = false

/-! ## Basic facts -/

@[simp] theorem find?_nil (key : Value) : find? key [] = none := rfl

@[simp] theorem update_nil (d : Document) : update d [] = d := rfl

theorem update_append (d : Document) (a b : List (Value × Value)) :
    update d (a ++ b) = update (update d a) b := by
  simp [update]

theorem keys_insert (key value : Value) (d : Document) :
    keys (insert key value d) = if d.any (·.1.sameKey key) then keys d else keys d ++ [key] := by
  induction d with
  | nil => rfl
  | cons e es ih =>
    obtain ⟨k, v⟩ := e
    by_cases h : k.sameKey key = true
    · simp [insert, keys, h]
    · simp only [insert, h, Bool.false_eq_true, if_false, keys, List.map_cons, List.any_cons,
        Bool.false_or]
      have := ih
      simp only [keys] at this
      rw [this]
      split <;> rfl

end Stencil.Document
