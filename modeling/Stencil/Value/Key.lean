import Stencil.Value

/-!
# Keys

When two values are the same key. Numbers are compared by what they stand for, so `1`, `1.0`,
`1.00` and `true` are one key; moments with an offset by the instant; tuples item by item. Lists,
documents, sets and signalling not-a-numbers are no keys, and a not-a-number is the same key as
nothing, not even itself.

`Value.key?` sends a value to a `Key` in which sameness is equality.
-/

namespace Stencil

/-- What a key stands for. A tuple is a chain of `pair`s that ends in `stop`. -/
inductive Key where
  | null
  | number (negative : Bool) (coefficient : Nat) (exponent : Int)
  | infinity (negative : Bool)
  | nan
  | text (s : String)
  | bytes (data : List UInt8)
  | date (d : Date)
  | localMoment (microseconds : Int)
  | instant (microseconds : Int)
  | stop
  | pair (head tail : Key)
deriving DecidableEq

namespace Key

/-- A finite decimal as a key. -/
def ofDecimal (negative : Bool) (coefficient : Nat) (exponent : Int) : Key :=
  let (negative, coefficient, exponent) := Decimal.canonical negative coefficient exponent
  .number negative coefficient exponent

/-- An integer as a key. -/
def ofInt (n : Int) : Key := ofDecimal (n < 0) n.natAbs 0

/-- A not-a-number is part of the key. -/
def hasNaN : Key → Bool
  | nan => true
  | pair head tail => head.hasNaN || tail.hasNaN
  | _ => false

end Key

namespace Value

mutual

/-- What a value stands for as a key, if it can be one. -/
def key? : Value → Option Key
  | null => some .null
  | bool b => some (Key.ofInt (if b then 1 else 0))
  | int n => some (Key.ofInt n)
  | float (.finite negative rank _) =>
    let (coefficient, exponent) := Double.decimalParts rank
    some (Key.ofDecimal negative coefficient exponent)
  | float (.infinity negative) => some (.infinity negative)
  | float .nan => some .nan
  | decimal (.finite negative coefficient exponent) =>
    some (Key.ofDecimal negative coefficient exponent)
  | decimal (.infinity negative) => some (.infinity negative)
  | decimal (.nan _ signaling _) => if signaling then none else some .nan
  | text s => some (.text s)
  | bytes data => some (.bytes data)
  | date d => some (.date d)
  | moment t =>
    match t.offset? with
    | none => some (.localMoment (t.instant 0))
    | some o => some (.instant (t.instant o))
  | tuple items => keys? items
  | list _ | document _ | set _ => none

/-- What a tuple of values stands for as a key. -/
def keys? : List Value → Option Key
  | [] => some .stop
  | v :: vs =>
    match v.key?, keys? vs with
    | some head, some tail => some (.pair head tail)
    | _, _ => none

end

/-- The value can be a key. -/
def isKey (v : Value) : Bool := v.key?.isSome

/-- Two values are the same key. -/
def sameKey (a b : Value) : Bool :=
  match a.key?, b.key? with
  | some x, some y => !x.hasNaN && x == y
  | _, _ => false

/-! ## Basic facts -/

@[simp] theorem key?_text (s : String) : (text s).key? = some (.text s) := by simp [key?]

@[simp] theorem isKey_text (s : String) : (text s).isKey = true := by simp [isKey]

@[simp] theorem sameKey_text (s t : String) : sameKey (text s) (text t) = (s == t) := by
  have hk : (Key.text s == Key.text t) = (s == t) := by
    rw [Bool.eq_iff_iff, beq_iff_eq, beq_iff_eq, Key.text.injEq]
  simp [sameKey, Key.hasNaN, hk]

/-- The same number in four spellings. -/
example : [bool true, float (Double.round false 1 1), decimal (.finite false 100 (-2))].all
    (sameKey (int 1)) = true := by decide +kernel

end Value
end Stencil
