import Stencil.Document
import Stencil.Yaml.Base64
import Stencil.Yaml.Fault
import Stencil.Yaml.Plain
import Stencil.Yaml.Tag
import Stencil.Yaml.Timestamp

/-!
# What nodes stand for

The value of a node by its tag.

**Scalars.** Integers and floats may hold underscores, a sign, the mark of another base, or parts in
base sixty. A tag may be written before any text, so each kind of scalar has faults of its own.

**Mappings.** The entries of a mapping under a merge key come before its own, which win over them;
of several mappings under one merge key the last comes first and the first wins. A key must not be a
collection.

**Faults.** Of several faults in a document the least deep one counts, of equally deep ones the
first. The items of a collection lie one level below it.
-/

namespace Stencil.Yaml

/-! ## Scalars -/

namespace Scalar

/-- A number without its underscores: whether it is negative, and the text behind the sign. -/
def signed (cs : List Char) : Except Fault (Bool × List Char) :=
  match cs.filter (· != '_') with
  | [] => .error .emptyNumber
  | '-' :: cs => .ok (true, cs)
  | '+' :: cs => .ok (false, cs)
  | cs => .ok (false, cs)

/-- The value of a number, if it is one. -/
def number (x : Option α) : Except Fault α :=
  match x with
  | some a => .ok a
  | none => .error .notNumber

/-- The integer that a text without underscores and sign stands for. -/
def magnitude (body : List Char) : Except Fault Int :=
  match body with
  | [] => .error .emptyNumber
  | ['0'] => .ok 0
  | '0' :: 'b' :: ds => number (Integer.read? 2 ds)
  | '0' :: 'x' :: ds => number (Integer.read? 16 ds)
  | '0' :: _ => number (Integer.read? 8 body)
  | _ => do
    let parts ← (Rule.splitAt ':' body).mapM fun part => number (Integer.read? 10 part)
    return parts.foldl (60 * · + ·) 0

/-- The integer that a text stands for. -/
def int (cs : List Char) : Except Fault Int := do
  let (negative, body) ← signed cs
  let n ← magnitude body
  return if negative then -n else n

/-- The sum of parts in base sixty, the last of which comes first. -/
def sixtieths (weight : Nat) (sum : Double) : List Double → Except Fault Double
  | [] => .ok sum
  | x :: xs =>
    match Double.ofInt? weight with
    | none => .error .hugeNumber
    | some w => sixtieths (60 * weight) (sum.add (x.mul w)) xs

/-- The float that a text without underscores, sign and capital letters stands for. -/
def floatMagnitude (body : List Char) : Except Fault Double :=
  if body == ".inf".toList then .ok (.infinity false)
  else if body == ".nan".toList then .ok .nan
  else if body.contains ':' then do
    let parts ← (Rule.splitAt ':' body).mapM fun part => number (Double.read? part)
    sixtieths 1 (.zero false) parts.reverse
  else number (Double.read? body)

/-- The float that a text stands for. -/
def float (cs : List Char) : Except Fault Double := do
  let (negative, body) ← signed cs
  let x ← floatMagnitude (Text.lowercase body)
  return if negative then x.neg else x

/-- The words for true and for false. -/
def bools : List (String × Bool) :=
  [("yes", true), ("no", false), ("true", true), ("false", false), ("on", true), ("off", false)]

/-- The boolean that a text stands for. -/
def bool (cs : List Char) : Except Fault Bool :=
  match bools.lookup (String.ofList (Text.lowercase cs)) with
  | some b => .ok b
  | none => .error .notBool

/-- The bytes that a text stands for. -/
def binary (cs : List Char) : Except Fault (List UInt8) :=
  match cs.all (·.toNat < 0x80), Base64.decode? cs with
  | true, some data => .ok data
  | _, _ => .error .malformed

/-- The date or moment that a text stands for. A line feed at the end does not count. -/
def timestamp (cs : List Char) : Except Fault Value :=
  match Timestamp.parse? (if cs.getLast? == some '\n' then cs.dropLast else cs) with
  | none => .error .notTimestamp
  | some ⟨d, _, none⟩ => if d.isValid then .ok (.date d) else .error .noSuchDay
  | some ⟨d, _, some clock⟩ =>
    let t := Timestamp.moment d clock
    if t.isValid then .ok (.moment t) else .error .noSuchDay

/-- The value of a scalar with a tag. -/
def value (tag : Tag) (cs : List Char) : Except Fault Value :=
  match tag with
  | .null => .ok .null
  | .bool => (bool cs).map .bool
  | .int => (int cs).map .int
  | .float => (float cs).map .float
  | .text => .ok (.text (String.ofList cs))
  | .binary => (binary cs).map .bytes
  | .timestamp => timestamp cs
  | _ => .error .malformed

end Scalar

/-! ## Nodes -/

namespace Node

/-- A result, or a fault and how deep it lies. -/
abbrev Found := Except (Nat × Fault)

/-- Two results. Of two faults the less deep one counts, of equally deep ones the first. -/
def both (x : Found α) (y : Found β) : Found (α × β) :=
  match x, y with
  | .ok a, .ok b => .ok (a, b)
  | .error e, .ok _ => .error e
  | .ok _, .error f => .error f
  | .error e, .error f => .error (if f.1 < e.1 then f else e)

/-- The results of some things in order. -/
def every : List (Found α) → Found (List α)
  | [] => .ok []
  | x :: xs => (both x (every xs)).map fun (a, as) => a :: as

/-- A fault at a depth. -/
def at_ (depth : Nat) (x : Except Fault α) : Found α := x.mapError (depth, ·)

/-- The text of a node: that of a scalar, or that of the value key of a mapping. -/
def scalarText? : Node → Option (List Char)
  | scalar _ text => some text
  | sequence .. => none
  | mapping _ entries => valueText? entries
where
  /-- The text behind the first value key. -/
  valueText? : List (Node × Node) → Option (List Char)
    | [] => none
    | (k, v) :: es => if k.tag = .value then v.scalarText? else valueText? es

/-- The value of a collection with the tag of a scalar. -/
def asScalar (depth : Nat) (tag : Tag) (text? : Option (List Char)) : Found Value :=
  match text? with
  | none => .error (depth, .malformed)
  | some cs =>
    match tag with
    | .timestamp => .error (depth, .notText)
    | tag => at_ depth (Scalar.value tag cs)

/-- The tag is one of those of collections. -/
def isCollectionTag : Tag → Bool
  | .sequence | .mapping | .set | .orderedMap | .pairs => true
  | _ => false

/-- A key at a depth. Whatever is wrong inside a collection, it is no key. -/
def asKey (depth : Nat) (x : Found Value) : Found Value :=
  match x with
  | .ok k => if k.isKey then .ok k else .error (depth, .malformed)
  | .error e => .error (if depth < e.1 then (depth, .malformed) else e)

/-- The text of a scalar that is tagged as a value key. -/
def valueKeyText? : Node → Option (List Char)
  | scalar .value text => some text
  | _ => none

/-- The document of entries, those that are merged first. -/
def asDocument (parts : List (Found (Value × Value)) × List (Found (Value × Value))) :
    Found Document :=
  (every (parts.1 ++ parts.2)).map Document.ofEntries

mutual

/-- The value of a node at a depth. -/
def valueAt (depth : Nat) : Node → Found Value
  | scalar tag text =>
    if isCollectionTag tag then .error (depth + 1, .malformed) else at_ depth (Scalar.value tag text)
  | sequence tag items =>
    match tag with
    | .sequence => (every (itemsAt (depth + 1) items)).map .list
    | .orderedMap | .pairs => (every (pairsAt (depth + 1) items)).map .list
    | tag => .error (if isCollectionTag tag then depth + 1 else depth, .malformed)
  | mapping tag entries =>
    match tag with
    | .mapping =>
      match entriesAt (depth + 1) entries with
      | .ok parts => (asDocument parts).map .document
      | .error e => .error (depth + 1, e)
    | .set =>
      match entriesAt (depth + 1) entries with
      | .ok parts => (asDocument parts).map fun d => .set (Document.keys d)
      | .error e => .error (depth + 1, e)
    | tag =>
      if isCollectionTag tag then .error (depth + 1, .malformed)
      else asScalar depth tag (mapping tag entries).scalarText?

/-- The values of items. -/
def itemsAt (depth : Nat) : List Node → List (Found Value)
  | [] => []
  | n :: ns => valueAt depth n :: itemsAt depth ns

/-- The pairs that mappings of one entry stand for. -/
def pairsAt (depth : Nat) : List Node → List (Found Value)
  | [] => []
  | mapping _ [(k, v)] :: ns =>
    (both (valueAt depth k) (valueAt depth v)).map (fun (a, b) => .tuple [a, b]) :: pairsAt depth ns
  | _ :: _ => [.error (depth, .malformed)]

/-- The entries of a mapping: those that are merged into it, and its own. Only a merge key that
stands for no mapping is a fault of the mapping itself. -/
def entriesAt (depth : Nat) : List (Node × Node) →
    Except Fault (List (Found (Value × Value)) × List (Found (Value × Value)))
  | [] => .ok ([], [])
  | (k, v) :: es =>
    if k.tag = .merge then
      match mergedAt depth v, entriesAt depth es with
      | .ok ms, .ok (merged, own) => .ok (ms ++ merged, own)
      | .error e, _ => .error e
      | _, .error e => .error e
    else
      let key := match valueKeyText? k with
        | some text => at_ depth (Scalar.value .text text)
        | none => valueAt depth k
      match entriesAt depth es with
      | .ok (merged, own) => .ok (merged, both (asKey depth key) (valueAt depth v) :: own)
      | .error e => .error e

/-- The entries that a node under a merge key stands for. -/
def mergedAt (depth : Nat) : Node → Except Fault (List (Found (Value × Value)))
  | scalar .. => .error .malformed
  | sequence _ items => sourcesAt depth items
  | mapping _ entries => (entriesAt depth entries).map fun (merged, own) => merged ++ own

/-- The entries of several mappings under a merge key, the last first. -/
def sourcesAt (depth : Nat) : List Node → Except Fault (List (Found (Value × Value)))
  | [] => .ok []
  | mapping _ entries :: ns =>
    match entriesAt depth entries, sourcesAt depth ns with
    | .ok (merged, own), .ok rest => .ok (rest ++ merged ++ own)
    | .error e, _ => .error e
    | _, .error e => .error e
  | _ :: _ => .error .malformed

end

/-- The value of a node. -/
def value (n : Node) : Except Fault Value := (valueAt 0 n).mapError Prod.snd

/-- Signs, underscores, and the bases two, eight, ten, sixteen and sixty. -/
example : ["-12", "+1_000", "-0b11", "-017", "0x_ff", "-1:30", "--5"].map
      (fun s : String => (Scalar.int s.toList).toOption) =
    [some (-12), some 1000, some (-3), some (-15), some 255, some (-90), some 5] := by
  decide +kernel

end Node
end Stencil.Yaml
