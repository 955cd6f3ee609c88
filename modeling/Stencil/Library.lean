import Stencil.File.Path
import Stencil.Value.Part
import Stencil.Yaml.Flaw

/-!
# The library

Documents are read and written by a library, and filled by a program that has only so much room. Not
all that these do is told by the documents. A `Library` says the rest: how reading ends if a file is
no text to its end, when collections lie too deep inside each other to be read, filled or written,
what a document stands for that holds itself, in which order the items of a set come, and which parts
of a value are one object. What is known of each of these is a part of the structure, and all results
hold for every library.
-/

namespace Stencil

/-- The format of an output. -/
inductive OutputFormat where
  | yaml
  | json
deriving DecidableEq

/-- There is always room for collections of so many levels. -/
def roomyDepth : Nat := 64

/-- How the library and the interpreter behave where documents and values do not tell. -/
structure Library where
  /-- The words for a file whose document is not well formed. -/
  words : Path → List UInt8 → String
  /-- How reading ends if a file is no readable text to its end. -/
  broken : List UInt8 → Yaml.Fault
  stops_broken : ∀ data, Yaml.readable? data = none → Yaml.Stops data (broken data)
  /-- The collections in a file lie too deep inside each other to be read. -/
  isTooDeep : List UInt8 → Bool
  openings_of_isTooDeep : ∀ data, isTooDeep data = true → roomyDepth ≤ Yaml.openings data
  /-- The value of a node that holds itself, unfolded as far as it matters. An endless one is unfolded
  past `roomyDepth`. -/
  unrolled : Yaml.Node → Except Yaml.Fault Value
  error_unrolled : ∀ n f, unrolled n = .error f → f = .malformed ∨ f = .tooDeep ∨ n.Flaw f
  keysAre_unrolled : ∀ n v, unrolled n = .ok v → v.KeysAre fun k => k.isScalar = true
  distinct_unrolled : ∀ n es, unrolled n = .ok (.document es) → Document.Distinct es
  /-- The items of a set in the order in which they come. -/
  order : List Value → List Value
  order_perm : ∀ items, (order items).Perm items
  /-- The engine gives up, after so many of its events: a value that it is given lies too deep for it,
  or is a part of itself. -/
  givesUp : List Value → Option Nat
  depth_of_givesUp : ∀ vs n, givesUp vs = some n → ∃ v ∈ vs, roomyDepth ≤ v.depth
  /-- The names of the objects that the parts of a value are. A part without a name stands nowhere
  else. -/
  objects : Value → Position → Option Nat
  /-- The collections in a value lie too deep inside each other to be written. -/
  hasNoRoom : OutputFormat → Value → Bool
  depth_of_hasNoRoom : ∀ format v, hasNoRoom format v = true → roomyDepth ≤ v.depth

namespace Library

/-- The plainest library: it looks through a whole file first, has room for everything, refuses
documents that hold themselves, leaves sets as they are and takes all parts of a value apart. -/
def plain : Library where
  words _ _ := "not well formed"
  broken data := if Text.Utf8.decode? data = none then .undecodable else .malformed
  stops_broken data h := by
    split
    · next hnone => exact .bytes hnone
    · next hsome =>
      obtain ⟨cs, hcs⟩ := Option.ne_none_iff_exists'.1 hsome
      refine .character (List.prefix_refl data) hcs ?_
      simpa [Yaml.readable?, hcs] using h
  isTooDeep _ := false
  openings_of_isTooDeep := by simp
  unrolled _ := .error .malformed
  error_unrolled := by simp +contextual
  keysAre_unrolled := by simp
  distinct_unrolled := by simp
  order := id
  order_perm := List.Perm.refl
  givesUp _ := none
  depth_of_givesUp := by simp
  objects _ _ := none
  hasNoRoom _ _ := false
  depth_of_hasNoRoom := by simp

instance : Inhabited Library := ⟨plain⟩

/-- There is room for a file with few openings. -/
theorem isTooDeep_eq_false (lib : Library) {data : List UInt8}
    (h : Yaml.openings data < roomyDepth) : lib.isTooDeep data = false := by
  rw [← Bool.not_eq_true]
  exact fun hdeep => Nat.not_le_of_lt h (lib.openings_of_isTooDeep data hdeep)

end Library
end Stencil
