import Stencil.Document
import Stencil.Validation

/-!
# Pairs

Variables given as texts of the form `KEY=VALUE`, cut at the first equals sign. The key must not be
empty; the value may be, and may hold further equals signs. All faulty pairs are reported together,
and then none of the others counts.
-/

namespace Stencil.Pair

/-- What is wrong with a pair. -/
inductive Fault where
  | noEquals
  | noKey
deriving DecidableEq

/-- The words for a fault of a pair. -/
def Fault.message (pair : String) : Fault → String
  | noEquals => "Invalid pair (expected KEY=VALUE): " ++ pair
  | noKey => "Invalid KEY in pair: " ++ pair

/-- The key and the value of a pair. -/
def split (cs : List Char) : Except Fault (List Char × List Char) :=
  match cs.dropWhile (· != '=') with
  | [] => .error .noEquals
  | _ :: value =>
    let key := cs.takeWhile (· != '=')
    if key.isEmpty then .error .noKey else .ok (key, value)

/-- The complaint about a pair, if it is faulty. -/
def complaint? (pair : String) : Option Complaint :=
  match split pair.toList with
  | .ok _ => none
  | .error fault => some { message := fault.message pair }

/-- The entry that a pair stands for, if it is sound. -/
def entry? (pair : String) : Option (Value × Value) :=
  match split pair.toList with
  | .ok (key, value) => some (.text (String.ofList key), .text (String.ofList value))
  | .error _ => none

/-- The document of some pairs. -/
def parse (pairs : List String) : Except ValidationError Document :=
  match pairs.filterMap complaint? with
  | [] => .ok (Document.ofEntries (pairs.filterMap entry?))
  | complaints => .error ⟨complaints⟩

/-! ## Basic facts -/

@[simp] theorem parse_nil : parse [] = .ok [] := rfl

theorem split_append {key value : List Char} (hk : key ≠ []) (he : '=' ∉ key) :
    split (key ++ '=' :: value) = .ok (key, value) := by
  have hp : ∀ c ∈ key, (c != '=') = true := fun c hc => by
    rw [bne_iff_ne]; rintro rfl; exact he hc
  simp [split, List.dropWhile_append_of_pos hp, List.takeWhile_append_of_pos hp, hk]

end Stencil.Pair
