import Stencil.Document
import Stencil.Engine

/-!
# Stores

A store keeps the variables of a global scope between calls. It is an ordered map; every operation
gives the store afterwards and an answer, and an operation whose key can be no key changes nothing.
Taking a key out of an empty store does not look at the key.
-/

namespace Stencil

/-- The variables of a global scope. -/
abbrev Store := Document

namespace Store

/-- A key for a store. -/
def checked (key : Value) : Except Failure Value :=
  if key.isKey then .ok key else .error .notKey

/-- The key is there. -/
def contains (s : Store) (key : Value) : Except Failure Bool := do
  let key ← checked key
  return Document.contains key s

/-- The value of a key, or a fallback. -/
def get (s : Store) (key fallback : Value) : Except Failure Value := do
  let key ← checked key
  return (Document.find? key s).getD fallback

/-- Give a key a value. -/
def put (s : Store) (key value : Value) : Except Failure Store := do
  let key ← checked key
  return Document.insert key value s

/-- Take a key out and give its last value, null if there was none. In an empty store there is
none, whatever the key. -/
def remove (s : Store) (key : Value) : Except Failure (Value × Store) :=
  if s.isEmpty then .ok (.null, s)
  else do
    let key ← checked key
    return ((Document.find? key s).getD .null, Document.erase key s)

/-- Give the keys of a document their values. -/
def update (s : Store) (values : Value) : Except Failure Store :=
  match values with
  | .document entries => .ok (Document.update s entries)
  | _ => .error .notItems

end Store
end Stencil
