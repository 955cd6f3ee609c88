/-!
# Selectors

A selector says where the values of placeholders may come from: from the local scopes, from the
global scope, or from both.
-/

namespace Stencil

/-- Which scopes take part in a look-up. -/
inductive Selector where
  | all
  | localOnly
  | globalOnly
deriving DecidableEq, Inhabited

namespace Selector

/-- Every selector, in the order in which messages list them. -/
def every : List Selector := [all, localOnly, globalOnly]

/-- The name of a selector. -/
def name : Selector → String
  | all => "all"
  | localOnly => "local"
  | globalOnly => "global"

/-- The local scopes take part. -/
def includesLocal : Selector → Bool
  | globalOnly => false
  | _ => true

/-- The global scope takes part. -/
def includesGlobal : Selector → Bool
  | localOnly => false
  | _ => true

theorem mem_every (s : Selector) : s ∈ every := by cases s <;> decide

end Selector
end Stencil
