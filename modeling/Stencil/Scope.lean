import Stencil.Document
import Stencil.Selector
import Stencil.Traced
import Stencil.Coercion

/-!
# Scopes and resolution

A key is resolved in layers: the local scopes in their order, then the global scope, each as far as
the selector lets it take part. The first scope that has the key wins, also if its value is null.
An absent scope in the list of local scopes counts as none at all.

Every look-up leaves a trace. The global scope is asked for a key only after all local scopes lack
it, and is read only if it has the key, so the trace tells exactly what was read.
-/

namespace Stencil

/-- What happens while a template is filled. -/
inductive Event where
  /-- The global scope was asked whether it has a key. -/
  | asked (key : String)
  /-- The value of a key was read from the global scope. -/
  | fetched (key : String)
  /-- A key was found in a local scope; absent scopes are not counted. -/
  | foundLocally (key : String) (index : Nat)
  /-- A key was found in the global scope. -/
  | foundGlobally (key : String)
  /-- The key of a whole template was not found. -/
  | keptTemplate (key : String)
  /-- A placeholder inside a text has no value and no default. -/
  | keptLiteral (key : String)
  /-- A text has no result in a shape because it is not one placeholder. -/
  | textOnly (shape : Shape)
  /-- A template of a kind, given by its name, is being filled. -/
  | began (kind : String)
deriving DecidableEq

/-- Why a template could not be filled. -/
inductive Failure where
  /-- An argument names no shape or no selector. -/
  | argument (e : ArgumentError)
  /-- A value cannot be brought into a shape. -/
  | coercion (e : CoercionError)
  /-- A value that is no text stands where a text is due. -/
  | notText
  /-- A value that has no items stands where a list is due. -/
  | notItems
  /-- A value that is no document stands where a document is due. -/
  | notDocument
  /-- A value that can be no key stands where a key is due. -/
  | notKey
  /-- A key that was found cannot be shown in the message about it. -/
  | unshowableKey

/-- A computation that fills templates. -/
abbrev Filling := Traced Event Failure

/-- The scopes in which keys are resolved. -/
structure Environment where
  selector : Selector := .all
  /-- The local scopes in the order of precedence. -/
  scopes : List (Option Document) := []
  /-- The global scope. -/
  globals : Document := []

namespace Environment

/-- The local scopes that are there. -/
def present (env : Environment) : List Document := env.scopes.filterMap id

/-- The first of some scopes that has a key: its place, counted from a start, and the value. -/
def firstWith (key : Value) (start : Nat) : List Document → Option (Nat × Value)
  | [] => none
  | scope :: rest =>
    match scope.find? key with
    | some v => some (start, v)
    | none => firstWith key (start + 1) rest

/-- The local scope that has a key, as far as the selector lets local scopes take part. -/
def local? (env : Environment) (key : Value) : Option (Nat × Value) :=
  if env.selector.includesLocal then firstWith key 0 env.present else none

/-- The value of a key in the global scope, as far as the selector lets it take part. -/
def global? (env : Environment) (key : Value) : Option Value :=
  if env.selector.includesGlobal then env.globals.find? key else none

/-- The value of a key. -/
def find? (env : Environment) (key : Value) : Option Value :=
  match env.local? key with
  | some (_, v) => some v
  | none => env.global? key

/-- Resolve a key and leave a trace. -/
def resolve (env : Environment) (key : String) : Filling (Option Value) := do
  match env.local? (.text key) with
  | some (index, v) =>
    Traced.emit (.foundLocally key index)
    return some v
  | none =>
    if env.selector.includesGlobal then
      Traced.emit (.asked key)
      match env.globals.find? (.text key) with
      | some v =>
        Traced.emit (.foundGlobally key)
        Traced.emit (.fetched key)
        return some v
      | none => return none
    else return none

/-- Some scope takes part in a look-up. -/
def consults (env : Environment) : Bool :=
  (env.selector.includesLocal && !env.present.isEmpty) || env.selector.includesGlobal

/-- What was found under a key, which the message about it has to show. -/
def shown (key : Value) (found : Option Value) : Filling (Option Value) :=
  if found.isSome && key.plain?.isNone then .fail .unshowableKey else return found

/-- Resolve a key of any kind. A value that can be no key is found out as soon as a scope is looked
into. -/
def resolveKey (env : Environment) : Value → Filling (Option Value)
  | .text key => env.resolve key
  | key =>
    if key.isKey || !env.consults then shown key (env.find? key) else .fail .notKey

/-! ## Basic facts -/

/-- Resolving never fails and finds what the layers hold. -/
theorem resolve_outcome (env : Environment) (key : String) :
    (env.resolve key).outcome = .ok (env.find? (.text key)) := by
  unfold resolve find? global?
  split
  · rfl
  · split
    · cases h : env.globals.find? (.text key) <;> rfl
    · rfl

end Environment
end Stencil
