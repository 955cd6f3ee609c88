import Stencil.Store

/-!
# Sessions

A session holds two stores, one of its own and one that the whole process shares, and snapshots kept
under a name. A step works on one of the stores, or lets an engine fill a template with that store
as its global scope. A step that fails changes nothing.
-/

namespace Stencil

/-- One of the stores of a session. -/
inductive StoreName where
  | own
  | process
deriving DecidableEq

/-- The name of a store. -/
def StoreName.text : StoreName → String
  | own => "own"
  | process => "process"

/-- The store that an engine reads: the one it was given, also while that is empty, or else the
store of the process. -/
def StoreName.ofEngine (given? : Option StoreName) : StoreName := given?.getD .process

/-- The stores of a session and the snapshots it keeps. -/
structure Session where
  own : Store := []
  process : Store := []
  snapshots : List (String × Document) := []

/-- An operation of the engine. -/
inductive Operation where
  | text
  | list
  | table
  | document
  | documents
  | template

/-- What an operation does with a request and a template. -/
def Operation.perform : Operation → Request → Value → Filling Value
  | text => Engine.substituteText
  | list => Engine.substituteList
  | table => Engine.substituteTable
  | document => Engine.substituteDocument
  | documents => Engine.substituteDocuments
  | template => Engine.substitute

/-- A step of a session. -/
inductive Step where
  | put (store : StoreName) (key value : Value)
  | get (store : StoreName) (key fallback : Value)
  | contains (store : StoreName) (key : Value)
  | remove (store : StoreName) (key : Value)
  | update (store : StoreName) (values : Value)
  | clear (store : StoreName)
  | keys (store : StoreName)
  | size (store : StoreName)
  | snapshot (store : StoreName) (name? : Option String)
  | saved (name : String)
  | resolve (store : StoreName) (key : Value) (request : Request)
  | fill (store : StoreName) (operation : Operation) (request : Request) (template : Value)
  | globalScope (store : StoreName)

namespace Session

/-- The content of a store. -/
def store (s : Session) : StoreName → Store
  | .own => s.own
  | .process => s.process

/-- The session with another content of a store. -/
def withStore (s : Session) (name : StoreName) (content : Store) : Session :=
  match name with
  | .own => { s with own := content }
  | .process => { s with process := content }

/-- A request with a store as its global scope. -/
def bound (s : Session) (name : StoreName) (r : Request) : Request :=
  { r with globals := s.store name }

/-- A look-up as a value: whether the key was found, and its value. -/
def lookupValue : Option Value → Value
  | some v => .tuple [.bool true, v]
  | none => .tuple [.bool false, .null]

/-- The session after a change of a store, which answers null. -/
def changed (s : Session) (name : StoreName) (content : Except Failure Store) :
    Except Failure (Value × Session) :=
  content.map fun content => (.null, s.withStore name content)

/-- The answer of a step and the session after it. -/
def perform (s : Session) : Step → Except Failure (Value × Session)
  | .put name key value => s.changed name ((s.store name).put key value)
  | .get name key fallback => do
    let v ← (s.store name).get key fallback
    return (v, s)
  | .contains name key => do
    let b ← (s.store name).contains key
    return (.bool b, s)
  | .remove name key => do
    let (v, content) ← (s.store name).remove key
    return (v, s.withStore name content)
  | .update name values => s.changed name ((s.store name).update values)
  | .clear name => s.changed name (.ok [])
  | .keys name => return (.list (Document.keys (s.store name)), s)
  | .size name => return (.int (s.store name).length, s)
  | .snapshot name name? =>
    let content := s.store name
    let kept := (name?.map fun n => (n, content)).toList
    return (.document content, { s with snapshots := kept ++ s.snapshots })
  | .saved name => do
    match s.snapshots.lookup name with
    | some content => return (.document content, s)
    | none => return (.null, s)
  | .resolve name key r => do
    let found ← (Engine.resolve (s.bound name r) key).outcome
    return (lookupValue found, s)
  | .fill name operation r v => do
    let w ← (operation.perform (s.bound name r) v).outcome
    return (w, s)
  | .globalScope name => return (.list [.text name.text], s)

/-- The session after a step; a step that fails changes nothing. -/
def step (s : Session) (step : Step) : Except Failure Value × Session :=
  match s.perform step with
  | .ok (v, s') => (.ok v, s')
  | .error e => (.error e, s)

/-- The answers of some steps, each with the session after it. -/
def run (s : Session) : List Step → List (Except Failure Value × Session)
  | [] => []
  | t :: ts =>
    let answer := s.step t
    answer :: run answer.2 ts

/-! ## Basic facts -/

theorem length_run (s : Session) (ts : List Step) : (s.run ts).length = ts.length := by
  induction ts generalizing s with
  | nil => rfl
  | cons t ts ih => simp [run, ih]

end Session
end Stencil
