import Stencil.Template.Fill

/-!
# The engine

The public operations: each takes its shape and selector as a caller gives them, says what is wrong
with them before anything is looked up, and then fills. `substitute` takes a template of any kind
and does what the operation for its kind does; a value that is no template comes back unchanged.
-/

namespace Stencil

/-- What an operation is called with, beside the template. -/
structure Request where
  shape : Argument := .shape .string
  selector : Argument := .value .null
  options : FillOptions := {}
  /-- The local scopes in the order of precedence; some may be absent. -/
  scopes : List (Option Document) := []
  /-- The global scope. -/
  globals : Document := []

namespace Engine

/-- An argument within a filling. -/
def naming (x : Except ArgumentError α) : Filling α :=
  .ofExcept (x.mapError .argument)

/-- The scopes of a request under a selector. -/
def environment (r : Request) (selector : Selector) : Environment :=
  ⟨selector, r.scopes, r.globals⟩

/-- Resolve a key. -/
def resolve (r : Request) (key : Value) : Filling (Option Value) := do
  let selector ← naming (Selector.ofArgument r.selector)
  (environment r selector).resolveKey key

/-- Some scope that takes part has a key. -/
def has (r : Request) (key : Value) : Filling Bool := do
  let found ← resolve r key
  return found.isSome

/-- Fill a text. -/
def substituteText (r : Request) (v : Value) : Filling Value := do
  let shape ← naming (Shape.ofArgument r.shape)
  let selector ← naming (Selector.ofArgument r.selector)
  Fill.item (environment r selector) shape r.options.default v

/-- Fill each item of a list. -/
def substituteList (r : Request) (v : Value) : Filling Value := do
  let shape ← naming (Shape.ofArgument r.shape)
  let selector ← naming (Selector.ofArgument r.selector)
  Fill.row (environment r selector) shape r.options.default v

/-- Fill each row of a table. -/
def substituteTable (r : Request) (v : Value) : Filling Value := do
  let shape ← naming (Shape.ofArgument r.shape)
  let selector ← naming (Selector.ofArgument r.selector)
  match v with
  | .null => return .null
  | v =>
    match Fill.itemsOf? v with
    | some vs => .list <$> Fill.rows (environment r selector) shape r.options.default vs
    | none => .fail .notItems

/-- Fill a document. -/
def substituteDocument (r : Request) (v : Value) : Filling Value := do
  let selector ← naming (Selector.ofArgument r.selector)
  Fill.documentItem r.options (environment r selector) v

/-- Fill each document of a list. -/
def substituteDocuments (r : Request) (v : Value) : Filling Value := do
  let selector ← naming (Selector.ofArgument r.selector)
  match v with
  | .null => return .null
  | v =>
    match Fill.itemsOf? v with
    | some vs => .list <$> Fill.documentItems r.options (environment r selector) vs
    | none => .fail .notItems

/-- Fill a template of any kind. -/
def substitute (r : Request) (v : Value) : Filling Value := do
  match v with
  | .null => return .null
  | v =>
    let kind := TemplateKind.ofValue v
    Traced.emit (.began kind.name)
    match kind with
    | .scalar => substituteText r v
    | .list => substituteList r v
    | .table => substituteTable r v
    | .document => substituteDocument r v
    | .documentList => substituteDocuments r v
    | .other => return v

/-! ## Basic facts -/

@[simp] theorem substitute_null (r : Request) : substitute r .null = ⟨[], .ok .null⟩ := rfl

end Engine
end Stencil
