import Stencil.Placeholder
import Stencil.Scope
import Stencil.Template.Kind

/-!
# Filling templates

Putting the values of placeholders into texts, lists, tables, documents and lists of documents. No
template is changed; each filling builds a new value.

**Texts.** A text that is one placeholder becomes the value itself, brought into the shape asked
for; if the key is absent the text itself is brought into the shape. Any other text is composed:
every placeholder is replaced by the text of its value, or of the default if the value is null or
absent, and stays as it is without a default. The composed text is not looked at again.

**Documents.** Every value of a document is filled in order, texts always as texts. Documents inside
are filled with the same scopes only if the options say so. A value that is or becomes null is left
out unless the options keep nulls. A document that is filled without any scopes is its own scope.
-/

namespace Stencil

/-- How templates are filled. -/
structure FillOptions where
  /-- What stands for a value that is null; null if there is no default. -/
  default : Value := .null
  /-- Documents inside documents are filled too. -/
  recurse : Bool := false
  /-- Entries whose value is null are kept. -/
  includeNulls : Bool := false

namespace Fill

/-- A coercion within a filling. -/
def coercing (x : Except CoercionError α) : Filling α :=
  .ofExcept (x.mapError .coercion)

/-! ## Texts -/

/-- The text of a value; null has none. -/
def textOf? : Value → Except CoercionError (Option (List Char))
  | .null => .ok none
  | v => (Coercion.toText v).map fun s => some s.toList

/-- What replaces a placeholder inside a text. -/
def replacement (env : Environment) (default : Value) (key : List Char) : Filling (List Char) := do
  let found ← env.resolve (String.ofList key)
  match ← coercing (textOf? (found.getD .null)) with
  | some cs => return cs
  | none =>
    match ← coercing (textOf? default) with
    | some cs => return cs
    | none =>
      Traced.emit (.keptLiteral (String.ofList key))
      return Piece.tokenText key

/-- The text of pieces with their placeholders replaced. -/
def compose (env : Environment) (default : Value) : List Piece → Filling (List Char)
  | [] => return []
  | .literal cs :: ps => do
    let rest ← compose env default ps
    return cs ++ rest
  | .token key :: ps => do
    let cs ← replacement env default key
    let rest ← compose env default ps
    return cs ++ rest

/-- The value of a text that is one placeholder. -/
def whole (env : Environment) (shape : Shape) (default : Value) (s : String) (key : List Char) :
    Filling Value := do
  match ← env.resolve (String.ofList key) with
  | some v => coercing (Coercion.applyDefault shape v default)
  | none =>
    Traced.emit (.keptTemplate (String.ofList key))
    coercing (Coercion.coerce shape (.text s))

/-- Fill a text. -/
def text (env : Environment) (shape : Shape) (default : Value) (s : String) : Filling Value := do
  match Placeholder.whole? s.toList with
  | some key => whole env shape default s key
  | none =>
    if shape.holdsText then
      let cs ← compose env default (Placeholder.pieces s.toList)
      return .text (String.ofList cs)
    else
      Traced.emit (.textOnly shape)
      return .null

/-! ## Lists and tables -/

/-- Fill a value that should be text or null. -/
def item (env : Environment) (shape : Shape) (default : Value) : Value → Filling Value
  | .null => return .null
  | .text s => text env shape default s
  | _ => .fail .notText

/-- Fill each item of a list. -/
def items (env : Environment) (shape : Shape) (default : Value) :
    List Value → Filling (List Value)
  | [] => return []
  | v :: vs => do
    let w ← item env shape default v
    let ws ← items env shape default vs
    return w :: ws

/-- The items of a value that has items: of a list, tuple or set its items, of a document its keys,
of a text its characters, of bytes the numbers. -/
def itemsOf? : Value → Option (List Value)
  | .list vs => some vs
  | .tuple vs => some vs
  | .set vs => some vs
  | .document entries => some (entries.map Prod.fst)
  | .text s => some (s.toList.map fun c => .text (String.ofList [c]))
  | .bytes data => some (data.map fun b => .int b.toNat)
  | _ => none

/-- Fill a value that should be a list or null. -/
def row (env : Environment) (shape : Shape) (default : Value) (v : Value) : Filling Value :=
  match v with
  | .null => return .null
  | v =>
    match itemsOf? v with
    | some vs => .list <$> items env shape default vs
    | none => .fail .notItems

/-- Fill each row of a table. -/
def rows (env : Environment) (shape : Shape) (default : Value) : List Value → Filling (List Value)
  | [] => return []
  | v :: vs => do
    let w ← row env shape default v
    let ws ← rows env shape default vs
    return w :: ws

/-! ## Documents -/

/-- An entry with its filled value, left out if the value is null and nulls are not kept. -/
def entry? (o : FillOptions) (key value : Value) : List (Value × Value) :=
  if value.isNull && !o.includeNulls then [] else [(key, value)]

mutual

/-- Fill a value inside a document. -/
def value (o : FillOptions) (env : Environment) : Value → Filling Value
  | .text s => text env .string o.default s
  | .list vs =>
    match TemplateKind.ofItems vs with
    | .list => .list <$> items env .string o.default vs
    | .table => .list <$> rows env .string o.default vs
    | .documentList => if o.recurse then .list <$> documents o env vs else return .list vs
    | _ => return .list vs
  | .document es => if o.recurse then .document <$> entries o env es else return .document es
  | v => return v

/-- Fill the entries of a document. -/
def entries (o : FillOptions) (env : Environment) :
    List (Value × Value) → Filling (List (Value × Value))
  | [] => return []
  | (k, v) :: es => do
    let w ← value o env v
    let rest ← entries o env es
    return entry? o k w ++ rest

/-- Fill each document of a list with the same scopes; other items stay. -/
def documents (o : FillOptions) (env : Environment) : List Value → Filling (List Value)
  | [] => return []
  | .document es :: vs => do
    let w ← entries o env es
    let ws ← documents o env vs
    return .document w :: ws
  | v :: vs => do
    let ws ← documents o env vs
    return v :: ws

end

/-- The scopes for a document: those given, or the document itself. -/
def ownScope (env : Environment) (es : Document) : Environment :=
  if env.scopes.isEmpty then { env with scopes := [some es] } else env

/-- Fill a document. -/
def document (o : FillOptions) (env : Environment) (es : Document) : Filling Value :=
  .document <$> entries o (ownScope env es) es

/-- Fill a value that should be a document or null. -/
def documentItem (o : FillOptions) (env : Environment) : Value → Filling Value
  | .null => return .null
  | .document es => document o env es
  | _ => .fail .notDocument

/-- Fill each document of a list on its own. -/
def documentItems (o : FillOptions) (env : Environment) : List Value → Filling (List Value)
  | [] => return []
  | v :: vs => do
    let w ← documentItem o env v
    let ws ← documentItems o env vs
    return w :: ws

/-! ## Basic facts -/

theorem textOf?_eq_toText {v : Value} (h : v ≠ .null) :
    textOf? v = (Coercion.toText v).map fun s => some s.toList := by
  cases v <;> first | rfl | exact absurd rfl h

@[simp] theorem value_null (o : FillOptions) (env : Environment) : value o env .null = ⟨[], .ok .null⟩ := by
  simp [value]

@[simp] theorem item_text (env : Environment) (shape : Shape) (default : Value) (s : String) :
    item env shape default (.text s) = text env shape default s := rfl

/-- Items are filled one after the other. -/
theorem items_eq_mapM (env : Environment) (shape : Shape) (default : Value) (vs : List Value) :
    items env shape default vs = vs.mapM (item env shape default) := by
  induction vs with
  | nil => rfl
  | cons v vs ih => rw [items, ih, List.mapM_cons]

/-- Rows are filled one after the other. -/
theorem rows_eq_mapM (env : Environment) (shape : Shape) (default : Value) (vs : List Value) :
    rows env shape default vs = vs.mapM (row env shape default) := by
  induction vs with
  | nil => rfl
  | cons v vs ih => rw [rows, ih, List.mapM_cons]

/-- Documents on their own are filled one after the other. -/
theorem documentItems_eq_mapM (o : FillOptions) (env : Environment) (vs : List Value) :
    documentItems o env vs = vs.mapM (documentItem o env) := by
  induction vs with
  | nil => rfl
  | cons v vs ih => rw [documentItems, ih, List.mapM_cons]

theorem ownScope_of_scopes {env : Environment} {es : Document} (h : env.scopes ≠ []) :
    ownScope env es = env := by
  simp [ownScope, h]

end Fill
end Stencil
