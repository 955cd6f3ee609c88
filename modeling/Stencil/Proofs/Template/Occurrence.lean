import Stencil.Proofs.Template.Text

/-!
# The placeholders that a filling reaches

A template alone says which placeholders its filling comes to, and in which order: the scopes, the
default and the values have no part in it.

**Texts.** A text that is one placeholder has one occurrence, in the shape asked for. Any other text
has those of its scan, and none at all in a shape that holds no text.

**Values.** Items, rows and entries are reached in order. Inside a document every text is asked for
as text, and documents inside are entered only if the options say so.

**Sites.** A document that is filled without scopes is its own scope, so a site is an occurrence
together with the document at the top that it stands in, if there is one.
-/

namespace Stencil

open Placeholder

/-- A placeholder that is reached. -/
inductive Occurrence where
  /-- A text that is one placeholder, with the shape it is asked for in. -/
  | whole (shape : Shape) (s : String) (key : List Char)
  /-- A placeholder inside a text. -/
  | inside (key : List Char)

/-- An occurrence and the document at the top that it stands in. -/
structure Site where
  home : Option Document
  occurrence : Occurrence

namespace Occurrence

/-- The key that is looked up. -/
def key : Occurrence → String
  | whole _ _ key => String.ofList key
  | inside key => String.ofList key

/-- What becomes of a placeholder: its value in the shape, or what stands in for it in a text. -/
def outcome (env : Environment) (default : Value) : Occurrence → Except Failure Value
  | whole shape s key => Fill.wholeResult env shape default s key
  | inside key => Fill.standIn env default key

/-! ## In templates -/

/-- The occurrences in a text. -/
def ofText (shape : Shape) (s : String) : List Occurrence :=
  match whole? s.toList with
  | some key => [whole shape s key]
  | none => if shape.holdsText then (scan s.toList).map fun p => inside p.key else []

/-- The occurrences in an item of a list. -/
def ofItem (shape : Shape) : Value → List Occurrence
  | .text s => ofText shape s
  | _ => []

/-- The occurrences in a row of a table. -/
def ofRow (shape : Shape) : Value → List Occurrence
  | .list vs => vs.flatMap (ofItem shape)
  | _ => []

mutual

/-- The occurrences in a value inside a document. -/
def ofValue (recurse : Bool) : Value → List Occurrence
  | .text s => ofText .string s
  | .list vs =>
    match TemplateKind.ofItems vs with
    | .list => vs.flatMap (ofItem .string)
    | .table => vs.flatMap (ofRow .string)
    | .documentList => if recurse then ofDocuments recurse vs else []
    | _ => []
  | .document es => if recurse then ofEntries recurse es else []
  | _ => []

/-- The occurrences in the entries of a document. -/
def ofEntries (recurse : Bool) : List (Value × Value) → List Occurrence
  | [] => []
  | (_, v) :: es => ofValue recurse v ++ ofEntries recurse es

/-- The occurrences in a list of documents. -/
def ofDocuments (recurse : Bool) : List Value → List Occurrence
  | [] => []
  | .document es :: vs => ofEntries recurse es ++ ofDocuments recurse vs
  | _ :: vs => ofDocuments recurse vs

end

end Occurrence

namespace Site

/-- The scopes in which a key is looked up at a site. -/
def environment (env : Environment) (site : Site) : Environment :=
  match site.home with
  | some es => Fill.ownScope env es
  | none => env

/-- What becomes of the placeholder at a site. -/
def outcome (env : Environment) (default : Value) (site : Site) : Except Failure Value :=
  site.occurrence.outcome (site.environment env) default

/-- The sites in a document at the top. -/
def ofDocument (recurse : Bool) : Value → List Site
  | .document es => (Occurrence.ofEntries recurse es).map (Site.mk (some es))
  | _ => []

/-- The sites in a template. -/
def ofTemplate (shape : Shape) (recurse : Bool) : Value → List Site
  | .text s => (Occurrence.ofText shape s).map (Site.mk none)
  | .document es => ofDocument recurse (.document es)
  | .list vs =>
    match TemplateKind.ofItems vs with
    | .list => (vs.flatMap (Occurrence.ofItem shape)).map (Site.mk none)
    | .table => (vs.flatMap (Occurrence.ofRow shape)).map (Site.mk none)
    | .documentList => vs.flatMap (ofDocument recurse)
    | _ => []
  | _ => []

end Site
end Stencil
