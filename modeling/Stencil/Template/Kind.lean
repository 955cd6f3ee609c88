import Stencil.Value

/-!
# Kinds of templates

Every value is a template of exactly one kind. A list is a list of texts, a table of lists of texts
or a list of documents; null may stand for any item of these. A list that fits several kinds, like
the empty one, is of the first of them that fits.
-/

namespace Stencil

/-- The kind of a template. -/
inductive TemplateKind where
  | scalar
  | list
  | table
  | document
  | documentList
  | other
deriving DecidableEq, Inhabited

namespace TemplateKind

/-- The name of a kind. -/
def name : TemplateKind → String
  | scalar => "scalar"
  | list => "list"
  | table => "table"
  | document => "document"
  | documentList => "document_list"
  | other => "other"

/-- Text or null. -/
def isTextItem : Value → Bool
  | .text _ | .null => true
  | _ => false

/-- A list of texts, or null. -/
def isRow : Value → Bool
  | .list items => items.all isTextItem
  | .null => true
  | _ => false

/-- A document, or null. -/
def isDocumentItem : Value → Bool
  | .document _ | .null => true
  | _ => false

/-- The kind of a list with some items. -/
def ofItems (items : List Value) : TemplateKind :=
  if items.all isTextItem then list
  else if items.all isRow then table
  else if items.all isDocumentItem then documentList
  else other

/-- The kind of a value. -/
def ofValue : Value → TemplateKind
  | .text _ => scalar
  | .document _ => document
  | .list items => ofItems items
  | _ => other

/-! ## Basic facts -/

@[simp] theorem ofItems_nil : ofItems [] = list := rfl

/-- What the kind of a list says about its items. -/
theorem ofItems_cases (vs : List Value) :
    (ofItems vs = list ∧ vs.all isTextItem = true) ∨ (ofItems vs = table ∧ vs.all isRow = true) ∨
      (ofItems vs = documentList ∧ vs.all isDocumentItem = true) ∨ ofItems vs = other := by
  unfold ofItems
  split
  · exact .inl ⟨rfl, ‹_›⟩
  · split
    · exact .inr (.inl ⟨rfl, ‹_›⟩)
    · split
      · exact .inr (.inr (.inl ⟨rfl, ‹_›⟩))
      · exact .inr (.inr (.inr rfl))

theorem ofItems_ne_document (vs : List Value) : ofItems vs ≠ document := by
  rcases ofItems_cases vs with ⟨h, -⟩ | ⟨h, -⟩ | ⟨h, -⟩ | h <;> rw [h] <;> decide

end TemplateKind
end Stencil
