import Stencil.Engine

/-!
# The operations under valid arguments

Every operation names its shape and its selector before it does anything else. Once both are valid,
what it does is the filling of its kind in the environment of the request. `substitute` reports the
kind of the template and goes on as the operation of this kind (`operationOf`); what that is for
each kind is stated once here.
-/

namespace Stencil.Engine

variable {r : Request} {shape : Shape} {selector : Selector}

theorem naming_ok_bind {α β : Type} (a : α) (f : α → Filling β) :
    (naming (.ok a) >>= f) = f a :=
  Traced.ofExcept_ok_bind a f

/-- An operation that names an argument has a result only if the argument is valid. -/
theorem naming_bind_eq_ok_iff {α β : Type} {x : Except ArgumentError α} {f : α → Filling β}
    {b : β} : (naming x >>= f).outcome = .ok b ↔ ∃ a, x = .ok a ∧ (f a).outcome = .ok b := by
  rcases x with e | a
  · constructor
    · intro h
      cases h
    · rintro ⟨a, ⟨⟩, -⟩
  · rw [naming_ok_bind]
    constructor
    · intro h
      exact ⟨a, rfl, h⟩
    · rintro ⟨_, ⟨⟩, h⟩
      exact h

/-- Two operations that name the same argument end alike if they do so once it is valid. -/
theorem naming_bind_congr {α β : Type} {x : Except ArgumentError α} {f g : α → Filling β}
    (h : ∀ a, x = .ok a → (f a).outcome = (g a).outcome) :
    (naming x >>= f).outcome = (naming x >>= g).outcome := by
  rcases x with e | a
  · rfl
  · rw [naming_ok_bind, naming_ok_bind, h a rfl]

theorem substituteText_eq (hs : Shape.ofArgument r.shape = .ok shape)
    (hsel : Selector.ofArgument r.selector = .ok selector) (v : Value) :
    substituteText r v = Fill.item (environment r selector) shape r.options.default v := by
  rw [substituteText, hs, naming_ok_bind, hsel, naming_ok_bind]

theorem substituteList_eq (hs : Shape.ofArgument r.shape = .ok shape)
    (hsel : Selector.ofArgument r.selector = .ok selector) (v : Value) :
    substituteList r v = Fill.row (environment r selector) shape r.options.default v := by
  rw [substituteList, hs, naming_ok_bind, hsel, naming_ok_bind]

theorem substituteTable_list (hs : Shape.ofArgument r.shape = .ok shape)
    (hsel : Selector.ofArgument r.selector = .ok selector) (vs : List Value) :
    substituteTable r (.list vs) =
      .list <$> Fill.rows (environment r selector) shape r.options.default vs := by
  rw [substituteTable, hs, naming_ok_bind, hsel, naming_ok_bind]
  rfl

theorem substituteDocument_eq (hsel : Selector.ofArgument r.selector = .ok selector) (v : Value) :
    substituteDocument r v = Fill.documentItem r.options (environment r selector) v := by
  rw [substituteDocument, hsel, naming_ok_bind]

theorem substituteDocuments_list (hsel : Selector.ofArgument r.selector = .ok selector)
    (vs : List Value) :
    substituteDocuments r (.list vs) =
      .list <$> Fill.documentItems r.options (environment r selector) vs := by
  rw [substituteDocuments, hsel, naming_ok_bind]
  rfl

/-- What `substitute` goes on with. -/
def operationOf (r : Request) (v : Value) : Filling Value :=
  match TemplateKind.ofValue v with
  | .scalar => substituteText r v
  | .list => substituteList r v
  | .table => substituteTable r v
  | .document => substituteDocument r v
  | .documentList => substituteDocuments r v
  | .other => return v

theorem operationOf_text (hs : Shape.ofArgument r.shape = .ok shape)
    (hsel : Selector.ofArgument r.selector = .ok selector) (s : String) :
    operationOf r (.text s) = Fill.text (environment r selector) shape r.options.default s :=
  substituteText_eq hs hsel (.text s)

theorem operationOf_list (hs : Shape.ofArgument r.shape = .ok shape)
    (hsel : Selector.ofArgument r.selector = .ok selector) {vs : List Value}
    (hk : TemplateKind.ofItems vs = .list) :
    operationOf r (.list vs) =
      .list <$> Fill.items (environment r selector) shape r.options.default vs := by
  rw [operationOf, TemplateKind.ofValue, hk]
  exact substituteList_eq hs hsel (.list vs)

theorem operationOf_table (hs : Shape.ofArgument r.shape = .ok shape)
    (hsel : Selector.ofArgument r.selector = .ok selector) {vs : List Value}
    (hk : TemplateKind.ofItems vs = .table) :
    operationOf r (.list vs) =
      .list <$> Fill.rows (environment r selector) shape r.options.default vs := by
  rw [operationOf, TemplateKind.ofValue, hk]
  exact substituteTable_list hs hsel vs

theorem operationOf_document (hsel : Selector.ofArgument r.selector = .ok selector)
    (es : Document) :
    operationOf r (.document es) = Fill.document r.options (environment r selector) es :=
  substituteDocument_eq hsel (.document es)

theorem operationOf_documentList (hsel : Selector.ofArgument r.selector = .ok selector)
    {vs : List Value} (hk : TemplateKind.ofItems vs = .documentList) :
    operationOf r (.list vs) =
      .list <$> Fill.documentItems r.options (environment r selector) vs := by
  rw [operationOf, TemplateKind.ofValue, hk]
  exact substituteDocuments_list hsel vs

theorem operationOf_other {v : Value} (hk : TemplateKind.ofValue v = .other) :
    operationOf r v = pure v := by
  rw [operationOf, hk]

theorem substitute_eq {v : Value} (hv : v ≠ .null) :
    substitute r v =
      (Traced.emit (.began (TemplateKind.ofValue v).name) >>= fun _ => operationOf r v) := by
  cases v <;> first | rfl | exact absurd rfl hv

theorem substitute_outcome {v : Value} (hv : v ≠ .null) :
    (substitute r v).outcome = (operationOf r v).outcome := by
  rw [substitute_eq hv, Traced.outcome_bind, Traced.outcome_emit]
  rfl

end Stencil.Engine
