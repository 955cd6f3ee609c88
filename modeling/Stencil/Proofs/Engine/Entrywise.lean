import Stencil.Proofs.Engine.Operation
import Stencil.Proofs.Itemwise

/-!
# A document is filled entry by entry

There are two ways through a nested value: `Fill.value` goes down from a document into the values
of its entries, and `substitute` takes a value of any kind from outside. Here they are one: filling
a document does to the value of each entry what `substitute` does to it as a template of its own,
under the textual shape and in the same scopes (`entryOutcome`).

**What differs** is what belongs to entries alone. Null is never looked into, documents stay as they
are unless the options say otherwise, and entries whose value is null may be left out.

**Scopes.** A document without scopes is filled as if it were the only scope, also for what is
nested in it. In a list without scopes each document is filled on its own, hence in its own scope.

Main result: `substituteDocument_entrywise`.
-/

namespace Stencil

namespace Fill

variable (o : FillOptions) (env : Environment)

/-- With scopes given, the documents of a list are filled alike inside a document and on their
own. -/
theorem documents_eq_documentItems (h : env.scopes ≠ []) {vs : List Value}
    (hd : vs.all TemplateKind.isDocumentItem = true) :
    documents o env vs = documentItems o env vs := by
  induction vs with
  | nil => rw [documents, documentItems]
  | cons v vs ih =>
    rw [List.all_cons, Bool.and_eq_true] at hd
    have hvs := ih hd.2
    cases v with
    | null =>
      rw [documents, documentItems, documentItem, pure_bind, hvs]
      · rintro es ⟨⟩
    | document es =>
      rw [documents, documentItems, documentItem, document, ownScope_of_scopes h, bind_map_left,
        hvs]
    | _ => exact absurd hd.1 (by simp [TemplateKind.isDocumentItem])

/-- Filling entries means filling their values, up to the first that fails. -/
theorem entries_outcome (es : List (Value × Value)) :
    (entries o env es).outcome =
      (es.mapM fun e => (value o env e.2).outcome.map fun w => entry? o e.1 w).map
        List.flatten := by
  induction es with
  | nil => rw [entries]; rfl
  | cons e es ih =>
    obtain ⟨k, v⟩ := e
    rw [entries, Traced.outcome_bind]
    rcases hv : (value o env v).outcome with f | w
    · rw [mapM_cons_error (e := f) (by rw [hv]; rfl)]
      rfl
    · rw [mapM_cons_ok (w := entry? o k w) (by rw [hv]; rfl)]
      show ((entries o env es >>= fun rest => _).outcome) = _
      rw [Traced.outcome_bind, ih]
      generalize List.mapM (m := Except Failure) _ es = rest
      rcases rest <;> rfl

theorem documentItems_outcome (vs : List Value) :
    (documentItems o env vs).outcome = vs.mapM fun v => (documentItem o env v).outcome := by
  rw [documentItems_eq_mapM, Traced.outcome_mapM]

end Fill

namespace Engine

open Fill

variable {r : Request} {selector : Selector}

/-- A request for text. -/
def textual (r : Request) : Request := { r with shape := .shape .string }

/-- What filling a document makes of an entry. -/
def entryOutcome (r : Request) (e : Value × Value) : Except Failure (List (Value × Value)) :=
  let kind := TemplateKind.ofValue e.2
  if e.2.isNull then .ok (if r.options.includeNulls then [e] else [])
  else if (kind = .document ∨ kind = .documentList) ∧ r.options.recurse = false then .ok [e]
  else (substitute (textual r) e.2).outcome.map fun w =>
    if w.isNull ∧ r.options.includeNulls = false then [] else [(e.1, w)]

/-- Inside a document and as a template of its own a value comes to the same. -/
theorem value_outcome (hsel : Selector.ofArgument r.selector = .ok selector)
    (hscopes : r.scopes ≠ []) {v : Value} (hv : v ≠ .null)
    (hn : TemplateKind.ofValue v = .document ∨ TemplateKind.ofValue v = .documentList →
      r.options.recurse = true) :
    (value r.options (environment r selector) v).outcome =
      (substitute (textual r) v).outcome := by
  have hs : Shape.ofArgument (textual r).shape = .ok .string := rfl
  have hsel' : Selector.ofArgument (textual r).selector = .ok selector := hsel
  rw [substitute_outcome hv]
  cases v with
  | null => exact absurd rfl hv
  | text s => rw [value, operationOf_text hs hsel']; rfl
  | document es =>
    rw [value, hn (Or.inl rfl), if_pos rfl, operationOf_document hsel', document]
    have hown : ownScope (environment (textual r) selector) es = environment r selector :=
      ownScope_of_scopes hscopes
    rw [hown]
    rfl
  | list vs =>
    -- Both sides branch on the kind of the list. Only for documents do they call different things.
    rw [value]
    rcases TemplateKind.ofItems_cases vs with ⟨hk, -⟩ | ⟨hk, -⟩ | ⟨hk, hd⟩ | hk
    · rw [operationOf_list hs hsel' hk, hk]
      rfl
    · rw [operationOf_table hs hsel' hk, hk]
      rfl
    · rw [operationOf_documentList hsel' hk, hk, hn (Or.inr hk)]
      show (Value.list <$> documents r.options (environment r selector) vs).outcome = _
      rw [documents_eq_documentItems _ _ hscopes hd]
      rfl
    · have hkind : TemplateKind.ofValue (.list vs) = .other := hk
      rw [operationOf_other hkind, hk]
  | _ =>
    rw [value] <;> first | rfl | (intro _ h; cases h)

/-- Without `recurse` a document or a list of documents stays as it is. -/
theorem value_of_not_recurse (o : FillOptions) (env : Environment) (ho : o.recurse = false)
    {v : Value}
    (hn : TemplateKind.ofValue v = .document ∨ TemplateKind.ofValue v = .documentList) :
    value o env v = pure v := by
  cases v with
  | document es =>
    rw [value, ho]
    rfl
  | list vs =>
    have hk : TemplateKind.ofItems vs = .documentList := by
      rcases hn with hk | hk
      · exact absurd hk (TemplateKind.ofItems_ne_document vs)
      · exact hk
    rw [value, hk, ho]
    rfl
  | _ => simp [TemplateKind.ofValue] at hn

theorem entry?_eq (o : FillOptions) (k w : Value) :
    entry? o k w = if w.isNull ∧ o.includeNulls = false then [] else [(k, w)] := by
  cases hw : w.isNull <;> cases ho : o.includeNulls <;> simp [hw, ho, entry?]

/-- In the walk through a document an entry has the outcome that `entryOutcome` says. -/
theorem entry_outcome (hsel : Selector.ofArgument r.selector = .ok selector)
    (hscopes : r.scopes ≠ []) (e : Value × Value) :
    ((value r.options (environment r selector) e.2).outcome.map fun w => entry? r.options e.1 w) =
      entryOutcome r e := by
  obtain ⟨k, v⟩ := e
  by_cases hv : v = .null
  · subst hv
    rw [value_null, entryOutcome]
    cases hi : r.options.includeNulls <;> simp [Except.map, entry?, hi]
  have hnull : v.isNull = false := Bool.eq_false_iff.2 fun h => hv (Value.isNull_iff.1 h)
  by_cases hn : (TemplateKind.ofValue v = .document ∨ TemplateKind.ofValue v = .documentList) ∧
      r.options.recurse = false
  · rw [value_of_not_recurse _ _ hn.2 hn.1, entryOutcome]
    simp [hnull, hn, Except.map, entry?]
  · have hrec : TemplateKind.ofValue v = .document ∨ TemplateKind.ofValue v = .documentList →
        r.options.recurse = true := by
      intro hk
      simpa using fun hr => hn ⟨hk, hr⟩
    rw [value_outcome hsel hscopes hv hrec, entryOutcome]
    simp only [hnull, hn, Bool.false_eq_true, if_false]
    exact congrArg (fun f => Except.map f _) (funext (entry?_eq r.options k))

/-- A document in given scopes is filled entry by entry. -/
theorem substituteDocument_itemwise (hsel : Selector.ofArgument r.selector = .ok selector)
    (hscopes : r.scopes ≠ []) (d : Document) :
    Itemwise (entryOutcome r) d (fun ess => .document ess.flatten)
      (substituteDocument r (.document d)).outcome := by
  have hentries : (fun e : Value × Value =>
      (value r.options (environment r selector) e.2).outcome.map fun w => entry? r.options e.1 w) =
      entryOutcome r := funext (entry_outcome hsel hscopes)
  rw [itemwise_iff, substituteDocument_eq hsel, documentItem, document,
    ownScope_of_scopes hscopes, Traced.outcome_map, entries_outcome, hentries]
  rcases d.mapM (entryOutcome r) <;> rfl

/-- Without scopes a document is its own scope. -/
theorem substituteDocument_ownScope (hsel : Selector.ofArgument r.selector = .ok selector)
    (hscopes : r.scopes = []) (d : Document) :
    substituteDocument r (.document d) =
      substituteDocument { r with scopes := [some d] } (.document d) := by
  have hsel' : Selector.ofArgument { r with scopes := [some d] }.selector = .ok selector := hsel
  have hown : (environment { r with scopes := [some d] } selector).scopes ≠ [] :=
    List.cons_ne_nil _ _
  rw [substituteDocument_eq hsel, substituteDocument_eq hsel', documentItem, documentItem, document,
    document, ownScope_of_scopes hown]
  simp [ownScope, environment, hscopes]

/-- A list of documents is filled document by document. -/
theorem substituteDocuments_itemwise (hsel : Selector.ofArgument r.selector = .ok selector)
    (ds : List Value) :
    Itemwise (fun d => (substituteDocument r d).outcome) ds .list
      (substituteDocuments r (.list ds)).outcome := by
  rw [itemwise_iff, substituteDocuments_list hsel, Traced.outcome_map, documentItems_outcome]
  simp only [substituteDocument_eq hsel]

/-- **A document is filled entry by entry.** What becomes of an entry is what `substitute` makes of
its value as a text template in the same scopes, and the first entry that fails is the failure of
the document. Without scopes this holds with the document as the only scope, and each document of a
list is filled as if it were alone. -/
theorem substituteDocument_entrywise (hsel : Selector.ofArgument r.selector = .ok selector) :
    (r.scopes ≠ [] → ∀ d,
      Itemwise (entryOutcome r) d (fun ess => .document ess.flatten)
        (substituteDocument r (.document d)).outcome) ∧
    (r.scopes = [] → ∀ d,
      substituteDocument r (.document d) =
        substituteDocument { r with scopes := [some d] } (.document d) ∧
      Itemwise (entryOutcome { r with scopes := [some d] }) d (fun ess => .document ess.flatten)
        (substituteDocument r (.document d)).outcome) ∧
    (∀ ds, Itemwise (fun d => (substituteDocument r d).outcome) ds .list
      (substituteDocuments r (.list ds)).outcome) ∧
    (substituteDocument r .null).outcome = .ok .null := by
  refine ⟨substituteDocument_itemwise hsel, fun hscopes d => ?_, substituteDocuments_itemwise hsel,
    ?_⟩
  · have hown := substituteDocument_ownScope hsel hscopes d
    have hsel' : Selector.ofArgument { r with scopes := [some d] }.selector = .ok selector := hsel
    refine ⟨hown, ?_⟩
    rw [hown]
    exact substituteDocument_itemwise hsel' (List.cons_ne_nil _ _) d
  · rw [substituteDocument_eq hsel]
    rfl

/-- With `recurse` the document inside is filled in the same scopes; the null entry goes. -/
theorem substituteDocument_entrywise_nested :
    let r : Request :=
      { scopes := [some [(.text "b", .text "1")]], options := { recurse := true } }
    Selector.ofArgument r.selector = .ok .all ∧ r.scopes ≠ [] ∧
      (substituteDocument r (.document [(.text "a", .text "<%b%>"), (.text "c", .null),
        (.text "d", .document [(.text "e", .text "%b%")])])).outcome =
        .ok (.document [(.text "a", .text "<1>"),
          (.text "d", .document [(.text "e", .text "1")])]) := by
  refine ⟨rfl, List.cons_ne_nil _ _, ?_⟩
  refine ((substituteDocument_entrywise rfl).1 (List.cons_ne_nil _ _) _).ok
    [[(.text "a", .text "<1>")], [], [(.text "d", .document [(.text "e", .text "1")])]] ?_
  exact .cons rfl (.cons rfl (.cons rfl .nil))

end Engine
end Stencil
