import Stencil.Proofs.Engine.Operation
import Stencil.Proofs.Template.Structure

/-!
# Keeping nulls and leaving them out

A document can be filled with its nulls kept or left out. The second way comes to the same as the
first with the nulls taken out of the result afterwards, and fails exactly if the first does, with
the same error.

**With `recurse`** nulls go at every depth that the filling enters (`deepPrune`): from a document,
from the documents inside it and from those in lists of documents. Which lists these are is read off
the *result*. That is sound because filling keeps the kind of every list (`value_like`). Null items
of a list stay, and so does all that a mixed list holds.

**Without `recurse`** only the entries at the top are looked at (`prune`).

Main result: `substituteDocument_nulls`.
-/

namespace Stencil

namespace Value

mutual

/-- Take the null entries out of a document and of all documents that a filling enters in it. -/
def deepPrune : Value → Value
  | .document es => .document (deepPruneEntries es)
  | .list vs =>
    match TemplateKind.ofItems vs with
    | .documentList => .list (deepPruneItems vs)
    | _ => .list vs
  | v => v

/-- Take the null entries out, at this depth and below. -/
def deepPruneEntries : Document → Document
  | [] => []
  | (k, v) :: es =>
    if v.isNull then deepPruneEntries es else (k, deepPrune v) :: deepPruneEntries es

/-- Take the null entries out of each document; null items stay. -/
def deepPruneItems : List Value → List Value
  | [] => []
  | v :: vs => deepPrune v :: deepPruneItems vs

end

/-- Take the null entries out of a document, but of no document inside it. -/
def prune : Value → Value
  | .document es => .document (es.filter fun e => !e.2.isNull)
  | v => v

theorem deepPrune_document (es : Document) :
    deepPrune (.document es) = .document (deepPruneEntries es) := by
  rw [deepPrune]

theorem deepPruneItems_document (es : Document) (vs : List Value) :
    deepPruneItems (.document es :: vs) = .document (deepPruneEntries es) :: deepPruneItems vs := by
  rw [deepPruneItems, deepPrune_document]

theorem deepPruneItems_null (vs : List Value) :
    deepPruneItems (.null :: vs) = .null :: deepPruneItems vs := by
  rw [deepPruneItems, deepPrune] <;> simp

theorem deepPrune_list_of_ne {vs : List Value} (h : TemplateKind.ofItems vs ≠ .documentList) :
    deepPrune (.list vs) = .list vs := by
  rw [deepPrune]
  split
  · contradiction
  · rfl

theorem deepPrune_documentList {vs : List Value} (h : TemplateKind.ofItems vs = .documentList) :
    deepPrune (.list vs) = .list (deepPruneItems vs) := by
  rw [deepPrune, h]

/-- The null inside the list of documents goes, the one inside the mixed list stays. -/
example :
    deepPrune (.document [(.text "all", .list [.document [(.text "n", .null)], .null]),
      (.text "mixed", .list [.document [(.text "n", .null)], .int 1])]) =
    .document [(.text "all", .list [.document [], .null]),
      (.text "mixed", .list [.document [(.text "n", .null)], .int 1])] := by
  rfl

@[simp] theorem isNull_deepPrune (v : Value) : v.deepPrune.isNull = v.isNull := by
  cases v with
  | list vs =>
    rw [deepPrune]
    split <;> rfl
  | document es =>
    rw [deepPrune]
    rfl
  | _ => rw [deepPrune] <;> simp

end Value

/-- Text and null hold nothing that could be taken out. -/
theorem LikeItem.deepPrune_eq {v w : Value} (h : LikeItem v w) : w.deepPrune = w := by
  have hw := h.isTextItem.2
  cases w with
  | null | text => rw [Value.deepPrune] <;> simp
  | _ => cases hw

namespace FillOptions

/-- The same options with nulls kept. -/
def keeping (o : FillOptions) : FillOptions := { o with includeNulls := true }

/-- The same options with nulls left out. -/
def leavingOut (o : FillOptions) : FillOptions := { o with includeNulls := false }

end FillOptions

namespace Fill

open TemplateKind Value

variable {o : FillOptions} {env : Environment}

/-! ## At every depth -/

/-- A result that pruning leaves alone may as well be pruned. -/
theorem map_eq_self {α : Type} {y : Except Failure α} {f : α → α}
    (h : ∀ a, y = .ok a → f a = a) : y.map f = y := by
  rcases y with e | a
  · rfl
  · exact congrArg Except.ok (h a rfl)

/-- Of the lists only those of documents are pruned. -/
theorem map_deepPrune_list {x : Filling (List Value)}
    (h : ∀ ws, x.outcome = .ok ws → ofItems ws ≠ .documentList) :
    (Value.list <$> x).outcome.map deepPrune = (Value.list <$> x).outcome := by
  refine map_eq_self fun w hw => ?_
  rw [Traced.outcome_map, map_eq_ok_iff] at hw
  obtain ⟨ws, hws, rfl⟩ := hw
  exact deepPrune_list_of_ne (h ws hws)

theorem entry?_keeping (k w : Value) : entry? o.keeping k w = [(k, w)] := by
  rw [ entry?, FillOptions.keeping, Bool.not_true, Bool.and_false]
  rfl

theorem entry?_leavingOut (k w : Value) :
    entry? o.leavingOut k w = if w.isNull then [] else [(k, w)] := by
  rw [ entry?, FillOptions.leavingOut, Bool.not_false, Bool.and_true]

/-- Leaving out a null entry at once or after the entries behind it makes no difference. -/
theorem entry?_append_deepPruneEntries (k w : Value) (es : Document) :
    entry? o.leavingOut k w.deepPrune ++ deepPruneEntries es =
      deepPruneEntries ( entry? o.keeping k w ++ es) := by
  rw [entry?_keeping, List.singleton_append, deepPruneEntries, entry?_leavingOut, isNull_deepPrune]
  cases w.isNull <;> rfl

mutual

theorem value_leavingOut (hr : o.recurse = true) (v : Value) :
    (value o.leavingOut env v).outcome = (value o.keeping env v).outcome.map deepPrune := by
  match v with
  | .text s =>
    rw [value, value]
    refine (map_eq_self fun w hw => ?_).symm
    exact (item_like (v := .text s) hw).deepPrune_eq
  | .list vs =>
    rw [value, value]
    rcases ofItems_cases vs with ⟨hk, -⟩ | ⟨hk, hvs⟩ | ⟨hk, hvs⟩ | hk
    · rw [hk]
      refine (map_deepPrune_list fun ws hws => ?_).symm
      rw [ofItems_of_likeItem (items_like hws)]
      decide
    · rw [hk]
      refine (map_deepPrune_list fun ws hws => ?_).symm
      rw [ofItems_of_likeRow (rows_like hvs hws), hk]
      decide
    · -- The documents in the result are pruned because the result is a list of documents too.
      rw [hk, if_pos (show o.leavingOut.recurse = true from hr),
        if_pos (show o.keeping.recurse = true from hr), Traced.outcome_map, Traced.outcome_map,
        documents_leavingOut hr vs hvs]
      rcases hws : (documents o.keeping env vs).outcome with e | ws
      · rfl
      · have hkind := (ofItems_of_likeDocument (documents_like vs hvs hws)).trans hk
        exact congrArg Except.ok (deepPrune_documentList hkind).symm
    · rw [hk]
      refine congrArg Except.ok (deepPrune_list_of_ne ?_).symm
      rw [hk]
      decide
  | .document es =>
    rw [value, value, if_pos (show o.leavingOut.recurse = true from hr),
      if_pos (show o.keeping.recurse = true from hr), Traced.outcome_map, Traced.outcome_map,
      entries_leavingOut hr es]
    rcases (entries o.keeping env es).outcome with e | fs
    · rfl
    · exact congrArg Except.ok (deepPrune_document fs).symm
  | .null | .bool _ | .int _ | .float _ | .decimal _ | .tuple _ | .set _ | .bytes _ | .date _
  | .moment _ =>
    simp only [value]
    rfl

theorem entries_leavingOut (hr : o.recurse = true) (es : Document) :
    (entries o.leavingOut env es).outcome =
      (entries o.keeping env es).outcome.map deepPruneEntries := by
  match es with
  | [] =>
    rw [entries, entries]
    rfl
  | (k, v) :: es =>
    rw [entries, entries, Traced.outcome_both, Traced.outcome_both, value_leavingOut hr v,
      entries_leavingOut hr es]
    rcases (value o.keeping env v).outcome with e | w
    · rfl
    · rcases (entries o.keeping env es).outcome with e | rest
      · rfl
      · exact congrArg Except.ok (entry?_append_deepPruneEntries k w rest)

theorem documents_leavingOut (hr : o.recurse = true) (vs : List Value)
    (hvs : vs.all isDocumentItem = true) :
    (documents o.leavingOut env vs).outcome =
      (documents o.keeping env vs).outcome.map deepPruneItems := by
  match vs with
  | [] =>
    rw [documents, documents]
    rfl
  | v :: vs =>
    rw [List.all_cons, Bool.and_eq_true] at hvs
    cases v with
    | document es =>
      rw [documents, documents, Traced.outcome_both, Traced.outcome_both,
        entries_leavingOut hr es, documents_leavingOut hr vs hvs.2]
      rcases (entries o.keeping env es).outcome with e | fs
      · rfl
      · rcases (documents o.keeping env vs).outcome with e | ws
        · rfl
        · exact congrArg Except.ok (deepPruneItems_document fs ws).symm
    | null =>
      simp only [documents]
      rw [Traced.outcome_bind, Traced.outcome_bind, documents_leavingOut hr vs hvs.2]
      rcases (documents o.keeping env vs).outcome with e | ws
      · rfl
      · exact congrArg Except.ok (deepPruneItems_null ws).symm
    | _ => cases hvs.1

end

/-! ## At the top only -/

/-- What is not entered is filled alike in both ways. -/
theorem value_leavingOut_of_not_recurse (hr : o.recurse = false) (v : Value) :
    value o.leavingOut env v = value o.keeping env v := by
  cases v with
  | list vs =>
    rw [value, value]
    rcases ofItems_cases vs with ⟨hk, -⟩ | ⟨hk, -⟩ | ⟨hk, -⟩ | hk
    · rw [hk]
      rfl
    · rw [hk]
      rfl
    · rw [hk, FillOptions.leavingOut, FillOptions.keeping, hr]
      rfl
    · rw [hk]
  | document es =>
    rw [value, value, FillOptions.leavingOut, FillOptions.keeping, hr]
    rfl
  | text s =>
    rw [value, value]
    rfl
  | _ => simp only [value]

theorem entries_leavingOut_of_not_recurse (hr : o.recurse = false) (es : Document) :
    (entries o.leavingOut env es).outcome =
      (entries o.keeping env es).outcome.map (List.filter fun e => !e.2.isNull) := by
  induction es with
  | nil =>
    rw [entries, entries]
    rfl
  | cons e es ih =>
    obtain ⟨k, v⟩ := e
    rw [entries, entries, Traced.outcome_both, Traced.outcome_both, ih,
      value_leavingOut_of_not_recurse hr]
    rcases (value o.keeping env v).outcome with e | w
    · rfl
    · rcases (entries o.keeping env es).outcome with e | rest
      · rfl
      · refine congrArg Except.ok ?_
        rw [entry?_keeping, List.singleton_append, List.filter_cons, entry?_leavingOut]
        cases w.isNull <;> rfl

end Fill

namespace Engine

open Fill Value

theorem documentItem_leavingOut {o : FillOptions} {env : Environment} (hr : o.recurse = true)
    (d : Document) :
    (documentItem o.leavingOut env (.document d)).outcome =
      (documentItem o.keeping env (.document d)).outcome.map deepPrune := by
  rw [documentItem, documentItem, Fill.document, Fill.document, Traced.outcome_map,
    Traced.outcome_map, entries_leavingOut hr]
  rcases (entries o.keeping (ownScope env d) d).outcome with e | es
  · rfl
  · exact congrArg Except.ok (deepPrune_document es).symm

theorem documentItem_leavingOut_of_not_recurse {o : FillOptions} {env : Environment}
    (hr : o.recurse = false) (d : Document) :
    (documentItem o.leavingOut env (.document d)).outcome =
      (documentItem o.keeping env (.document d)).outcome.map prune := by
  rw [documentItem, documentItem, Fill.document, Fill.document, Traced.outcome_map,
    Traced.outcome_map, entries_leavingOut_of_not_recurse hr]
  rcases (entries o.keeping (ownScope env d) d).outcome with e | es <;> rfl

/-- **The two ways with nulls agree.** Leaving nulls out fails exactly if keeping them does, with
the same error, and otherwise gives the same result without its null entries: with `recurse` those
at every depth that is filled, without it those at the top. -/
theorem substituteDocument_nulls (r : Request) (d : Document) :
    let run (recurse includeNulls : Bool) : Except Failure Value :=
      (substituteDocument { r with options := { r.options with recurse, includeNulls } }
        (.document d)).outcome
    run true false = (run true true).map deepPrune ∧
      run false false = (run false true).map prune := by
  intro run
  have hrun : ∀ recurse includeNulls, run recurse includeNulls =
      (naming (Selector.ofArgument r.selector) >>= fun selector =>
        documentItem { r.options with recurse, includeNulls } (environment r selector)
          (.document d)).outcome := fun _ _ => rfl
  rw [hrun, hrun, hrun, hrun]
  rcases Selector.ofArgument r.selector with e | selector
  · exact ⟨rfl, rfl⟩
  · rw [naming_ok_bind, naming_ok_bind, naming_ok_bind, naming_ok_bind]
    exact ⟨documentItem_leavingOut (o := { r.options with recurse := true }) rfl d,
      documentItem_leavingOut_of_not_recurse (o := { r.options with recurse := false }) rfl d⟩

end Engine
end Stencil
