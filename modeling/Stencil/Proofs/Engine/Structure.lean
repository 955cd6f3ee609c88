import Stencil.Proofs.Engine.Operation
import Stencil.Proofs.Template.Structure

/-!
# Results are built like their templates

A filled document has the keys of the template in their order, all of them if nulls are kept, and a
filled list is a list of the same kind. Below the top the same holds at every depth that the filling
enters.

Main result: `substitute_structure`.
-/

namespace Stencil

open TemplateKind

/-- The second items may stand for the first ones in a list that is filled as a template. -/
def LikeItems (o : FillOptions) (vs ws : List Value) : Prop :=
  match ofItems vs with
  | .list => List.Forall₂ LikeItem vs ws
  | .table => List.Forall₂ LikeRow vs ws
  | .documentList => List.Forall₂ (LikeDocument o) vs ws
  | _ => ws = vs

namespace Engine

variable {r : Request}

theorem substituteDocument_like {d : Document} {w : Value}
    (h : (substituteDocument r (.document d)).outcome = .ok w) :
    ∃ es, w = .document es ∧ LikeEntries r.options d es := by
  obtain ⟨selector, -, h⟩ := naming_bind_eq_ok_iff.1 h
  have hlike := Fill.documentItem_like h
  cases hlike with
  | document hes => exact ⟨_, rfl, hes⟩

theorem substituteList_like (hs : Shape.ofArgument r.shape = .ok .string) {vs : List Value}
    {w : Value} (h : (substituteList r (.list vs)).outcome = .ok w) :
    ∃ ws, w = .list ws ∧ List.Forall₂ LikeItem vs ws := by
  rw [substituteList, hs, naming_ok_bind] at h
  obtain ⟨selector, -, h⟩ := naming_bind_eq_ok_iff.1 h
  obtain ⟨ws, hws, rfl⟩ := (map_eq_ok_iff _).1 ((Traced.outcome_map _ _).symm.trans h)
  exact ⟨ws, rfl, Fill.items_like hws⟩

theorem substituteTable_like (hs : Shape.ofArgument r.shape = .ok .string) {vs : List Value}
    (hvs : vs.all isRow = true) {w : Value}
    (h : (substituteTable r (.list vs)).outcome = .ok w) :
    ∃ ws, w = .list ws ∧ List.Forall₂ LikeRow vs ws := by
  rw [substituteTable, hs, naming_ok_bind] at h
  obtain ⟨selector, -, h⟩ := naming_bind_eq_ok_iff.1 h
  obtain ⟨ws, hws, rfl⟩ := (map_eq_ok_iff _).1 ((Traced.outcome_map _ _).symm.trans h)
  exact ⟨ws, rfl, Fill.rows_like hvs hws⟩

theorem substituteDocuments_like {vs : List Value} {w : Value}
    (h : (substituteDocuments r (.list vs)).outcome = .ok w) :
    ∃ ws, w = .list ws ∧ List.Forall₂ (LikeDocument r.options) vs ws := by
  obtain ⟨selector, -, h⟩ := naming_bind_eq_ok_iff.1 h
  obtain ⟨ws, hws, rfl⟩ := (map_eq_ok_iff _).1 ((Traced.outcome_map _ _).symm.trans h)
  exact ⟨ws, rfl, Fill.documentItems_like hws⟩

/-- A list that is filled as text keeps its kind and the places of its items. -/
theorem substitute_list_like (hs : Shape.ofArgument r.shape = .ok .string) {vs : List Value}
    {w : Value} (h : (substitute r (.list vs)).outcome = .ok w) :
    ∃ ws, w = .list ws ∧ ofItems ws = ofItems vs ∧ LikeItems r.options vs ws := by
  rw [substitute_outcome (by simp), operationOf, ofValue] at h
  unfold LikeItems
  rcases ofItems_cases vs with ⟨hk, -⟩ | ⟨hk, hvs⟩ | ⟨hk, -⟩ | hk <;> rw [hk] at h ⊢
  · obtain ⟨ws, rfl, hws⟩ := substituteList_like hs h
    exact ⟨ws, rfl, ofItems_of_likeItem hws, hws⟩
  · obtain ⟨ws, rfl, hws⟩ := substituteTable_like hs hvs h
    exact ⟨ws, rfl, (ofItems_of_likeRow hws).trans hk, hws⟩
  · obtain ⟨ws, rfl, hws⟩ := substituteDocuments_like h
    exact ⟨ws, rfl, (ofItems_of_likeDocument hws).trans hk, hws⟩
  · cases h
    exact ⟨vs, rfl, hk, rfl⟩

/-- **Results are built like their templates.** The keys of a filled document are those of the
template in their order, without some if nulls are left out; every value has the structure of the
value it stands for, and none is null unless nulls are kept. A list that is filled as text keeps its
kind, its length and its nulls. -/
theorem substitute_structure (r : Request) :
    (∀ d w, (substituteDocument r (.document d)).outcome = .ok w →
      ∃ es, w = .document es ∧ LikeEntries r.options d es ∧
        (Document.keys es).Sublist (Document.keys d) ∧
        (r.options.includeNulls = true → Document.keys es = Document.keys d) ∧
        ∀ e ∈ es, (e.2 = .null → r.options.includeNulls = true) ∧
          ∃ v, (e.1, v) ∈ d ∧ LikeValue r.options v e.2 ∧
            (e.2 ≠ .null → ofValue e.2 = ofValue v)) ∧
    (Shape.ofArgument r.shape = .ok .string → ∀ vs w,
      (substitute r (.list vs)).outcome = .ok w →
        ∃ ws, w = .list ws ∧ ofItems ws = ofItems vs ∧ LikeItems r.options vs ws) := by
  refine ⟨fun d w h => ?_, fun hs vs w h => substitute_list_like hs h⟩
  obtain ⟨es, rfl, hes⟩ := substituteDocument_like h
  refine ⟨es, rfl, hes, hes.keys_sublist, fun ho => hes.keys_eq ho, fun e he => ?_⟩
  obtain ⟨hnull, v, hmem, hlike⟩ := hes.of_mem he
  exact ⟨hnull, v, hmem, hlike, hlike.kind_eq⟩

/-- The text that becomes null goes at both levels; nulls inside lists and the mixed list stay. -/
theorem substitute_structure_nested :
    let r : Request :=
      { scopes := [some [(.text "a", .text "x"), (.text "n", .null)]],
        options := { recurse := true } }
    let d : Document := [(.text "gone", .text "%n%"),
      (.text "list", .list [.text "%a%", .text "%n%"]),
      (.text "table", .list [.list [.text "%a%"], .null]),
      (.text "inner", .document [(.text "k", .text "%a%"), (.text "gone", .text "%n%")]),
      (.text "mixed", .list [.text "%a%", .int 1])]
    let es : Document := [(.text "list", .list [.text "x", .null]),
      (.text "table", .list [.list [.text "x"], .null]),
      (.text "inner", .document [(.text "k", .text "x")]),
      (.text "mixed", .list [.text "%a%", .int 1])]
    LikeEntries r.options d es ∧ (Document.keys es).Sublist (Document.keys d) ∧
      LikeItems r.options [.document d, .null] [.document es, .null] := by
  intro r d es
  obtain ⟨hdocument, hlist⟩ := substitute_structure r
  obtain ⟨_, ⟨⟩, hes, hkeys, -⟩ := hdocument d (.document es) rfl
  obtain ⟨_, ⟨⟩, -, hitems⟩ := hlist rfl [.document d, .null] (.list [.document es, .null]) rfl
  exact ⟨hes, hkeys, hitems⟩

end Engine
end Stencil
