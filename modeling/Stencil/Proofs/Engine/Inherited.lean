import Stencil.Proofs.Engine.Structure

/-!
# What results inherit from templates

A property is *inherited* (`Inherited`) if null and all texts have it, a list has it through its
items, and a document through its values and a property of its keys. Filling puts texts and nulls in
the place of texts and leaves entries out, so a result has every inherited property of its template
(`Engine.substitute_inherits`).
-/

namespace Stencil

open TemplateKind

/-- A property that a value has through its parts, with what it takes of keys. -/
structure Inherited (P K : Value → Prop) : Prop where
  null : P .null
  text (s : String) : P (.text s)
  list (vs : List Value) : P (.list vs) ↔ ∀ v ∈ vs, P v
  document (es : Document) : P (.document es) ↔ ∀ e ∈ es, K e.1 ∧ P e.2

namespace Inherited

variable {P K : Value → Prop} {o : FillOptions} {v w : Value} {vs ws : List Value}

/-! ## Texts and rows -/

theorem of_isTextItem (hP : Inherited P K) (h : isTextItem w = true) : P w := by
  cases w with
  | null => exact hP.null
  | text s => exact hP.text s
  | _ => cases h

theorem of_likeItem (hP : Inherited P K) (h : LikeItem v w) : P w :=
  hP.of_isTextItem h.isTextItem.2

theorem of_likeItems (hP : Inherited P K) (h : List.Forall₂ LikeItem vs ws) : ∀ w ∈ ws, P w := by
  intro w hw
  exact hP.of_isTextItem (List.all_eq_true.1 (all_isTextItem_of_forall₂ h).2 w hw)

theorem of_likeRow (hP : Inherited P K) (h : LikeRow v w) : P w := by
  cases h with
  | null => exact hP.null
  | row hitems => exact (hP.list _).2 (hP.of_likeItems hitems)

theorem of_likeRows (hP : Inherited P K) (h : List.Forall₂ LikeRow vs ws) : ∀ w ∈ ws, P w := by
  induction h with
  | nil => exact List.forall_mem_nil _
  | cons hrow _ ih => exact List.forall_mem_cons.2 ⟨hP.of_likeRow hrow, ih⟩

/-! ## Values and documents -/

mutual

theorem of_likeValue (hP : Inherited P K) (v : Value) {w : Value} (h : LikeValue o v w)
    (hv : P v) : P w := by
  match v, h with
  | _, .text hitem => exact hP.of_likeItem hitem
  | _, .list _ _ hitems => exact (hP.list _).2 (hP.of_likeItems hitems)
  | _, .table _ _ hrows => exact (hP.list _).2 (hP.of_likeRows hrows)
  | .list vs, .documentList _ _ _ hdocuments =>
    exact (hP.list _).2 (of_likeDocuments hP vs hdocuments ((hP.list vs).1 hv))
  | .document es, .document _ hes =>
    exact (hP.document _).2 (of_likeEntries hP es hes ((hP.document es).1 hv))
  | _, .untouched _ => exact hv

theorem of_likeEntries (hP : Inherited P K) (es : Document) {fs : Document}
    (h : LikeEntries o es fs) (hes : ∀ e ∈ es, K e.1 ∧ P e.2) : ∀ e ∈ fs, K e.1 ∧ P e.2 := by
  match es, h with
  | [], .nil => exact hes
  | (k, v) :: es, .keep hlike _ h =>
    obtain ⟨⟨hk, hv⟩, hes⟩ := List.forall_mem_cons.1 hes
    exact List.forall_mem_cons.2 ⟨⟨hk, of_likeValue hP v hlike hv⟩, of_likeEntries hP es h hes⟩
  | _ :: es, .leaveOut _ _ h => exact of_likeEntries hP es h (List.forall_mem_cons.1 hes).2

theorem of_likeDocuments (hP : Inherited P K) (vs : List Value) {ws : List Value}
    (h : List.Forall₂ (LikeDocument o) vs ws) (hvs : ∀ v ∈ vs, P v) : ∀ w ∈ ws, P w := by
  match vs, h with
  | [], .nil => exact hvs
  | .null :: vs, .cons .null h =>
    exact List.forall_mem_cons.2 ⟨hP.null, of_likeDocuments hP vs h (List.forall_mem_cons.1 hvs).2⟩
  | .document es :: vs, .cons (.document hes) h =>
    obtain ⟨hv, hvs⟩ := List.forall_mem_cons.1 hvs
    exact List.forall_mem_cons.2
      ⟨(hP.document _).2 (of_likeEntries hP es hes ((hP.document es).1 hv)),
        of_likeDocuments hP vs h hvs⟩

end

end Inherited

/-! ## Templates -/

namespace Engine

variable {r : Request} {v w : Value}

theorem substituteText_like (hs : Shape.ofArgument r.shape = .ok .string)
    (h : (substituteText r v).outcome = .ok w) : LikeItem v w := by
  rw [substituteText, hs, naming_ok_bind] at h
  obtain ⟨selector, -, h⟩ := naming_bind_eq_ok_iff.1 h
  exact Fill.item_like h

/-- **A result has the inherited properties of its template**, if texts are filled as texts. -/
theorem substitute_inherits {P K : Value → Prop} (hP : Inherited P K)
    (hs : Shape.ofArgument r.shape = .ok .string) (h : (substitute r v).outcome = .ok w)
    (hv : P v) : P w := by
  cases v with
  | null =>
    cases h
    exact hv
  | text s =>
    rw [substitute_outcome (by simp)] at h
    exact hP.of_likeItem (substituteText_like hs h)
  | list vs =>
    obtain ⟨ws, rfl, -, hlike⟩ := substitute_list_like hs h
    rw [hP.list] at hv ⊢
    unfold LikeItems at hlike
    split at hlike
    · exact hP.of_likeItems hlike
    · exact hP.of_likeRows hlike
    · exact hP.of_likeDocuments vs hlike hv
    · subst hlike
      exact hv
  | document es =>
    rw [substitute_outcome (by simp)] at h
    obtain ⟨fs, rfl, hlike⟩ := substituteDocument_like h
    exact (hP.document _).2 (hP.of_likeEntries es hlike ((hP.document es).1 hv))
  | _ =>
    rw [substitute_outcome (by simp), operationOf_other rfl] at h
    cases h
    exact hv

end Engine
end Stencil
