import Stencil.Proofs.Template.Cells

/-!
# Filling keeps the structure of a template

What stands for a value after filling is built like the value (`LikeValue`): text stays text or
becomes null, the items of a list stay in their places, and the entries of a document stay in their
order. Only entries whose value is null after filling may be missing, and only if the options leave
nulls out.

**Kinds.** A list stays a list of its kind. The kinds overlap, since null may stand for any item, so
this is not a matter of the items one by one: a table keeps a row that is no text, a list of
documents keeps a document (`ofItems_eq_of_forall₂`).

**Depth.** The relation follows the filling. What the filling does not enter, such as a mixed list
or, without `recurse`, a document inside a document, stays as it is.

Main results: `value_like`, `entries_like` and `documentItems_like`.
-/

namespace Stencil

open TemplateKind

/-! ## Structure -/

/-- Text stays text or becomes null, and null stays. -/
inductive LikeItem : Value → Value → Prop
  | null : LikeItem .null .null
  | text {s : String} {w : Value} (h : isTextItem w = true) : LikeItem (.text s) w

/-- A row keeps its items in their places, and null stays. -/
inductive LikeRow : Value → Value → Prop
  | null : LikeRow .null .null
  | row {vs ws : List Value} (h : List.Forall₂ LikeItem vs ws) : LikeRow (.list vs) (.list ws)

/-- The filling does not look into the value. -/
def Untouched (o : FillOptions) (v : Value) : Prop :=
  ofValue v = .other ∨ (ofValue v = .document ∨ ofValue v = .documentList) ∧ o.recurse = false

mutual

/-- The second value may stand for the first one after filling. -/
inductive LikeValue (o : FillOptions) : Value → Value → Prop
  | text {s : String} {w : Value} (h : LikeItem (.text s) w) : LikeValue o (.text s) w
  | list {vs ws : List Value} (hv : ofItems vs = .list) (hw : ofItems ws = .list)
      (h : List.Forall₂ LikeItem vs ws) : LikeValue o (.list vs) (.list ws)
  | table {vs ws : List Value} (hv : ofItems vs = .table) (hw : ofItems ws = .table)
      (h : List.Forall₂ LikeRow vs ws) : LikeValue o (.list vs) (.list ws)
  | documentList {vs ws : List Value} (hr : o.recurse = true) (hv : ofItems vs = .documentList)
      (hw : ofItems ws = .documentList) (h : List.Forall₂ (LikeDocument o) vs ws) :
      LikeValue o (.list vs) (.list ws)
  | document {es fs : Document} (hr : o.recurse = true) (h : LikeEntries o es fs) :
      LikeValue o (.document es) (.document fs)
  | untouched {v : Value} (h : Untouched o v) : LikeValue o v v

/-- A document keeps its entries in order, and null stays. -/
inductive LikeDocument (o : FillOptions) : Value → Value → Prop
  | null : LikeDocument o .null .null
  | document {es fs : Document} (h : LikeEntries o es fs) :
      LikeDocument o (.document es) (.document fs)

/-- The second entries may stand for the first ones after filling. -/
inductive LikeEntries (o : FillOptions) : Document → Document → Prop
  | nil : LikeEntries o [] []
  | keep {k v w : Value} {es fs : Document} (hv : LikeValue o v w)
      (hn : w = .null → o.includeNulls = true) (h : LikeEntries o es fs) :
      LikeEntries o ((k, v) :: es) ((k, w) :: fs)
  | leaveOut {k v : Value} {es fs : Document} (hv : LikeValue o v .null)
      (hn : o.includeNulls = false) (h : LikeEntries o es fs) : LikeEntries o ((k, v) :: es) fs

end

/-! ## Keys and kinds -/

section Laws

variable {o : FillOptions} {es fs : Document} {v w : Value} {vs ws : List Value}

theorem LikeEntries.keys_sublist (h : LikeEntries o es fs) :
    (Document.keys fs).Sublist (Document.keys es) := by
  induction es generalizing fs with
  | nil =>
    cases h
    exact List.Sublist.refl _
  | cons e es ih =>
    cases h with
    | keep _ _ h => exact (ih h).cons_cons _
    | leaveOut _ _ h => exact (ih h).cons _

theorem LikeEntries.keys_eq (ho : o.includeNulls = true) (h : LikeEntries o es fs) :
    Document.keys fs = Document.keys es := by
  induction es generalizing fs with
  | nil =>
    cases h
    rfl
  | cons e es ih =>
    cases h with
    | keep _ _ h => exact congrArg (List.cons _) (ih h)
    | leaveOut _ hn _ =>
      rw [ho] at hn
      cases hn

/-- Every entry that is there after filling stands for one with the same key, and it is null only if
nulls are kept. -/
theorem LikeEntries.of_mem (h : LikeEntries o es fs) {e : Value × Value} (he : e ∈ fs) :
    (e.2 = .null → o.includeNulls = true) ∧ ∃ v, (e.1, v) ∈ es ∧ LikeValue o v e.2 := by
  induction es generalizing fs with
  | nil =>
    cases h
    cases he
  | cons e' es ih =>
    cases h with
    | keep hv hn h =>
      rcases List.mem_cons.1 he with rfl | he
      · exact ⟨hn, _, List.mem_cons_self, hv⟩
      · obtain ⟨hnull, v, hmem, hlike⟩ := ih h he
        exact ⟨hnull, v, List.mem_cons_of_mem _ hmem, hlike⟩
    | leaveOut _ _ h =>
      obtain ⟨hnull, v, hmem, hlike⟩ := ih h he
      exact ⟨hnull, v, List.mem_cons_of_mem _ hmem, hlike⟩

theorem all_eq_of_forall₂ {p : Value → Bool} (h : List.Forall₂ (fun v w => p w = p v) vs ws) :
    ws.all p = vs.all p := by
  induction h with
  | nil => rfl
  | cons hp _ ih => rw [List.all_cons, List.all_cons, hp, ih]

/-- The kind of a list depends only on what its items can be items of. -/
theorem ofItems_eq_of_forall₂
    (h : List.Forall₂ (fun v w => isTextItem w = isTextItem v ∧ isRow w = isRow v ∧
      isDocumentItem w = isDocumentItem v) vs ws) : ofItems ws = ofItems vs := by
  rw [ofItems, ofItems, all_eq_of_forall₂ (h.imp fun _ _ h => h.1),
    all_eq_of_forall₂ (h.imp fun _ _ h => h.2.1), all_eq_of_forall₂ (h.imp fun _ _ h => h.2.2)]

theorem LikeItem.isTextItem (h : LikeItem v w) :
    isTextItem v = true ∧ isTextItem w = true := by
  cases h with
  | null => exact ⟨rfl, rfl⟩
  | text hw => exact ⟨rfl, hw⟩

theorem all_isTextItem_of_forall₂ (h : List.Forall₂ LikeItem vs ws) :
    vs.all TemplateKind.isTextItem = true ∧ ws.all TemplateKind.isTextItem = true := by
  induction h with
  | nil => exact ⟨rfl, rfl⟩
  | cons hi _ ih =>
    obtain ⟨hv, hw⟩ := hi.isTextItem
    rw [List.all_cons, List.all_cons, hv, hw]
    exact ih

theorem ofItems_of_likeItem (h : List.Forall₂ LikeItem vs ws) : ofItems ws = .list :=
  if_pos (all_isTextItem_of_forall₂ h).2

theorem ofItems_of_likeRow (h : List.Forall₂ LikeRow vs ws) : ofItems ws = ofItems vs := by
  refine ofItems_eq_of_forall₂ (h.imp fun v w hrow => ?_)
  cases hrow with
  | null => exact ⟨rfl, rfl, rfl⟩
  | row hitems =>
    obtain ⟨hv, hw⟩ := all_isTextItem_of_forall₂ hitems
    exact ⟨rfl, hw.trans hv.symm, rfl⟩

theorem ofItems_of_likeDocument (h : List.Forall₂ (LikeDocument o) vs ws) :
    ofItems ws = ofItems vs := by
  refine ofItems_eq_of_forall₂ (h.imp fun v w hdocument => ?_)
  cases hdocument <;> exact ⟨rfl, rfl, rfl⟩

/-- A value keeps its kind unless it becomes null. -/
theorem LikeValue.kind_eq (h : LikeValue o v w) (hw : w ≠ .null) : ofValue w = ofValue v := by
  cases h with
  | text h =>
    cases h with
    | text ht =>
      cases w with
      | null => exact absurd rfl hw
      | text t => rfl
      | _ => cases ht
  | list hv hw' _ | table hv hw' _ | documentList _ hv hw' _ => exact hw'.trans hv.symm
  | document => rfl
  | untouched => rfl

end Laws

namespace Fill

variable {o : FillOptions} {env : Environment} {vs ws : List Value}

/-! ## Texts, lists and tables -/

theorem item_like {default v w : Value}
    (h : (item env .string default v).outcome = .ok w) : LikeItem v w := by
  cases v with
  | null =>
    cases h
    exact .null
  | text s =>
    rcases text_fits h with rfl | ⟨t, rfl⟩
    · exact .text rfl
    · exact .text rfl
  | _ => cases h

theorem items_like {default : Value}
    (h : (items env .string default vs).outcome = .ok ws) : List.Forall₂ LikeItem vs ws := by
  rw [items_eq_mapM, Traced.outcome_mapM, mapM_eq_ok_iff] at h
  exact h.imp fun _ _ => item_like

theorem row_like {default v w : Value} (hv : isRow v = true)
    (h : (row env .string default v).outcome = .ok w) : LikeRow v w := by
  cases v with
  | null =>
    cases h
    exact .null
  | list vs =>
    obtain ⟨ws, hws, rfl⟩ := (map_eq_ok_iff _).1 ((Traced.outcome_map _ _).symm.trans h)
    exact .row (items_like hws)
  | _ => cases hv

theorem rows_like {default : Value} (hv : vs.all isRow = true)
    (h : (rows env .string default vs).outcome = .ok ws) : List.Forall₂ LikeRow vs ws := by
  rw [rows_eq_mapM, Traced.outcome_mapM, mapM_eq_ok_iff] at h
  have hrows := (List.forall₂_and_left vs ws).2 ⟨List.all_eq_true.1 hv, h⟩
  exact hrows.imp fun _ _ hrow => row_like hrow.1 hrow.2

/-! ## Documents -/

/-- An entry is kept with its filled value, or left out because that is null. -/
theorem entries_cons_like {k v w : Value} {es fs : Document} (hv : LikeValue o v w)
    (hes : LikeEntries o es fs) : LikeEntries o ((k, v) :: es) ( entry? o k w ++ fs) := by
  by_cases hw : w = .null
  · subst hw
    cases ho : o.includeNulls with
    | false =>
      rw [ entry?, ho]
      exact .leaveOut hv ho hes
    | true =>
      rw [ entry?, ho]
      exact .keep hv (fun _ => ho) hes
  · have hnull : w.isNull = false := Bool.eq_false_iff.2 fun h => hw (Value.isNull_iff.1 h)
    rw [ entry?, hnull]
    exact .keep hv (fun h => absurd h hw) hes

mutual

theorem value_like (v : Value) {w : Value} (h : (value o env v).outcome = .ok w) :
    LikeValue o v w := by
  match v with
  | .text s =>
    rw [value] at h
    exact .text (item_like (v := .text s) h)
  | .list vs =>
    rw [value] at h
    rcases ofItems_cases vs with ⟨hk, -⟩ | ⟨hk, hvs⟩ | ⟨hk, hvs⟩ | hk
    · rw [hk, Traced.outcome_map, map_eq_ok_iff] at h
      obtain ⟨ws, hws, rfl⟩ := h
      have hitems := items_like hws
      exact .list hk (ofItems_of_likeItem hitems) hitems
    · rw [hk, Traced.outcome_map, map_eq_ok_iff] at h
      obtain ⟨ws, hws, rfl⟩ := h
      have hrows := rows_like hvs hws
      exact .table hk ((ofItems_of_likeRow hrows).trans hk) hrows
    · rw [hk] at h
      cases hr : o.recurse with
      | false =>
        rw [hr] at h
        cases h
        exact .untouched (Or.inr ⟨Or.inr hk, hr⟩)
      | true =>
        rw [hr, if_pos rfl, Traced.outcome_map, map_eq_ok_iff] at h
        obtain ⟨ws, hws, rfl⟩ := h
        have hdocuments := documents_like vs hvs hws
        exact .documentList hr hk ((ofItems_of_likeDocument hdocuments).trans hk) hdocuments
    · rw [hk] at h
      cases h
      exact .untouched (Or.inl hk)
  | .document es =>
    rw [value] at h
    cases hr : o.recurse with
    | false =>
      rw [hr] at h
      cases h
      exact .untouched (Or.inr ⟨Or.inl rfl, hr⟩)
    | true =>
      rw [hr, if_pos rfl, Traced.outcome_map, map_eq_ok_iff] at h
      obtain ⟨fs, hfs, rfl⟩ := h
      exact .document hr (entries_like es hfs)
  | .null | .bool _ | .int _ | .float _ | .decimal _ | .tuple _ | .set _ | .bytes _ | .date _
  | .moment _ =>
    simp only [value] at h
    cases h
    exact .untouched (Or.inl rfl)

theorem entries_like (es : Document) {fs : Document}
    (h : (entries o env es).outcome = .ok fs) : LikeEntries o es fs := by
  match es with
  | [] =>
    rw [entries] at h
    cases h
    exact .nil
  | (k, v) :: es =>
    rw [entries, Traced.outcome_both] at h
    obtain ⟨w, hw, h⟩ := bind_eq_ok_iff.1 h
    obtain ⟨rest, hrest, rfl⟩ := (map_eq_ok_iff _).1 h
    exact entries_cons_like (value_like v hw) (entries_like es hrest)

theorem documents_like (vs : List Value) (hvs : vs.all isDocumentItem = true) {ws : List Value}
    (h : (documents o env vs).outcome = .ok ws) : List.Forall₂ (LikeDocument o) vs ws := by
  match vs with
  | [] =>
    rw [documents] at h
    cases h
    exact .nil
  | v :: vs =>
    rw [List.all_cons, Bool.and_eq_true] at hvs
    cases v with
    | document es =>
      rw [documents, Traced.outcome_both] at h
      obtain ⟨fs, hfs, h⟩ := bind_eq_ok_iff.1 h
      obtain ⟨rest, hrest, rfl⟩ := (map_eq_ok_iff _).1 h
      exact .cons (.document (entries_like es hfs)) (documents_like vs hvs.2 hrest)
    | null =>
      simp only [documents] at h
      rw [Traced.outcome_bind] at h
      obtain ⟨rest, hrest, h⟩ := bind_eq_ok_iff.1 h
      cases h
      exact .cons .null (documents_like vs hvs.2 hrest)
    | _ => cases hvs.1

end

theorem documentItem_like {v w : Value} (h : (documentItem o env v).outcome = .ok w) :
    LikeDocument o v w := by
  cases v with
  | null =>
    cases h
    exact .null
  | document es =>
    rw [documentItem, document, Traced.outcome_map, map_eq_ok_iff] at h
    obtain ⟨fs, hfs, rfl⟩ := h
    exact .document (entries_like es hfs)
  | _ => cases h

theorem documentItems_like (h : (documentItems o env vs).outcome = .ok ws) :
    List.Forall₂ (LikeDocument o) vs ws := by
  rw [documentItems_eq_mapM, Traced.outcome_mapM, mapM_eq_ok_iff] at h
  exact h.imp fun _ _ => documentItem_like

end Fill
end Stencil
