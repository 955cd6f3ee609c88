import Stencil.Proofs.Template.Cells
import Stencil.Proofs.Template.Occurrence

/-!
# Two fillings that agree at every placeholder

How a template comes out depends on the scopes and on the default only through what becomes of its
placeholders. Two ways to fill it in which every placeholder has the same outcome end with the same
result or with the same error.

**The argument.** Agreement on all occurrences of a template (`Agree`) is carried through the
filling. The occurrences of a part are among those of the whole, so each function of the filling
passes the assumption on to the parts. At a text it says all that is needed.

Main results: `entries_agree` and `documentItems_agree`.
-/

namespace Stencil

/-- What becomes of some placeholders is the same in two environments and with two defaults. -/
def Agree (env env' : Environment) (default default' : Value) (os : List Occurrence) : Prop :=
  ∀ o ∈ os, o.outcome env default = o.outcome env' default'

namespace Agree

variable {env env' : Environment} {default default' : Value} {os os' : List Occurrence}

theorem left (h : Agree env env' default default' (os ++ os')) :
    Agree env env' default default' os :=
  fun o ho => h o (List.mem_append_left _ ho)

theorem right (h : Agree env env' default default' (os ++ os')) :
    Agree env env' default default' os' :=
  fun o ho => h o (List.mem_append_right _ ho)

theorem of_flatMap {f : Value → List Occurrence} {vs : List Value}
    (h : Agree env env' default default' (vs.flatMap f)) {v : Value} (hv : v ∈ vs) :
    Agree env env' default default' (f v) :=
  fun o ho => h o (List.mem_flatMap.2 ⟨v, hv, ho⟩)

/-- Outside of documents at the top a placeholder is looked up in the given scopes. -/
theorem of_sites
    (h : ∀ site ∈ os.map (Site.mk none), site.outcome env default = site.outcome env' default') :
    Agree env env' default default' os :=
  fun o ho => h ⟨none, o⟩ (List.mem_map_of_mem ho)

end Agree

/-- The options differ in the default at most. -/
structure FillOptions.SameButDefault (o o' : FillOptions) : Prop where
  recurse : o'.recurse = o.recurse
  includeNulls : o'.includeNulls = o.includeNulls

namespace Fill

open Placeholder TemplateKind

variable {env env' : Environment} {shape : Shape} {default default' : Value}

/-! ## Texts, lists and tables -/

theorem text_agree {s : String}
    (h : Agree env env' default default' (Occurrence.ofText shape s)) :
    (text env shape default s).outcome = (text env' shape default' s).outcome := by
  cases hw : whole? s.toList with
  | some key =>
    have hmem : Occurrence.whole shape s key ∈ Occurrence.ofText shape s := by
      rw [Occurrence.ofText, hw]
      exact List.mem_singleton_self _
    rw [text_of_whole _ _ _ hw, text_of_whole _ _ _ hw, whole_outcome, whole_outcome]
    exact h _ hmem
  | none =>
    cases hs : shape.holdsText with
    | false =>
      rw [text_outcome_of_not_textual _ _ _ hw hs, text_outcome_of_not_textual _ _ _ hw hs]
    | true =>
      have hstandIn : ∀ key ∈ (scan s.toList).map Placeholder.key,
          standIn env default key = standIn env' default' key := by
        intro key hkey
        obtain ⟨p, hp, rfl⟩ := List.mem_map.1 hkey
        have hmem : Occurrence.inside p.key ∈ Occurrence.ofText shape s := by
          rw [Occurrence.ofText, hw, hs]
          exact List.mem_map_of_mem hp
        exact h _ hmem
      rw [text_outcome_of_textual _ _ _ hw hs, text_outcome_of_textual _ _ _ hw hs,
        itemwise_iff.1 (compose_pieces_outcome env default s.toList),
        itemwise_iff.1 (compose_pieces_outcome env' default' s.toList), mapM_congr hstandIn]

theorem item_agree {v : Value}
    (h : Agree env env' default default' (Occurrence.ofItem shape v)) :
    (item env shape default v).outcome = (item env' shape default' v).outcome := by
  cases v with
  | text s => exact text_agree h
  | _ => rfl

theorem items_agree {vs : List Value}
    (h : Agree env env' default default' (vs.flatMap (Occurrence.ofItem shape))) :
    (items env shape default vs).outcome = (items env' shape default' vs).outcome := by
  rw [items_eq_mapM, items_eq_mapM, Traced.outcome_mapM, Traced.outcome_mapM]
  exact mapM_congr fun v hv => item_agree (h.of_flatMap hv)

theorem row_list (env : Environment) (shape : Shape) (default : Value) (vs : List Value) :
    row env shape default (.list vs) = .list <$> items env shape default vs := rfl

theorem row_agree {v : Value} (hv : isRow v = true)
    (h : Agree env env' default default' (Occurrence.ofRow shape v)) :
    (row env shape default v).outcome = (row env' shape default' v).outcome := by
  cases v with
  | null => rfl
  | list vs =>
    rw [row_list, row_list, Traced.outcome_map, Traced.outcome_map, items_agree h]
  | _ => cases hv

theorem rows_agree {vs : List Value} (hvs : vs.all isRow = true)
    (h : Agree env env' default default' (vs.flatMap (Occurrence.ofRow shape))) :
    (rows env shape default vs).outcome = (rows env' shape default' vs).outcome := by
  rw [rows_eq_mapM, rows_eq_mapM, Traced.outcome_mapM, Traced.outcome_mapM]
  exact mapM_congr fun v hv => row_agree (List.all_eq_true.1 hvs v hv) (h.of_flatMap hv)

/-! ## Documents -/

section Documents

variable {o o' : FillOptions}

theorem entry?_agree (ho : o.SameButDefault o') (k w : Value) : entry? o' k w = entry? o k w := by
  rw [ entry?, entry?, ho.includeNulls]

mutual

theorem value_agree (ho : o.SameButDefault o') (v : Value)
    (h : Agree env env' o.default o'.default (Occurrence.ofValue o.recurse v)) :
    (value o env v).outcome = (value o' env' v).outcome := by
  match v with
  | .text s =>
    rw [Occurrence.ofValue] at h
    rw [value, value]
    exact text_agree h
  | .list vs =>
    rw [Occurrence.ofValue] at h
    rw [value, value]
    rcases ofItems_cases vs with ⟨hk, -⟩ | ⟨hk, hvs⟩ | ⟨hk, -⟩ | hk
    · rw [hk] at h ⊢
      rw [Traced.outcome_map, Traced.outcome_map, items_agree h]
    · rw [hk] at h ⊢
      rw [Traced.outcome_map, Traced.outcome_map, rows_agree hvs h]
    · rw [hk] at h ⊢
      rw [ho.recurse]
      cases hr : o.recurse with
      | false => rfl
      | true =>
        rw [hr, if_pos rfl, ← hr] at h
        rw [if_pos rfl, if_pos rfl, Traced.outcome_map, Traced.outcome_map, documents_agree ho vs h]
    · rw [hk]
  | .document es =>
    rw [Occurrence.ofValue] at h
    rw [value, value, ho.recurse]
    cases hr : o.recurse with
    | false => rfl
    | true =>
      rw [hr, if_pos rfl, ← hr] at h
      rw [if_pos rfl, if_pos rfl, Traced.outcome_map, Traced.outcome_map, entries_agree ho es h]
  | .null | .bool _ | .int _ | .float _ | .decimal _ | .tuple _ | .set _ | .bytes _ | .date _
  | .moment _ => simp only [value]

theorem entries_agree (ho : o.SameButDefault o') (es : Document)
    (h : Agree env env' o.default o'.default (Occurrence.ofEntries o.recurse es)) :
    (entries o env es).outcome = (entries o' env' es).outcome := by
  match es with
  | [] => rw [entries, entries]
  | (k, v) :: es =>
    rw [Occurrence.ofEntries] at h
    rw [entries, entries, Traced.outcome_both, Traced.outcome_both, value_agree ho v h.left,
      entries_agree ho es h.right]
    simp only [entry?_agree ho]

theorem documents_agree (ho : o.SameButDefault o') (vs : List Value)
    (h : Agree env env' o.default o'.default (Occurrence.ofDocuments o.recurse vs)) :
    (documents o env vs).outcome = (documents o' env' vs).outcome := by
  match vs with
  | [] => rw [documents, documents]
  | v :: vs =>
    cases v with
    | document es =>
      rw [Occurrence.ofDocuments] at h
      rw [documents, documents, Traced.outcome_both, Traced.outcome_both,
        entries_agree ho es h.left, documents_agree ho vs h.right]
    | _ =>
      simp only [Occurrence.ofDocuments] at h
      simp only [documents]
      rw [Traced.outcome_bind, Traced.outcome_bind, documents_agree ho vs h]

end

theorem documentItem_agree (ho : o.SameButDefault o') {v : Value}
    (h : ∀ site ∈ Site.ofDocument o.recurse v,
      site.outcome env o.default = site.outcome env' o'.default) :
    (documentItem o env v).outcome = (documentItem o' env' v).outcome := by
  cases v with
  | document es =>
    have hown : Agree (ownScope env es) (ownScope env' es) o.default o'.default
        (Occurrence.ofEntries o.recurse es) :=
      fun occurrence hmem => h ⟨some es, occurrence⟩ (List.mem_map_of_mem hmem)
    rw [documentItem, documentItem, document, document, Traced.outcome_map, Traced.outcome_map,
      entries_agree ho es hown]
  | _ => rfl

theorem documentItems_agree (ho : o.SameButDefault o') {vs : List Value}
    (h : ∀ site ∈ vs.flatMap (Site.ofDocument o.recurse),
      site.outcome env o.default = site.outcome env' o'.default) :
    (documentItems o env vs).outcome = (documentItems o' env' vs).outcome := by
  rw [documentItems_eq_mapM, documentItems_eq_mapM, Traced.outcome_mapM, Traced.outcome_mapM]
  exact mapM_congr fun v hv =>
    documentItem_agree ho fun site hsite => h site (List.mem_flatMap.2 ⟨v, hv, hsite⟩)

end Documents

end Fill
end Stencil
