import Stencil.Proofs.Engine.Agreement
import Stencil.Proofs.Engine.Nulls

/-!
# Unresolved templates come back unchanged

A template whose placeholders have no values is filled with itself, but for null entries of the
documents that are entered, which are left out as the options say (`Value.unfilled`).

**Unresolved placeholders** (`Occurrence.Unresolved`). A whole placeholder is unresolved if its key
is absent, whatever the default is. One inside a text is unresolved if there is no default and its
key is absent or has the value null.

**The argument.** At an unresolved placeholder the filling does what it does without any variables
and without a default (`Unresolved.outcome_eq`), so the two agree at every placeholder. Without
variables and with nulls kept, filling is the identity; this is shown along the recursion of the
filling (`value_bare`). Leaving nulls out comes to the same as taking them out afterwards.

Main result: `substitute_unresolved`.
-/

namespace Stencil

/-! ## Unresolved placeholders -/

/-- There is nothing to put in the place of a placeholder. -/
def Occurrence.Unresolved (env : Environment) (default : Value) : Occurrence → Prop
  | whole _ _ key => env.find? (.text (String.ofList key)) = none
  | inside key => default = .null ∧ (env.find? (.text (String.ofList key))).getD .null = .null

/-- There is nothing to put in the place of the placeholder at a site. -/
def Site.Unresolved (env : Environment) (default : Value) (site : Site) : Prop :=
  site.occurrence.Unresolved (site.environment env) default

/-- No key has a value. -/
def Environment.Bare (env : Environment) : Prop := ∀ key, env.find? key = none

theorem Environment.bare_of_empty (selector : Selector) : Bare ⟨selector, [some []], []⟩ := by
  intro key
  cases selector <;> rfl

/-- An unresolved placeholder is treated as if there were no variables and no default. -/
theorem Occurrence.Unresolved.outcome_eq {env bare : Environment} {default : Value}
    {o : Occurrence} (h : o.Unresolved env default) (hbare : bare.Bare) :
    o.outcome env default = o.outcome bare .null := by
  cases o with
  | whole shape s key =>
    show Fill.wholeResult env shape default s key = Fill.wholeResult bare shape .null s key
    rw [Fill.wholeResult, Fill.wholeResult, hbare, show env.find? _ = none from h]
  | inside key =>
    obtain ⟨hdefault, hvalue⟩ := h
    show Fill.standIn env default key = Fill.standIn bare .null key
    rw [Fill.standIn, Fill.standIn, hbare, hvalue, hdefault, Option.getD_none]

/-! ## Templates without null entries -/

namespace Value

/-- A value without its null entries, as the options say: none are taken out if nulls are kept, and
without `recurse` only those at the top. -/
def withoutNulls (o : FillOptions) (v : Value) : Value :=
  if o.includeNulls then v else if o.recurse then v.deepPrune else v.prune

/-- What comes back of a template in which nothing is put: each document at the top loses its null
entries, as the options say. -/
def unfilled (o : FillOptions) : Value → Value
  | .list vs =>
    match TemplateKind.ofItems vs with
    | .documentList => .list (vs.map (withoutNulls o))
    | _ => .list vs
  | v => v.withoutNulls o

theorem withoutNulls_null (o : FillOptions) : withoutNulls o .null = .null := by
  rw [withoutNulls, deepPrune, prune] <;> simp

theorem withoutNulls_text (o : FillOptions) (s : String) :
    withoutNulls o (.text s) = .text s := by
  rw [withoutNulls, deepPrune, prune] <;> simp

end Value

namespace Fill

open Placeholder TemplateKind Value

variable {env : Environment} {o : FillOptions}

/-! ## Filling without variables -/

section Bare

variable (hbare : env.Bare)

include hbare

theorem replacement_bare (key : List Char) :
    (replacement env .null key).outcome = .ok (Piece.tokenText key) := by
  rw [replacement_outcome, standIn, hbare]
  exact congrArg Except.ok (String.toList_ofList (l := _))

/-- Composing without variables puts the pieces together again. -/
theorem compose_bare (ps : List Piece) :
    (compose env .null ps).outcome = .ok (ps.flatMap Piece.text) := by
  induction ps with
  | nil => rfl
  | cons piece ps ih =>
    cases piece with
    | literal cs =>
      rw [compose, Traced.outcome_bind, ih]
      rfl
    | token key =>
      rw [compose, Traced.outcome_both, replacement_bare hbare, ih]
      rfl

theorem text_bare {shape : Shape} (htext : shape = .string ∨ shape = .any) (s : String) :
    (text env shape .null s).outcome = .ok (.text s) := by
  cases hw : whole? s.toList with
  | some key =>
    rw [text_of_whole _ _ _ hw, whole_outcome, wholeResult, hbare]
    rcases htext with rfl | rfl <;> rfl
  | none =>
    have hs : shape.holdsText = true := by rcases htext with rfl | rfl <;> rfl
    rw [text_outcome_of_textual _ _ _ hw hs, compose_bare hbare, flatMap_pieces]
    exact congrArg (fun s => Except.ok (Value.text s)) String.ofList_toList

theorem items_bare {shape : Shape} (htext : shape = .string ∨ shape = .any) {vs : List Value}
    (hvs : vs.all isTextItem = true) : (items env shape .null vs).outcome = .ok vs := by
  rw [items_eq_mapM, Traced.outcome_mapM, mapM_eq_ok_iff, List.forall₂_same]
  intro v hv
  have hitem := List.all_eq_true.1 hvs v hv
  cases v with
  | null => rfl
  | text s => exact text_bare hbare htext s
  | _ => cases hitem

theorem rows_bare {shape : Shape} (htext : shape = .string ∨ shape = .any) {vs : List Value}
    (hvs : vs.all isRow = true) : (rows env shape .null vs).outcome = .ok vs := by
  rw [rows_eq_mapM, Traced.outcome_mapM, mapM_eq_ok_iff, List.forall₂_same]
  intro v hv
  have hrow := List.all_eq_true.1 hvs v hv
  cases v with
  | null => rfl
  | list ws =>
    rw [row_list, Traced.outcome_map, items_bare hbare htext hrow]
    rfl
  | _ => cases hrow

end Bare

mutual

theorem value_bare (hbare : env.Bare) (hdefault : o.default = .null) (v : Value) :
    (value o.keeping env v).outcome = .ok v := by
  have hkeeping : o.keeping.default = .null := hdefault
  match v with
  | .text s =>
    rw [value, hkeeping]
    exact text_bare hbare (Or.inl rfl) s
  | .list vs =>
    rw [value, hkeeping]
    rcases ofItems_cases vs with ⟨hk, hvs⟩ | ⟨hk, hvs⟩ | ⟨hk, -⟩ | hk
    · rw [hk, Traced.outcome_map, items_bare hbare (Or.inl rfl) hvs]
      rfl
    · rw [hk, Traced.outcome_map, rows_bare hbare (Or.inl rfl) hvs]
      rfl
    · rw [hk]
      dsimp only
      split
      · rw [Traced.outcome_map, documents_bare hbare hdefault vs]
        rfl
      · rfl
    · rw [hk]
      rfl
  | .document es =>
    rw [value]
    split
    · rw [Traced.outcome_map, entries_bare hbare hdefault es]
      rfl
    · rfl
  | .null | .bool _ | .int _ | .float _ | .decimal _ | .tuple _ | .set _ | .bytes _ | .date _
  | .moment _ =>
    simp only [value]
    rfl

theorem entries_bare (hbare : env.Bare) (hdefault : o.default = .null) (es : Document) :
    (entries o.keeping env es).outcome = .ok es := by
  match es with
  | [] =>
    rw [entries]
    rfl
  | (k, v) :: es =>
    rw [entries, Traced.outcome_both, value_bare hbare hdefault v, entries_bare hbare hdefault es]
    exact congrArg (fun e => Except.ok (e ++ es)) (entry?_keeping k v)

theorem documents_bare (hbare : env.Bare) (hdefault : o.default = .null) (vs : List Value) :
    (documents o.keeping env vs).outcome = .ok vs := by
  match vs with
  | [] =>
    rw [documents]
    rfl
  | v :: vs =>
    cases v with
    | document es =>
      rw [documents, Traced.outcome_both, entries_bare hbare hdefault es,
        documents_bare hbare hdefault vs]
      rfl
    | _ =>
      simp only [documents]
      rw [Traced.outcome_bind, documents_bare hbare hdefault vs]
      rfl

end

/-- A document at the top loses its null entries and nothing else. -/
theorem documentItem_bare (hbare : env.Bare) (hscopes : env.scopes ≠ [])
    (hdefault : o.default = .null) {v : Value} (hv : isDocumentItem v = true) :
    (documentItem o env v).outcome = .ok (v.withoutNulls o) := by
  cases v with
  | null => exact congrArg Except.ok (withoutNulls_null o).symm
  | document es =>
    have hkeeping : (documentItem o.keeping env (.document es)).outcome = .ok (.document es) := by
      rw [documentItem, Fill.document, ownScope_of_scopes hscopes, Traced.outcome_map,
        entries_bare hbare hdefault es]
      rfl
    obtain ⟨default, recurse, includeNulls⟩ := o
    cases includeNulls with
    | true => exact hkeeping
    | false =>
      cases recurse with
      | true =>
        exact (Engine.documentItem_leavingOut (o := ⟨default, true, false⟩) rfl es).trans
          (congrArg (Except.map deepPrune) hkeeping)
      | false =>
        exact (Engine.documentItem_leavingOut_of_not_recurse (o := ⟨default, false, false⟩) rfl
          es).trans (congrArg (Except.map prune) hkeeping)
  | _ => cases hv

theorem documentItems_bare (hbare : env.Bare) (hscopes : env.scopes ≠ [])
    (hdefault : o.default = .null) {vs : List Value} (hvs : vs.all isDocumentItem = true) :
    (documentItems o env vs).outcome = .ok (vs.map (withoutNulls o)) := by
  rw [documentItems_eq_mapM, Traced.outcome_mapM, mapM_eq_ok_iff, List.forall₂_map_right_iff,
    List.forall₂_same]
  exact fun v hv => documentItem_bare hbare hscopes hdefault (List.all_eq_true.1 hvs v hv)

end Fill

namespace Engine

open Fill TemplateKind

variable {r : Request} {shape : Shape} {selector : Selector}

/-- Without variables and without a default every template comes back. -/
theorem substitute_bare (hs : Shape.ofArgument r.shape = .ok shape)
    (htext : shape = .string ∨ shape = .any)
    (hsel : Selector.ofArgument r.selector = .ok selector)
    (hbare : (environment r selector).Bare) (hscopes : r.scopes ≠ [])
    (hdefault : r.options.default = .null) (v : Value) :
    (substitute r v).outcome = .ok (v.unfilled r.options) := by
  by_cases hv : v = .null
  · subst hv
    exact congrArg Except.ok (Value.withoutNulls_null _).symm
  rw [substitute_outcome hv]
  cases v with
  | null => exact absurd rfl hv
  | text s =>
    rw [operationOf_text hs hsel, hdefault, text_bare hbare htext s, Value.unfilled,
      Value.withoutNulls_text]
    simp
  | document es =>
    rw [operationOf_document hsel]
    exact documentItem_bare (v := .document es) hbare hscopes hdefault rfl
  | list vs =>
    rw [Value.unfilled]
    rcases ofItems_cases vs with ⟨hk, hvs⟩ | ⟨hk, hvs⟩ | ⟨hk, hvs⟩ | hk
    · rw [operationOf_list hs hsel hk, hk, hdefault, Traced.outcome_map,
        items_bare hbare htext hvs]
      rfl
    · rw [operationOf_table hs hsel hk, hk, hdefault, Traced.outcome_map,
        rows_bare hbare htext hvs]
      rfl
    · rw [operationOf_documentList hsel hk, hk, Traced.outcome_map,
        documentItems_bare hbare hscopes hdefault hvs]
      rfl
    · rw [operationOf_other (show ofValue (.list vs) = .other from hk), hk]
      rfl
  | _ =>
    rw [operationOf_other rfl, Value.unfilled, Value.withoutNulls, Value.deepPrune,
      Value.prune] <;> simp

theorem substitute_of_unresolved (hs : Shape.ofArgument r.shape = .ok shape)
    (htext : shape = .string ∨ shape = .any)
    (hsel : Selector.ofArgument r.selector = .ok selector) {v : Value}
    (h : ∀ site ∈ Site.ofTemplate shape r.options.recurse v,
      site.Unresolved (environment r selector) r.options.default) :
    (substitute r v).outcome = .ok (v.unfilled r.options) := by
  let q : Request :=
    { r with scopes := [some []], globals := [], options := { r.options with default := .null } }
  have hbare : ∀ selector, (environment q selector).Bare := Environment.bare_of_empty
  have hagree : (substitute r v).outcome = (substitute q v).outcome := by
    refine substitute_agree_of_sites rfl ⟨rfl, rfl⟩ rfl fun selector' hvalid site hsite => ?_
    cases hsel.symm.trans hvalid
    rw [sites_of_valid hs] at hsite
    have hown : site.environment (environment q selector) = environment q selector := by
      obtain ⟨_ | es, occurrence⟩ := site <;> rfl
    rw [Site.outcome, Site.outcome, hown]
    exact (h site hsite).outcome_eq (hbare selector)
  rw [hagree]
  exact substitute_bare (r := q) hs htext hsel (hbare selector) (List.cons_ne_nil _ _) rfl v

/-- **Unresolved templates come back unchanged.** In a textual shape a template without a resolved
placeholder comes back as it is, but for null entries of the documents that are entered, if nulls
are not kept. If it has no placeholder at all this holds under every default, and nothing is asked
of the global scope. -/
theorem substitute_unresolved (hs : Shape.ofArgument r.shape = .ok shape)
    (htext : shape = .string ∨ shape = .any)
    (hsel : Selector.ofArgument r.selector = .ok selector) (v : Value) :
    let sites := Site.ofTemplate shape r.options.recurse v
    ((∀ site ∈ sites, site.Unresolved (environment r selector) r.options.default) →
      (substitute r v).outcome = .ok (v.unfilled r.options)) ∧
    (sites = [] → ∀ default,
      let run := substitute { r with options := { r.options with default } } v
      run.outcome = .ok (v.unfilled r.options) ∧ run.trace.filter Event.isCall = []) := by
  intro sites
  refine ⟨substitute_of_unresolved hs htext hsel, fun hsites default => ?_⟩
  intro run
  replace hsites : Site.ofTemplate shape r.options.recurse v = [] := hsites
  let q : Request := { r with options := { r.options with default } }
  constructor
  · refine substitute_of_unresolved (r := q) hs htext hsel fun site hsite => ?_
    rw [show Site.ofTemplate shape q.options.recurse v = [] from hsites] at hsite
    cases hsite
  · have hcalls := calls_substitute (r := q) hs hsel v
    rw [show Site.ofTemplate shape q.options.recurse v = [] from hsites] at hcalls
    exact congrArg Traced.trace hcalls

/-- An absent key, and a null inside a text with a stray sign; the null in the list stays. A text
without placeholders does not ask for the default. -/
theorem substitute_unresolved_nested :
    let r : Request :=
      { selector := .selector .localOnly, options := { recurse := true },
        scopes := [none, some [(.text "b", .null)]], globals := [(.text "a", .int 1)] }
    let items : Value := .list [.text "%b% of 50%", .null]
    (substitute r (.document [(.text "x", .text "%a%"), (.text "n", .null),
        (.text "in", .document [(.text "y", items), (.text "m", .null)])])).outcome =
      .ok (.document [(.text "x", .text "%a%"), (.text "in", .document [(.text "y", items)])]) ∧
    (substitute { r with options := { r.options with default := .int 7 } }
      (.list [.text "50%"])).outcome = .ok (.list [.text "50%"]) := by
  intro r items
  have hs : Shape.ofArgument r.shape = .ok .string := rfl
  have hsel : Selector.ofArgument r.selector = .ok .localOnly := rfl
  refine ⟨(substitute_unresolved hs (Or.inl rfl) hsel _).1 ?_,
    ((substitute_unresolved hs (Or.inl rfl) hsel (.list [.text "50%"])).2 rfl (.int 7)).1⟩
  exact List.forall_mem_cons.2 ⟨rfl, List.forall_mem_singleton.2 ⟨rfl, rfl⟩⟩

end Engine
end Stencil
