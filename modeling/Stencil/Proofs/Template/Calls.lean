import Stencil.Proofs.Template.Occurrence

/-!
# The calls that a filling makes

Here only two things count about a filling: the calls on the global scope that it makes, and
whether it fails and how (`calls`). Seen in this way a filling is a walk through its occurrences,
which makes the calls of each in turn and stops with the error of the first that has one (`walk`).

`calls` goes through a sequence of two fillings if the second makes the same calls whatever the
result of the first is (`calls_bind`). That is so everywhere: what is looked up never depends on a
value found before. Hence each function of the filling is settled by the recursion it is defined by.
-/

namespace Stencil

/-- The event is a call on the global scope. -/
def Event.isCall : Event → Bool
  | .asked _ | .fetched _ => true
  | _ => false

/-- The calls on the global scope that looking up a key makes: none if the global scope takes no
part or a local scope has the key, and the value is read only if it is there. -/
def Environment.reads (env : Environment) (key : String) : List Event :=
  if env.selector = .localOnly ∨
      env.selector.includesLocal = true ∧ ∃ d ∈ env.present, Document.contains (.text key) d = true
    then []
  else if Document.contains (.text key) env.globals then [.asked key, .fetched key]
  else [.asked key]

namespace Environment

theorem firstWith_eq_none_iff {key : Value} {start : Nat} {ds : List Document} :
    firstWith key start ds = none ↔
      ¬ ∃ d ∈ ds, Document.contains key d = true := by
  induction ds generalizing start with
  | nil => simp [firstWith]
  | cons d ds ih =>
    rw [firstWith]
    cases hd : Document.find? key d with
    | some v => simp [Document.contains, hd]
    | none => simp [ih, Document.contains, hd]

/-- The local scopes have no answer exactly if they take no part or lack the key. -/
theorem local?_eq_none_iff {env : Environment} {key : Value} :
    env.local? key = none ↔
      ¬ (env.selector.includesLocal = true ∧
        ∃ d ∈ env.present, Document.contains key d = true) := by
  rw [local?]
  split
  · rename_i h
    rw [firstWith_eq_none_iff]
    simp [h]
  · rename_i h
    simp [h]

end Environment

/-- The calls that an occurrence makes. -/
def Occurrence.reads (env : Environment) (o : Occurrence) : List Event := env.reads o.key

/-- The calls that the placeholder at a site makes. -/
def Site.reads (env : Environment) (site : Site) : List Event :=
  site.occurrence.reads (site.environment env)

namespace Fill

open Placeholder

/-! ## Walks -/

section Walk

variable {σ β : Type} (reads : σ → List Event) (result : σ → Except Failure β)

/-- Make the calls of each step in turn, up to the first that fails. -/
def walk (steps : List σ) : Filling Unit :=
  steps.forM fun s => ⟨reads s, (result s).map fun _ => ()⟩

theorem walk_cons (s : σ) (steps : List σ) :
    walk reads result (s :: steps) =
      ((⟨reads s, (result s).map fun _ => ()⟩ : Filling Unit) >>= fun _ =>
        walk reads result steps) := rfl

theorem walk_append (first second : List σ) :
    walk reads result (first ++ second) =
      (walk reads result first >>= fun _ => walk reads result second) := by
  induction first with
  | nil => rfl
  | cons s first ih => rw [List.cons_append, walk_cons, walk_cons, ih, bind_assoc]

theorem walk_map {ρ : Type} (f : ρ → σ) (steps : List ρ) :
    walk reads result (steps.map f) =
      walk (fun s => reads (f s)) (fun s => result (f s)) steps := by
  induction steps with
  | nil => rfl
  | cons s steps ih => rw [List.map_cons, walk_cons, walk_cons, ih]

variable {reads result}

/-- A walk without a failing step makes the calls of all of them. -/
theorem walk_of_ok {steps : List σ} (h : ∀ s ∈ steps, ∃ w, result s = .ok w) :
    walk reads result steps = ⟨steps.flatMap reads, .ok ()⟩ := by
  induction steps with
  | nil => rfl
  | cons s steps ih =>
    obtain ⟨⟨w, hw⟩, hrest⟩ := List.forall_mem_cons.1 h
    rw [walk_cons, hw, ih hrest]
    rfl

/-- A walk ends as working through its steps does. -/
theorem walk_outcome (steps : List σ) :
    (walk reads result steps).outcome = (steps.mapM result).map fun _ => () := by
  induction steps with
  | nil => rfl
  | cons s steps ih =>
    rw [walk_cons, Traced.outcome_bind, ih]
    rcases hs : result s with e | w
    · rw [mapM_cons_error hs]
      rfl
    · rw [mapM_cons_ok hs]
      generalize List.mapM result steps = ws
      rcases ws <;> rfl

/-- A walk is cut right after the calls of its first failing step. -/
theorem walk_of_error {before after : List σ} {s : σ} {e : Failure}
    (hb : ∀ b ∈ before, ∃ w, result b = .ok w) (hs : result s = .error e) :
    walk reads result (before ++ s :: after) = ⟨(before ++ [s]).flatMap reads, .error e⟩ := by
  rw [walk_append, walk_of_ok hb, walk_cons, hs, List.flatMap_append, List.flatMap_singleton]
  rfl

end Walk

/-! ## Calls -/

/-- A filling without its result, and without the events that are no calls. -/
def calls {α : Type} (x : Filling α) : Filling Unit :=
  ⟨x.trace.filter Event.isCall, x.outcome.map fun _ => ()⟩

section Calls

variable {α β : Type}

@[simp] theorem calls_pure (a : α) : calls (pure a : Filling α) = pure () := rfl

/-- If the second filling makes the same calls after every result of the first, the calls of the
two come one after the other. -/
theorem calls_bind {f : α → Filling β} {y : Filling Unit} (h : ∀ a, calls (f a) = y)
    (x : Filling α) : calls (x >>= f) = (calls x >>= fun _ => y) := by
  obtain ⟨t, e | a⟩ := x
  · rfl
  · rw [← h a, Traced.bind_ok, calls, List.filter_append]
    rfl

theorem calls_bind_pure (f : α → β) (x : Filling α) :
    calls (x >>= fun a => pure (f a)) = calls x := by
  rw [calls_bind fun a => calls_pure (f a)]
  exact bind_pure_unit

theorem calls_map (f : α → β) (x : Filling α) : calls (f <$> x) = calls x := by
  rw [map_eq_pure_bind]
  exact calls_bind_pure f x

/-- Two fillings in a row whose results are put together. -/
theorem calls_both {γ : Type} (f : α → β → γ) (x : Filling α) (y : Filling β) :
    calls (x >>= fun a => y >>= fun b => pure (f a b)) = (calls x >>= fun _ => calls y) :=
  calls_bind (fun a => calls_bind_pure (f a) y) x

end Calls

/-! ## Look-ups -/

/-- A look-up makes the calls that `reads` lists. -/
theorem calls_resolve (env : Environment) (key : String) :
    calls (env.resolve key) = ⟨env.reads key, .ok ()⟩ := by
  rw [Environment.resolve, Environment.reads]
  cases hl : env.local? (.text key) with
  | some found =>
    have h : env.selector.includesLocal = true ∧
        ∃ d ∈ env.present, Document.contains (.text key) d = true := by
      by_contra h
      rw [Environment.local?_eq_none_iff.2 h] at hl
      cases hl
    rw [if_pos (Or.inr h)]
    rfl
  | none =>
    have h := Environment.local?_eq_none_iff.1 hl
    by_cases hg : env.selector = .localOnly
    · rw [if_pos (Or.inl hg), hg]
      rfl
    · have hi : env.selector.includesGlobal = true := by
        cases hsel : env.selector <;> first | rfl | exact absurd hsel hg
      rw [if_neg (not_or.2 ⟨hg, h⟩), hi, Document.contains]
      cases env.globals.find? (.text key) <;> rfl

/-- A filling that looks up one key and makes no calls besides. -/
theorem calls_resolve_bind {env : Environment} {key : String} {α : Type}
    {f : Option Value → Filling α} (h : ∀ found, (f found).trace.filter Event.isCall = []) :
    calls (env.resolve key >>= f) =
      ⟨env.reads key, (env.resolve key >>= f).outcome.map fun _ => ()⟩ := by
  refine Traced.ext ?_ rfl
  have hr : (env.resolve key).trace.filter Event.isCall = env.reads key :=
    congrArg Traced.trace (calls_resolve env key)
  rw [← hr]
  rcases env.resolve key with ⟨t, e | found⟩
  · rfl
  · rw [Traced.bind_ok, calls, List.filter_append, h, List.append_nil]

/-! ## Texts -/

/-- Go through occurrences in the same scopes. -/
def reach (env : Environment) (default : Value) (os : List Occurrence) : Filling Unit :=
  walk (Occurrence.reads env) (Occurrence.outcome env default) os

section Reach

variable (env : Environment) (shape : Shape) (default : Value)

theorem reach_append (first second : List Occurrence) :
    reach env default (first ++ second) =
      (reach env default first >>= fun _ => reach env default second) :=
  walk_append _ _ first second

theorem reach_singleton (o : Occurrence) :
    reach env default [o] = ⟨o.reads env, (o.outcome env default).map fun _ => ()⟩ :=
  bind_pure_unit

theorem calls_whole (s : String) (key : List Char) :
    calls (whole env shape default s key) = reach env default [.whole shape s key] := by
  have hquiet : calls (whole env shape default s key) =
      ⟨env.reads (String.ofList key), (whole env shape default s key).outcome.map fun _ => ()⟩ := by
    rw [whole]
    exact calls_resolve_bind fun found => by cases found <;> rfl
  rw [hquiet, whole_outcome, reach_singleton]
  rfl

theorem calls_replacement (key : List Char) :
    calls (replacement env default key) = reach env default [.inside key] := by
  -- The coercions behind the look-up may fail or keep the placeholder, but they ask for nothing.
  have hquiet : calls (replacement env default key) =
      ⟨env.reads (String.ofList key), (replacement env default key).outcome.map fun _ => ()⟩ := by
    rw [replacement]
    refine calls_resolve_bind fun found => ?_
    rcases textOf? (found.getD .null) with e | _ | cs
    · rfl
    · rcases textOf? default with e | _ | cs <;> rfl
    · rfl
  rw [hquiet, replacement_outcome, reach_singleton]
  show (⟨_, _⟩ : Filling Unit) = ⟨_, (standIn env default key).map fun _ => ()⟩
  rcases standIn env default key <;> rfl

/-- Composing looks up the keys of the placeholders, wherever the pieces stand. -/
theorem calls_compose (ps : List Piece) (start : Nat) :
    calls (compose env default ps) =
      reach env default ((locate start ps).map fun p => .inside p.key) := by
  induction ps generalizing start with
  | nil => rfl
  | cons piece ps ih =>
    cases piece with
    | literal cs =>
      rw [compose, calls_bind_pure, locate]
      exact ih _
    | token key =>
      rw [compose, calls_both, calls_replacement, ih (start + key.length + 2), ← reach_append,
        locate]
      rfl

theorem calls_text (s : String) :
    calls (text env shape default s) = reach env default (Occurrence.ofText shape s) := by
  rw [text, Occurrence.ofText]
  cases whole? s.toList with
  | some key => exact calls_whole env shape default s key
  | none =>
    by_cases hs : shape.holdsText = true
    · rw [hs]
      exact (calls_bind_pure _ _).trans (calls_compose env default _ 0)
    · rw [Bool.not_eq_true] at hs
      rw [hs]
      rfl

/-! ## Lists and tables -/

theorem calls_item {v : Value} (h : TemplateKind.isTextItem v = true) :
    calls (item env shape default v) = reach env default (Occurrence.ofItem shape v) := by
  cases v with
  | null => rfl
  | text s => exact calls_text env shape default s
  | _ => cases h

theorem calls_items {vs : List Value} (h : vs.all TemplateKind.isTextItem = true) :
    calls (items env shape default vs) =
      reach env default (vs.flatMap (Occurrence.ofItem shape)) := by
  induction vs with
  | nil => rfl
  | cons v vs ih =>
    rw [List.all_cons, Bool.and_eq_true] at h
    rw [items, calls_both, calls_item env shape default h.1, ih h.2, ← reach_append,
      List.flatMap_cons]

theorem calls_row {v : Value} (h : TemplateKind.isRow v = true) :
    calls (row env shape default v) = reach env default (Occurrence.ofRow shape v) := by
  cases v with
  | null => rfl
  | list vs => exact (calls_map _ _).trans (calls_items env shape default h)
  | _ => cases h

theorem calls_rows {vs : List Value} (h : vs.all TemplateKind.isRow = true) :
    calls (rows env shape default vs) =
      reach env default (vs.flatMap (Occurrence.ofRow shape)) := by
  induction vs with
  | nil => rfl
  | cons v vs ih =>
    rw [List.all_cons, Bool.and_eq_true] at h
    rw [rows, calls_both, calls_row env shape default h.1, ih h.2, ← reach_append,
      List.flatMap_cons]

end Reach

/-! ## Documents -/

section Documents

variable (o : FillOptions) (env : Environment)

mutual

theorem calls_value (v : Value) :
    calls (value o env v) = reach env o.default (Occurrence.ofValue o.recurse v) := by
  match v with
  | .text s =>
    rw [value, Occurrence.ofValue]
    exact calls_text env .string o.default s
  | .list vs =>
    rw [value, Occurrence.ofValue]
    rcases TemplateKind.ofItems_cases vs with ⟨hk, hvs⟩ | ⟨hk, hvs⟩ | ⟨hk, -⟩ | hk
    · rw [hk]
      exact (calls_map _ _).trans (calls_items env .string o.default hvs)
    · rw [hk]
      exact (calls_map _ _).trans (calls_rows env .string o.default hvs)
    · rw [hk]
      cases hr : o.recurse with
      | false => rfl
      | true =>
        have hdocuments := calls_documents vs
        rw [hr] at hdocuments
        exact (calls_map _ _).trans hdocuments
    · rw [hk]
      rfl
  | .document es =>
    rw [value, Occurrence.ofValue]
    cases hr : o.recurse with
    | false => rfl
    | true =>
      have hentries := calls_entries es
      rw [hr] at hentries
      exact (calls_map _ _).trans hentries
  | .null | .bool _ | .int _ | .float _ | .decimal _ | .tuple _ | .set _ | .bytes _ | .date _
  | .moment _ =>
    simp only [value, Occurrence.ofValue]
    rfl

theorem calls_entries (es : List (Value × Value)) :
    calls (entries o env es) = reach env o.default (Occurrence.ofEntries o.recurse es) := by
  match es with
  | [] => rw [entries, Occurrence.ofEntries]; rfl
  | (k, v) :: es =>
    rw [entries, Occurrence.ofEntries, calls_both, calls_value v, calls_entries es, ← reach_append]

theorem calls_documents (vs : List Value) :
    calls (documents o env vs) = reach env o.default (Occurrence.ofDocuments o.recurse vs) := by
  match vs with
  | [] => rw [documents, Occurrence.ofDocuments]; rfl
  | v :: vs =>
    cases v with
    | document es =>
      rw [documents, Occurrence.ofDocuments, calls_both, calls_entries es, calls_documents vs,
        ← reach_append]
    | _ =>
      simp only [documents, Occurrence.ofDocuments]
      exact (calls_bind_pure _ _).trans (calls_documents vs)

end

/-- Go through sites, each in its own scopes. -/
def visit (env : Environment) (default : Value) (sites : List Site) : Filling Unit :=
  walk (Site.reads env) (Site.outcome env default) sites

theorem visit_append (default : Value) (first second : List Site) :
    visit env default (first ++ second) =
      (visit env default first >>= fun _ => visit env default second) :=
  walk_append _ _ first second

/-- Sites that stand in no document at the top are occurrences in the given scopes. -/
theorem visit_map_none (default : Value) (os : List Occurrence) :
    visit env default (os.map (Site.mk none)) = reach env default os :=
  walk_map _ _ (Site.mk none) os

theorem calls_documentItem {v : Value} (h : TemplateKind.isDocumentItem v = true) :
    calls (documentItem o env v) = visit env o.default (Site.ofDocument o.recurse v) := by
  cases v with
  | null => rfl
  | document es =>
    rw [documentItem, document, calls_map, calls_entries, Site.ofDocument, visit, walk_map]
    rfl
  | _ => cases h

theorem calls_documentItems {vs : List Value} (h : vs.all TemplateKind.isDocumentItem = true) :
    calls (documentItems o env vs) =
      visit env o.default (vs.flatMap (Site.ofDocument o.recurse)) := by
  induction vs with
  | nil => rfl
  | cons v vs ih =>
    rw [List.all_cons, Bool.and_eq_true] at h
    rw [documentItems, calls_both, calls_documentItem o env h.1, ih h.2, ← visit_append,
      List.flatMap_cons]

end Documents

end Fill
end Stencil
