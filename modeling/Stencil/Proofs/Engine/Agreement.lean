import Stencil.Proofs.Engine.Reads
import Stencil.Proofs.Template.Agreement

/-!
# Two runs that agree at every placeholder

Two runs of `substitute` under the same arguments, which may differ in the scopes, in the global
scope and in the default, end alike if every site that the first one comes to has the same outcome
in both.

**Sites** (`Engine.sites`). Documents are always filled as text, so the shape of a request counts
for the other kinds of templates only (`shapeFor`).

**Visited sites** (`Site.visited`). The run comes to all sites up to the first that fails. If they
have the same outcomes in the other run, this one fails at the same site, and nothing is asked of
the sites behind.

Main result: `substitute_agree`.
-/

namespace Stencil

namespace Site

variable {env env' : Environment} {default default' : Value}

/-- The sites that a filling comes to: all up to the first that fails, and this one. -/
def visited (env : Environment) (default : Value) : List Site → List Site
  | [] => []
  | site :: sites =>
    match site.outcome env default with
    | .ok _ => site :: visited env default sites
    | .error _ => [site]

theorem visited_of_ok {sites : List Site}
    (h : ∀ site ∈ sites, ∃ w, site.outcome env default = .ok w) :
    visited env default sites = sites := by
  induction sites with
  | nil => rfl
  | cons site sites ih =>
    obtain ⟨⟨w, hw⟩, hsites⟩ := List.forall_mem_cons.1 h
    rw [visited, hw, ih hsites]

theorem visited_of_error {before after : List Site} {site : Site} {e : Failure}
    (hb : ∀ b ∈ before, ∃ w, b.outcome env default = .ok w)
    (he : site.outcome env default = .error e) :
    visited env default (before ++ site :: after) = before ++ [site] := by
  induction before with
  | nil => rw [List.nil_append, List.nil_append, visited, he]
  | cons b before ih =>
    obtain ⟨⟨w, hw⟩, hbefore⟩ := List.forall_mem_cons.1 hb
    rw [List.cons_append, visited, hw, ih hbefore, List.cons_append]

/-- Up to the first site that fails the outcomes agree, so this site is the first to fail in the
other run too. -/
theorem mapM_eq_error_of_visited {sites : List Site} {e : Failure}
    (h : sites.mapM (Site.outcome env default) = .error e)
    (hvisited : ∀ site ∈ visited env default sites,
      site.outcome env default = site.outcome env' default') :
    sites.mapM (Site.outcome env' default') = .error e := by
  obtain ⟨before, s, after, rfl, hb, he⟩ := mapM_eq_error_iff.1 h
  rw [visited_of_error hb he] at hvisited
  refine mapM_eq_error_iff.2 ⟨before, s, after, rfl, fun b hmem => ?_, ?_⟩
  · rw [← hvisited b (List.mem_append_left _ hmem)]
    exact hb b hmem
  · rw [← hvisited s (List.mem_append_right _ (List.mem_singleton_self s)), he]

end Site

namespace Engine

open Fill TemplateKind

variable {r r' : Request} {shape : Shape} {selector : Selector}

/-- The shape in which the texts of a template are asked for. Documents are always filled as text,
so only the other kinds look at the argument. -/
def shapeFor (r : Request) (v : Value) : Except ArgumentError Shape :=
  match TemplateKind.ofValue v with
  | .document | .documentList => .ok .string
  | _ => Shape.ofArgument r.shape

/-- The sites of a template under the arguments of a request. -/
def sites (r : Request) (v : Value) : List Site :=
  match shapeFor r v with
  | .ok shape => Site.ofTemplate shape r.options.recurse v
  | .error _ => []

theorem sites_eq {v : Value} (h : shapeFor r v = .ok shape) :
    sites r v = Site.ofTemplate shape r.options.recurse v := by
  rw [sites, h]

/-- Under a valid shape the sites are those of the template in this shape. -/
theorem sites_of_valid (hs : Shape.ofArgument r.shape = .ok shape) (v : Value) :
    sites r v = Site.ofTemplate shape r.options.recurse v := by
  cases v with
  | list vs =>
    have hkind : ofValue (.list vs) = ofItems vs := rfl
    rcases ofItems_cases vs with ⟨hk, -⟩ | ⟨hk, -⟩ | ⟨hk, -⟩ | hk <;>
      simp only [sites, shapeFor, hkind, hk, hs, Site.ofTemplate]
  | document es => rfl
  | _ => exact sites_eq hs

section SameArguments

variable {s : String} {vs : List Value} {v : Value}
  (hselector : Selector.ofArgument r'.selector = Selector.ofArgument r.selector)
  (ho : r.options.SameButDefault r'.options)

include hselector

theorem substituteText_agree (hshape : Shape.ofArgument r'.shape = Shape.ofArgument r.shape)
    (h : ∀ shape, Shape.ofArgument r.shape = .ok shape → ∀ selector,
      Selector.ofArgument r.selector = .ok selector →
        Agree (environment r selector) (environment r' selector) r.options.default
          r'.options.default (Occurrence.ofText shape s)) :
    (substituteText r (.text s)).outcome = (substituteText r' (.text s)).outcome := by
  rw [substituteText, substituteText, hshape, hselector]
  refine naming_bind_congr fun shape hs => naming_bind_congr fun selector hsel => ?_
  exact text_agree (h shape hs selector hsel)

theorem substituteList_agree (hshape : Shape.ofArgument r'.shape = Shape.ofArgument r.shape)
    (h : ∀ shape, Shape.ofArgument r.shape = .ok shape → ∀ selector,
      Selector.ofArgument r.selector = .ok selector →
        Agree (environment r selector) (environment r' selector) r.options.default
          r'.options.default (vs.flatMap (Occurrence.ofItem shape))) :
    (substituteList r (.list vs)).outcome = (substituteList r' (.list vs)).outcome := by
  rw [substituteList, substituteList, hshape, hselector]
  refine naming_bind_congr fun shape hs => naming_bind_congr fun selector hsel => ?_
  rw [row_list, row_list, Traced.outcome_map, Traced.outcome_map,
    items_agree (h shape hs selector hsel)]

theorem substituteTable_agree (hshape : Shape.ofArgument r'.shape = Shape.ofArgument r.shape)
    (hvs : vs.all isRow = true)
    (h : ∀ shape, Shape.ofArgument r.shape = .ok shape → ∀ selector,
      Selector.ofArgument r.selector = .ok selector →
        Agree (environment r selector) (environment r' selector) r.options.default
          r'.options.default (vs.flatMap (Occurrence.ofRow shape))) :
    (substituteTable r (.list vs)).outcome = (substituteTable r' (.list vs)).outcome := by
  rw [substituteTable, substituteTable, hshape, hselector]
  refine naming_bind_congr fun shape hs => naming_bind_congr fun selector hsel => ?_
  simp only [itemsOf?]
  rw [Traced.outcome_map, Traced.outcome_map, rows_agree hvs (h shape hs selector hsel)]

include ho

theorem substituteDocument_agree
    (h : ∀ selector, Selector.ofArgument r.selector = .ok selector →
      ∀ site ∈ Site.ofDocument r.options.recurse v,
        site.outcome (environment r selector) r.options.default =
          site.outcome (environment r' selector) r'.options.default) :
    (substituteDocument r v).outcome = (substituteDocument r' v).outcome := by
  rw [substituteDocument, substituteDocument, hselector]
  exact naming_bind_congr fun selector hsel => documentItem_agree ho (h selector hsel)

theorem substituteDocuments_agree
    (h : ∀ selector, Selector.ofArgument r.selector = .ok selector →
      ∀ site ∈ vs.flatMap (Site.ofDocument r.options.recurse),
        site.outcome (environment r selector) r.options.default =
          site.outcome (environment r' selector) r'.options.default) :
    (substituteDocuments r (.list vs)).outcome = (substituteDocuments r' (.list vs)).outcome := by
  rw [substituteDocuments, substituteDocuments, hselector]
  refine naming_bind_congr fun selector hsel => ?_
  simp only [itemsOf?]
  rw [Traced.outcome_map, Traced.outcome_map, documentItems_agree ho (h selector hsel)]

/-- Two runs under the same arguments end alike if all sites have the same outcomes. -/
theorem substitute_agree_of_sites (hshape : shapeFor r' v = shapeFor r v)
    (h : ∀ selector, Selector.ofArgument r.selector = .ok selector → ∀ site ∈ sites r v,
      site.outcome (environment r selector) r.options.default =
        site.outcome (environment r' selector) r'.options.default) :
    (substitute r v).outcome = (substitute r' v).outcome := by
  have hsites : ∀ shape, shapeFor r v = .ok shape → ∀ selector,
      Selector.ofArgument r.selector = .ok selector →
        ∀ site ∈ Site.ofTemplate shape r.options.recurse v,
          site.outcome (environment r selector) r.options.default =
            site.outcome (environment r' selector) r'.options.default := by
    intro shape hs selector hsel
    rw [← sites_eq hs]
    exact h selector hsel
  by_cases hv : v = .null
  · subst hv
    rfl
  rw [substitute_outcome hv, substitute_outcome hv]
  cases v with
  | null => exact absurd rfl hv
  | text s =>
    exact substituteText_agree hselector hshape fun shape hs selector hsel =>
      .of_sites (hsites shape hs selector hsel)
  | document es => exact substituteDocument_agree hselector ho (hsites .string rfl)
  | list vs =>
    have hkind : ofValue (.list vs) = ofItems vs := rfl
    rcases ofItems_cases vs with ⟨hk, -⟩ | ⟨hk, hvs⟩ | ⟨hk, -⟩ | hk <;>
      simp only [shapeFor, operationOf, Site.ofTemplate, hkind, hk] at hshape hsites ⊢
    · exact substituteList_agree hselector hshape fun shape hs selector hsel =>
        .of_sites (hsites shape hs selector hsel)
    · exact substituteTable_agree hselector hshape hvs fun shape hs selector hsel =>
        .of_sites (hsites shape hs selector hsel)
    · exact substituteDocuments_agree hselector ho (hsites .string rfl)
  | _ => rfl

end SameArguments

/-- The template fails exactly if one of its sites does, and as the first of them. -/
theorem substitute_eq_error_iff {v : Value} (hshape : shapeFor r v = .ok shape)
    (hsel : Selector.ofArgument r.selector = .ok selector) {e : Failure} :
    (substitute r v).outcome = .error e ↔
      (sites r v).mapM (Site.outcome (environment r selector) r.options.default) = .error e := by
  -- The shape of the request may be invalid where it is not looked at; then it is put right first.
  let q : Request := { r with shape := .shape shape }
  have hq : shapeFor q v = shapeFor r v := by
    rw [hshape, shapeFor]
    split
    · simpa only [shapeFor, *] using hshape
    · simpa only [shapeFor, *] using hshape
    · rfl
  have hagree : (substitute r v).outcome = (substitute q v).outcome :=
    substitute_agree_of_sites rfl ⟨rfl, rfl⟩ hq fun _ _ _ _ => rfl
  have hcalls := calls_substitute (r := q) rfl hsel v
  have hends : ((substitute q v).outcome.map fun _ => ()) =
      ((Site.ofTemplate shape r.options.recurse v).mapM
        (Site.outcome (environment r selector) r.options.default)).map fun _ => () :=
    (congrArg Traced.outcome hcalls).trans (walk_outcome _)
  rw [hagree, sites_eq hshape, ← map_eq_error_iff fun _ => (), hends, map_eq_error_iff]

/-- Two runs under the same arguments end alike if the sites that the first one comes to have the
same outcomes. -/
theorem substitute_agree {v : Value}
    (hselector : Selector.ofArgument r'.selector = Selector.ofArgument r.selector)
    (ho : r.options.SameButDefault r'.options) (hshape : shapeFor r' v = shapeFor r v)
    (h : ∀ selector, Selector.ofArgument r.selector = .ok selector →
      ∀ site ∈ Site.visited (environment r selector) r.options.default (sites r v),
        site.outcome (environment r selector) r.options.default =
          site.outcome (environment r' selector) r'.options.default) :
    (substitute r v).outcome = (substitute r' v).outcome := by
  have hsites : sites r' v = sites r v := by rw [sites, sites, hshape, ho.recurse]
  rcases hs : shapeFor r v with e | shape
  · refine substitute_agree_of_sites hselector ho hshape fun _ _ site hsite => ?_
    rw [sites, hs] at hsite
    cases hsite
  rcases hsel : Selector.ofArgument r.selector with e | selector
  · refine substitute_agree_of_sites hselector ho hshape fun selector hvalid => ?_
    rw [hsel] at hvalid
    cases hvalid
  have hvisited := h selector hsel
  rcases hrun : (sites r v).mapM (Site.outcome (environment r selector) r.options.default) with
    e | ws
  · have hrun' := Site.mapM_eq_error_of_visited hrun hvisited
    rw [← hsites] at hrun'
    rw [(substitute_eq_error_iff hs hsel).2 hrun,
      (substitute_eq_error_iff (hshape.trans hs) (hselector.trans hsel)).2 hrun']
  · rw [Site.visited_of_ok (forall_ok_of_mapM hrun)] at hvisited
    refine substitute_agree_of_sites hselector ho hshape fun selector' hvalid => ?_
    cases hsel.symm.trans hvalid
    exact hvisited

end Engine
end Stencil
