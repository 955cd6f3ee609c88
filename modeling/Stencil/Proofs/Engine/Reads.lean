import Stencil.Proofs.Engine.Operation
import Stencil.Proofs.Itemwise
import Stencil.Proofs.Template.Calls

/-!
# Exact reads and the first error

`substitute` comes to the sites of its template (`Site.ofTemplate`) one after the other. What it
asks of the global scope is what the look-ups at these sites ask, in this order and nothing else,
and it fails with the error of the first site that has one. After such a site no further look-up is
made.

The sites and their order are read off the template. What is found on the way changes only where
the filling stops.

Main result: `substitute_reads`.
-/

namespace Stencil.Engine

open Fill

variable {r : Request} {shape : Shape} {selector : Selector}

/-- `substitute` makes the calls of its sites. -/
theorem calls_substitute (hs : Shape.ofArgument r.shape = .ok shape)
    (hsel : Selector.ofArgument r.selector = .ok selector) (v : Value) :
    calls (substitute r v) =
      visit (environment r selector) r.options.default
        (Site.ofTemplate shape r.options.recurse v) := by
  by_cases hv : v = .null
  · subst hv
    rfl
  have hoperation : calls (substitute r v) = calls (operationOf r v) := by
    rw [substitute_eq hv, calls_bind (fun _ => rfl)]
    rfl
  rw [hoperation]
  cases v with
  | null => exact absurd rfl hv
  | text s =>
    rw [operationOf_text hs hsel, Site.ofTemplate, visit_map_none]
    exact calls_text _ _ _ s
  | document es =>
    rw [operationOf_document hsel, Site.ofTemplate]
    exact calls_documentItem (v := .document es) _ _ rfl
  | list vs =>
    rw [Site.ofTemplate]
    rcases TemplateKind.ofItems_cases vs with ⟨hk, hvs⟩ | ⟨hk, hvs⟩ | ⟨hk, hvs⟩ | hk
    · simp only [hk]
      rw [operationOf_list hs hsel hk, visit_map_none, calls_map]
      exact calls_items _ _ _ hvs
    · simp only [hk]
      rw [operationOf_table hs hsel hk, visit_map_none, calls_map]
      exact calls_rows _ _ _ hvs
    · simp only [hk]
      rw [operationOf_documentList hsel hk, calls_map]
      exact calls_documentItems _ _ hvs
    · have hkind : TemplateKind.ofValue (.list vs) = .other := hk
      rw [operationOf_other hkind, hk]
      rfl
  | _ => rfl

/-- **Exact reads and the first error.** The template fails exactly if one of its sites does, with
the error of the first of them. The calls on the global scope are those of all sites in order, or
those up to the first site that fails and of this site itself. -/
theorem substitute_reads (hs : Shape.ofArgument r.shape = .ok shape)
    (hsel : Selector.ofArgument r.selector = .ok selector) (v : Value) :
    let env := environment r selector
    let sites := Site.ofTemplate shape r.options.recurse v
    let run := substitute r v
    (∀ e, run.outcome = .error e ↔ ∃ before s after, sites = before ++ s :: after ∧
      (∀ b ∈ before, ∃ w, b.outcome env r.options.default = .ok w) ∧
      s.outcome env r.options.default = .error e) ∧
    ((∀ s ∈ sites, ∃ w, s.outcome env r.options.default = .ok w) →
      run.trace.filter Event.isCall = sites.flatMap (Site.reads env)) ∧
    (∀ before s after e, sites = before ++ s :: after →
      (∀ b ∈ before, ∃ w, b.outcome env r.options.default = .ok w) →
      s.outcome env r.options.default = .error e →
      run.trace.filter Event.isCall = (before ++ [s]).flatMap (Site.reads env)) := by
  intro env sites run
  -- Both parts of `calls` are those of one walk: its trace gives the reads, its outcome the error.
  have hcalls : calls run = visit env r.options.default sites := calls_substitute hs hsel v
  have htrace : run.trace.filter Event.isCall = (visit env r.options.default sites).trace :=
    congrArg Traced.trace hcalls
  have houtcome : (run.outcome.map fun _ => ()) =
      (sites.mapM (Site.outcome env r.options.default)).map fun _ => () :=
    (congrArg Traced.outcome hcalls).trans (walk_outcome sites)
  refine ⟨fun e => ?_, fun h => ?_, fun before s after e hsites hb he => ?_⟩
  · rw [← mapM_eq_error_iff, ← map_eq_error_iff (fun _ => ()), houtcome, map_eq_error_iff]
  · rw [htrace, visit, walk_of_ok h]
  · rw [htrace, visit, hsites, walk_of_error hb he]

/-- The text behind the one that is no integer is not looked up any more. -/
theorem substitute_reads_cut :
    let r : Request :=
      { shape := .shape .integer, scopes := [some [(.text "a", .int 1)]],
        globals := [(.text "n", .text "2"), (.text "b", .text "x")] }
    Shape.ofArgument r.shape = .ok .integer ∧ Selector.ofArgument r.selector = .ok .all ∧
      (substitute r (.list [.text "%a%", .text "%n%", .text "%b%", .text "%n%"])).trace.filter
          Event.isCall =
        [.asked "n", .fetched "n", .asked "b", .fetched "b"] := by
  intro r
  have hs : Shape.ofArgument r.shape = .ok .integer := rfl
  have hsel : Selector.ofArgument r.selector = .ok .all := rfl
  let site (s : String) (key : Char) : Site := ⟨none, .whole .integer s [key]⟩
  refine ⟨hs, hsel, (substitute_reads hs hsel _).2.2 [site "%a%" 'a', site "%n%" 'n']
    (site "%b%" 'b') [site "%n%" 'n'] _ rfl ?_ rfl⟩
  exact List.forall_mem_cons.2 ⟨⟨_, rfl⟩, List.forall_mem_singleton.2 ⟨_, rfl⟩⟩

end Stencil.Engine
