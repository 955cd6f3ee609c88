import Stencil.Proofs.Engine.Agreement

/-!
# Variables that are not read do not matter

How a template comes out depends on the scopes only through what the look-ups at its sites answer.
Two runs whose look-ups answer alike end alike, with the same result or the same error, whatever
else the scopes and the global scope hold.

**The argument.** What becomes of a placeholder depends on the answer for its key alone, so two runs
whose look-ups answer alike agree at every placeholder (`substitute_agree`).

**Selectors.** A filling from local scopes never asks the global scope, and one from the global
scope never looks into the local ones, not even to see if there are any.

Main result: `substitute_noninterference`.
-/

namespace Stencil

/-- What the look-up at an occurrence answers. -/
def Occurrence.answer (env : Environment) (o : Occurrence) : Except Failure (Option Value) :=
  (env.resolve o.key).outcome

/-- What the look-up at a site answers. -/
def Site.answer (env : Environment) (site : Site) : Except Failure (Option Value) :=
  site.occurrence.answer (site.environment env)

namespace Fill

variable {env env' : Environment} {shape : Shape} {default : Value}

theorem wholeResult_congr {s : String} {key : List Char}
    (h : env.find? (.text (String.ofList key)) = env'.find? (.text (String.ofList key))) :
    wholeResult env shape default s key = wholeResult env' shape default s key := by
  rw [wholeResult, wholeResult, h]

theorem standIn_congr {key : List Char}
    (h : env.find? (.text (String.ofList key)) = env'.find? (.text (String.ofList key))) :
    standIn env default key = standIn env' default key := by
  rw [standIn, standIn, h]

end Fill

namespace Site

variable {env env' : Environment} {default : Value}

/-- What becomes of the placeholder at a site depends on the answer alone. -/
theorem outcome_eq_of_answer_eq {site : Site} (h : site.answer env = site.answer env') :
    site.outcome env default = site.outcome env' default := by
  obtain ⟨home, occurrence⟩ := site
  rw [answer, answer, Occurrence.answer, Occurrence.answer, Environment.resolve_outcome,
    Environment.resolve_outcome] at h
  have hfind := Except.ok.inj h
  cases occurrence with
  | whole shape s key => exact Fill.wholeResult_congr hfind
  | inside key => exact Fill.standIn_congr hfind

/-- Being its own scope, a document changes the local scopes and nothing else. -/
theorem environment_mk (site : Site) (selector : Selector) (scopes : List (Option Document)) :
    ∃ own, ∀ globals, site.environment ⟨selector, scopes, globals⟩ = ⟨selector, own, globals⟩ := by
  obtain ⟨_ | es, occurrence⟩ := site
  · exact ⟨scopes, fun _ => rfl⟩
  · cases scopes with
    | nil => exact ⟨[some es], fun _ => rfl⟩
    | cons scope scopes => exact ⟨scope :: scopes, fun _ => rfl⟩

/-- A filling from the local scopes never asks the global scope. -/
theorem answer_localOnly (site : Site) (scopes : List (Option Document))
    (globals globals' : Document) :
    site.answer ⟨.localOnly, scopes, globals⟩ = site.answer ⟨.localOnly, scopes, globals'⟩ := by
  obtain ⟨own, hown⟩ := site.environment_mk .localOnly scopes
  rw [answer, answer, hown, hown, Occurrence.answer, Occurrence.answer,
    Environment.resolve_outcome, Environment.resolve_outcome]
  rfl

/-- A filling from the global scope never looks into a local one. -/
theorem answer_globalOnly (site : Site) (scopes scopes' : List (Option Document))
    (globals : Document) :
    site.answer ⟨.globalOnly, scopes, globals⟩ = site.answer ⟨.globalOnly, scopes', globals⟩ := by
  obtain ⟨own, hown⟩ := site.environment_mk .globalOnly scopes
  obtain ⟨own', hown'⟩ := site.environment_mk .globalOnly scopes'
  rw [answer, answer, hown, hown', Occurrence.answer, Occurrence.answer,
    Environment.resolve_outcome, Environment.resolve_outcome]
  rfl

end Site

namespace Engine

/-- **Variables that are not read do not matter.** Two runs under the same arguments, whose scopes
and global scopes may differ in anything, end with the same result or with the same error if the
look-ups answer alike at every site that the filling comes to. In particular a filling from the
local scopes does not depend on the global scope, nor one from the global scope on the local ones
or on whether there are any. -/
theorem substitute_noninterference (r : Request) (v : Value) (scopes : List (Option Document))
    (globals : Document) :
    let r' : Request := { r with scopes, globals }
    ((∀ selector, Selector.ofArgument r.selector = .ok selector →
        ∀ site ∈ Site.visited (environment r selector) r.options.default (sites r v),
          site.answer (environment r selector) = site.answer (environment r' selector)) →
      (substitute r v).outcome = (substitute r' v).outcome) ∧
    (Selector.ofArgument r.selector = .ok .localOnly →
      (substitute r v).outcome = (substitute { r with globals } v).outcome) ∧
    (Selector.ofArgument r.selector = .ok .globalOnly →
      (substitute r v).outcome = (substitute { r with scopes } v).outcome) := by
  intro r'
  refine ⟨fun h => ?_, fun hlocal => ?_, fun hglobal => ?_⟩
  · exact substitute_agree rfl ⟨rfl, rfl⟩ rfl fun selector hsel site hsite =>
      Site.outcome_eq_of_answer_eq (h selector hsel site hsite)
  · refine substitute_agree rfl ⟨rfl, rfl⟩ rfl fun selector hsel site _ => ?_
    cases hlocal.symm.trans hsel
    exact Site.outcome_eq_of_answer_eq (site.answer_localOnly r.scopes r.globals globals)
  · refine substitute_agree rfl ⟨rfl, rfl⟩ rfl fun selector hsel site _ => ?_
    cases hglobal.symm.trans hsel
    exact Site.outcome_eq_of_answer_eq (site.answer_globalOnly r.scopes scopes r.globals)

/-- The scopes differ in the key `z`, which stands in a value and in a document that is not
entered, but is never looked up. -/
theorem substitute_noninterference_unread :
    let d : Document := [(.text "x", .text "%a% and %b%"),
      (.text "inner", .document [(.text "y", .text "%z%")])]
    let scopes := [some [(.text "a", .text "%z%")]]
    let scopes' := [none, some [(.text "z", .text "new"), (.text "a", .text "%z%")]]
    let globals := [(.text "b", .text "2"), (.text "z", .text "old")]
    let globals' := [(.text "b", .text "2")]
    let run (selector : Selector) (scopes : List (Option Document)) (globals : Document) :=
      (substitute { selector := .selector selector, scopes, globals } (.document d)).outcome
    run .all scopes globals = run .all scopes' globals' ∧
      run .localOnly scopes globals = run .localOnly scopes globals' ∧
      run .globalOnly scopes globals = run .globalOnly [] globals := by
  intro d scopes scopes' globals globals' run
  let r (selector : Selector) : Request := { selector := .selector selector, scopes, globals }
  refine ⟨(substitute_noninterference (r .all) (.document d) scopes' globals').1 fun _ hsel => ?_,
    (substitute_noninterference (r .localOnly) (.document d) [] globals').2.1 rfl,
    (substitute_noninterference (r .globalOnly) (.document d) [] globals').2.2 rfl⟩
  cases hsel
  let site (key : Char) : Site := ⟨some d, .inside [key]⟩
  have hsites : sites (r .all) (.document d) = [site 'a', site 'b'] := rfl
  rw [hsites, Site.visited_of_ok]
  · exact List.forall_mem_cons.2 ⟨rfl, List.forall_mem_singleton.2 rfl⟩
  · exact List.forall_mem_cons.2 ⟨⟨_, rfl⟩, List.forall_mem_singleton.2 ⟨_, rfl⟩⟩

end Engine
end Stencil
