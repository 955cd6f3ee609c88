import Stencil.Proofs.Engine.Agreement

/-!
# A default that is not used does not matter

The default stands in for null and for nothing else, and only at two places: a whole placeholder
whose key has the value null, and a placeholder inside a text whose key is null or absent. The two
rules differ: an absent key of a whole placeholder leaves the text and never takes the default.

A run in which neither happens ends alike under every default, also under one that cannot be brought
into the shape asked for: the default is converted only where it is used. That rests on conversions
never making null of anything else (`Fill.applyDefault_eq`).

Main result: `substitute_default`.
-/

namespace Stencil

/-- The default is not used at a placeholder: a whole one has no value or one that is not null, and
one inside a text has a value that is not null. -/
def Occurrence.IgnoresDefault (env : Environment) : Occurrence → Prop
  | whole _ _ key => env.find? (.text (String.ofList key)) ≠ some .null
  | inside key => ∃ v, env.find? (.text (String.ofList key)) = some v ∧ v ≠ .null

/-- The default is not used at a site. -/
def Site.IgnoresDefault (env : Environment) (site : Site) : Prop :=
  site.occurrence.IgnoresDefault (site.environment env)

theorem Occurrence.IgnoresDefault.outcome_eq {env : Environment} {o : Occurrence}
    (h : o.IgnoresDefault env) (default default' : Value) :
    o.outcome env default = o.outcome env default' := by
  cases o with
  | whole shape s key =>
    show Fill.wholeResult env shape default s key = Fill.wholeResult env shape default' s key
    rw [Fill.wholeResult, Fill.wholeResult]
    cases hv : env.find? (.text (String.ofList key)) with
    | none => rfl
    | some v =>
      have hne : v ≠ .null := by
        rintro rfl
        exact h hv
      dsimp only
      rw [Fill.counted_of_ne_null hne, Fill.counted_of_ne_null hne]
  | inside key =>
    obtain ⟨v, hv, hne⟩ := h
    show Fill.standIn env default key = Fill.standIn env default' key
    rw [Fill.standIn, Fill.standIn, hv, Option.getD_some, Fill.counted_of_ne_null hne,
      Fill.counted_of_ne_null hne]

namespace Engine

/-- **The default matters only where it is used.** If the default is used at no site that the run
comes to, the run with another default ends with the same result or with the same error. -/
theorem substitute_default (r : Request) (v default' : Value)
    (h : ∀ selector, Selector.ofArgument r.selector = .ok selector →
      ∀ site ∈ Site.visited (environment r selector) r.options.default (sites r v),
        site.IgnoresDefault (environment r selector)) :
    (substitute r v).outcome =
      (substitute { r with options := { r.options with default := default' } } v).outcome :=
  substitute_agree rfl ⟨rfl, rfl⟩ rfl fun selector hsel site hsite =>
    (h selector hsel site hsite).outcome_eq r.options.default default'

/-- The second default is no integer. The null behind the absent key is not reached, because the
text that stays there is no integer either. -/
theorem substitute_default_unreached :
    let r : Request :=
      { shape := .shape .integer, scopes := [some [(.text "n", .text "5"), (.text "z", .null)]] }
    let template : Value := .list [.text "%n%", .text "%gone%", .text "%z%"]
    (¬ ∃ w, Coercion.coerce .integer (.text "x") = .ok w) ∧
      (substitute r template).outcome =
        (substitute { r with options := { r.options with default := .text "x" } }
          template).outcome := by
  intro r template
  refine ⟨?_, substitute_default r template (.text "x") fun selector hsel => ?_⟩
  · rintro ⟨w, hw⟩
    cases hw
  cases hsel
  let site (s : String) : Site := ⟨none, .whole .integer ("%" ++ s ++ "%") s.toList⟩
  have hsites : sites r template = [site "n"] ++ site "gone" :: [site "z"] := rfl
  rw [hsites, Site.visited_of_error (List.forall_mem_singleton.2 ⟨_, rfl⟩) rfl]
  refine List.forall_mem_cons.2 ⟨?_, List.forall_mem_singleton.2 ?_⟩
  · intro hnull
    cases hnull
  · intro hnull
    cases hnull

end Engine
end Stencil
