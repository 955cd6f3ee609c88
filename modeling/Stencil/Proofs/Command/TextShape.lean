import Stencil.Proofs.Command.Stages
import Stencil.Proofs.Command.Taking
import Stencil.Proofs.Engine.Factor

/-!
# The shapes `any` and `string` print the same

The command for texts prints the text of its result. A result in the shape `string` is the text of
the result without a shape, so the command does the same for both shapes, with the same records, the
same output and the same ending.

**Runs.** The result becomes text within the filling (`filledText_string`), from the same values
whatever the shape is.

**Arguments.** `Settings.textual` forgets which of the two shapes is asked for. Arguments that
differ in the value of one option for the shape are taken alike.

Main result: `typed_results_factor`.
-/

namespace Stencil

/-- The shape, with `string` in place of `any`. -/
def Shape.textual : Shape → Shape
  | any => string
  | s => s

/-- The settings with the shape `string` in place of `any`. -/
def Settings.textual (s : Settings) : Settings := { s with shape := s.shape.textual }

@[simp] theorem Shape.textual_textual (s : Shape) : s.textual.textual = s.textual := by
  cases s <;> rfl

theorem Settings.textual_eq_self {s : Settings} (h : s.shape ≠ .any) : s.textual = s := by
  have hshape : s.shape.textual = s.shape := by
    rw [Shape.textual]
    exact h
  rw [textual, hshape]

/-! ## Runs -/

namespace Running

/-- The shape `string` leads to the same text as the shape `any`. -/
theorem filledText_string {r : Request} (hr : r.shape = .shape .string) (s : String) :
    filledText r (.text s) = filledText { r with shape := .shape .any } (.text s) := by
  have hs : Shape.ofArgument r.shape = .ok .string := by rw [hr, Shape.ofArgument_shape]
  rw [filledText, filledText, Engine.substituteText_factor hs (Or.inr rfl), bind_assoc]
  exact congrArg _ (funext Fill.converting_textOf?)

/-- Filling a text does the same for the shapes `any` and `string`. -/
theorem text_any (s : String) (c : Settings) :
    text s { c with shape := .any } = text s { c with shape := .string } := by
  unfold text
  refine congrArg _ (funext fun scopes => congrArg _ (funext fun _ => ?_))
  rw [request, request, bind_assoc, bind_assoc]
  refine congrArg _ (funext fun st => ?_)
  rw [pure_bind, pure_bind]
  refine congrArg (filling _ · >>= _) (Eq.symm ?_)
  rw [filledText_string]
  rfl

/-- A command does the same for the shapes `any` and `string`; the other command has no shape. -/
theorem command_textual (c : Command) (argument : String) (s : Settings) :
    command c argument s = command c argument s.textual := by
  cases c with
  | render => rfl
  | text =>
    by_cases hs : s.shape = .any
    · have hany : s = { s with shape := .any } := by rw [← hs]
      have hstring : s.textual = { s with shape := .string } := by rw [Settings.textual, hs]; rfl
      rw [hstring, command, command, ← text_any, ← hany]
    · rw [Settings.textual_eq_self hs]

end Running

/-! ## Arguments -/

/-- Every change keeps settings alike that are alike but for these two shapes. -/
theorem Change.keepsAlike_textual {set : Settings → Settings} (h : Change set) :
    KeepsAlike Settings.textual set := by
  cases h <;> refine keepsAlike_of_view fun s => ?_ <;> simp [Settings.textual]

namespace Arguments

/-- The option for a shape and the name of a shape make this shape the one that is asked for. -/
theorem exists_shapePairs : ∃ read?,
    OptionPair .text "--shape" "any" read? (fun s => { s with shape := .any }) ∧
      OptionPair .text "--shape" "string" read? (fun s => { s with shape := .string }) :=
  ⟨_, ⟨rfl, rfl, rfl, rfl, rfl⟩, ⟨rfl, rfl, rfl, rfl, rfl⟩⟩

/-- The arguments of the command for texts mean the same for `any` and `string` as the value of an
option for the shape, but for these shapes. -/
theorem read_any_string {before : List String} (hbefore : "--" ∉ before) (after : List String) :
    Alike Settings.textual (read ("text" :: (before ++ "--shape" :: "any" :: after)))
      (read ("text" :: (before ++ "--shape" :: "string" :: after))) := by
  obtain ⟨read?, hany, hstring⟩ := exists_shapePairs
  exact hany.read_alike hstring (fun _ => rfl)
    (keepsAlike_options (fun _ => Change.keepsAlike_textual) .text) hbefore after

end Arguments

namespace Program

theorem least_textual (w : World) (s : Settings) : least w s = least w s.textual := rfl

theorem perform_textual (c : Command) (argument : String) (s : Settings) (w : World) :
    perform c argument s w = perform c argument s.textual w := by
  rw [perform, perform, Running.command_textual]

/-- Arguments that are alike but for these shapes lead to the same run. -/
theorem run_of_alike {args args' : List String}
    (h : Arguments.Alike Settings.textual (Arguments.read args) (Arguments.read args'))
    (w : World) : run args w = run args' w := by
  rw [run, run]
  generalize Arguments.read args = i at h
  generalize Arguments.read args' = i' at h
  cases h with
  | same i => rfl
  | @run c argument s s' h =>
    dsimp only
    rw [least_textual w s, least_textual w s', perform_textual c argument s,
      perform_textual c argument s', h]

/-- **Typed results factor through `any`.** Filling a text that is one placeholder in a shape is
filling it in the shape `any` and bringing the result into the shape, with the same failures and the
same trace. In the shape `string` this holds of every text. Hence runs of the command for texts that
differ in these two shapes only have the same ending, output and records, and leave the same world;
arguments differ in nothing else if they do in the value of one option for the shape. -/
theorem typed_results_factor :
    (∀ (r : Request) (shape : Shape) (s : String), Shape.ofArgument r.shape = .ok shape →
      let untyped := Engine.substituteText { r with shape := .shape .any } (.text s)
      let later := untyped >>= fun v => Fill.coercing (Coercion.coerce shape v)
      (∀ key, Placeholder.IsKey key → s.toList = Piece.tokenText key →
        Engine.substituteText r (.text s) = later) ∧
      (shape = .string → Engine.substituteText r (.text s) = later)) ∧
    (∀ (args args' : List String) (s : String) (c : Settings) (w : World),
      Arguments.read args = .run .text s { c with shape := .any } →
      Arguments.read args' = .run .text s { c with shape := .string } →
      run args w = run args' w) ∧
    ∀ (before after : List String) (w : World), "--" ∉ before →
      run ("text" :: (before ++ "--shape" :: "any" :: after)) w =
        run ("text" :: (before ++ "--shape" :: "string" :: after)) w := by
  refine ⟨fun r shape s hs => ⟨fun key hkey htoken => ?_, fun hstring => ?_⟩,
    fun args args' s c w hread hread' => ?_, fun before after w hbefore => ?_⟩
  · exact Engine.substituteText_factor hs
      (Or.inl ⟨key, Placeholder.whole?_eq_some_iff.2 ⟨hkey, htoken⟩⟩)
  · exact Engine.substituteText_factor hs (Or.inr hstring)
  · refine run_of_alike ?_ w
    rw [hread, hread']
    exact .run rfl
  · exact run_of_alike (Arguments.read_any_string hbefore after) w

/-- The default of a null is no integer, before and after the choice; and a text with a placeholder
that stays is printed alike. -/
theorem typed_results_factor_refused :
    let r : Request :=
      { shape := .shape .integer, options := { default := .text "x" },
        scopes := [some [(.text "n", .null)]] }
    Engine.substituteText r (.text "%n%") =
      (Engine.substituteText { r with shape := .shape .any } (.text "%n%") >>= fun v =>
        Fill.coercing (Coercion.coerce .integer v)) ∧
    run ["text", "--var", "n=1", "--shape", "any", "%n% of %m%"] {} =
      run ["text", "--var", "n=1", "--shape", "string", "%n% of %m%"] {} := by
  intro r
  obtain ⟨hengine, -, hcommand⟩ := typed_results_factor
  exact ⟨(hengine r .integer "%n%" rfl).1 ['n'] ⟨List.cons_ne_nil _ _, by decide⟩ rfl,
    hcommand ["--var", "n=1"] ["%n% of %m%"] {} (by decide)⟩

end Program
end Stencil
