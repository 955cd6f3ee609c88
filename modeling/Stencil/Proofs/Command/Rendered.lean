import Stencil.Proofs.Command.Output
import Stencil.Proofs.Engine.Inherited
import Stencil.Proofs.File.Refusal
import Stencil.Proofs.Value.Writable

/-!
# What was rendered is written

A template that was filled can be written unless an integer is past the limit of decimal text, or,
as JSON, a key is bytes, a date or a moment, or an object is a part of itself, or its collections lie
too deep inside each other for the library. Integers and keys come from the template: filling makes
neither. A run that has filled its template and can write the result ends with success, or with exit
code 1 if the file for the result cannot be written; a result that cannot be written breaks it off.

Main result: `rendered_written`.
-/

namespace Stencil

/-! ## Keys and integers of templates -/

namespace Value

/-- The scalars that JSON has no name for. -/
def isNameless : Value → Bool
  | bytes _ | date _ | moment _ => true
  | _ => false

theorem hasName_iff {k : Value} (h : k.isScalar = true) :
    Json.hasName k = true ↔ k.isNameless = false := by
  cases k <;> simp_all [Json.hasName, isNameless, isScalar]

/-- Oversized integers are never made. -/
theorem inherited_not_oversized :
    Inherited (fun v => v.holdsOversized = false) fun k => k.holdsOversized = false where
  null := by rw [holdsOversized] <;> simp
  text s := by rw [holdsOversized] <;> simp
  list vs := by rw [holdsOversized, anyOversized_eq_false]
  document es := by rw [holdsOversized, anyEntryOversized_eq_false]

/-- Keys are never made. -/
theorem inherited_keysAre (p : Value → Prop) : Inherited (KeysAre p) p where
  null := by rintro k ⟨⟩
  text s := by rintro k ⟨⟩
  list _ := keysAre_list
  document _ := keysAre_document

end Value

/-- **All keys inside a template are scalars.** -/
theorem Loader.keysAre_scalar {t : Tree} {p : Path} {v : Value} (h : template? t p = some v) :
    v.KeysAre fun k => k.isScalar = true := by
  obtain ⟨e | w, hrun⟩ := exists_value_run t p {}
  · rw [template?, loadTemplate, run_bind_of_error hrun] at h
    cases h
  · have hload : ((loadTemplate t p).run.run {}).1 = .ok w := by
      rw [loadTemplate, run_bind_of_ok hrun]
      rfl
    rw [template?, hload] at h
    cases h
    obtain ⟨data, -, hread⟩ := (parses_of_value_run hrun).exists_data
    exact Yaml.keysAre_scalar_of_read hread

/-! ## Endings -/

/-- How a run ends that has a text to write. -/
inductive EndsWriting (t : Tree) (settings : Settings) (cs : List Char) : Ending → Prop
  | written (h : t.Takes settings cs) : EndsWriting t settings cs (.exit 0)
  /-- The file for the text cannot be written. -/
  | failed {p : Path} {f : FileFault} (hp : Running.named settings.output? = some p)
      (hf : (t.save p (Text.Utf8.encode cs)).2 = some f) (husable : f.error ≠ .unusable) :
      EndsWriting t settings cs (.exit 1)
  /-- No file can have the path. -/
  | unusable {p : Path} (hp : Running.named settings.output? = some p) (h : p.isUnusable = true) :
      EndsWriting t settings cs (.crash .unusablePath)

/-- The ending that a result of a command stands for. -/
def endingOf : Except Ending Unit → Ending
  | .ok () => .exit 0
  | .error e => e

namespace Running

theorem afterSaving_ends (p : Path) (fault? : Option FileFault) (s : Progress) :
    endingOf ((afterSaving p fault?).run.run s).1 =
      match fault? with
      | none => .exit 0
      | some f => if f.error = .unusable then .crash .unusablePath else .exit 1 := by
  cases fault? with
  | none => rfl
  | some f =>
    unfold afterSaving
    dsimp only
    split <;> rfl

theorem write_ends (settings : Settings) (cs : List Char) (s : Progress) :
    EndsWriting s.world.files settings cs (endingOf ((write settings cs).run.run s).1) := by
  cases hnamed : named settings.output? with
  | none =>
    have hrun : endingOf ((write settings cs).run.run s).1 = .exit 0 := by
      rw [write, hnamed]
      rfl
    rw [hrun]
    refine .written fun p hp => ?_
    rw [hnamed] at hp
    cases hp
  | some p =>
    have hsave : ((save p cs).run.run s).1 =
        ((afterSaving p (s.world.files.save p (Text.Utf8.encode cs)).2).run.run
          { s with world :=
            { s.world with files := (s.world.files.save p (Text.Utf8.encode cs)).1 } }).1 := rfl
    have hwrite : write settings cs = save p cs := by rw [write, hnamed]
    rw [hwrite, hsave, afterSaving_ends]
    cases hfault : (s.world.files.save p (Text.Utf8.encode cs)).2 with
    | none =>
      refine .written fun q hq => ?_
      rw [hnamed] at hq
      cases hq
      exact hfault
    | some f =>
      dsimp only
      split
      · next herror => exact .unusable hnamed (Tree.isUnusable_of_save hfault herror)
      · next herror => exact .failed hnamed hfault herror

theorem format_run (settings : Settings) (v : Value) (s : Progress) : (format settings v).run.run s =
    ((settings.format.textOf s.world.files.library v).mapError fun e => .crash (.output e), s) := by
  have hfiles : files.run.run s = (.ok s.world.files, s) := rfl
  unfold format
  rw [run_bind_of_ok hfiles]
  cases settings.format.textOf s.world.files.library v <;> rfl

/-- A template that is filled is put into the format. -/
theorem draft_render_run (settings : Settings) {r : Request} {v w : Value} {s : Progress}
    (hlasts : s.world.files.library.givesUp (material r v) = none)
    (h : (Engine.substitute r v).outcome = .ok w) :
    ∃ t, t.world = s.world ∧ (draft .render settings v r).run.run s =
      ((settings.format.textOf s.world.files.library w).mapError fun e => .crash (.output e), t) := by
  let t : Progress := { s with
    records := s.records ++ (Engine.substitute r v).trace.filterMap LogRecord.ofEvent? }
  have hfiles : files.run.run s = (.ok s.world.files, s) := rfl
  have hfilling : (filling (material r v) (Engine.substitute r v)).run.run s = (.ok w, t) := by
    rw [filling_eq, run_bind_of_ok hfiles, hlasts, h]
    rfl
  exact ⟨t, rfl, (run_bind_of_ok hfilling).trans (format_run settings w t)⟩

end Running

namespace OutputFormat

variable {lib : Library} {format : OutputFormat} {v : Value}

/-- A value has a text where there is room for it and nothing inside it is in the way. -/
theorem exists_textOf_iff : (∃ cs, format.textOf lib v = .ok cs) ↔
    (∃ cs, format.writeNamed (v.names (lib.objects v)) v = .ok cs) ∧ lib.hasNoRoom format v = false := by
  unfold textOf
  cases lib.hasNoRoom format v <;> simp

/-- There is room for values of few levels. -/
theorem hasNoRoom_eq_false (h : v.depth < roomyDepth) : lib.hasNoRoom format v = false := by
  rw [← Bool.not_eq_true]
  exact fun hroom => Nat.not_le_of_lt h (lib.depth_of_hasNoRoom format v hroom)

end OutputFormat

/-- How a run ends whose template is filled. -/
theorem Program.exists_run_of_filled {args : List String} {argument : String} {settings : Settings}
    (hread : Arguments.read args = .run .render argument settings) {w : World} {l : Loaded}
    (hload : Loaded.ofFiles? w.files .render argument settings = some l) {gs : Document}
    (hpairs : Pair.parse settings.globalPairs = .ok gs) {v : Value}
    (hlasts : w.files.library.givesUp (Running.material
      (l.request .render settings (l.store w.store gs)) l.template) = none)
    (hfill : (Engine.substitute (l.request .render settings (l.store w.store gs)) l.template).outcome =
      .ok v) :
    ∃ ending output records after, run args w = (.done ending output records, after) ∧
      (∀ cs, settings.format.textOf w.files.library v = .ok cs →
        EndsWriting w.files settings cs ending) ∧
      ∀ e, settings.format.textOf w.files.library v = .error e → ending = .crash (.output e) := by
  obtain ⟨s, hprepare, hworld, -⟩ := Running.prepare_of_sound (s := { world := w }) hload hpairs
  have hfiles : s.world.files = w.files := by rw [hworld]
  obtain ⟨t, hdraftWorld, hdraft⟩ := Running.draft_render_run (s := s) settings
    (by rw [hfiles]; exact hlasts) hfill
  have hrun := run_eq_seen hread w
  rw [Running.command_eq, run_bind_of_ok hprepare] at hrun
  dsimp only at hrun
  rw [hfiles] at hdraft
  cases hwrite : settings.format.textOf w.files.library v with
  | error e =>
    rw [hwrite] at hdraft
    rw [run_bind_of_error hdraft] at hrun
    refine ⟨_, _, _, _, hrun, ?_, ?_⟩
    · rintro cs ⟨⟩
    · rintro e' ⟨⟩
      rfl
  | ok cs =>
    rw [hwrite] at hdraft
    rw [run_bind_of_ok hdraft] at hrun
    have hends := Running.write_ends settings cs t
    rw [hdraftWorld, hfiles] at hends
    refine ⟨_, _, _, _, hrun, ?_, ?_⟩
    · rintro cs' ⟨⟩
      exact hends
    · rintro e ⟨⟩

/-- **What was rendered is written.** If the engine fills a template, the result has YAML text unless
it holds an oversized integer, and JSON text unless it does, or bytes, a date or a moment is a key
inside it, or an object in it is a part of itself; in both formats there must be room for it, which
there is for fewer levels than `roomyDepth`. Such integers and keys are those of the template. If the
result has a text, the run ends with success, or with exit code 1 because the file for the text cannot
be written (no file has a path with a null character). If it has none, that breaks the run off. -/
theorem rendered_written {args : List String} {argument : String} {settings : Settings}
    (hread : Arguments.read args = .run .render argument settings) (w : World) {l : Loaded}
    (hload : Loaded.ofFiles? w.files .render argument settings = some l) {gs : Document}
    (hpairs : Pair.parse settings.globalPairs = .ok gs) {v : Value}
    (hlasts : w.files.library.givesUp (Running.material
      (l.request .render settings (l.store w.store gs)) l.template) = none)
    (hfill : (Engine.substitute (l.request .render settings (l.store w.store gs)) l.template).outcome =
      .ok v) :
    let lib := w.files.library
    ((∃ cs, OutputFormat.yaml.textOf lib v = .ok cs) ↔
      v.holdsOversized = false ∧ lib.hasNoRoom .yaml v = false) ∧
    ((∃ cs, OutputFormat.json.textOf lib v = .ok cs) ↔
      v.holdsOversized = false ∧ (∀ k : Value, k.IsKeyIn v → k.isNameless = false) ∧
        Json.IsOpen (Json.closed (v.names (lib.objects v))) v ∧ lib.hasNoRoom .json v = false) ∧
    (∀ format, v.depth < roomyDepth → lib.hasNoRoom format v = false) ∧
    (l.template.holdsOversized = false → v.holdsOversized = false) ∧
    (∀ k : Value, k.IsKeyIn v → k.IsKeyIn l.template ∧ k.isScalar = true) ∧
    ∃ ending output records after, Program.run args w = (.done ending output records, after) ∧
      (∀ cs, settings.format.textOf lib v = .ok cs → EndsWriting w.files settings cs ending) ∧
      ∀ e, settings.format.textOf lib v = .error e → ending = .crash (.output e) := by
  intro lib
  have hshape : Shape.ofArgument (l.request .render settings (l.store w.store gs)).shape =
      .ok .string := rfl
  have htemplate : Loader.template? w.files (Path.ofText argument.toList) = some l.template :=
    Loaded.template?_of_templateFile? (Loaded.ofFiles?_eq_some hload).1
  have hkeys : v.KeysAre fun k => k.IsKeyIn l.template :=
    Engine.substitute_inherits (Value.inherited_keysAre _) hshape hfill fun _ hk => hk
  have hscalar : v.KeysAre fun k => k.isScalar = true :=
    fun k hk => Loader.keysAre_scalar htemplate k (hkeys k hk)
  refine ⟨?_, ?_, fun format => OutputFormat.hasNoRoom_eq_false,
    Engine.substitute_inherits Value.inherited_not_oversized hshape hfill,
    fun k hk => ⟨hkeys k hk, hscalar k hk⟩,
    Program.exists_run_of_filled hread hload hpairs hlasts hfill⟩
  · rw [OutputFormat.exists_textOf_iff, OutputFormat.exists_writeNamed_yaml_iff]
  · have hnames : (v.KeysAre fun k => Json.hasName k = true) ↔
        ∀ k : Value, k.IsKeyIn v → k.isNameless = false :=
      forall₂_congr fun k hk => Value.hasName_iff (hscalar k hk)
    rw [OutputFormat.exists_textOf_iff, OutputFormat.exists_writeNamed_json_iff, Json.isWritable_iff,
      hnames, and_assoc, and_assoc]

/-- A template whose only key is a date. -/
def dateTree : Tree where
  entries := [(["t.yaml".toList], .file (Text.Utf8.encode "2001-01-01: x\n".toList))]

/-- A date as a key is written as YAML. -/
theorem rendered_written_dateKey :
    ∃ output records after, Program.run ["render", "t.yaml"] { files := dateTree } =
      (.done (.exit 0) output records, after) := by
  have hread : Arguments.read ["render", "t.yaml"] = .run .render "t.yaml" {} := by decide +kernel
  have hfilled : ((Loaded.ofFiles? dateTree .render "t.yaml" {}).bind fun l =>
      (Engine.substitute (l.request .render {} (l.store [] [])) l.template).outcome.toOption).any
        (fun v => !v.holdsOversized) = true := by decide +kernel
  obtain ⟨v, hv, hsmall⟩ := (Option.any_eq_true _ _).1 hfilled
  obtain ⟨l, hload, hfill⟩ := Option.bind_eq_some_iff.1 hv
  have hpairs : Pair.parse [] = .ok [] := rfl
  obtain ⟨hyaml, -, -, -, -, ending, output, records, after, hrun, hends, -⟩ :=
    rendered_written hread { files := dateTree } hload hpairs rfl (toOption_eq_some_iff.1 hfill)
  obtain ⟨cs, hcs⟩ := hyaml.2 ⟨by simpa using hsmall, rfl⟩
  cases hends cs hcs with
  | written => exact ⟨output, records, after, hrun⟩
  | failed hp => cases hp
  | unusable hp => cases hp

/-- JSON has no name for a date, and that breaks the run off. -/
theorem dateKey_breaks_off :
    (∃ v w, Loader.template? dateTree (Path.ofText "t.yaml".toList) = some v ∧
      (Engine.substitute {} v).outcome = .ok w ∧ ∀ cs, OutputFormat.json.textOf .plain w ≠ .ok cs) ∧
    ∃ output records after,
      Program.run ["render", "t.yaml", "--format", "json"] { files := dateTree } =
        (.done (.crash (.output (.badKey "datetime.date"))) output records, after) := by
  have hformat : ((Loader.template? dateTree (Path.ofText "t.yaml".toList)).bind fun v =>
      (Engine.substitute {} v).outcome.toOption).any
        (fun w => (OutputFormat.json.textOf .plain w).toOption.isNone) = true := by decide +kernel
  have hcrash : (match (Program.run ["render", "t.yaml", "--format", "json"] { files := dateTree }).1 with
      | .done (.crash (.output e)) _ _ => some e
      | _ => none) = some (.badKey "datetime.date") := by decide +kernel
  constructor
  · obtain ⟨w, hw, hnone⟩ := (Option.any_eq_true _ _).1 hformat
    obtain ⟨v, hv, hfill⟩ := Option.bind_eq_some_iff.1 hw
    refine ⟨v, w, hv, toOption_eq_some_iff.1 hfill, fun cs hcs => ?_⟩
    rw [hcs] at hnone
    cases hnone
  · rcases hrun : Program.run ["render", "t.yaml", "--format", "json"] { files := dateTree } with
      ⟨report, after⟩
    rw [hrun] at hcrash
    dsimp only at hcrash
    split at hcrash
    · cases hcrash
      exact ⟨_, _, _, rfl⟩
    · cases hcrash

end Stencil
