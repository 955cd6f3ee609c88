import Stencil.Proofs.Command.Stages
import Stencil.Proofs.File.Save

/-!
# No partial output

A run writes last and once. Everything before changes neither files nor output, so a run that ends
in any other way than with success has shown nothing on standard output and changed no file; it may
have made directories. A run that succeeds has written the whole final text to one place
(`Written`).

Main result: `success_iff_written`.
-/

namespace Stencil

/-- The final text of a run, if everything can be loaded, filled and put into the format. -/
def World.finalText? (w : World) (c : Command) (argument : String) (settings : Settings) :
    Option (List Char) := do
  let l ← Loaded.ofFiles? w.files c argument settings
  let gs ← (Pair.parse settings.globalPairs).toOption
  Stencil.finalText? w.files.library c settings (l.request c settings (l.store w.store gs))
    l.template

/-- The place for the result takes it: standard output always does, a file if it can be saved, with
the directories around it, and the system does not refuse it. -/
def Tree.Takes (t : Tree) (settings : Settings) (cs : List Char) : Prop :=
  ∀ p, Running.named settings.output? = some p → (t.save p (Text.Utf8.encode cs)).2 = none

/-- A text was written in full to one place and nowhere else. -/
inductive Written (settings : Settings) (cs : List Char) (before : Tree) :
    List Char → Tree → Prop
  /-- The file named for the output holds the text. -/
  | file {p : Path} {here : List (List Char)} {after : Tree}
      (h : Running.named settings.output? = some p) (hlocate : after.locate p = .ok here)
      (hcontent : after.content? here = some (Text.Utf8.encode cs))
      (hothers : ∀ loc, loc ≠ here → after.content? loc = before.content? loc) :
      Written settings cs before [] after
  /-- Standard output ends in a line feed. -/
  | standard {output : List Char} {after : Tree} (h : Running.named settings.output? = none)
      (houtput : output = if cs.getLast? = some '\n' then cs else cs ++ ['\n'])
      (hothers : ∀ loc, after.content? loc = before.content? loc) :
      Written settings cs before output after

namespace Running

variable {c : Command} {argument : String} {settings : Settings} {s : Progress}

/-- Everything that a command does before it writes. -/
def drafting (c : Command) (argument : String) (settings : Settings) : Running (List Char) := do
  let (v, r) ← prepare c argument settings
  draft c settings v r

theorem command_eq_drafting (c : Command) (argument : String) (settings : Settings) :
    command c argument settings = drafting c argument settings >>= write settings := by
  rw [command_eq, drafting, bind_assoc]

/-- Before it writes a command leaves files and output as they are. -/
theorem drafting_endsAs (c : Command) (argument : String) (settings : Settings) (s : Progress) :
    EndsAs (s.world.finalText? c argument settings)
        ((drafting c argument settings).run.run s).1 ∧
      ((drafting c argument settings).run.run s).2.world.files = s.world.files ∧
      ((drafting c argument settings).run.run s).2.output = s.output := by
  rw [drafting, World.finalText?]
  cases hl : Loaded.ofFiles? s.world.files c argument settings with
  | none =>
    obtain ⟨e, t, hrun, he, hworld, houtput⟩ := prepare_of_none hl
    rw [run_bind_of_error hrun]
    exact ⟨.early he, congrArg _ hworld, houtput⟩
  | some l =>
    cases hpairs : Pair.parse settings.globalPairs with
    | error e =>
      obtain ⟨e, t, hrun, he, hworld, houtput⟩ := prepare_of_faulty hl hpairs
      rw [run_bind_of_error hrun, hworld]
      exact ⟨.early he, rfl, houtput⟩
    | ok gs =>
      obtain ⟨t, hrun, hworld, houtput⟩ := prepare_of_sound hl hpairs
      rw [run_bind_of_ok hrun]
      obtain ⟨hend, hworld', houtput'⟩ := readsFiles_draft c settings l.template
        (l.request c settings (l.store s.world.store gs)) t
      rw [hworld] at hend
      rw [hworld', hworld, houtput', houtput]
      exact ⟨hend, rfl, rfl⟩

theorem write_of_takes {cs : List Char} (h : s.world.files.Takes settings cs)
    (hnone : s.output = []) :
    ∃ t, (write settings cs).run.run s = (.ok (), t) ∧
      Written settings cs s.world.files t.output t.world.files := by
  cases hnamed : named settings.output? with
  | none =>
    refine ⟨{ s with output := withLineEnd cs }, by rw [write, hnamed]; rfl, ?_⟩
    refine .standard hnamed ?_ fun _ => rfl
    simp [withLineEnd]
  | some p =>
    obtain ⟨hend, hworld, houtput⟩ := save_endsAs p cs s
    obtain ⟨here, hlocate, hcontent⟩ := Tree.content?_save (h p hnamed)
    rw [if_pos (h p hnamed)] at hend
    refine ⟨((save p cs).run.run s).2, by rw [write, hnamed]; exact Prod.ext hend.eq_ok rfl, ?_⟩
    rw [houtput, hworld, hnone]
    refine .file hnamed hlocate ((hcontent here).trans (if_pos rfl)) fun loc hloc => ?_
    rw [hcontent, if_neg hloc]

theorem write_of_not_takes {cs : List Char} (h : ¬ s.world.files.Takes settings cs) :
    ∃ e t, (write settings cs).run.run s = (.error e, t) ∧ e ≠ .exit 0 ∧ t.output = s.output ∧
      ∀ loc, t.world.files.content? loc = s.world.files.content? loc := by
  unfold Tree.Takes at h
  push Not at h
  obtain ⟨p, hnamed, hfault⟩ := h
  obtain ⟨hend, hworld, houtput⟩ := save_endsAs p cs s
  rw [if_neg hfault] at hend
  obtain ⟨e, hrun, he⟩ := hend.eq_error
  refine ⟨e, ((save p cs).run.run s).2, by rw [write, hnamed]; exact Prod.ext hrun rfl, he, houtput,
    fun loc => ?_⟩
  rw [hworld]
  exact Tree.content?_save_of_fault hfault

end Running

/-- **No partial output.** A run succeeds exactly if it has a final text and the place for it takes
it. Then the text is written to that place and nowhere else; otherwise nothing is on standard
output and no file is created or changed. -/
theorem success_iff_written {args : List String} {c : Command} {argument : String}
    {settings : Settings} (hread : Arguments.read args = .run c argument settings) (w : World) :
    ∃ ending output records after, Program.run args w = (.done ending output records, after) ∧
      (ending = .exit 0 ↔ ∃ cs, w.finalText? c argument settings = some cs ∧
        w.files.Takes settings cs) ∧
      (ending = .exit 0 → ∃ cs, w.finalText? c argument settings = some cs ∧
        Written settings cs w.files output after.files) ∧
      (ending ≠ .exit 0 →
        output = [] ∧ ∀ loc, after.files.content? loc = w.files.content? loc) := by
  have hrun := Program.run_eq_seen hread w
  rw [Running.command_eq_drafting] at hrun
  obtain ⟨hend, hfiles, houtput⟩ :=
    Running.drafting_endsAs c argument settings { world := w }
  rcases hdraft : (Running.drafting c argument settings).run.run { world := w } with ⟨result, t⟩
  rw [hdraft] at hend hfiles houtput
  dsimp only at hend hfiles houtput
  cases hfinal : w.finalText? c argument settings with
  | none =>
    rw [hfinal] at hend
    obtain ⟨e, rfl, he⟩ := hend.eq_error
    rw [run_bind_of_error hdraft] at hrun
    refine ⟨e, t.output, _, _, hrun, by simp [he], fun h => absurd h he, fun _ => ?_⟩
    exact ⟨houtput, fun loc => congrArg (Tree.content? · loc) hfiles⟩
  | some cs =>
    rw [hfinal] at hend
    rw [hend.eq_ok] at hdraft
    rw [run_bind_of_ok hdraft] at hrun
    by_cases htakes : w.files.Takes settings cs
    · obtain ⟨u, hwrite, hwritten⟩ :=
        Running.write_of_takes (s := t) (by rw [hfiles]; exact htakes) houtput
      rw [hwrite] at hrun
      rw [hfiles] at hwritten
      refine ⟨.exit 0, u.output, _, _, hrun, ?_, fun _ => ⟨cs, rfl, hwritten⟩,
        fun h => absurd rfl h⟩
      exact iff_of_true rfl ⟨cs, rfl, htakes⟩
    · obtain ⟨e, u, hwrite, he, houtput', hcontent⟩ :=
        Running.write_of_not_takes (s := t) (by rw [hfiles]; exact htakes)
      rw [hwrite] at hrun
      refine ⟨e, u.output, _, _, hrun, ?_, fun h => absurd h he, fun _ => ?_⟩
      · exact iff_of_false he fun ⟨_, hcs, h⟩ => htakes (Option.some.inj hcs ▸ h)
      · exact ⟨houtput'.trans houtput, fun loc =>
          (hcontent loc).trans (congrArg (Tree.content? · loc) hfiles)⟩

/-- A file in a directory that is not there yet. -/
theorem success_iff_written_new_directory :
    let args := ["text", "a", "--output", "out/x"]
    let settings : Settings := { output? := some "out/x" }
    let p := Path.ofText "out/x".toList
    Arguments.read args = .run .text "a" settings ∧
      ∃ records after, Program.run args {} = (.done (.exit 0) [] records, after) ∧
        ∃ here, after.files.locate p = .ok here ∧
          after.files.content? here = some (Text.Utf8.encode ['a']) := by
  intro args settings p
  have hread : Arguments.read args = .run .text "a" settings := by decide +kernel
  have hnamed : Running.named settings.output? = some p := rfl
  have hfinal : World.finalText? {} .text "a" settings = some ['a'] := by decide +kernel
  have htakes : Tree.Takes {} settings ['a'] := by
    intro q hq
    rw [hnamed] at hq
    cases hq
    decide +kernel
  obtain ⟨ending, output, records, after, hrun, hsuccess, hwritten, -⟩ :=
    success_iff_written hread {}
  have hend := hsuccess.2 ⟨_, hfinal, htakes⟩
  obtain ⟨cs, hcs, hplace⟩ := hwritten hend
  rw [hfinal] at hcs
  cases hcs
  cases hplace with
  | @file q here after h hlocate hcontent _ =>
    rw [hnamed] at h
    cases h
    exact ⟨hread, records, after, hend ▸ hrun, here, hlocate, hcontent⟩
  | standard h =>
    rw [hnamed] at h
    cases h

end Stencil
