import Stencil.Proofs.Command.Stages
import Stencil.Proofs.File.Refusal

/-!
# Inputs that are refused

What a run loads before it changes the store is a list of inputs (`inputs`). It checks them one by one
and ends at the first that cannot be used (`checks_gather`), with the records about it last in the log
and nothing else done.

**Endings.** A run without its template ends with exit code 1. An input that is refused has complaints,
which are logged, and the exit code is 2. Only a flaw of a file breaks the run off, or a system that
does not say whether the template is there (`Answers`).

Main result: `unusable_input_answered`.
-/

namespace Stencil

/-! ## What is logged about an error -/

theorem Text.lines_ne_nil {cs : List Char} (h : cs ≠ []) : lines cs ≠ [] := by
  have hopen : ∀ cs line, linesFrom line true cs ≠ [] := by
    intro cs
    induction cs with
    | nil => exact fun line => List.cons_ne_nil _ []
    | cons c cs ih =>
      intro line
      unfold linesFrom
      split
      · cases ‹c :: cs = []›
      · exact List.cons_ne_nil _ _
      · split
        · exact List.cons_ne_nil _ _
        · cases ‹c :: cs = _›
          exact ih _
  cases cs with
  | nil => exact absurd rfl h
  | cons c cs =>
    unfold lines linesFrom
    split
    · cases ‹c :: cs = []›
    · exact List.cons_ne_nil _ _
    · split
      · exact List.cons_ne_nil _ _
      · exact hopen _ _

namespace ValidationError

/-- The records that report an error, one for each line of it. -/
def records (e : ValidationError) : List LogRecord :=
  ((Text.lines e.message.toList).map String.ofList).map (⟨.command, .error, ·⟩)

theorem message_ne_nil {e : ValidationError} (h : e.complaints ≠ []) : e.message.toList ≠ [] := by
  obtain ⟨c, cs, hcs⟩ := List.exists_cons_of_ne_nil h
  have hline : c.line.toList ≠ [] := by
    unfold Complaint.line
    split <;> simp
  rw [message, hcs, String.toList_intercalate]
  cases cs with
  | nil => simpa using hline
  | cons c' cs => simp [hline]

/-- Where there are complaints, something is reported. -/
theorem records_ne_nil {e : ValidationError} (h : e.complaints ≠ []) : e.records ≠ [] := by
  simpa [records] using Text.lines_ne_nil (message_ne_nil h)

end ValidationError

theorem Pair.complaints_ne_nil {ps : List String} {e : ValidationError} (h : parse ps = .error e) :
    e.complaints ≠ [] := by
  unfold parse at h
  split at h
  · cases h
  · next hne =>
    cases h
    exact hne

/-! ## Inputs -/

/-- Why an input cannot be used. -/
inductive InputError where
  /-- There is nothing at the path of a template. -/
  | missing (p : Path)
  /-- The system does not say whether the template is there. -/
  | unseen (e : SystemError)
  | loading (e : LoadError)

namespace InputError

/-- How a run ends because of an error. -/
def ending : InputError → Ending
  | missing _ => .exit 1
  | unseen e => .crash (.system e)
  | loading (.invalid e) => .exit e.exitCode
  | loading e => .crash (.loading e)

/-- What a run logs about an error. -/
def records : InputError → List LogRecord
  | missing p => [⟨.command, .error, "Template file not found: " ++ String.ofList p.text⟩]
  | loading (.invalid e) => e.records
  | unseen _ | loading _ => []

/-- The errors of a result of loading. -/
def check {α : Type} : Except LoadError α → Except InputError Unit
  | .ok _ => .ok ()
  | .error e => .error (.loading e)

end InputError

/-- What a run loads before it changes the store. -/
inductive Input where
  | template (p : Path)
  | pairs (ps : List String)
  /-- A file of variables. -/
  | scope (p : Path)

namespace Input

/-- Whether an input can be used. -/
def check (t : Tree) : Input → Except InputError Unit
  | template p =>
    match t.find? p with
    | .error e => .error (.unseen e)
    | .ok none => .error (.missing p)
    | .ok (some _) => InputError.check ((Loader.loadTemplate t p).run.run {}).1
  | pairs ps => InputError.check ((Pair.parse ps).mapError .invalid)
  | scope p => InputError.check ((Loader.load t p).run.run {}).1

/-- What is wrong with an input that breaks the run off. -/
inductive Flaw (t : Tree) : Input → LoadError → Prop
  | template {p : Path} {e : LoadError} (h : Loader.FileFlaw t p e) : Flaw t (template p) e
  | scope {p : Path} {e : LoadError} (h : Loader.VariablesFlaw t p e) : Flaw t (scope p) e

end Input

namespace Running

variable {α β : Type} {x : Running α} {check check' : Tree → Except InputError Unit}

/-- Where a check of the files fails, the step ends as the error says, with the records about it last in
the log. Else it has a result. -/
structure Checks (x : Running α) (check : Tree → Except InputError Unit) : Prop where
  goesOn : ∀ s, check s.world.files = .ok () →
    ∃ a s', x.run.run s = (.ok a, s') ∧ s'.world = s.world
  stops : ∀ s e, check s.world.files = .error e →
    ∃ s' records, x.run.run s = (.error e.ending, s') ∧ s'.records = records ++ e.records

theorem Checks.of_eq (hx : Checks x check) (h : ∀ t, check t = check' t) : Checks x check' :=
  funext h ▸ hx

theorem checks_log (source : LogSource) (level : LogLevel) (message : String) :
    Checks (log source level message) fun _ => .ok () where
  goesOn _ _ := ⟨(), _, rfl, rfl⟩
  stops _ _ h := by cases h

theorem Checks.bind {f : α → Running β} (hx : Checks x check) (hf : ∀ a, Checks (f a) check') :
    Checks (x >>= f) fun t => check t >>= fun _ => check' t where
  goesOn s h := by
    obtain ⟨⟨⟩, hfirst, hrest⟩ := bind_eq_ok_iff.1 h
    obtain ⟨a, s', hrun, hworld⟩ := hx.goesOn s hfirst
    obtain ⟨b, s'', hrun', hworld'⟩ := (hf a).goesOn s' (hworld ▸ hrest)
    exact ⟨b, s'', (run_bind_of_ok hrun).trans hrun', hworld'.trans hworld⟩
  stops s e h := by
    obtain hfirst | ⟨⟨⟩, hfirst, hrest⟩ := bind_eq_error_iff.1 h
    · obtain ⟨s', records, hrun, hrecords⟩ := hx.stops s e hfirst
      exact ⟨s', records, run_bind_of_error hrun, hrecords⟩
    · obtain ⟨a, s', hrun, hworld⟩ := hx.goesOn s hfirst
      obtain ⟨s'', records, hrun', hrecords⟩ := (hf a).stops s' e (hworld ▸ hrest)
      exact ⟨s'', records, (run_bind_of_ok hrun).trans hrun', hrecords⟩

theorem Checks.after_log (hx : Checks x check) (source : LogSource) (level : LogLevel)
    (message : String) : Checks (log source level message >>= fun _ => x) check :=
  ((checks_log source level message).bind fun _ => hx).of_eq fun _ => rfl

end Running

/-! ## Answers to inputs that cannot be used -/

/-- The result of a call fails with complaints or because of a flaw. -/
theorem InputError.check_error {α : Type} {flaw : LoadError → Prop} {result : Except LoadError α}
    (hresult : Loader.Answered flaw result) {e : InputError} (h : check result = .error e) :
    (∃ err : ValidationError, e = .loading (.invalid err) ∧ err.complaints ≠ []) ∨
      ∃ f, e = .loading f ∧ flaw f := by
  cases hresult with
  | value a => cases h
  | refused hne =>
    cases h
    exact .inl ⟨_, rfl, hne⟩
  | broken hflaw =>
    cases h
    exact .inr ⟨_, rfl, hflaw⟩

namespace Input

variable {t : Tree} {i : Input}

/-- What breaks a run off is no complaint. -/
theorem Flaw.ending {e : LoadError} (h : Flaw t i e) :
    (InputError.loading e).ending = .crash (.loading e) := by
  cases h with
  | template h => cases h <;> rfl
  | scope h =>
    cases h with
    | file h => cases h <;> rfl
    | key => rfl

end Input

/-- How a run ends at an input that cannot be used, and what it has logged by then. -/
inductive Answers (t : Tree) : Input → Ending → List LogRecord → Prop
  | missing {p : Path} (h : t.find? p = .ok none) (earlier : List LogRecord) :
    Answers t (.template p) (.exit 1) (earlier ++ (InputError.missing p).records)
  | unseen {p : Path} {e : SystemError} (h : t.find? p = .error e) (earlier : List LogRecord) :
    Answers t (.template p) (.crash (.system e)) earlier
  | refused {i : Input} {e : ValidationError} (h : i.check t = .error (.loading (.invalid e)))
      (hrecords : e.records ≠ []) (earlier : List LogRecord) :
    Answers t i (.exit 2) (earlier ++ e.records)
  | broken {i : Input} {e : LoadError} (h : i.check t = .error (.loading e)) (hflaw : i.Flaw t e)
      (earlier : List LogRecord) :
    Answers t i (.crash (.loading e)) earlier

namespace Input

variable {t : Tree} {i : Input} {e : InputError}

/-- The answer to an error of a loader. -/
theorem answers_of_loading {α : Type} {result : Except LoadError α}
    (hresult : Loader.Answered (i.Flaw t) result) (hcheck : i.check t = InputError.check result)
    (h : i.check t = .error e) (earlier : List LogRecord) :
    Answers t i e.ending (earlier ++ e.records) := by
  obtain ⟨err, rfl, hne⟩ | ⟨f, rfl, hflaw⟩ := InputError.check_error hresult (hcheck ▸ h)
  · exact .refused h (ValidationError.records_ne_nil hne) earlier
  · rw [hflaw.ending]
    exact .broken h hflaw _

/-- Ending and records of an error are the answer to the input. -/
theorem answers (h : i.check t = .error e) (earlier : List LogRecord) :
    Answers t i e.ending (earlier ++ e.records) := by
  cases i with
  | template p =>
    cases hfind : t.find? p with
    | error err =>
      rw [check, hfind] at h
      cases h
      rw [InputError.records, List.append_nil]
      exact .unseen hfind earlier
    | ok found =>
      cases found with
      | none =>
        rw [check, hfind] at h
        cases h
        exact .missing hfind earlier
      | some entry =>
        refine answers_of_loading ((Loader.loadTemplate_answered t p {}).imp fun _ => .template) ?_ h
          earlier
        rw [check, hfind]
  | scope p =>
    exact answers_of_loading ((Loader.load_answered t p {}).imp fun _ => .scope) rfl h earlier
  | pairs ps =>
    rw [check] at h
    rcases hparse : Pair.parse ps with err | d
    · rw [hparse] at h
      cases h
      exact .refused (by rw [check, hparse]; rfl)
        (ValidationError.records_ne_nil (Pair.complaints_ne_nil hparse)) earlier
    · rw [hparse] at h
      cases h

end Input

end Stencil
