import Stencil.Command.Program
import Stencil.Proofs.Coercion.Typed
import Stencil.Proofs.File.Variables

/-!
# The stages of a run

A run loads what it needs, changes the store, fills the template and writes the result, in this
order (`command_eq`). Only changing the store and writing leave anything behind but log records.

**Loading and filling** (`ReadsFiles`). What comes of such a step is a function of the files alone,
and files, store and output stay as they are. What a run loads is therefore a function of the files
and the arguments (`Loaded.ofFiles?`), and so is its result, of the request to the engine
(`finalText?`).

**Preparing** (`prepare`). What is loaded goes into the store and into the request to the engine.
-/

namespace Stencil

/-! ## What a run loads -/

/-- What a run loads before it changes the store. -/
structure Loaded where
  /-- What is filled: the value of the template file, or the text itself. -/
  template : Value
  /-- The variables that are given as pairs. -/
  pairs : Document
  scopeFiles : List Document
  globalFile : Document

namespace Loaded

/-- The template in a file that is there. -/
def templateFile? (t : Tree) (p : Path) : Option Value :=
  match t.find? p with
  | .ok (some _) => Loader.template? t p
  | _ => none

theorem template?_of_templateFile? {t : Tree} {p : Path} {v : Value}
    (h : templateFile? t p = some v) : Loader.template? t p = some v := by
  unfold templateFile? at h
  split at h
  · exact h
  · cases h

/-- What a command fills. -/
def template? (t : Tree) (argument : String) : Command → Option Value
  | .render => templateFile? t (Path.ofText argument.toList)
  | .text => some (.text argument)

/-- The variables of each of some files. -/
def scopeFiles? (t : Tree) : List String → Option (List Document)
  | [] => some []
  | file :: rest => do
    let d ← Loader.variables? t (Path.ofText file.toList)
    let ds ← scopeFiles? t rest
    return d :: ds

/-- The variables of the file of global variables; without a file there are none. -/
def globalFile? (t : Tree) (settings : Settings) : Option Document :=
  match Running.named settings.globalFile? with
  | some p => Loader.variables? t p
  | none => some []

/-- What a run loads, if everything can be loaded and the pairs are sound. -/
def ofFiles? (t : Tree) (c : Command) (argument : String) (settings : Settings) :
    Option Loaded := do
  let template ← template? t argument c
  let pairs ← (Pair.parse settings.pairs).toOption
  let scopeFiles ← scopeFiles? t settings.scopeFiles
  let globalFile ← globalFile? t settings
  return { template, pairs, scopeFiles, globalFile }

/-- The local scopes: the pairs count as one if there are any. -/
def scopes (l : Loaded) (settings : Settings) : List Document :=
  if settings.pairs.isEmpty then l.scopeFiles else l.pairs :: l.scopeFiles

/-- The store once all global variables are in it: first those of the file, then the pairs. -/
def store (l : Loaded) (store : Store) (globalPairs : Document) : Store :=
  Document.update (Document.update store l.globalFile) globalPairs

/-- The request to the engine, with the store as it is by then. -/
def request (l : Loaded) (c : Command) (settings : Settings) (store : Store) : Request where
  shape := .shape (match c with
    | .render => .string
    | .text => settings.shape)
  selector := .selector settings.selector
  options := {
    default := (settings.default?.map Value.text).getD .null
    recurse := settings.recurse
    includeNulls := settings.includeNulls }
  scopes := (l.scopes settings).map some
  globals := store

theorem ofFiles?_eq_some {t : Tree} {c : Command} {argument : String} {settings : Settings}
    {l : Loaded} (h : ofFiles? t c argument settings = some l) :
    template? t argument c = some l.template ∧ Pair.parse settings.pairs = .ok l.pairs ∧
      scopeFiles? t settings.scopeFiles = some l.scopeFiles ∧
      globalFile? t settings = some l.globalFile := by
  simp only [ofFiles?, Option.bind_eq_bind, Option.bind_eq_some_iff] at h
  obtain ⟨v, hv, pairs, hpairs, ds, hds, d, hd, ⟨⟩⟩ := h
  exact ⟨hv, toOption_eq_some_iff.1 hpairs, hds, hd⟩

theorem scopeFiles?_eq_none_iff {t : Tree} {files : List String} :
    scopeFiles? t files = none ↔
      ∃ file ∈ files, Loader.variables? t (Path.ofText file.toList) = none := by
  induction files with
  | nil => simp [scopeFiles?]
  | cons file rest ih =>
    simp only [scopeFiles?, List.mem_cons, exists_eq_or_imp, ← ih]
    cases Loader.variables? t (Path.ofText file.toList) <;> cases scopeFiles? t rest <;> simp

theorem globalFile?_eq_none_iff {t : Tree} {settings : Settings} :
    globalFile? t settings = none ↔
      ∃ p, Running.named settings.globalFile? = some p ∧ Loader.variables? t p = none := by
  unfold globalFile?
  cases Running.named settings.globalFile? <;> simp

/-- Loading fails exactly if the template, a local pair, a file of a local scope or the file of
global variables cannot be loaded. -/
theorem ofFiles?_eq_none_iff {t : Tree} {c : Command} {argument : String} {settings : Settings} :
    ofFiles? t c argument settings = none ↔
      template? t argument c = none ∨ (∃ e, Pair.parse settings.pairs = .error e) ∨
        (∃ file ∈ settings.scopeFiles, Loader.variables? t (Path.ofText file.toList) = none) ∨
        ∃ p, Running.named settings.globalFile? = some p ∧ Loader.variables? t p = none := by
  rw [← scopeFiles?_eq_none_iff, ← globalFile?_eq_none_iff, ofFiles?]
  cases template? t argument c <;> cases Pair.parse settings.pairs <;>
    cases scopeFiles? t settings.scopeFiles <;> cases globalFile? t settings <;>
    simp [Except.toOption]

end Loaded

/-- The text that a command makes of what it fills, if there is one. -/
def finalText? (lib : Library) (c : Command) (settings : Settings) (r : Request) (v : Value) :
    Option (List Char) :=
  if (lib.givesUp (Running.material r v)).isSome then none
  else match c with
  | .render => do
    let w ← (Engine.substitute r v).outcome.toOption
    (settings.format.textOf lib w).toOption
  | .text => do
    let w ← (Engine.substituteText r v).outcome.toOption
    match Coercion.coerce .string w with
    | .ok (.text s) => some s.toList
    | .ok .null => some []
    | _ => none

namespace Running

variable {α β : Type}

/-! ## Steps that only read -/

/-- How a step ends: with a result, or early and then not with success. -/
inductive EndsAs : Option α → Except Ending α → Prop
  | result (a : α) : EndsAs (some a) (.ok a)
  | early {e : Ending} (h : e ≠ .exit 0) : EndsAs none (.error e)

theorem EndsAs.eq_ok {a : α} {x : Except Ending α} (h : EndsAs (some a) x) : x = .ok a := by
  cases h
  rfl

theorem EndsAs.eq_error {x : Except Ending α} (h : EndsAs none x) :
    ∃ e, x = .error e ∧ e ≠ .exit 0 := by
  cases h with
  | early he => exact ⟨_, rfl, he⟩

/-- What comes of the step is a function of the files, and it leaves files, store and output as they
are. -/
def ReadsFiles (x : Running α) (g : Tree → Option α) : Prop :=
  ∀ s, EndsAs (g s.world.files) (x.run.run s).1 ∧
    (x.run.run s).2.world = s.world ∧ (x.run.run s).2.output = s.output

theorem readsFiles_pure (a : α) : ReadsFiles (pure a) fun _ => some a :=
  fun _ => ⟨.result a, rfl, rfl⟩

theorem ReadsFiles.of_eq {x : Running α} {g h : Tree → Option α} (hx : ReadsFiles x g)
    (hgh : ∀ t, g t = h t) : ReadsFiles x h :=
  funext hgh ▸ hx

section Use

variable {x : Running α} {g : Tree → Option α} {s : Progress}

theorem ReadsFiles.run_of_some (hx : ReadsFiles x g) {a : α} (h : g s.world.files = some a) :
    ∃ t, x.run.run s = (.ok a, t) ∧ t.world = s.world ∧ t.output = s.output := by
  obtain ⟨hend, hworld, houtput⟩ := hx s
  rw [h] at hend
  exact ⟨(x.run.run s).2, Prod.ext hend.eq_ok rfl, hworld, houtput⟩

theorem ReadsFiles.run_of_none (hx : ReadsFiles x g) (h : g s.world.files = none) :
    ∃ e t, x.run.run s = (.error e, t) ∧ e ≠ .exit 0 ∧ t.world = s.world ∧ t.output = s.output := by
  obtain ⟨hend, hworld, houtput⟩ := hx s
  rw [h] at hend
  obtain ⟨e, hrun, he⟩ := hend.eq_error
  exact ⟨e, (x.run.run s).2, Prod.ext hrun rfl, he, hworld, houtput⟩

end Use

theorem ReadsFiles.bind {x : Running α} {g : Tree → Option α} {f : α → Running β}
    {h : α → Tree → Option β} (hx : ReadsFiles x g) (hf : ∀ a, ReadsFiles (f a) (h a)) :
    ReadsFiles (x >>= f) fun t => (g t).bind fun a => h a t := by
  intro s
  dsimp only
  cases hg : g s.world.files with
  | none =>
    obtain ⟨e, t, hrun, he, hworld, houtput⟩ := hx.run_of_none hg
    rw [run_bind_of_error hrun]
    exact ⟨.early he, hworld, houtput⟩
  | some a =>
    obtain ⟨t, hrun, hworld, houtput⟩ := hx.run_of_some hg
    rw [run_bind_of_ok hrun]
    obtain ⟨hend, hworld', houtput'⟩ := hf a t
    rw [hworld] at hend
    exact ⟨hend, hworld'.trans hworld, houtput'.trans houtput⟩

theorem readsFiles_log (source : LogSource) (level : LogLevel) (message : String) :
    ReadsFiles (log source level message) fun _ => some () :=
  fun _ => ⟨.result (), rfl, rfl⟩

/-- The record before a step has no bearing on it. -/
theorem ReadsFiles.after_log {x : Running α} {g : Tree → Option α} (hx : ReadsFiles x g)
    (source : LogSource) (level : LogLevel) (message : String) :
    ReadsFiles (log source level message >>= fun _ => x) g :=
  (readsFiles_log source level message).bind fun _ => hx

theorem readsFiles_files : ReadsFiles files some := fun _ => ⟨.result _, rfl, rfl⟩

theorem readsFiles_throw {e : Ending} (he : e ≠ .exit 0) :
    ReadsFiles (throw e : Running α) fun _ => none :=
  fun _ => ⟨.early he, rfl, rfl⟩

theorem readsFiles_exit {code : Nat} (hcode : code ≠ 0) :
    ReadsFiles (exit code : Running α) fun _ => none :=
  readsFiles_throw fun h => hcode (Ending.exit.inj h)

theorem readsFiles_refuse (e : ValidationError) :
    ReadsFiles (refuse e : Running α) fun _ => none :=
  fun _ => ⟨.early (by simp [ValidationError.exitCode]), rfl, rfl⟩

/-- How a run goes on after loading. -/
def afterLoading : Except LoadError α → Running α
  | .ok a => pure a
  | .error (.invalid e) => refuse e
  | .error e => throw (.crash (.loading e))

theorem readsFiles_afterLoading (result : Except LoadError α) :
    ReadsFiles (afterLoading result) fun _ => result.toOption := by
  rcases result with e | a
  · cases e with
    | invalid e => exact readsFiles_refuse e
    | _ => exact readsFiles_throw (by simp)
  · exact readsFiles_pure a

theorem readsFiles_loading {x : Loader.Loading α} {a? : Option α}
    (hx : ∀ l, (x.run.run l).1.toOption = a?) : ReadsFiles (loading x) fun _ => a? := by
  intro s
  have hrun : (loading x).run.run s = (afterLoading (x.run.run s.loader).1).run.run
      { s with loader := (x.run.run s.loader).2 } := rfl
  rw [hrun, ← hx s.loader]
  exact readsFiles_afterLoading _ _

theorem readsFiles_abort (e : Failure) : ReadsFiles (abort e : Running α) fun _ => none := by
  unfold abort
  split
  · exact (readsFiles_exit (by decide)).after_log _ _ _
  · exact readsFiles_throw (by simp)
  · exact (readsFiles_exit (by decide)).after_log _ _ _
  · exact readsFiles_throw (by simp)

/-- How a run goes on after filling. -/
def afterFilling : Except Failure α → Running α
  | .ok a => pure a
  | .error e => abort e

theorem readsFiles_afterFilling (outcome : Except Failure α) :
    ReadsFiles (afterFilling outcome) fun _ => outcome.toOption := by
  rcases outcome with e | a
  · exact readsFiles_abort e
  · exact readsFiles_pure a

theorem readsFiles_logEvents (events : List Event) :
    ReadsFiles (logEvents events) fun _ => some () :=
  fun _ => ⟨.result (), rfl, rfl⟩

theorem filling_eq (values : List Value) (x : Filling α) : filling values x = (do
    match (← files).library.givesUp values with
    | some n => logEvents (x.trace.take n) >>= fun _ => throw (.crash .endless)
    | none => logEvents x.trace >>= fun _ => afterFilling x.outcome) := rfl

theorem readsFiles_filling (values : List Value) (x : Filling α) :
    ReadsFiles (filling values x) fun t =>
      if (t.library.givesUp values).isSome then none else x.outcome.toOption := by
  rw [filling_eq]
  refine readsFiles_files.bind
    (h := fun t _ => if (t.library.givesUp values).isSome then none else x.outcome.toOption)
    fun t => ?_
  cases t.library.givesUp values with
  | some n => exact (readsFiles_logEvents _).bind fun _ => readsFiles_throw (by simp)
  | none => exact (readsFiles_logEvents _).bind fun _ => readsFiles_afterFilling x.outcome

/-! ## Loading -/

theorem readsFiles_loadVariables (p : Path) :
    ReadsFiles (loadVariables p) fun t => Loader.variables? t p := by
  have hload (t : Tree) : ReadsFiles (loading (Loader.load t p)) fun _ => Loader.variables? t p :=
    readsFiles_loading (Loader.load_run t p)
  refine (readsFiles_files.bind fun t => (hload t).bind fun d =>
    (readsFiles_pure d).after_log _ _ _).of_eq fun t => ?_
  exact Option.bind_fun_some _

theorem readsFiles_loadPairs (pairs : List String) :
    ReadsFiles (loadPairs pairs) fun _ => (Pair.parse pairs).toOption := by
  unfold loadPairs
  rcases Pair.parse pairs with e | d
  · exact readsFiles_refuse e
  · exact readsFiles_pure d

theorem readsFiles_loadScopeFiles (files : List String) :
    ReadsFiles (loadScopeFiles files) fun t => Loaded.scopeFiles? t files := by
  induction files with
  | nil => exact readsFiles_pure []
  | cons file rest ih =>
    exact ((readsFiles_loadVariables _).bind fun d => ih.bind fun ds =>
      readsFiles_pure (d :: ds)).after_log _ _ _

theorem readsFiles_loadFile (p : Path) :
    ReadsFiles (loadFile p) fun t => Loaded.templateFile? t p := by
  have hload (t : Tree) : ReadsFiles (loading (Loader.loadTemplate t p)) fun _ =>
      Loader.template? t p :=
    readsFiles_loading (Loader.loadTemplate_run t p)
  refine readsFiles_files.bind (h := fun t t' => match t.find? p with
    | .ok (some _) => Loader.template? t' p
    | _ => none) fun t => ?_
  rcases t.find? p with e | _ | entry
  · exact readsFiles_throw (by simp)
  · exact (readsFiles_exit Nat.one_ne_zero).after_log _ _ _
  · exact (readsFiles_files.bind hload).after_log _ _ _

/-- Load what a command fills. -/
def loadTemplate (argument : String) : Command → Running Value
  | .render => loadFile (Path.ofText argument.toList)
  | .text => return .text argument

theorem readsFiles_loadTemplate (c : Command) (argument : String) :
    ReadsFiles (loadTemplate argument c) fun t => Loaded.template? t argument c := by
  cases c with
  | text => exact readsFiles_pure _
  | render => exact readsFiles_loadFile _

/-- Load the file of global variables. -/
def loadGlobalFile (settings : Settings) : Running Document :=
  match named settings.globalFile? with
  | some p => do
    inform ("Loading global variables: " ++ settings.globalFile?.getD "")
    loadVariables p
  | none => return []

theorem readsFiles_loadGlobalFile (settings : Settings) :
    ReadsFiles (loadGlobalFile settings) fun t => Loaded.globalFile? t settings := by
  unfold loadGlobalFile Loaded.globalFile?
  cases named settings.globalFile? with
  | none => exact readsFiles_pure []
  | some p => exact (readsFiles_loadVariables p).after_log _ _ _

/-- Load everything that is loaded before the store is changed. -/
def gather (c : Command) (argument : String) (settings : Settings) : Running Loaded := do
  let template ← loadTemplate argument c
  let pairs ← loadPairs settings.pairs
  let scopeFiles ← loadScopeFiles settings.scopeFiles
  let globalFile ← loadGlobalFile settings
  return { template, pairs, scopeFiles, globalFile }

theorem readsFiles_gather (c : Command) (argument : String) (settings : Settings) :
    ReadsFiles (gather c argument settings) fun t => Loaded.ofFiles? t c argument settings :=
  (readsFiles_loadTemplate c argument).bind fun _ =>
    (readsFiles_loadPairs settings.pairs).bind fun _ =>
      (readsFiles_loadScopeFiles settings.scopeFiles).bind fun _ =>
        (readsFiles_loadGlobalFile settings).bind fun _ => readsFiles_pure _

/-! ## The stages -/

/-- Load everything, change the store, and make the request to the engine. -/
def prepare (c : Command) (argument : String) (settings : Settings) :
    Running (Value × Request) := do
  let l ← gather c argument settings
  updateStore l.globalFile
  updateStore (← loadPairs settings.globalPairs)
  return (l.template, l.request c settings (← get).world.store)

/-- The text that a command writes. -/
def draft (c : Command) (settings : Settings) (v : Value) (r : Request) : Running (List Char) :=
  match c with
  | .render => do
    let w ← filling (material r v) (Engine.substitute r v)
    format settings w
  | .text => do
    let cs ← filling (material r v) (filledText r v)
    return cs.getD []

theorem loadScopes_eq (settings : Settings) : loadScopes settings = (do
    let pairs ← loadPairs settings.pairs
    let scopeFiles ← loadScopeFiles settings.scopeFiles
    return if settings.pairs.isEmpty then scopeFiles else pairs :: scopeFiles) := by
  unfold loadScopes
  cases settings.pairs with
  | nil =>
    show _ = (pure [] >>= _ : Running _)
    rw [pure_bind]
    exact (bind_pure _).symm
  | cons p ps => rfl

theorem loadGlobals_eq (settings : Settings) : loadGlobals settings = (do
    updateStore (← loadGlobalFile settings)
    updateStore (← loadPairs settings.globalPairs)) := by
  have hnil : updateStore [] = pure () := rfl
  have hpairs : (if !settings.globalPairs.isEmpty then
      loadPairs settings.globalPairs >>= updateStore else pure ()) =
      loadPairs settings.globalPairs >>= updateStore := by
    cases settings.globalPairs <;> rfl
  unfold loadGlobals loadGlobalFile
  dsimp only
  rw [hpairs]
  cases named settings.globalFile? with
  | none => rw [pure_bind, hnil, pure_bind]
  | some p => simp only [bind_assoc]

/-- **A command prepares, fills and writes.** -/
theorem command_eq (c : Command) (argument : String) (settings : Settings) :
    command c argument settings = (do
      let (v, r) ← prepare c argument settings
      write settings (← draft c settings v r)) := by
  cases c with
  | text =>
    simp only [command, text, loadScopes_eq, loadGlobals_eq, prepare, gather, loadTemplate, draft,
      request, Loaded.request, Loaded.scopes, bind_assoc, pure_bind]
  | render =>
    simp only [command, render, loadScopes_eq, loadGlobals_eq, prepare, gather, loadTemplate, draft,
      request, Loaded.request, Loaded.scopes, bind_assoc, pure_bind]

/-! ## Filling -/

theorem readsFiles_format (settings : Settings) (v : Value) :
    ReadsFiles (format settings v) fun t => (settings.format.textOf t.library v).toOption := by
  refine readsFiles_files.bind
    (h := fun t _ => (settings.format.textOf t.library v).toOption) fun t => ?_
  rcases settings.format.textOf t.library v with e | cs
  · exact readsFiles_throw (by simp)
  · exact readsFiles_pure cs

/-- The text of a value is its coercion to text, and the empty text for null. -/
theorem textOf?_getD (w : Value) :
    ((Fill.textOf? w).toOption.map fun cs => cs.getD []) =
      match Coercion.coerce .string w with
      | .ok (.text s) => some s.toList
      | .ok .null => some []
      | _ => none := by
  by_cases hw : w = .null
  · subst hw
    rfl
  · rw [Fill.textOf?_eq_toText hw, Coercion.coerce_string hw]
    rcases Coercion.toText w with e | s <;> rfl

theorem filledText_getD (r : Request) (v : Value) :
    ((filledText r v).outcome.toOption.map fun cs => cs.getD []) = (do
      let w ← (Engine.substituteText r v).outcome.toOption
      match Coercion.coerce .string w with
      | .ok (.text s) => some s.toList
      | .ok .null => some []
      | _ => none) := by
  unfold filledText
  rcases Engine.substituteText r v with ⟨events, e | w⟩
  · rfl
  · refine Eq.trans ?_ (textOf?_getD w)
    show ((Fill.coercing (Fill.textOf? w)).outcome.toOption.map fun cs => cs.getD []) = _
    rcases Fill.textOf? w with e | cs <;> rfl

theorem readsFiles_draft (c : Command) (settings : Settings) (v : Value) (r : Request) :
    ReadsFiles (draft c settings v r) fun t => finalText? t.library c settings r v := by
  cases c with
  | render =>
    refine ((readsFiles_filling _ _).bind fun w => readsFiles_format settings w).of_eq fun t => ?_
    unfold finalText?
    split <;> rfl
  | text =>
    refine ((readsFiles_filling _ (filledText r v)).bind fun cs =>
      readsFiles_pure (cs.getD [])).of_eq fun t => ?_
    unfold finalText?
    split
    · rfl
    · rw [← filledText_getD]
      cases (filledText r v).outcome.toOption <;> rfl

/-! ## Writing -/

/-- How a run goes on after saving. -/
def afterSaving (p : Path) : Option FileFault → Running Unit
  | none => inform ("Wrote output to " ++ String.ofList p.text)
  | some f =>
    if f.error = .unusable then throw (.crash .unusablePath)
    else do
      complain ("Failed to write output: " ++ f.message)
      exit 1

theorem readsFiles_afterSaving (p : Path) (fault? : Option FileFault) :
    ReadsFiles (afterSaving p fault?) fun _ => if fault? = none then some () else none := by
  rcases fault? with _ | f
  · exact readsFiles_log _ _ _
  · rw [if_neg (Option.some_ne_none f), afterSaving]
    split
    · exact readsFiles_throw (by simp)
    · exact (readsFiles_exit Nat.one_ne_zero).after_log _ _ _

/-- Saving changes the files and nothing else, and is a success if nothing was at fault. -/
theorem save_endsAs (p : Path) (cs : List Char) (s : Progress) :
    let saved := s.world.files.save p (Text.Utf8.encode cs)
    EndsAs (if saved.2 = none then some () else none) ((save p cs).run.run s).1 ∧
      ((save p cs).run.run s).2.world = { s.world with files := saved.1 } ∧
      ((save p cs).run.run s).2.output = s.output := by
  intro saved
  have hrun : (save p cs).run.run s = (afterSaving p saved.2).run.run
      { s with world := { s.world with files := saved.1 } } := rfl
  rw [hrun]
  exact readsFiles_afterSaving p saved.2 _

/-! ## Preparing -/

theorem updateStore_run (d : Document) (s : Progress) : (updateStore d).run.run s =
    (.ok (), { s with world := { s.world with store := Document.update s.world.store d } }) := rfl

variable {c : Command} {argument : String} {settings : Settings} {s : Progress} {l : Loaded}

/-- A run that cannot load everything ends before it changes the store. -/
theorem prepare_of_none (h : Loaded.ofFiles? s.world.files c argument settings = none) :
    ∃ e t, (prepare c argument settings).run.run s = (.error e, t) ∧ e ≠ .exit 0 ∧
      t.world = s.world ∧ t.output = s.output := by
  obtain ⟨e, t, hrun, he, hworld, houtput⟩ := (readsFiles_gather c argument settings).run_of_none h
  exact ⟨e, t, run_bind_of_error hrun, he, hworld, houtput⟩

/-- Everything is loaded and the file of global variables is in the store: how the run goes on. -/
theorem prepare_of_some (h : Loaded.ofFiles? s.world.files c argument settings = some l) :
    ∃ t, (prepare c argument settings).run.run s =
        (loadPairs settings.globalPairs >>= fun gs => do
          updateStore gs
          return (l.template, l.request c settings (← get).world.store)).run.run t ∧
      t.world = { s.world with store := Document.update s.world.store l.globalFile } ∧
      t.output = s.output := by
  obtain ⟨t, hrun, hworld, houtput⟩ := (readsFiles_gather c argument settings).run_of_some h
  refine ⟨{ t with world := { t.world with store := Document.update t.world.store l.globalFile } },
    ?_, ?_, houtput⟩
  · rw [prepare, run_bind_of_ok hrun]
    exact run_bind_of_ok (updateStore_run _ _)
  · rw [hworld]

/-- A run whose global pairs are faulty ends with its file of global variables in the store. -/
theorem prepare_of_faulty (h : Loaded.ofFiles? s.world.files c argument settings = some l)
    {e : ValidationError} (hpairs : Pair.parse settings.globalPairs = .error e) :
    ∃ e t, (prepare c argument settings).run.run s = (.error e, t) ∧ e ≠ .exit 0 ∧
      t.world = { s.world with store := Document.update s.world.store l.globalFile } ∧
      t.output = s.output := by
  obtain ⟨t, hrun, hworld, houtput⟩ := prepare_of_some h
  have hnone : (Pair.parse settings.globalPairs).toOption = none := by rw [hpairs]; rfl
  obtain ⟨e, u, hpairsrun, he, hworld', houtput'⟩ :=
    (readsFiles_loadPairs settings.globalPairs).run_of_none (s := t) hnone
  exact ⟨e, u, hrun.trans (run_bind_of_error hpairsrun), he, hworld'.trans hworld,
    houtput'.trans houtput⟩

/-- What a run is prepared with once everything is loaded. -/
theorem prepare_of_sound (h : Loaded.ofFiles? s.world.files c argument settings = some l)
    {gs : Document} (hpairs : Pair.parse settings.globalPairs = .ok gs) :
    ∃ t, (prepare c argument settings).run.run s =
        (.ok (l.template, l.request c settings (l.store s.world.store gs)), t) ∧
      t.world = { s.world with store := l.store s.world.store gs } ∧ t.output = s.output := by
  obtain ⟨t, hrun, hworld, houtput⟩ := prepare_of_some h
  have hsome : (Pair.parse settings.globalPairs).toOption = some gs := by rw [hpairs]; rfl
  obtain ⟨u, hpairsrun, hworld', houtput'⟩ :=
    (readsFiles_loadPairs settings.globalPairs).run_of_some (s := t) hsome
  have hstore : Document.update u.world.store gs = l.store s.world.store gs := by
    rw [hworld', hworld]
    rfl
  refine ⟨{ u with world := { u.world with store := Document.update u.world.store gs } }, ?_, ?_,
    houtput'.trans houtput⟩
  · rw [hrun, run_bind_of_ok hpairsrun, run_bind_of_ok (updateStore_run _ _), ← hstore]
    rfl
  · rw [hstore, hworld', hworld]

end Running

namespace Program

/-- What is seen of a run whose command ended in some way, with records shown from a level on, and
what it leaves. -/
def seen (least : LogLevel) (x : Except Ending Unit × Progress) : Report × World :=
  let ending := match x.1 with
    | .ok () => .exit 0
    | .error e => e
  (.done ending x.2.output (LogRecord.shown least x.2.records),
    { x.2.world with logging := some least })

@[simp] theorem seen_store (least : LogLevel) (x : Except Ending Unit × Progress) :
    (seen least x).2.store = x.2.world.store := rfl

theorem run_eq_seen {args : List String} {c : Command} {argument : String} {settings : Settings}
    (h : Arguments.read args = .run c argument settings) (w : World) :
    run args w =
      seen (least w settings) ((Running.command c argument settings).run.run { world := w }) := by
  rw [run, h]
  dsimp only
  rw [perform]
  rcases (Running.command c argument settings).run.run { world := w } with ⟨e | ⟨⟩, s⟩ <;> rfl

end Program

end Stencil
