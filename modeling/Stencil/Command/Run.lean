import Stencil.Command.Arguments
import Stencil.File.Loader
import Stencil.Pair
import Stencil.Store
import Stencil.Text.Line

/-!
# Running commands

A command loads its template, its local scopes and its global variables, fills the template and
writes the result to a file or to standard output.

**State.** A run works on the files and on the store of global variables. What it has done stays if
it ends early: the log, and the global variables that were loaded before. The result is written
last, so a run that ends early has written nothing. A process runs one command after the other on
the same files and store, and what the first of them shows of its log sets what the later ones show.

**Endings.** A run ends with an exit code: 0 if all went well, 1 if the template is missing, a value
cannot be converted or the result cannot be written, 2 if a file or a pair is not valid. Faults
that none of these covers break the run off.
-/

namespace Stencil

/-- A fault that breaks a run off. -/
inductive Crash where
  | loading (e : LoadError)
  | filling (e : Failure)
  /-- The engine gives up. -/
  | endless
  | output (e : Json.Error)
  /-- No file can have the path of the result. -/
  | unusablePath
  /-- The system does not say whether the template is there. -/
  | system (e : SystemError)

/-- How a run ends. -/
inductive Ending where
  | exit (code : Nat)
  | crash (c : Crash)

/-- What runs work on, and leave to later runs of the process. -/
structure World where
  store : Store := []
  files : Tree := {}
  /-- The level from which records are shown, once the first run of a command has set it. -/
  logging : Option LogLevel := none

/-- The state of a run. -/
structure Progress where
  world : World := {}
  loader : Loader := {}
  /-- The log so far. -/
  records : List LogRecord := []
  /-- What was written to standard output. -/
  output : List Char := []

/-- A step of a run. -/
abbrev Running := ExceptT Ending (StateM Progress)

namespace Running

/-! ## Steps -/

/-- Put a record into the log. -/
def log (source : LogSource) (level : LogLevel) (message : String) : Running Unit :=
  modify fun s => { s with records := s.records ++ [⟨source, level, message⟩] }

/-- Report an error of the command. -/
def complain (message : String) : Running Unit := log .command .error message

/-- Report what the command is about to do, or has done. -/
def inform (message : String) : Running Unit := log .command .info message

/-- End the run with a code. -/
def exit (code : Nat) : Running α := throw (.exit code)

/-- Report a validation error line by line and end the run. -/
def refuse (e : ValidationError) : Running α := do
  let lines := (Text.lines e.message.toList).map String.ofList
  modify fun s => { s with records := s.records ++ lines.map (⟨.command, .error, ·⟩) }
  exit e.exitCode

/-- The files as they are. -/
def files : Running Tree := return (← get).world.files

/-- Let the loader work. -/
def loading (x : Loader.Loading α) : Running α := do
  let s ← get
  let (result, loader) := x.run.run s.loader
  set { s with loader }
  match result with
  | .ok a => return a
  | .error (.invalid e) => refuse e
  | .error e => throw (.crash (.loading e))

/-- Load a file of variables. -/
def loadVariables (p : Path) : Running Document := do
  let d ← loading (Loader.load (← files) p)
  log .loader .debug ("Loaded " ++ String.ofList (Integer.digits d.length) ++ " variable(s) from " ++
    String.ofList p.text)
  return d

/-- The variables of some pairs. -/
def loadPairs (pairs : List String) : Running Document :=
  match Pair.parse pairs with
  | .ok d => return d
  | .error e => refuse e

/-- The variables of files that are local scopes. -/
def loadScopeFiles : List String → Running (List Document)
  | [] => return []
  | file :: rest => do
    inform ("Loading scope: " ++ file)
    let d ← loadVariables (Path.ofText file.toList)
    let ds ← loadScopeFiles rest
    return d :: ds

/-- The local scopes: first the variables given as pairs, if there are any, then the files. -/
def loadScopes (c : Settings) : Running (List Document) := do
  if c.pairs.isEmpty then loadScopeFiles c.scopeFiles
  else
    let d ← loadPairs c.pairs
    let ds ← loadScopeFiles c.scopeFiles
    return d :: ds

/-- Give variables of the store their values. -/
def updateStore (d : Document) : Running Unit :=
  modify fun s => { s with world := { s.world with store := Document.update s.world.store d } }

/-- A file that is asked for by its name; without a name there is none. -/
def named (file? : Option String) : Option Path :=
  (file?.filter (!·.isEmpty)).map fun file => Path.ofText file.toList

/-- Load global variables into the store: first the file, then the pairs. -/
def loadGlobals (c : Settings) : Running Unit := do
  if let some p := named c.globalFile? then
    inform ("Loading global variables: " ++ c.globalFile?.getD "")
    updateStore (← loadVariables p)
  if !c.globalPairs.isEmpty then
    updateStore (← loadPairs c.globalPairs)

/-- End the run because of a failure to fill the template. -/
def abort (e : Failure) : Running α := do
  match e with
  | .coercion (.refused r) =>
    complain ("Substitution failed: " ++ r.message)
    exit 1
  | .argument .unshowable => throw (.crash (.filling e))
  | .argument a =>
    complain ("Invalid argument: " ++ a.message)
    exit 2
  | e => throw (.crash (.filling e))

/-- Log events of the engine. -/
def logEvents (events : List Event) : Running Unit :=
  modify fun s => { s with records := s.records ++ events.filterMap LogRecord.ofEvent? }

/-- Let the engine work with some values and log its events. -/
def filling (values : List Value) (x : Filling α) : Running α := do
  match (← files).library.givesUp values with
  | some n =>
    logEvents (x.trace.take n)
    throw (.crash .endless)
  | none =>
    logEvents x.trace
    match x.outcome with
    | .ok a => return a
    | .error e => abort e

/-- The request for the engine. -/
def request (c : Settings) (shape : Shape) (scopes : List Document) : Running Request := do
  return {
    shape := .shape shape
    selector := .selector c.selector
    options := {
      default := (c.default?.map Value.text).getD .null
      recurse := c.recurse
      includeNulls := c.includeNulls }
    scopes := scopes.map some
    globals := (← get).world.store }

/-- The values that the engine is given: what is filled, the local scopes and the global variables. -/
def material (r : Request) (v : Value) : List Value :=
  v :: (r.scopes.filterMap id ++ [r.globals]).map Value.document

/-- Fill a text and take the text of the result; null has none. -/
def filledText (r : Request) (v : Value) : Filling (Option (List Char)) := do
  let w ← Engine.substituteText r v
  Fill.coercing (Fill.textOf? w)

/-! ## Writing -/

/-- A text with a line feed at its end. -/
def withLineEnd (cs : List Char) : List Char :=
  if cs.getLast? == some '\n' then cs else cs ++ ['\n']

/-- Write the result into a file. -/
def save (p : Path) (cs : List Char) : Running Unit := do
  let s ← get
  let (files, fault?) := s.world.files.save p (Text.Utf8.encode cs)
  set { s with world := { s.world with files } }
  match fault? with
  | none => inform ("Wrote output to " ++ String.ofList p.text)
  | some f =>
    if f.error = .unusable then throw (.crash .unusablePath)
    else
      complain ("Failed to write output: " ++ f.message)
      exit 1

/-- Write the result. -/
def write (c : Settings) (cs : List Char) : Running Unit :=
  match named c.output? with
  | some p => save p cs
  | none => modify fun s => { s with output := withLineEnd cs }

/-! ## Commands -/

/-- The text of a filled template. -/
def format (c : Settings) (v : Value) : Running (List Char) := do
  match c.format.textOf (← files).library v with
  | .ok cs => return cs
  | .error e => throw (.crash (.output e))

/-- Load a template file, which must be there. -/
def loadFile (p : Path) : Running Value := do
  match (← files).find? p with
  | .error e => throw (.crash (.system e))
  | .ok none =>
    complain ("Template file not found: " ++ String.ofList p.text)
    exit 1
  | .ok (some _) =>
    inform ("Loading template: " ++ String.ofList p.text)
    loading (Loader.loadTemplate (← files) p)

/-- Fill a template file. -/
def render (template : String) (c : Settings) : Running Unit := do
  let v ← loadFile (Path.ofText template.toList)
  let scopes ← loadScopes c
  loadGlobals c
  let r ← request c .string scopes
  let w ← filling (material r v) (Engine.substitute r v)
  write c (← format c w)

/-- Fill a text; without a result it is the empty text. -/
def text (s : String) (c : Settings) : Running Unit := do
  let scopes ← loadScopes c
  loadGlobals c
  let r ← request c c.shape scopes
  let cs ← filling (material r (.text s)) (filledText r (.text s))
  write c (cs.getD [])

/-- Run a command. -/
def command (c : Command) (argument : String) (settings : Settings) : Running Unit :=
  match c with
  | .render => render argument settings
  | .text => text argument settings

end Running
end Stencil
