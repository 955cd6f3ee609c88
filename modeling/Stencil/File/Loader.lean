import Stencil.Document
import Stencil.File.Tree
import Stencil.Validation
import Stencil.Value.Quoted
import Stencil.Yaml.Read

/-!
# Loading files

A template file may hold any value; a file of variables must hold a mapping whose keys are texts, or
nothing. What is wrong with a file is gathered as complaints in the loader and reported at once,
which leaves the loader empty again. Faults of single scalars are not complaints: they end the
loading there, as do bytes that are no text and collections that lie too deep inside each other.
-/

namespace Stencil

/-- What gathers the complaints about a file. -/
structure Loader where
  complaints : List Complaint := []
deriving DecidableEq

/-- Why a file was not loaded. -/
inductive LoadError where
  | invalid (e : ValidationError)
  /-- The content is at fault, other than in its form. -/
  | fault (f : Yaml.Fault)
  /-- A key cannot be shown in the complaint about it. -/
  | unshowableKey
  /-- No file can have the path. -/
  | unusablePath
deriving DecidableEq

namespace Loader

/-- A step of loading: its result, and the loader after it. -/
abbrev Loading := ExceptT LoadError (StateM Loader)

/-- The suffixes of files that can be loaded. -/
def suffixes : List (List Char) := [".json", ".yaml", ".yml"].map String.toList

/-- Gather a complaint about a file. -/
def complain (p : Path) (message : String) : Loading Unit :=
  modify fun l => ⟨l.complaints ++ [{ message, path := String.ofList p.text }]⟩

/-- Report the complaints gathered. -/
def raise : Loading α := do
  let l ← get
  set ({} : Loader)
  throw (.invalid ⟨l.complaints⟩)

/-- Report the complaints gathered, if there are any. -/
def report : Loading Unit := do
  if !(← get).complaints.isEmpty then raise

/-- Complain about a file and report. -/
def refuse (p : Path) (message : String) : Loading α := do
  complain p message
  raise

/-- The suffixes as messages list them. -/
def suffixList : String :=
  "[" ++ ", ".intercalate (suffixes.map fun s => String.ofList (Text.quoted s)) ++ "]"

/-- The complaint about a suffix. -/
def suffixMessage (suffix : List Char) : String :=
  "Unsupported file type '" ++ String.ofList suffix ++ "'. Supported: " ++ suffixList

/-- The complaint about a file that cannot be read. -/
def failureMessage (reason : String) : String := "Failed to load file: " ++ reason

/-- The value in a file. -/
def value (t : Tree) (p : Path) : Loading Value := do
  set ({} : Loader)
  if !suffixes.contains (Text.lowercase p.suffix) then refuse p (suffixMessage p.suffix)
  else match t.read p with
    | .error .unusable => throw .unusablePath
    | .error e => refuse p (failureMessage (FileFault.message ⟨e, p⟩))
    | .ok data =>
      match Yaml.read t.library data with
      | .ok v => return v
      | .error .malformed => refuse p (failureMessage (t.library.words p data))
      | .error f => throw (.fault f)

/-- The complaint about a key that is no text. -/
def keyMessage? (key : Value) : Option String :=
  key.quoted?.map fun cs =>
    "Keys must be strings, got " ++ key.typeName ++ " key " ++ String.ofList cs

/-- Complain about every key that is no text. -/
def checkKeys (p : Path) : List Value → Loading Unit
  | [] => return
  | .text _ :: keys => checkKeys p keys
  | key :: keys => do
    match keyMessage? key with
    | some message => complain p message
    | none => throw .unshowableKey
    checkKeys p keys

/-- Load a file of variables. -/
def load (t : Tree) (p : Path) : Loading Document := do
  match ← value t p with
  | .null => return []
  | .document entries =>
    checkKeys p (Document.keys entries)
    report
    return entries
  | v => refuse p ("Top level must be a mapping, got " ++ v.typeName)

/-- Load a template file. -/
def loadTemplate (t : Tree) (p : Path) : Loading Value := do
  let v ← value t p
  report
  return v

end Loader
end Stencil
