import Stencil.File.Path
import Stencil.Library
import Stencil.Number.Integer
import Stencil.Text.Quoted
import Stencil.Text.Utf8

/-!
# Trees of files

The files that a command can see, and what reading and writing does to them. Every location is the
list of names from the root; paths without a slash at the start begin at the base. A path is
followed name by name through directories that are there, and a double dot leads one level up.

**Refusals.** Beyond that the system may refuse an access for reasons of its own: a name is too long,
a directory may not be searched, a disk is full. `Tree.refusal` says when it does, and may be any
function of what stands where and of the access.
-/

namespace Stencil

/-- What stands at a location. -/
inductive Entry where
  | file (data : List UInt8)
  | directory
deriving DecidableEq

/-- What is asked of the system about a path. -/
inductive Access where
  | look
  | read
  | write
  | makeDirectory
deriving DecidableEq

/-- An error of the system that does not come from what stands where. -/
structure SystemError where
  number : Nat
  words : String
  /-- The numbers of the errors that do. -/
  isOther : number ∉ [2, 17, 20, 21]
deriving DecidableEq

namespace SystemError

/-- To the question whether something stands at a path this error is the answer no: a descriptor is
bad, or links go round in circles. -/
def meansAbsent (e : SystemError) : Bool := e.number = 9 || e.number = 40

/-- A path or a name in it is too long. -/
def nameTooLong : SystemError := ⟨36, "File name too long", by decide⟩

end SystemError

/-- The files of a root directory. -/
structure Tree where
  /-- The location at which relative paths begin. -/
  base : List (List Char) := []
  entries : List (List (List Char) × Entry) := []
  /-- What the system refuses, where some entries stand. -/
  refusal : List (List (List Char) × Entry) → Access → Path → Option SystemError :=
    fun _ _ _ => none
  /-- The library by which the contents of files are read and written. -/
  library : Library := .plain

/-- Why a file cannot be read or written. -/
inductive FileError where
  | missing
  | present
  | notDirectory
  | isDirectory
  /-- The system refuses it. -/
  | system (e : SystemError)
  /-- No file can have the path. -/
  | unusable
deriving DecidableEq

/-- A failed access to a path. -/
structure FileFault where
  error : FileError
  path : Path
deriving DecidableEq

namespace FileError

/-- The number of an error and the words for it. -/
def parts : FileError → String × String
  | missing => ("2", "No such file or directory")
  | present => ("17", "File exists")
  | notDirectory => ("20", "Not a directory")
  | isDirectory => ("21", "Is a directory")
  | system e => (String.ofList (Integer.digits e.number), e.words)
  | unusable => ("22", "Invalid argument")

end FileError

/-- The words for a failed access. -/
def FileFault.message (f : FileFault) : String :=
  let (number, words) := f.error.parts
  "[Errno " ++ number ++ "] " ++ words ++ ": " ++ String.ofList (Text.quoted f.path.text)

namespace Tree

/-- What stands at a location. The root is a directory. -/
def entry? (t : Tree) (at_ : List (List Char)) : Option Entry :=
  if at_.isEmpty then some .directory else t.entries.lookup at_

/-- The tree with an entry at a location, in the place of one that stands there. -/
def put (t : Tree) (at_ : List (List Char)) (e : Entry) : Tree :=
  if (t.entries.lookup at_).isSome then
    { t with entries := t.entries.map fun old => if old.1 == at_ then (at_, e) else old }
  else { t with entries := t.entries ++ [(at_, e)] }

/-- Follow names from a location. Nothing need stand at the last of them. -/
def follow (t : Tree) (here : List (List Char)) :
    List (List Char) → Except FileError (List (List Char))
  | [] => .ok here
  | name :: names =>
    match t.entry? here with
    | some .directory =>
      t.follow (if name == ['.', '.'] then here.dropLast else here ++ [name]) names
    | some (.file _) => .error .notDirectory
    | none => .error .missing

/-- The location of a path. -/
def locate (t : Tree) (p : Path) : Except FileError (List (List Char)) :=
  if p.isUnusable then .error .unusable
  else t.follow (if p.root.isEmpty then t.base else []) p.names

/-- What the system refuses of an access. -/
def refused? (t : Tree) (a : Access) (p : Path) : Option SystemError := t.refusal t.entries a p

/-- The location of a path that is accessed. -/
def access (t : Tree) (a : Access) (p : Path) : Except FileError (List (List Char)) :=
  if p.isUnusable then .error .unusable
  else match t.refused? a p with
    | some e => .error (.system e)
    | none => t.locate p

/-- What stands at a path. Looking there may be refused. -/
def find? (t : Tree) (p : Path) : Except SystemError (Option Entry) :=
  match t.access .look p with
  | .ok at_ => .ok (t.entry? at_)
  | .error (.system e) => if e.meansAbsent then .ok none else .error e
  | .error _ => .ok none

/-- The content of the file at a path. -/
def read (t : Tree) (p : Path) : Except FileError (List UInt8) := do
  match t.entry? (← t.access .read p) with
  | some (.file data) => return data
  | some .directory => throw .isDirectory
  | none => throw .missing

/-- Give the file at a path a content. -/
def write (t : Tree) (p : Path) (data : List UInt8) : Except FileError Tree := do
  let at_ ← t.access .write p
  if t.entry? at_ = some .directory then throw .isDirectory
  else return t.put at_ (.file data)

/-- Make a directory at a path. -/
def makeDirectory (t : Tree) (p : Path) : Except FileError Tree := do
  let at_ ← t.access .makeDirectory p
  if (t.entry? at_).isSome then throw .present else return t.put at_ .directory

/-! ## Saving

What fails halfway leaves what was made before, so these give the tree in any case. -/

/-- The error that is left of making a directory: none if one is there. -/
def remaining (t : Tree) (p : Path) (e : FileError) : Option FileError :=
  if e = .missing then some e
  else match t.find? p with
    | .ok found => if found = some .directory then none else some e
    | .error e => some (.system e)

/-- Make a directory at a path unless one is there. -/
def makeIfMissing (t : Tree) (p : Path) : Tree × Option FileFault :=
  match t.makeDirectory p with
  | .ok t => (t, none)
  | .error e => (t, (t.remaining p e).map (⟨·, p⟩))

/-- Make a directory and all directories around it as far as they are missing. The names come
backwards. -/
def makeAll (t : Tree) (root : List Char) : List (List Char) → Tree × Option FileFault
  | [] => t.makeIfMissing ⟨root, []⟩
  | name :: outer =>
    let p : Path := ⟨root, (name :: outer).reverse⟩
    match t.makeDirectory p with
    | .error .missing =>
      match t.makeAll root outer with
      | (t, none) => t.makeIfMissing p
      | failed => failed
    | _ => t.makeIfMissing p

/-- Give the file at a path a content. The directories around it are made first. -/
def save (t : Tree) (p : Path) (data : List UInt8) : Tree × Option FileFault :=
  match t.makeAll p.root p.parent.names.reverse with
  | (t, none) =>
    match t.write p data with
    | .ok t => (t, none)
    | .error e => (t, some ⟨e, p⟩)
  | failed => failed

/-- The files below the base with their paths. -/
def files (t : Tree) : List (Path × List UInt8) :=
  t.entries.filterMap fun (at_, e) =>
    match e with
    | .file data =>
      if t.base.isPrefixOf at_ then some (⟨[], at_.drop t.base.length⟩, data) else none
    | .directory => none

/-! ## Limits on names -/

/-- The name is longer than file systems allow. -/
def isLongName (name : List Char) : Bool := 255 < (Text.Utf8.encode name).length

/-- What a system refuses that has no limits but those on the lengths of paths and of names. A name
that is too long is found out in a directory that is there. -/
def limits (base : List (List Char)) (entries : List (List (List Char) × Entry)) (_ : Access)
    (p : Path) : Option SystemError :=
  let t : Tree := { base, entries }
  let before := p.names.takeWhile (!isLongName ·)
  let isReached := match t.locate { p with names := before } with
    | .ok at_ => t.entry? at_ = some .directory
    | .error _ => false
  if 4096 ≤ (Text.Utf8.encode p.text).length || (before != p.names && isReached) then
    some .nameTooLong
  else none

/-! ## Examples -/

/-- Reading back what was saved in new directories, past a missing name, and a directory. -/
example :
    let path (s : String) := Path.ofText s.toList
    let t := (({} : Tree).save (path "a/b/c") [1]).1
    ["a/b/../b/c", "a/x/../b/c", "a"].map (fun s : String => (t.read (path s)).toOption) =
        [some [1], none, none] ∧
      (t.save (path "a/b/c/d") []).2.map FileFault.message =
        some "[Errno 17] File exists: 'a/b/c'" := by decide +kernel

/-- A name that is too long is refused where its directory is there. -/
example :
    let t : Tree := { refusal := limits [] }
    let name := List.replicate 256 'a'
    [t.find? ⟨[], [name]⟩, t.find? ⟨[], [['b'], name]⟩].map
      (fun found : Except SystemError (Option Entry) => found.toOption.isSome) = [false, true] := by
  decide +kernel

end Tree
end Stencil
