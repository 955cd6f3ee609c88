import Stencil.Command.Console

/-!
# The command line

The outer layer: it looks up the files that the arguments name, runs the program on them, and then
makes the directories and files that the run made and prints what it printed.
-/

namespace Stencil.CommandLine

/-- The paths that an invocation names. -/
def pathsOf : Invocation → List Path
  | .run c argument settings =>
    let files := settings.scopeFiles ++ settings.globalFile?.toList ++ settings.output?.toList
    let templates := if c = .render then [argument] else []
    (templates ++ files).map fun file => Path.ofText file.toList
  | _ => []

/-- The text of a location. -/
def locationText (at_ : List (List Char)) : String :=
  String.ofList ((Path.mk ['/'] at_).text)

/-- Add to a tree what stands at a location on the disk. -/
def look (t : Tree) (at_ : List (List Char)) : IO Tree := do
  let p := (← IO.currentDir) / locationText at_
  if ← p.isDir then return t.put at_ .directory
  else if ← p.pathExists then return t.put at_ (.file (← IO.FS.readBinFile p).toList)
  else return t

/-- Add to a tree what stands on the way along some names. -/
def lookAlong (t : Tree) (here : List (List Char)) : List (List Char) → IO Tree
  | [] => return t
  | name :: names => do
    let next := if name == ['.', '.'] then here.dropLast else here ++ [name]
    lookAlong (← look t next) next names

/-- The files that some paths may lead to. -/
def snapshot (paths : List Path) : IO Tree := do
  let base := (Path.ofText (← IO.currentDir).toString.toList).names
  let mut t ← lookAlong { base, refusal := Tree.limits base } [] base
  for p in paths do
    t ← lookAlong t (if p.root.isEmpty then base else []) p.names
  return t

/-- Make on the disk what a tree holds and another did not. -/
def store (before after : Tree) : IO Unit := do
  for (at_, e) in after.entries do
    if before.entries.lookup at_ != some e then
      match e with
      | .directory => IO.FS.createDirAll (locationText at_)
      | .file data => IO.FS.writeBinFile (locationText at_) (ByteArray.mk data.toArray)

end Stencil.CommandLine

open Stencil Stencil.CommandLine in
/-- Run the program. -/
def main (args : List String) : IO UInt32 := do
  let files ← snapshot (pathsOf (Arguments.read args))
  let (report, world) := Program.run args { files }
  store files world.files
  IO.print (report.standardOutput .short)
  IO.eprint (report.standardError .short)
  return report.code.toUInt32
