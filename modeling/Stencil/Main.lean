import Stencil.CommandLine.Run

/-!
# The program

Runs a command line in the current directory.  The files of the workspace and
below the paths among the arguments are read first; what the command line
changed among them is written back at the end.
-/

namespace Stencil.Program

private def stringOf (text : Text) : String :=
  String.ofList (text.filterMap fun
    | .scalar c => some c
    | .surrogate _ => none)

private def pathOf (place : Location) : String := stringOf place.path.text

private def placeOf (path : String) : Location := (FilePath.ofText (Text.ofString path)).parts

/-- Directories that are noted and not looked into. -/
private def isClosed (name : Text) : Bool := [".git", "node_modules"].contains (stringOf name)

/-! ## Reading -/

/-- Links are read together with what they lead to, unless that was read already. -/
private partial def readItem (place : Location) (tree : FileTree) : IO FileTree := do
  let path := (← IO.currentDir) / pathOf place
  if (← path.symlinkMetadata).type == .symlink then
    if ← path.pathExists then
      let target := placeOf (← IO.FS.realPath path).toString
      let tree := tree.put place (.link target.path.text)
      if (tree.get? target).isSome then return tree
      else readItem target (tree.putDirectories [] target.dropLast)
    else return tree.put place (.link place.path.text)
  else if ← path.isDir then
    let tree := tree.put place .directory
    if (place.getLast?.map isClosed).getD false then return tree
    let mut tree := tree
    for entry in ← path.readDir do
      tree ← readItem (place ++ [Text.ofString entry.fileName]) tree
    return tree
  else return tree.put place (.file (.bytes (← IO.FS.readBinFile path).toList))

private def readBelow (path : String) (tree : FileTree) : IO FileTree := do
  let path := (← IO.currentDir) / path
  if ← path.pathExists then
    let place := placeOf (← IO.FS.realPath path).toString
    readItem place (tree.putDirectories [] place.dropLast)
  else return tree

/-- The nearest directory above with a repository, or the directory itself. -/
private partial def workspaceOf (place here : Location) : IO Location := do
  let path := (← IO.currentDir) / pathOf place / ".git"
  if ← path.pathExists then return place
  else if place.isEmpty then return here
  else workspaceOf place.dropLast here

/-! ## Writing -/

private def writeItem (base : String) (before : FileTree) (place : Location) (item : FileItem) :
    IO Unit := do
  let path := (← IO.currentDir) / base / pathOf place
  match before.get? place, item with
  | some (.file (.bytes old)), .file (.bytes new) =>
      if old ≠ new then IO.FS.writeBinFile path ⟨new.toArray⟩
  | _, .file (.bytes new) => IO.FS.writeBinFile path ⟨new.toArray⟩
  | none, .directory => IO.FS.createDirAll path
  | _, _ => pure ()

private def settingNames : List String :=
  ["SCAFFOLD_TEMPLATES_PATH", "SCAFFOLD_TEMPLATE_SUFFIX", "SCAFFOLD_INSTALL_COMMAND",
    "SCAFFOLD_VERBOSE"]

private def environment : IO (List (Text × Text)) :=
  settingNames.filterMapM fun name => do
    return (← IO.getEnv name).map fun value => (Text.ofString name, Text.ofString value)

end Stencil.Program

open Stencil Program in
def main (arguments : List String) : IO UInt32 := do
  let here := placeOf (← IO.currentDir).toString
  let environment ← environment
  let mut tree := FileTree.empty.putDirectories [] here
  tree ← readBelow (pathOf (← workspaceOf here here)) tree
  for path in environment.map (stringOf ·.2) ++ arguments do
    tree ← readBelow path tree
  let run := CommandLine.run environment (arguments.map Text.ofString)
  let (ended, session) := StateT.run run.run (.start tree here)
  for (place, item) in session.tree.items do
    writeItem "/" tree place item
  for line in session.shown do
    IO.println (stringOf line)
  match ended with
  | .ok ending =>
      for complaint in ending.complaint.toList do
        IO.eprintln (stringOf complaint)
      return UInt32.ofNat ending.code
  | .error failure =>
      IO.eprintln (stringOf failure.message)
      return 1
