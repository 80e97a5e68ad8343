import Stencil.Session.Files

/-!
# Copying

Files are copied byte by byte and directories with all that is below them.
Links are followed, so a copy holds none.  Copying a directory goes on after an
error and tells all of them at its end.
-/

namespace Stencil.Action

/-- The name of a file inside a directory. -/
def inside (directory name : Text) : Text :=
  if directory.isEmpty ∨ Text.endsWith "/" directory then directory ++ name
  else directory ++ ("/" : Text) ++ name

/-! ## Files -/

/-- A path, and how it is shown when two paths turn out to be one. -/
structure CopyPath where
  path : Text
  shown : Text

namespace CopyPath

def ofText (path : Text) : CopyPath := ⟨path, path.quoted⟩

def ofPath (path : FilePath) : CopyPath := ⟨path.text, path.quoted⟩

/-- An item that was found in a directory. -/
def ofItem (path name : Text) : CopyPath :=
  ⟨path, ("<DirEntry " : Text) ++ name.quoted ++ (">" : Text)⟩

end CopyPath

/-- The place of what is at a path, if anything is there. -/
def placeOf? (path : Text) : Action (Option Location) :=
  orElseIf Failure.isOfSystem
    (do
      let _ ← look path
      return some (← locate path true))
    fun _ => return none

def isSamePlace (source target : Text) : Action Bool := do
  match ← placeOf? source with
  | some place => return (← placeOf? target) = some place
  | none => return false

/-- The content of a file put into another one. -/
def copyOnto (source target : CopyPath) : Action Unit := do
  if ← isSamePlace source.path target.path then throw (.sameFile source.shown target.shown)
  else
    let content ← readContent source.path
    putContent (← openForWriting target.path) content

/-- A file copied to a path, or into a directory at that path. -/
def copyFile (source target : CopyPath) : Action Unit := do
  let name := (source.path.reverse.takeWhile (· ≠ FilePath.slash)).reverse
  if ← leadsToDirectory target.path then copyOnto source (.ofText (inside target.path name))
  else copyOnto source target

/-! ## Directories -/

/-- Makes a directory unless there is one. -/
def makeTarget (path : Text) : Action Unit :=
  orElseIf Failure.isOfSystem (makeDirectory path) fun failure => do
    if !(← leadsToDirectory path) then throw failure

/-- Whether an item of a directory is one itself; a link that leads nowhere is none. -/
def isDirectoryItem (path : Text) : Action Bool :=
  orElseIf Failure.isMissing (do return (← look path).isDirectory) fun _ => return false

def errorsOf (source target : Text) : Failure → List CopyError
  | .copying errors => errors
  | .sameFile first second => (Failure.sameFile first second).message.map .letter
  | failure => [.item source target failure.message]

/-- Copies an item from one directory to another, and returns what went wrong. -/
def copyItem (descend : Text → Text → Action Unit) (source target name : Text) :
    Action (List CopyError) := do
  let item := inside source name
  let copy := inside target name
  let copied ← attempt do
    if ← isDirectoryItem item then descend item copy
    else copyFile (.ofItem item name) (.ofText copy)
  match copied with
  | .ok () => return []
  | .error failure =>
      if failure.isOfSystem then return errorsOf item copy failure else throw failure

/-- Copies the items of a directory into another one, which is made unless it is there. -/
def copyItems (descend : Text → Text → Action Unit) (source target : Text) : Action Unit := do
  let names ← namesIn source
  makeTarget target
  match (← names.mapM (copyItem descend source target)).flatten with
  | [] => return
  | errors => throw (.copying errors)

/-- No path is longer than the longest, so nothing lies deeper than the depth it allows. -/
def copyDirectory : Nat → Text → Text → Action Unit
  | 0 => copyItems fun item _ => throw (.system .longName item)
  | depth + 1 => copyItems (copyDirectory depth)

/-- A file or a directory, with the directories above the target. -/
def copy (source target : FilePath) : Action Unit := do
  ensureDirectories target.parent
  if ← isDirectory source.text then copyDirectory FileTree.longestPath source.text target.text
  else copyFile (.ofPath source) (.ofPath target)

end Stencil.Action
