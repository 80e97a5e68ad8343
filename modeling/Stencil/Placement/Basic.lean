import Stencil.Placement.Filling

/-!
# Placement

A source is placed at a target by copying it and filling the copy.  What is at
the target already is left as it is.  The journal gets the files either way.
-/

namespace Stencil.Placement

open Stencil.Action

/-- A source by its name, or by its name with the suffix that marks templates. -/
def findSource (suffix : Text) (source : FilePath) : Action FilePath := do
  let suffixed := FilePath.ofText (source.text ++ suffix)
  if ← Storage.exists? source.text then return source
  else if ← Storage.exists? suffixed.text then return suffixed
  else throw (.noSource source.text suffixed.text)

/-! ## The files of a target -/

def unseen (kind path : Text) (failure : Failure) : Action Unit :=
  printWarning (("Cannot " : Text) ++ kind ++ (" " : Text) ++ path ++ (": " : Text) ++
    failure.message)

/-- Notes an item of a directory; `descend` notes the files of a directory. -/
def recordItem (note : Journal → Text → Journal) (descend : FilePath → Action Unit)
    (directory : FilePath) (name : Text) : Action Unit := do
  let path := directory.child name
  match ← attempt (Storage.item path.text) with
  | .ok .directory => descend path
  | .ok (.file _) => updateJournal fun journal => note journal path.text
  | .ok (.link _) => return
  | .error failure =>
      if failure.isOfSystem then unseen "stat" path.text failure else throw failure

/-- Notes the items of a directory in the order of their names. -/
def recordItems (note : Journal → Text → Journal) (descend : FilePath → Action Unit)
    (directory : FilePath) : Action Unit := do
  match ← attempt (Storage.names directory.text) with
  | .ok names => names.forM (recordItem note descend directory)
  | .error failure =>
      if failure.isOfSystem then unseen "read directory" directory.text failure
      else throw failure

/-- No path is longer than the longest, so nothing lies deeper than the depth it allows. -/
def recordTree (note : Journal → Text → Journal) : Nat → FilePath → Action Unit
  | 0 => recordItems note fun _ => return
  | depth + 1 => recordItems note (recordTree note depth)

/-- Notes the files at a path in the journal: all of a directory, or the path itself. -/
def record (note : Journal → Text → Journal) (path : Text) : Action Unit := do
  if ← Storage.isDirectory (FilePath.ofText path).text then
    recordTree note FileTree.longestPath (.ofText path)
  else updateJournal fun journal => note journal path

/-- Makes a target, which is not there yet. -/
def make (suffix : Text) (source target : FilePath) (vars : Variables) : Action Unit := do
  let source ← findSource suffix source
  Storage.copy source.text target.text
  let warnings ← fill target.text vars
  updateJournal fun journal => journal.warn warnings
  record Journal.create target.text

/-- Whether the target was made; what is there already is preserved. -/
def place (suffix : Text) (source target : FilePath) (vars : Variables) : Action Bool := do
  Storage.ensureDirectory target.parent.text
  if ← Storage.exists? target.text then
    record Journal.preserve target.text
    return false
  else
    make suffix source target vars
    return true

end Stencil.Placement
