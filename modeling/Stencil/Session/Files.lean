import Stencil.Session.Basic

/-!
# Files of a session

The single steps that files are read and written by.  Paths are given as texts
and named so in failures; relative ones start in the current directory.
-/

namespace Stencil.Action

def locate (path : Text) (followLast : Bool) : Action Location := do
  let s ← get
  lift (s.tree.locate s.here path followLast)

/-- What is at a path, links followed. -/
def look (path : Text) : Action FileItem := do
  let s ← get
  lift (s.tree.look s.here path true)

/-- Whether anything is at a path, be it a link that leads nowhere. -/
def exists? (path : Text) : Action Bool := do
  let s ← get
  match s.tree.look s.here path false with
  | .ok _ => return true
  | .error _ => return false

/-- A test of what is at a path; there is nothing behind a file or a loop of links. -/
def passes (test : FileItem → Bool) (path : Text) : Action Bool := do
  let s ← get
  match s.tree.look s.here path true with
  | .ok item => return test item
  | .error (.system cause path) =>
      if cause.isAbsence then return false else throw (.system cause path)
  | .error _ => return false

def isDirectory (path : Text) : Action Bool := passes FileItem.isDirectory path

def isFile (path : Text) : Action Bool := passes FileItem.isFile path

/-- Whether a directory is at a path, and false where that cannot be told. -/
def leadsToDirectory (path : Text) : Action Bool := do
  match ← attempt (isDirectory path) with
  | .ok found => return found
  | .error _ => return false

/-- The real place of a path; a path in a loop of links has none. -/
def resolve (path : Text) : Action Location := do
  let s ← get
  let place ← lift (s.tree.realPlace s.here path)
  let full := place.path.text
  match s.tree.look s.here full true with
  | .error (.system .linkLoop path) => throw (.linkLoop path)
  | _ => return place

/-- The path of the current directory, which may have been removed. -/
def currentDirectory : Action FilePath := do
  let s ← get
  if (s.tree.get? s.here).any FileItem.isDirectory then return s.here.path
  else throw .lostDirectory

def absolute (path : FilePath) : Action FilePath := do
  if path.isAbsolute then return path else return (← currentDirectory).join path

/-! ## Reading -/

def readContent (path : Text) : Action Content := do
  match ← look path with
  | .file content => return content
  | .directory => throw (.system .isDirectory path)
  | .link _ => throw (.system .missing path)

/-- The text of a file, with line ends unified; programs are not shown. -/
def readText (path : Text) : Action Text := do
  match ← readContent path with
  | .bytes bytes => return Text.unifyLineEnds (← lift ((Text.decode bytes).mapError .undecodable))
  | .program _ => return []

def namesIn (path : Text) : Action (List Text) := do
  let place ← locate path true
  match (← get).tree.get? place with
  | some .directory => return (← get).tree.names place
  | some _ => throw (.system .notDirectory path)
  | none => throw (.system .missing path)

/-! ## Writing -/

/-- The place of a file that is opened for writing. -/
def openForWriting (path : Text) : Action Location := do
  let place ← locate path true
  match (← get).tree.get? place with
  | some .directory => throw (.system .isDirectory path)
  | _ => return place

def putContent (place : Location) (content : Content) : Action Unit := do
  setTree ((← get).tree.put place (.file content))

/-- Opening a file empties it, and it stays empty if the text cannot be encoded. -/
def writeText (path text : Text) : Action Unit := do
  let place ← openForWriting path
  putContent place (.bytes [])
  let bytes ← lift ((Text.encode text).mapError .unencodable)
  putContent place (.bytes bytes)

/-- A new directory, where nothing is yet. -/
def makeDirectory (path : Text) : Action Unit := do
  let place ← locate path false
  match (← get).tree.get? place with
  | some _ => throw (.system .exists path)
  | none => setTree ((← get).tree.put place .directory)

/-- Makes a directory unless there is one, or does something else where those above are missing. -/
def makeOr (path : Text) (unlessAbove : Failure → Action Unit) : Action Unit :=
  orElseIf Failure.isOfSystem (makeDirectory path) fun failure => do
    if failure.isMissing then unlessAbove failure
    else if !(← isDirectory path) then throw failure

/-- The directory that names lead to, given from the last one on, and those above it. -/
def ensureNames (anchor : Anchor) : List Text → Action Unit
  | [] => makeOr (FilePath.mk anchor []).text fun failure => throw failure
  | name :: above =>
      let path := (FilePath.mk anchor (name :: above).reverse).text
      makeOr path fun _ => do
        ensureNames anchor above
        makeOr path fun failure => throw failure

/-- A directory and those above it, as far as they are missing. -/
def ensureDirectories (path : FilePath) : Action Unit := ensureNames path.anchor path.parts.reverse

/-- A text in a file, with the directories above it. -/
def writeFile (path : FilePath) (text : Text) : Action Unit := do
  ensureDirectories path.parent
  writeText path.text text

end Stencil.Action
