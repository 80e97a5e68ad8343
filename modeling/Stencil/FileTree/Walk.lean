import Stencil.Failure
import Stencil.FilePath
import Stencil.FileTree.Basic

/-!
# Walking paths

A path leads from a directory over names, dots and links to a place.  `walk`
finds the place; something has to be at every place on the way, but the last
name may be free.  `realPlace` follows links as far as they lead and takes what
is missing as it is written.
-/

namespace Stencil

/-! ## What a path is made of -/

namespace PathText

/-- The names of a path.  A slash at its end asks for a directory. -/
def steps (text : Text) : List Text :=
  (Text.splitOn FilePath.slash text).filter (!·.isEmpty) ++
    (if text.getLast? = some FilePath.slash then [("." : Text)] else [])

def isAbsolute (text : Text) : Bool := decide (text.head? = some FilePath.slash)

/-- A surrogate that does not stand for a single byte. -/
def isUnencodable (c : CodePoint) : Bool :=
  c.isSurrogate && !(decide (0xDC80 ≤ c.toNat) && decide (c.toNat ≤ 0xDCFF))

/-- What keeps a text from being a path at all. -/
def fault? (text : Text) : Option Failure :=
  match text.dropWhile (!isUnencodable ·) with
  | first :: rest =>
      some (.unencodable ⟨(text.takeWhile (!isUnencodable ·)).length,
        (rest.takeWhile CodePoint.isSurrogate).length + 1, first⟩)
  | [] => if text.any (·.toNat = 0) then some (.value "embedded null byte") else none

end PathText

namespace FileTree

def longestName : Nat := 255

def longestPath : Nat := 4096

/-- How many links may be followed on one way. -/
def mostLinks : Nat := 40

/-! ## The place of a path -/

/-- Walks names up to a link that has to be followed; `jump` goes on from there. -/
def walkNames (tree : FileTree) (followLast : Bool)
    (jump : Location → List Text → Except Cause Location) :
    Location → List Text → Except Cause Location
  | here, [] => .ok here
  | here, name :: rest =>
      if name = ("." : Text) then walkNames tree followLast jump here rest
      else if name = (".." : Text) then walkNames tree followLast jump here.dropLast rest
      else if longestName < name.byteLength then .error .longName
      else
        let next := here ++ [name]
        match tree.get? next with
        | none => if rest.isEmpty then .ok next else .error .missing
        | some .directory => walkNames tree followLast jump next rest
        | some (.file _) => if rest.isEmpty then .ok next else .error .notDirectory
        | some (.link target) =>
            if rest.isEmpty && !followLast then .ok next
            else
              jump (if PathText.isAbsolute target then [] else here)
                (PathText.steps target ++ rest)

/-- Walks names from a place, and follows a number of links at most. -/
def walk (tree : FileTree) (followLast : Bool) : Nat → Location → List Text → Except Cause Location
  | 0 => walkNames tree followLast fun _ _ => .error .linkLoop
  | links + 1 => walkNames tree followLast (walk tree followLast links)

/-- Where a path starts: at the root, or in the directory `here` if that is still there. -/
def start (tree : FileTree) (here : Location) (path : Text) : Option Location :=
  if PathText.isAbsolute path then some []
  else if (tree.get? here).any FileItem.isDirectory then some here
  else none

/-- The place of a path that starts in the directory `here`, if it is relative. -/
def locate (tree : FileTree) (here : Location) (path : Text) (followLast : Bool) :
    Except Failure Location :=
  match PathText.fault? path with
  | some fault => .error fault
  | none =>
      if path.isEmpty then .error (.system .missing path)
      else if longestPath ≤ path.byteLength then .error (.system .longName path)
      else
        match tree.start here path with
        | none => .error (.system .missing path)
        | some start =>
            match walk tree followLast mostLinks start (PathText.steps path) with
            | .ok place => .ok place
            | .error cause => .error (.system cause path)

/-- What is at a path, links followed or not. -/
def look (tree : FileTree) (here : Location) (path : Text) (followLast : Bool) :
    Except Failure FileItem := do
  match tree.get? (← tree.locate here path followLast) with
  | some item => return item
  | none => throw (.system .missing path)

/-! ## Places behind links -/

/-- The places of links that are being resolved, or what they were resolved to. -/
abbrev Resolved := List (Location × Option Location)

/-- The names with dots taken literally. -/
def normal (here : Location) (names : List Text) : Location :=
  names.foldl (fun place name =>
    if name = ("." : Text) ∨ name.isEmpty then place
    else if name = (".." : Text) then place.dropLast
    else place ++ [name]) here

/-- Follows links; `inner` resolves one of them, unless there are too many at once. -/
def followNames (tree : FileTree)
    (inner : Option (Location → List Text → Resolved → Location × Bool × Resolved)) :
    Location → List Text → Resolved → Location × Bool × Resolved
  | here, [], known => (here, true, known)
  | here, name :: rest, known =>
      if name = ("." : Text) then followNames tree inner here rest known
      else if name = (".." : Text) then followNames tree inner here.dropLast rest known
      else
        let next := here ++ [name]
        match tree.get? next with
        | some (.link target) =>
            match known.lookup next, inner with
            | some (some place), _ => followNames tree inner place rest known
            | some none, _ | none, none => (normal next rest, false, known)
            | none, some inner =>
                let start := if PathText.isAbsolute target then [] else here
                match inner start (PathText.steps target) ((next, none) :: known) with
                | (place, true, known) =>
                    followNames tree (some inner) place rest ((next, some place) :: known)
                | (place, false, known) => (normal place rest, false, known)
        | _ => followNames tree inner next rest known

/-- Follows links; `false` if one of them leads to itself, and the rest is taken literally. -/
def follow (tree : FileTree) : Nat → Location → List Text → Resolved → Location × Bool × Resolved
  | 0 => followNames tree none
  | depth + 1 => followNames tree (some (follow tree depth))

/-- The place that a path really leads to, whether or not something is there. -/
def realPlace (tree : FileTree) (here : Location) (path : Text) : Except Failure Location :=
  match PathText.fault? path with
  | some fault => .error fault
  | none =>
      match tree.start here path with
      | none => .error .lostDirectory
      | some start =>
          .ok (tree.follow tree.links.length start (PathText.steps path) []).1

end FileTree

/-- The absolute path of a place. -/
def Location.path (place : Location) : FilePath := ⟨.root, place⟩

end Stencil
