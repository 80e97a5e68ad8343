import Stencil.Text.Quoted
import Stencil.Text.Casing

/-!
# Paths

A path is a list of names below an anchor.  Doubled slashes and names that are
a single dot mean nothing and are dropped; a pair of dots is kept, because what
it means depends on links.
-/

namespace Stencil

/-- Where a path starts.  Two leading slashes are kept apart from one. -/
inductive Anchor where
  | here
  | root
  | doubleRoot
  deriving DecidableEq, Repr, Inhabited

structure FilePath where
  anchor : Anchor
  parts : List Text
  deriving DecidableEq, Repr, Inhabited

namespace FilePath

def slash : CodePoint := .scalar '/'

def isName (part : Text) : Bool := !part.isEmpty && part ≠ ("." : Text)

def anchorOf : Text → Anchor
  | [] => .here
  | text =>
      match (text.takeWhile (· = slash)).length with
      | 0 => .here
      | 2 => .doubleRoot
      | _ => .root

def ofText (text : Text) : FilePath :=
  ⟨anchorOf text, (Text.splitOn slash text).filter isName⟩

def anchorText : Anchor → Text
  | .here => []
  | .root => "/"
  | .doubleRoot => "//"

def text (path : FilePath) : Text :=
  match anchorText path.anchor ++ Text.joinWith "/" path.parts with
  | [] => "."
  | text => text

def isAbsolute (path : FilePath) : Bool := decide (path.anchor ≠ .here)

/-- An absolute second path stands for itself. -/
def join (path other : FilePath) : FilePath :=
  if other.isAbsolute then other else ⟨path.anchor, path.parts ++ other.parts⟩

def child (path : FilePath) (text : Text) : FilePath := path.join (ofText text)

def parent (path : FilePath) : FilePath := { path with parts := path.parts.dropLast }

def name (path : FilePath) : Text := path.parts.getLast?.getD []

/-! ## Suffixes -/

/-- A name before and after its last dot, unless that dot is at one of its ends. -/
def cutName (name : Text) : Text × Text :=
  let after := (name.reverse.takeWhile (· ≠ .scalar '.')).reverse
  let count := name.length - after.length
  if after.isEmpty ∨ count ≤ 1 then (name, [])
  else (name.take (count - 1), .scalar '.' :: after)

def suffix (path : FilePath) : Text := (cutName path.name).2

def stem (path : FilePath) : Text := (cutName path.name).1

/-- The path of a sibling, if there is a last name to replace. -/
def withName? (path : FilePath) (name : Text) : Option FilePath :=
  if path.parts.isEmpty then none else some (path.parent.child name)

def quoted (path : FilePath) : Text :=
  ("PosixPath(" : Text) ++ path.text.quoted ++ (")" : Text)

/-! ## Files that are not text -/

def binarySuffixes : List String :=
  [".png", ".jpg", ".jpeg", ".gif", ".ico", ".woff", ".woff2", ".ttf", ".eot", ".pdf", ".zip",
   ".tar", ".gz", ".exe", ".dll", ".so", ".dylib"]

def isBinary (path : FilePath) : Bool :=
  let suffix := path.suffix.toLower
  binarySuffixes.any fun known => suffix = Text.ofString known

end FilePath

end Stencil
