import Stencil.Keyed
import Stencil.Generator.Program
import Stencil.Text.Utf8

/-!
# File trees

A tree of files is a finite map from places to what is there.  A place is the
list of names on the way from the root, without links and dots.  The root is a
directory that is always there.
-/

namespace Stencil

abbrev Location := List Text

/-- A file holds bytes, or a program that is never looked into. -/
inductive Content where
  | bytes (bytes : Bytes)
  | program (program : Program)
  deriving Repr

inductive FileItem where
  | directory
  | file (content : Content)
  | link (target : Text)
  deriving Repr

namespace FileItem

def isDirectory : FileItem → Bool
  | .directory => true
  | _ => false

def isFile : FileItem → Bool
  | .file _ => true
  | _ => false

def isLink : FileItem → Bool
  | .link _ => true
  | _ => false

end FileItem

structure FileTree where
  items : List (Location × FileItem)
  deriving Repr

namespace FileTree

def empty : FileTree := ⟨[]⟩

def get? (tree : FileTree) (place : Location) : Option FileItem :=
  if place.isEmpty then some .directory else tree.items.lookup place

/-- The tree with an item at a place, instead of what was there. -/
def put (tree : FileTree) (place : Location) (item : FileItem) : FileTree :=
  ⟨Keyed.put place item tree.items⟩

/-- The tree without a place and all that is below it. -/
def remove (tree : FileTree) (place : Location) : FileTree :=
  ⟨tree.items.filter fun (other, _) => !place.isPrefixOf other⟩

/-- The links of a tree, with the places where they are. -/
def links (tree : FileTree) : List (Location × FileItem) :=
  tree.items.filter fun (_, item) => item.isLink

/-- The name of an item that is directly in a directory. -/
def childName? (directory place : Location) : Option Text :=
  match place.reverse with
  | name :: above => if above.reverse = directory then some name else none
  | [] => none

/-- The names in a directory, in order. -/
def names (tree : FileTree) (directory : Location) : List Text :=
  Text.sort (tree.items.filterMap fun (place, _) => childName? directory place)

/-- The tree with directories for all names on the way down from a place, where nothing is yet. -/
def putDirectories (tree : FileTree) (above : Location) : List Text → FileTree
  | [] => tree
  | name :: rest =>
      let next := above ++ [name]
      let tree := if (tree.get? next).isSome then tree else tree.put next .directory
      tree.putDirectories next rest

end FileTree

end Stencil
