import Stencil.Session.Files
import Stencil.Text.Letter

/-!
# Finding generators

A template keeps the programs of its generators in a directory of its own.  A
generator is named by its file, by its file without the ending, or by a
directory with a start file.
-/

namespace Stencil.Generator

open Stencil.Action

def directoryName : Text := "generators"

def ending : Text := ".py"

def startName : Text := "__init__.py"

/-- The files that a generator may be in, in the order of their precedence. -/
def candidates (base : FilePath) : Except Failure (List FilePath) :=
  let start := base.child startName
  if base.suffix = ending then .ok [base, start]
  else
    match base.withName? (base.name ++ ending) with
    | some file => .ok [base, file, start]
    | none => .error (.value (base.quoted ++ (" has an empty name" : Text)))

private def firstFile (base : FilePath) : List FilePath → Action FilePath
  | [] => throw (.generator (("Generator module not found: " : Text) ++ base.text))
  | candidate :: others => do
      if ← isFile candidate.text then return candidate else firstFile base others

/-- The file of a generator. -/
def find (template : FilePath) (name : Text) : Action FilePath := do
  let base := (template.child directoryName).child name
  firstFile base (← lift (candidates base))

/-- The name that a program is run under: letters, digits and underscores only. -/
def moduleName (template : FilePath) (name : Text) : Text :=
  let raw := template.name ++ ("_" : Text) ++ (FilePath.ofText name).stem
  ("scaffoldkit_generator_" : Text) ++
    raw.map fun c => if c.isWord then c else CodePoint.scalar '_'

private def withoutEntry (name : Text) : Failure :=
  .generator (("Invalid generator: " : Text) ++ name ++
    (" does not export a callable 'generate'" : Text))

/-- The procedure of a generator. -/
def load (template : FilePath) (name : Text) : Action Procedure := do
  let file ← find template name
  if !Text.endsWith ending file.text then
    throw (.generator (("Could not load module spec from " : Text) ++ file.text))
  printDetail (("Loading generator module " : Text) ++ moduleName template name ++
    (" from " : Text) ++ file.text)
  match ← readContent file.text with
  | .program (.runs procedure) => return procedure
  | .program (.failsOnLoad message) => throw (.program message)
  | .program .withoutEntry | .program .entryIsNoFunction | .bytes _ => throw (withoutEntry name)

end Stencil.Generator
