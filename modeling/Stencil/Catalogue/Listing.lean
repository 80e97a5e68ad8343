import Stencil.Catalogue.Boilerplate
import Stencil.Library.Basic
import Stencil.Library.Templates

/-!
# The boilerplates of a library

All templates of a library are searched for boilerplates.  A template whose
manifest cannot be read, and an entry without a target folder, give a warning.
-/

namespace Stencil.Catalogue

open Stencil.Action

def listedEntry (template : Text) (entry : Entry) : Action (Option Boilerplate) := do
  match Boilerplate.ofEntry? template entry with
  | some boilerplate => return some boilerplate
  | none =>
      printWarning (("Skipping boilerplate '" : Text) ++ entry.name ++ ("' in " : Text) ++
        template ++ (": targetFolder is required in scaffold.yaml" : Text))
      return none

def listedTemplate (library : Library) (template : Text) : Action (List Boilerplate) := do
  match ← Manifests.loadListed (library.template template) template with
  | some manifest => (manifest.entries Sections.boilerplateName).filterMapM (listedEntry template)
  | none => return []

def boilerplates (library : Library) : Action (List Boilerplate) := do
  return (← (← Templates.listed library.root).mapM (listedTemplate library)).flatten

/-- The first boilerplate of a name, with its instruction rendered if variables are given. -/
def boilerplate? (library : Library) (name : Text) (vars : Option Variables) :
    Action (Option Boilerplate) := do
  match (← boilerplates library).find? (·.name = name), vars with
  | none, _ => return none
  | some found, none => return some found
  | some found, some vars =>
      let instruction ← found.instruction.mapM (renderIfTemplate · vars)
      return some { found with instruction := instruction }

end Stencil.Catalogue
