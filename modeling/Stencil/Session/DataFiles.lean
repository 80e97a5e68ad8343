import Stencil.Json.Reader
import Stencil.Json.Writer
import Stencil.Session.Files
import Stencil.Yaml.Reader

/-!
# Data files

Files that hold a value as YAML or as JSON.  A JSON file that holds no mapping
counts as a mapping from one key to what it holds.
-/

namespace Stencil.DataFiles

open Stencil.Action

def readYaml (path : FilePath) : Action Value := do
  lift ((Yaml.read (← readText path.text)).mapError .yaml)

def rootKey : Text := "_root"

/-- The entries of a JSON file. -/
def readJson (path : FilePath) : Action (List (Scalar × Value)) := do
  match ← lift ((Json.read (← readText path.text)).mapError .json) with
  | .map entries => return entries
  | other => return [(.text rootKey, other)]

def writeJson (path : FilePath) (value : Value) : Action Unit :=
  writeFile path (Json.write value ++ ("\n" : Text))

end Stencil.DataFiles
