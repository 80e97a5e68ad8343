import Stencil.Session.Files
import Stencil.Session.Rendering
import Stencil.Session.Storage
import Stencil.Yaml.Reader

/-!
# Manifests of templates

The manifest of a template is read from a file in its directory, once for each
real place: what was read is kept until it is forgotten.  A template is checked
against its manifest before anything is written.
-/

namespace Stencil.Manifests

open Stencil.Action

def fileName : Text := "scaffold.yaml"

/-! ## Reading -/

/-- Whether a failure means that the file holds no manifest. -/
private def isReadFailure (failure : Failure) : Bool :=
  failure.isOfSystem || failure.isOfValue || failure.isOfDocument

private def unread (message : Text) : Failure :=
  .manifest (("Failed to parse " : Text) ++ fileName ++ (": " : Text) ++ message)

private def faulty : ManifestFault → Failure
  | .notMapping => unread ManifestFault.notMapping.message
  | .issues found =>
      .manifest (fileName ++ (" validation failed: " : Text) ++ Issue.summary found)

def readFrom (path : Text) : Action Manifest :=
  orElseIf isReadFailure
    (do
      let text ← Storage.readText path
      let value ← lift ((Yaml.read text).mapError .yaml)
      lift ((Manifest.ofValue value).mapError faulty))
    fun failure => throw (unread failure.message)

def remember (place : Location) (manifest : Manifest) : Action Unit :=
  modify fun s => { s with manifests := s.manifests ++ [(place, manifest)] }

def forgetAll : Action Unit := modify fun s => { s with manifests := [] }

/-- The manifest of a template; a template without the file has none. -/
def load (template : FilePath) : Action (Option Manifest) := do
  let place ← resolve template.text
  match (← get).manifests.lookup place with
  | some manifest => return some manifest
  | none =>
      let path := (template.child fileName).text
      if ← Storage.exists? path then
        let manifest ← readFrom path
        remember place manifest
        return some manifest
      else return none

/-- The manifest of a listed template, or a warning if it cannot be read. -/
def loadListed (template : FilePath) (name : Text) : Action (Option Manifest) := do
  orElseIf Failure.isOfManifest (load template) fun failure => do
    printWarning (("Failed to load " : Text) ++ fileName ++ (" for " : Text) ++ name ++
      (": " : Text) ++ failure.message)
    return none

/-! ## Checks -/

/-- Whether a source is there, by its name or by its name with a suffix. -/
def hasSource (suffix : Text) (template : FilePath) (source : Text) : Action Bool := do
  let path := (template.child source).text
  if ← Storage.exists? path then return true else Storage.exists? (path ++ suffix)

def isMissing (suffix : Text) (template : FilePath) (include? : Text) : Action Bool := do
  let directive := Directive.parse include?
  let _ ← renderTarget directive []
  return !(← hasSource suffix template directive.source)

/-- The entries that a check is about, or what is wrong with the manifest. -/
def selected (manifest : Manifest) (sectionName : Text) (name : Option Text) :
    Except Text (List Entry) :=
  match manifest.entries sectionName, name with
  | [], _ =>
      let names := Text.joinWith ", " manifest.sectionNames
      .error (("Scaffold type '" : Text) ++ sectionName ++ ("' not found in " : Text) ++
        fileName ++ (". Available types: " : Text) ++ names.orIfEmpty "none")
  | entries, none => .ok entries
  | entries, some name =>
      match manifest.find? sectionName (some name) with
      | some entry => .ok [entry]
      | none =>
          .error (("'" : Text) ++ name ++ ("' not found in '" : Text) ++ sectionName ++
            ("'. Available: " : Text) ++ Text.joinWith ", " (entries.map (·.name)))

def faultyWith (error : Text) : Preflight := ⟨false, [error], []⟩

/-- Checks that a template has what one entry of a section asks for, or all its entries. -/
def preflight (suffix : Text) (template : FilePath) (sectionName : Text) (name : Option Text) :
    Action Preflight := do
  if ← Storage.exists? template.text then
    match ← attempt (load template) with
    | .error (.manifest message) => return faultyWith message
    | .error failure => throw failure
    | .ok none => return faultyWith (fileName ++ (" not found in template directory" : Text))
    | .ok (some manifest) =>
        match selected manifest sectionName name with
        | .error error => return faultyWith error
        | .ok entries =>
            let missing ← (entries.flatMap (·.includes)).filterM (isMissing suffix template)
            return ⟨missing.isEmpty, [], missing⟩
  else
    return faultyWith (("Template directory " : Text) ++ template.text ++
      (" does not exist" : Text))

end Stencil.Manifests
