import Stencil.Generator.Run
import Stencil.Library.Manifests

/-!
# Applying entries

An entry of a manifest is applied to a target by its generator, or directive by
directive.  A directive whose conditions do not hold is passed over, and a
target that is there already is preserved with a warning.
-/

namespace Stencil.Scaffold

open Stencil.Action

/-! ## Kinds -/

/-- New projects are made from boilerplates, and features go into existing ones. -/
inductive Kind where
  | boilerplate
  | feature
  deriving DecidableEq, Repr

namespace Kind

def name : Kind → Text
  | .boilerplate => "boilerplate"
  | .feature => "feature"

def label : Kind → Text
  | .boilerplate => "Boilerplate"
  | .feature => "Feature"

def sectionName : Kind → Text
  | .boilerplate => Sections.boilerplateName
  | .feature => Sections.featuresName

end Kind

/-- The entry of a name, or the message that says why there is none. -/
def findEntry (template : FilePath) (kind : Kind) (name : Text) : Action (Except Text Entry) := do
  let manifest ← Manifests.load template
  match manifest.filter fun manifest => !(manifest.entries kind.sectionName).isEmpty with
  | none =>
      return .error (("Invalid scaffold configuration: missing '" : Text) ++ kind.sectionName ++
        ("' section in scaffold.yaml" : Text))
  | some manifest =>
      match manifest.find? kind.sectionName (some name) with
      | some entry => return .ok entry
      | none =>
          return .error (kind.label ++ (" '" : Text) ++ name ++
            ("' not found in scaffold configuration" : Text))

/-! ## Generators -/

private def generatorFailure (doing generator : Text) (failure : Failure) : Outcome :=
  .failure (("Error " : Text) ++ doing ++ (" generator " : Text) ++ generator ++ (": " : Text) ++
    failure.message) []

def runGenerator (job : Generator.Job) (generator : Text) : Action Outcome := do
  printDetail (("Using custom generator: " : Text) ++ generator)
  match ← attempt (Generator.load job.template generator) with
  | .error failure => return generatorFailure "loading" generator failure
  | .ok procedure =>
      match ← attempt (Generator.run job procedure) with
      | .ok outcome => return outcome
      | .error failure => return generatorFailure "loading or executing" generator failure

/-! ## Directives -/

def preservedWarning (target : Text) : Text :=
  ("File/folder " : Text) ++ target ++ (" already exists and will be preserved" : Text)

def applyDirective (job : Generator.Job) (raw : Text) : Action Unit := do
  let directive := Directive.parse raw
  let (target, warnings) ← renderTarget directive job.vars
  if directive.conditions.hold job.vars then
    updateJournal fun journal => journal.warn warnings
    let isMade ← Placement.place job.library.suffix (job.template.child directive.source)
      (job.target.child target) job.vars
    if !isMade then
      printWarning (preservedWarning target)
      updateJournal fun journal => journal.warn [preservedWarning target]
  else
    printDetail (("Skipping '" : Text) ++ raw ++ ("': conditions not met" : Text))

/-- What is said after the directives of an entry were applied. -/
def successMessage (kind : Kind) (target : FilePath) (preserved : Nat) (advice : Text) : Text :=
  ("Successfully scaffolded " : Text) ++ kind.name ++ (" at " : Text) ++ target.text ++
    (if preserved = 0 then []
     else (". " : Text) ++ Text.ofNat preserved ++ (" existing file(s) were preserved" : Text)) ++
    (". Run '" : Text) ++ advice ++ ("' to install dependencies." : Text)

def applyDirectives (kind : Kind) (job : Generator.Job) : Action Outcome := do
  Storage.ensureDirectory job.target.text
  let (_, journal) ← journaled (job.entry.includes.forM (applyDirective job))
  return journal.outcome (successMessage kind job.target journal.existing.length
    job.library.settings.installCommand)

/-- Applies an entry by its generator, if it names one. -/
def applyEntry (kind : Kind) (job : Generator.Job) : Action Outcome :=
  match job.entry.generator.filter fun name => !name.isEmpty with
  | some generator => runGenerator job generator
  | none => applyDirectives kind job

end Stencil.Scaffold
