import Stencil.Generator.Lookup
import Stencil.Library.Basic
import Stencil.Placement.Basic

/-!
# Running generators

A generator works on a target instead of the directives of an entry.  Its
result has to be an outcome; the procedures that render files or place directives
make one of their own.
-/

namespace Stencil.Generator

open Stencil.Action

/-- What a generator is run for. -/
structure Job where
  library : Library
  entry : Entry
  template : FilePath
  target : FilePath
  vars : Variables

namespace Job

/-- What a job is about, on one line. -/
def summary (job : Job) : Text :=
  let vars := (Text.sort (job.vars.map (·.1))).filterMap fun name =>
    (job.vars.lookup name).map fun value => name ++ ("=" : Text) ++ value.display
  Text.joinWith "|"
    [job.entry.name, job.template.text, job.target.text, Text.joinWith "," vars]

/-- Renders a file of the procedure into the target. -/
private def renderFile (job : Job) (file : Text × Text) : Action Text := do
  let path := (job.target.child (← renderText file.1 job.vars)).text
  Storage.write path (← renderText file.2 job.vars)
  return path

private def placeDirective (job : Job) (raw : Text) : Action Unit := do
  let directive := Directive.parse raw
  let (target, _) ← renderTarget directive job.vars
  if directive.conditions.hold job.vars then
    let _ ← Placement.place job.library.suffix (job.template.child directive.source)
      (job.target.child target) job.vars

end Job

/-- The outcome of a procedure that is run for a job. -/
def run (job : Job) : Procedure → Action Outcome
  | .returns result => lift ((Outcome.check result).mapError (.invalid Outcome.recordName))
  | .raises message => throw (.program message)
  | .echo => return ⟨true, job.summary, [], [], []⟩
  | .render files => do
      let created ← files.mapM job.renderFile
      return ⟨true, "rendered", [], created, []⟩
  | .includes directives => do
      let (_, journal) ← journaled (directives.forM job.placeDirective)
      return journal.outcome "included"

end Stencil.Generator
