import Stencil.Schema.Checked

/-!
# Outcomes

What an operation on a template reports: whether it succeeded, what it has to
say, and which files it created or left as they were.
-/

namespace Stencil

structure Outcome where
  success : Bool
  message : Text
  warnings : List Text
  created : List Text
  existing : List Text
  deriving DecidableEq, Repr

namespace Outcome

def recordName : Text := "ScaffoldResult"

def failure (message : Text) (warnings : List Text) : Outcome := ⟨false, message, warnings, [], []⟩

def createdField : Text := "createdFiles"

def existingField : Text := "existingFiles"

def read (fields : Schema.Fields) : Checked Outcome :=
  Outcome.mk <$>
    fields.required ["success"] Schema.bool <*>
    fields.required ["message"] Schema.text <*>
    fields.withDefault ["warnings"] Schema.texts [] <*>
    fields.withDefault [createdField, "created_files"] Schema.texts [] <*>
    fields.withDefault [existingField, "existing_files"] Schema.texts []

def check : Value → Checked Outcome := Schema.record recordName read

private def filled (name : Text) (texts : List Text) : List (Text × Value) :=
  if texts.isEmpty then [] else [(name, .ofTexts texts)]

/-- The fields of an outcome, without the lists that have no members. -/
def brief (outcome : Outcome) : List (Text × Value) :=
  ("success", .bool outcome.success) :: ("message", .text outcome.message) ::
    (filled "warnings" outcome.warnings ++ filled createdField outcome.created ++
      filled existingField outcome.existing)

end Outcome

/-! ## Checks before the work -/

/-- What is wrong with a template before anything is written. -/
structure Preflight where
  isValid : Bool
  errors : List Text
  missing : List Text
  deriving DecidableEq, Repr

namespace Preflight

def read (fields : Schema.Fields) : Checked Preflight :=
  Preflight.mk <$>
    fields.required ["is_valid"] Schema.bool <*>
    fields.withDefault ["errors"] Schema.texts [] <*>
    fields.withDefault ["missing_files"] Schema.texts []

def check : Value → Checked Preflight := Schema.record "TemplateValidationResult" read

def describe (preflight : Preflight) : Text :=
  Text.joinWith "; " (preflight.errors ++
    preflight.missing.map fun directive => ("Template file not found: " : Text) ++ directive)

end Preflight

end Stencil
