import Stencil.Manifest.VariableSchema

/-!
# Requests

What an operation on a template needs to know: a request for a new project, and
one for a feature of a project that is there.
-/

namespace Stencil

structure ProjectRequest where
  projectName : Text
  packageName : Text
  targetFolder : Text
  templateFolder : Text
  boilerplate : Text
  vars : Variables

namespace ProjectRequest

def nameFault? (name : Text) : Option Mismatch :=
  if Text.contains "/" name || Text.contains "\\" name then
    some (.rule "project_name must be a single folder name")
  else none

/-- The name of one folder. -/
def checkName (value : Value) : Checked Text :=
  (Schema.textOfLength 1 value).filter nameFault? value

def read (fields : Schema.Fields) : Checked ProjectRequest :=
  ProjectRequest.mk <$>
    fields.required ["project_name"] checkName <*>
    fields.required ["package_name"] (Schema.textOfLength 1) <*>
    fields.required ["target_folder"] (Schema.textOfLength 1) <*>
    fields.required ["template_folder"] (Schema.textOfLength 1) <*>
    fields.required ["boilerplate_name"] (Schema.textOfLength 1) <*>
    fields.withDefault ["variables"] Schema.fields []

def recordName : Text := "BoilerplateOptions"

def check : Value → Checked ProjectRequest := Schema.record recordName read

end ProjectRequest

structure FeatureRequest where
  projectPath : Text
  templateFolder : Text
  feature : Text
  vars : Variables

namespace FeatureRequest

def read (fields : Schema.Fields) : Checked FeatureRequest :=
  FeatureRequest.mk <$>
    fields.required ["project_path"] (Schema.textOfLength 1) <*>
    fields.required ["template_folder"] (Schema.textOfLength 1) <*>
    fields.required ["feature_name"] (Schema.textOfLength 1) <*>
    fields.withDefault ["variables"] Schema.fields []

def recordName : Text := "FeatureOptions"

def check : Value → Checked FeatureRequest := Schema.record recordName read

end FeatureRequest

end Stencil
