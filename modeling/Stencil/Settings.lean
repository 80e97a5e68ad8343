import Stencil.FilePath
import Stencil.Schema.Checked

/-!
# Settings

Where templates are, which suffix marks a template file, what is advised after
a success, and how much is told.
-/

namespace Stencil

structure Settings where
  templatesPath : Option FilePath
  templateSuffix : Text
  installCommand : Text
  verbose : Bool
  deriving DecidableEq, Repr

namespace Settings

def default : Settings := ⟨none, ".j2", "pnpm install", false⟩

def path (value : Value) : Checked FilePath :=
  match value with
  | .text text =>
      if text.any CodePoint.isSurrogate then .fail .path value else .ok (.ofText text)
  | other => .fail .path other

def read (fields : Schema.Fields) : Checked Settings :=
  Settings.mk <$>
    fields.withDefault ["templates_path"] (Schema.optional path) default.templatesPath <*>
    fields.withDefault ["template_suffix"] (Schema.textOfLength 1) default.templateSuffix <*>
    fields.withDefault ["install_command"] Schema.text default.installCommand <*>
    fields.withDefault ["verbose"] Schema.bool default.verbose

def check : Value → Checked Settings := Schema.record "Settings" read

/-! ## The environment -/

/-- A variable of the environment that is set and not empty. -/
def filled? (environment : List (Text × Text)) (name : Text) : Option Text :=
  (environment.lookup name).filter fun value => !value.isEmpty

def affirmative : List Text := ["1", "true", "yes"]

def ofEnvironment (environment : List (Text × Text)) : Settings :=
  { templatesPath := (filled? environment "SCAFFOLD_TEMPLATES_PATH").map .ofText
    templateSuffix := (filled? environment "SCAFFOLD_TEMPLATE_SUFFIX").getD default.templateSuffix
    installCommand := (filled? environment "SCAFFOLD_INSTALL_COMMAND").getD default.installCommand
    verbose :=
      affirmative.contains ((environment.lookup ("SCAFFOLD_VERBOSE" : Text)).getD []).toLower }

end Settings

end Stencil
