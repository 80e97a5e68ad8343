import Stencil.Manifest.Basic

/-!
# Boilerplates

An entry for new projects, together with the template that it is part of.
-/

namespace Stencil

structure Boilerplate where
  name : Text
  description : Option Text
  instruction : Option Text
  schema : VariableSchema
  template : Text
  targetFolder : Text
  includes : List Text
  deriving Repr

namespace Boilerplate

def read (fields : Schema.Fields) : Checked Boilerplate :=
  Boilerplate.mk <$>
    fields.required ["name"] Schema.text <*>
    fields.withDefault ["description"] (Schema.optional Schema.text) none <*>
    fields.withDefault ["instruction"] (Schema.optional Schema.text) none <*>
    fields.withDefault ["variables_schema"] VariableSchema.check .empty <*>
    fields.required ["template_path"] Schema.text <*>
    fields.required ["target_folder"] Schema.text <*>
    fields.withDefault ["includes"] Schema.texts []

def check : Value → Checked Boilerplate := Schema.record "BoilerplateInfo" read

/-- An entry without a target folder is no boilerplate. -/
def ofEntry? (template : Text) (entry : Entry) : Option Boilerplate :=
  match entry.targetFolder with
  | none => none
  | some [] => none
  | some folder =>
      some ⟨entry.name, entry.description, entry.instruction, entry.schema, template, folder,
        entry.includes⟩

end Boilerplate

end Stencil
