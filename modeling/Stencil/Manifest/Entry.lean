import Stencil.Manifest.VariableSchema

/-!
# Entries

An entry of a manifest describes one thing that a template can make: what is
included, where it goes and which variables it takes.
-/

namespace Stencil

structure Entry where
  name : Text
  description : Option Text
  instruction : Option Text
  targetFolder : Option Text
  schema : VariableSchema
  includes : List Text
  generator : Option Text
  patterns : Option (List Text)
  deriving Repr

namespace Entry

def recordName : Text := "ScaffoldEntry"

def read (fields : Schema.Fields) : Checked Entry :=
  Entry.mk <$>
    fields.required ["name"] (Schema.textOfLength 1) <*>
    fields.withDefault ["description"] (Schema.optional Schema.text) none <*>
    fields.withDefault ["instruction"] (Schema.optional Schema.text) none <*>
    fields.withDefault ["targetFolder", "target_folder"] (Schema.optional Schema.text) none <*>
    fields.withDefault ["variables_schema"] VariableSchema.check .empty <*>
    fields.withDefault ["includes"] Schema.texts [] <*>
    fields.withDefault ["generator"] (Schema.optional Schema.text) none <*>
    fields.withDefault ["patterns"] (Schema.optional Schema.texts) none

def check : Value → Checked Entry := Schema.record recordName read

end Entry

end Stencil
