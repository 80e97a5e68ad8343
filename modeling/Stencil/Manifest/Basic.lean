import Stencil.Manifest.Entry

/-!
# Manifests

A manifest lists the entries of a template in sections.  Two sections have
names of their own, `boilerplate` and `features`; every other key names a
further section.  A section is one entry or a list of entries.
-/

namespace Stencil

inductive Section where
  | one (entry : Entry)
  | many (entries : List Entry)
  deriving Repr

namespace Section

def entries : Section → List Entry
  | .one entry => [entry]
  | .many entries => entries

/-- The issues of both readings, if the value is neither an entry nor a list. -/
def check (value : Value) : Checked Section :=
  match Entry.check value, Schema.list Entry.check value with
  | .ok entry, _ => .ok (.one entry)
  | .error _, .ok entries => .ok (.many entries)
  | .error single, .error several =>
      .issues (single.map (Issue.under Entry.recordName) ++
        several.map (Issue.under (("list[" : Text) ++ Entry.recordName ++ ("]" : Text))))

/-- A section under a name that is not known beforehand; its issues end with the first bad entry. -/
def readFurther (value : Value) : Except (List Issue) Section :=
  match value with
  | .list items => (items.mapM (m := Except (List Issue)) Entry.check).map .many
  | other => Except.map .one (Entry.check other)

end Section

/-- The sections of a manifest.  The further ones hold whatever was read for them. -/
structure Sections (α : Type) where
  boilerplate : Option Section
  features : Option Section
  further : List (Text × α)
  deriving Repr

abbrev Manifest := Sections Section

namespace Sections

variable {α : Type}

def boilerplateName : Text := "boilerplate"

def featuresName : Text := "features"

def isFurther (key : Scalar) : Bool :=
  key ≠ .text boilerplateName && key ≠ .text featuresName

/-- Names of further sections have to be texts. -/
def named (entries : List (Scalar × α)) (input : α → Value) : Checked (List (Text × α)) :=
  .all ((entries.filter fun (key, _) => isFurther key).map fun (key, value) => match key with
    | .text name => .ok (name, value)
    | other => (Checked.fail .key (input value)).under (Issue.stepOf other))

/-- The first name of a further section that cannot be encoded. -/
def unreadable? (entries : List (Scalar × α)) : Option Text :=
  entries.findSome? fun (key, _) => match key with
    | .text name =>
        if isFurther key && name.any CodePoint.isSurrogate then some name else none
    | _ => none

/--
Reads the known sections of a mapping whose further sections are read already.  A name that
cannot be encoded is told alone.
-/
def read (fields : Schema.Fields) (others : List (Scalar × α)) (input : α → Value) :
    Checked (Sections α) :=
  match unreadable? others with
  | some name => .fail .encoding (.text name)
  | none =>
      Sections.mk <$>
        fields.withDefault [boilerplateName] (Schema.optional Section.check) none <*>
        fields.withDefault [featuresName] (Schema.optional Section.check) none <*>
        named others input

/-- Further sections are kept as they are. -/
def check : Value → Checked (Sections Value) :=
  Schema.record "ScaffoldYaml" fun fields => read fields fields id

end Sections

/-! ## Reading a manifest -/

inductive ManifestFault where
  | notMapping
  | issues (found : List Issue)
  deriving Repr

namespace ManifestFault

def message : ManifestFault → Text
  | .notMapping => "scaffold.yaml must contain a mapping at the top level"
  | .issues found => Issue.summary found

end ManifestFault

namespace Manifest

def readFurther : List (Scalar × Value) → Except (List Issue) (List (Scalar × Section))
  | [] => .ok []
  | (key, value) :: rest =>
      if Sections.isFurther key then do
        let found ← Section.readFurther value
        return (key, found) :: (← readFurther rest)
      else readFurther rest

/-- The manifest that a data file holds; an empty file is a manifest without sections. -/
def ofValue (value : Value) : Except ManifestFault Manifest :=
  match value with
  | .null => .ok ⟨none, none, []⟩
  | .map entries =>
      Except.mapError .issues do
        let others ← readFurther entries
        Sections.read entries others fun _ => .null
  | _ => .error .notMapping

def lookUp (manifest : Manifest) (name : Text) : Option Section :=
  if name = Sections.boilerplateName then manifest.boilerplate
  else if name = Sections.featuresName then manifest.features
  else manifest.further.lookup name

/-- The sections that are there, the known ones first. -/
def sectionNames (manifest : Manifest) : List Text :=
  (if manifest.boilerplate.isSome then [Sections.boilerplateName] else []) ++
    (if manifest.features.isSome then [Sections.featuresName] else []) ++
    manifest.further.map (·.1)

def entries (manifest : Manifest) (name : Text) : List Entry :=
  match manifest.lookUp name with
  | some found => found.entries
  | none => []

/-- The only entry of a section, or the first one of a name. -/
def find? (manifest : Manifest) (name : Text) (entry : Option Text) : Option Entry :=
  match entry, manifest.entries name with
  | none, [only] => some only
  | none, _ => none
  | some wanted, entries => entries.find? fun entry => entry.name = wanted

end Manifest

end Stencil
