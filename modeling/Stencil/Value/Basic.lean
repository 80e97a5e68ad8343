import Stencil.Value.Scalar

/-!
# Values

What data files and variables hold: scalars, sequences, sets and mappings.  The
entries of a mapping keep the order in which their keys came first.
-/

namespace Stencil

inductive Value where
  | scalar (value : Scalar)
  | list (items : List Value)
  | tuple (items : List Value)
  | set (items : List Scalar)
  | map (entries : List (Scalar × Value))
  deriving Repr, Inhabited

/-! ## Collections in brackets -/

namespace Layout

def list (parts : List Text) : Text := ("[" : Text) ++ Text.joinWith ", " parts ++ ("]" : Text)

/-- A tuple of one part keeps a comma. -/
def tuple : List Text → Text
  | [part] => ("(" : Text) ++ part ++ (",)" : Text)
  | parts => ("(" : Text) ++ Text.joinWith ", " parts ++ (")" : Text)

def set : List Text → Text
  | [] => "set()"
  | parts => ("\x7b" : Text) ++ Text.joinWith ", " parts ++ ("\x7d" : Text)

def map (parts : List (Text × Text)) : Text :=
  ("\x7b" : Text) ++
    Text.joinWith ", " (parts.map fun (key, value) => key ++ (": " : Text) ++ value) ++
    ("\x7d" : Text)

end Layout

/-! ## Lookups that respect the order of keys -/

namespace Entries

variable {α : Type}

/-- The value of the first key that equals `key`. -/
def get? (entries : List (Scalar × α)) (key : Scalar) : Option α :=
  (entries.find? fun entry => entry.1.equals key).map (·.2)

/-- A known key keeps its place and its spelling and takes the new value. -/
def insert (entries : List (Scalar × α)) (key : Scalar) (value : α) : List (Scalar × α) :=
  match entries with
  | [] => [(key, value)]
  | entry :: rest =>
      if entry.1.equals key then (entry.1, value) :: rest else entry :: insert rest key value

def ofList (pairs : List (Scalar × α)) : List (Scalar × α) :=
  pairs.foldl (fun entries (key, value) => insert entries key value) []

end Entries

namespace Value

@[match_pattern] abbrev null : Value := .scalar .null

@[match_pattern] abbrev bool (value : Bool) : Value := .scalar (.bool value)

@[match_pattern] abbrev int (value : Int) : Value := .scalar (.int value)

@[match_pattern] abbrev float (value : Binary64) : Value := .scalar (.float value)

@[match_pattern] abbrev text (value : Text) : Value := .scalar (.text value)

def ofTexts (texts : List Text) : Value := .list (texts.map .text)

/-- A mapping from texts. -/
def ofFields (fields : List (Text × Value)) : Value :=
  .map (fields.map fun (key, value) => (.text key, value))

def isTrue : Value → Bool
  | .scalar value => value.isTrue
  | .list items => !items.isEmpty
  | .tuple items => !items.isEmpty
  | .set items => !items.isEmpty
  | .map entries => !entries.isEmpty

def isNull : Value → Bool
  | .null => true
  | _ => false

def text? : Value → Option Text
  | .text value => some value
  | _ => none

/-- The value of a key, of a mapping that has it. -/
def get? (value : Value) (key : Text) : Option Value :=
  match value with
  | .map entries => Entries.get? entries (.text key)
  | _ => none

def typeName : Value → Text
  | .scalar value => value.typeName
  | .list _ => "list"
  | .tuple _ => "tuple"
  | .set _ => "set"
  | .map _ => "dict"

/-! ## Texts of values -/

mutual

def quoted : Value → Text
  | .scalar value => value.quoted
  | .list items => Layout.list (quotedAll items)
  | .tuple items => Layout.tuple (quotedAll items)
  | .set items => Layout.set (items.map Scalar.quoted)
  | .map entries => Layout.map (quotedEntries entries)

def quotedAll : List Value → List Text
  | [] => []
  | item :: items => item.quoted :: quotedAll items

def quotedEntries : List (Scalar × Value) → List (Text × Text)
  | [] => []
  | (key, value) :: entries => (key.quoted, value.quoted) :: quotedEntries entries

end

def display : Value → Text
  | .scalar value => value.display
  | other => other.quoted

/-! ## Equality -/

mutual

def equals : Value → Value → Bool
  | .scalar a, .scalar b => a.equals b
  | .list items, .list others => equalAll items others
  | .tuple items, .tuple others => equalAll items others
  | .set items, .set others =>
      decide (items.length = others.length) && items.all fun a => others.any a.equals
  | .map entries, .map others =>
      decide (entries.length = others.length) && equalEntries entries others
  | _, _ => false

def equalAll : List Value → List Value → Bool
  | [], [] => true
  | item :: items, other :: others => item.equals other && equalAll items others
  | _, _ => false

/-- Whether every entry has a key of the same value in `others`. -/
def equalEntries : List (Scalar × Value) → List (Scalar × Value) → Bool
  | [], _ => true
  | (key, value) :: entries, others =>
      (match Entries.get? others key with
        | some other => value.equals other
        | none => false) && equalEntries entries others

end

end Value

/-- What templates are filled with: values by name, in the order in which they were
given.  Of equal names the first counts. -/
abbrev Variables := List (Text × Value)

end Stencil
