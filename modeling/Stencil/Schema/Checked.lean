import Stencil.Schema.Numeral

/-!
# Checked values

The result of holding a value against a schema: what was read, or every issue.
Records collect the issues of all their fields, in the order of the fields.
-/

namespace Stencil

def Checked (α : Type) : Type := Except (List Issue) α

namespace Checked

variable {α β : Type}

def ok (value : α) : Checked α := Except.ok value

def issues (found : List Issue) : Checked α := Except.error found

def fail (fault : Mismatch) (input : Value) : Checked α := issues [⟨[], fault, input⟩]

def map (f : α → β) : Checked α → Checked β
  | .ok value => ok (f value)
  | .error found => issues found

/-- The issues of both sides. -/
def both (f : Checked (α → β)) (value : Checked α) : Checked β :=
  match f, value with
  | .ok f, .ok value => ok (f value)
  | .error first, .error second => issues (first ++ second)
  | .error first, .ok _ => issues first
  | .ok _, .error second => issues second

instance : Applicative Checked where
  pure := ok
  seq f value := both f (value ())

def all : List (Checked α) → Checked (List α)
  | [] => ok []
  | head :: tail => both (map List.cons head) (all tail)

def under (step : Text) : Checked α → Checked α
  | .ok value => ok value
  | .error found => issues (found.map (Issue.under step))

def ofExcept (input : Value) : Except Mismatch α → Checked α
  | .ok value => ok value
  | .error fault => fail fault input

/-- A second test of a value that passed the first. -/
def filter (test : α → Option Mismatch) (input : Value) : Checked α → Checked α
  | .ok value =>
      match test value with
      | none => ok value
      | some fault => fail fault input
  | .error found => issues found

end Checked

namespace Schema

variable {α : Type}

/-! ## Parts without fields -/

/-- Bytes count as the text that they encode. -/
def spelling : Value → Except Mismatch Text
  | .text text => .ok text
  | .scalar (.bytes bytes) => (Text.decode bytes).mapError fun _ => .encoding
  | _ => .error .text

def text (value : Value) : Checked Text := .ofExcept value (spelling value)

def shortFault? (least : Nat) (text : Text) : Option Mismatch :=
  if text.any CodePoint.isSurrogate then some .encoding
  else if text.length < least then some (.short least)
  else none

def textOfLength (least : Nat) (value : Value) : Checked Text :=
  (text value).filter (shortFault? least) value

def bool (value : Value) : Checked Bool := .ofExcept value (Numeral.truth value)

/-- Only the word itself. -/
def word (expected : Text) (value : Value) : Checked Text :=
  if value.text? = some expected then .ok expected
  else .fail (.choice [expected.quoted]) value

def anything (value : Value) : Checked Value := .ok value

def optional (check : Value → Checked α) (value : Value) : Checked (Option α) :=
  if value.isNull then .ok none else (check value).map some

def sequence? : Value → Option (List Value)
  | .list items => some items
  | .tuple items => some items
  | .set items => some (items.map .scalar)
  | _ => none

def list (check : Value → Checked α) (value : Value) : Checked (List α) :=
  match sequence? value with
  | some items =>
      .all (items.zipIdx.map fun (item, index) => (check item).under (Text.ofNat index))
  | none => .fail .list value

def texts : Value → Checked (List Text) := list text

/-- A mapping from texts to values of any kind. -/
def fields (value : Value) : Checked (List (Text × Value)) :=
  match value with
  | .map entries =>
      (Checked.all (entries.map fun (key, item) =>
        ((text (.scalar key)).under "[key]" |>.under (Issue.stepOf key)).map fun key =>
          (Scalar.text key, item))).map fun entries =>
            (Entries.ofList entries).filterMap fun (key, item) => match key with
              | .text key => some (key, item)
              | _ => none
  | other => .fail .mapping other

/-! ## Records -/

abbrev Fields := List (Scalar × Value)

namespace Fields

/-- The entry of the first of some names that is there. -/
def find? (fields : Fields) (names : List Text) : Option (Text × Value) :=
  names.findSome? fun name => (Entries.get? fields (.text name)).map fun value => (name, value)

/-- A field that has to be there.  Issues name it by the name it was given. -/
def required (fields : Fields) (names : List Text) (check : Value → Checked α) : Checked α :=
  match find? fields names with
  | some (name, value) => (check value).under name
  | none => (Checked.fail .missing (.map fields)).under (names.headD [])

def withDefault (fields : Fields) (names : List Text) (check : Value → Checked α)
    (default : α) : Checked α :=
  match find? fields names with
  | some (name, value) => (check value).under name
  | none => .ok default

end Fields

def record (name : Text) (read : Fields → Checked α) (value : Value) : Checked α :=
  match value with
  | .map entries => read entries
  | other => .fail (.record name) other

end Schema

end Stencil
