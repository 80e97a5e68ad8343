import Stencil.Keyed
import Stencil.Template.Render
import Stencil.Text.Blank

/-!
# Directives

A directive names a source below a template, the target it goes to, and the
conditions under which it goes there: `source->target?key=value&key=value`.
Every text is a directive.  The target is a template of its own; source and
conditions are literal.
-/

namespace Stencil

/-! ## Conditions -/

/-- Variables and the texts that they have to match; each variable occurs once. -/
abbrev Conditions := List (Text × Text)

namespace Conditions

/-- A fragment `key=value`; without a key or a value it is no condition. -/
def ofFragment? (fragment : Text) : Option (Text × Text) :=
  let (key, value) := (Text.cut "=" fragment).getD (fragment, [])
  let key := Text.strip key
  let value := Text.strip value
  if key.isEmpty || value.isEmpty then none else some (key, value)

/-- The conditions of fragments with `&` between them. -/
def parse (raw : Text) : Conditions :=
  Keyed.update [] ((Text.splitOn (.scalar '&') raw).filterMap ofFragment?)

/-- The words that ask for the truth of a variable instead of its text. -/
def truthOf? (expected : Text) : Option Bool :=
  if expected = ("true" : Text) then some true
  else if expected = ("false" : Text) then some false
  else none

/-- An absent variable counts as the null value. -/
def valueOf (vars : Variables) (name : Text) : Value := (vars.lookup name).getD .null

def holdsFor (vars : Variables) (condition : Text × Text) : Bool :=
  let actual := valueOf vars condition.1
  match truthOf? condition.2 with
  | some truth => actual.isTrue == truth
  | none => decide (actual.display = condition.2)

def hold (conditions : Conditions) (vars : Variables) : Bool :=
  conditions.all (holdsFor vars)

end Conditions

/-! ## Directives -/

structure Directive where
  source : Text
  target : Text
  conditions : Conditions
  deriving DecidableEq, Repr

namespace Directive

/-- The first `?` ends the paths, and the first `->` in them the source. -/
def parse (raw : Text) : Directive :=
  let (paths, rest) := (Text.cut "?" raw).getD (raw, [])
  let conditions := Conditions.parse rest
  match Text.cut "->" paths with
  | some (source, target) => ⟨Text.strip source, Text.strip target, conditions⟩
  | none => ⟨Text.strip paths, Text.strip paths, conditions⟩

/-- The rendered target. -/
def place (d : Directive) (vars : Variables) : Template.Rendered :=
  Template.renderOrKeep d.target vars

/-- What is said about a target that could not be rendered. -/
def unrenderedWarning (d : Directive) (warning : Text) : Text :=
  ("Target path '" : Text) ++ d.target ++ ("' was left unrendered: " : Text) ++ warning

end Directive

end Stencil
