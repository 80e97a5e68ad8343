import Stencil.Text.Blank
import Stencil.Text.Casing

/-!
# Spellings of names

A name of several words is spelled `someName`, `SomeName`, `some-name`,
`some_name` or `SOME_NAME`.  Words end at separators and, in the spellings
without separators, where a capital Latin letter follows a small one.  Each rule
takes the case mapping it uses as a parameter.
-/

namespace Stencil.Naming

def isHyphen (c : CodePoint) : Bool := c = .scalar '-'

def isUnderscore (c : CodePoint) : Bool := c = .scalar '_'

/-- What separates words: hyphens, underscores and blanks. -/
def isSeparator (c : CodePoint) : Bool := isHyphen c || isUnderscore c || c.isBlank

/-! ## Joined spellings -/

/-- Separators go, and what follows them becomes uppercase. -/
def camelFrom (casing : Casing) (capital : Bool) : Text → Text
  | [] => []
  | c :: text =>
      if isSeparator c then camelFrom casing true text
      else (if capital then casing.upper [c] else [c]) ++ camelFrom casing false text

/-- `someName`; the first code point stays as it is. -/
def camel (casing : Casing) (text : Text) : Text := camelFrom casing false text

/-- `SomeName`. -/
def pascal (casing : Casing) (text : Text) : Text :=
  match camel casing text with
  | [] => []
  | c :: rest => casing.upper [c] ++ rest

/-! ## Separated spellings -/

/-- Puts `mark` between every small Latin letter and a capital one behind it. -/
def markHumps (mark : CodePoint) : Text → Text
  | a :: b :: text =>
      if a.isLowerLatin && b.isUpperLatin then a :: mark :: markHumps mark (b :: text)
      else a :: markHumps mark (b :: text)
  | text => text

/-- Every run of code points in a class becomes one `mark`. -/
def collapse (mark : CodePoint) (isMember : CodePoint → Bool) (text : Text) : Text :=
  go false text
where
  go (inRun : Bool) : Text → Text
    | [] => []
    | c :: text =>
        if isMember c then (if inRun then go true text else mark :: go true text)
        else c :: go false text

def separated (casing : Casing) (mark : CodePoint) (isMember : CodePoint → Bool)
    (text : Text) : Text :=
  casing.lower (collapse mark isMember (markHumps mark text))

/-- `some-name`. -/
def kebab (casing : Casing) (text : Text) : Text :=
  separated casing (.scalar '-') (fun c => c.isBlank || isUnderscore c) text

/-- `some_name`. -/
def snake (casing : Casing) (text : Text) : Text :=
  separated casing (.scalar '_') (fun c => c.isBlank || isHyphen c) text

/-- `SOME_NAME`. -/
def upperSnake (casing : Casing) (text : Text) : Text := casing.upper (snake casing text)

/-- Groups of small Latin letters and digits with single hyphens between them. -/
def slug (casing : Casing) (text : Text) : Text :=
  Text.trim isHyphen <|
    collapse (.scalar '-') (fun c => !(c.isLowerLatin || c.isDigit)) (Text.strip (casing.lower text))

/-! ## Plurals -/

def sibilants : List Text := ["s", "sh", "ch", "x", "z"]

def endsWithAny (endings : List Text) (word : Text) : Bool :=
  endings.any fun ending => Text.endsWith ending word

/-- A final `y` becomes `ies`, a sibilant takes `es`, everything else `s`. -/
def pluralize (word : Text) : Text :=
  if Text.endsWith "y" word then word.dropLast ++ ("ies" : Text)
  else if endsWithAny sibilants word then word ++ ("es" : Text)
  else word ++ ("s" : Text)

def singularize (word : Text) : Text :=
  if Text.endsWith "ies" word then word.take (word.length - 3) ++ ("y" : Text)
  else if endsWithAny ["ses", "shes", "ches", "xes", "zes"] word then word.take (word.length - 2)
  else if Text.endsWith "s" word && !Text.endsWith "ss" word then word.dropLast
  else word

/-! ## Packages -/

/-- The name of a package without the scope in front of its first slash. -/
def stripScope (name : Text) : Text :=
  match Text.cut "/" name with
  | some (_, rest) => rest
  | none => name

end Stencil.Naming
