import Stencil.Yaml.Timestamp

/-!
# Tags

A tag says what kind of value a node stands for.  Plain scalars without a tag
get theirs from what they look like.
-/

namespace Stencil.Yaml

inductive Tag where
  | null
  | bool
  | int
  | float
  | binary
  | timestamp
  | omap
  | pairs
  | set
  | str
  | sequence
  | mapping
  | merge
  | value
  | other
  deriving DecidableEq, Repr

namespace Tag

def lead : Text := "tag:yaml.org,2002:"

/-- The tags that stand for values, and the names they are written by. -/
def named : List (Text × Tag) :=
  [("null", .null), ("bool", .bool), ("int", .int), ("float", .float), ("binary", .binary),
   ("timestamp", .timestamp), ("omap", .omap), ("pairs", .pairs), ("set", .set), ("str", .str),
   ("seq", .sequence), ("map", .mapping), ("merge", .merge), ("value", .value)]

def ofName (name : Text) : Tag :=
  match Text.dropLeading? lead name with
  | some short => (named.lookup short).getD .other
  | none => .other

/-! ## The looks of plain scalars -/

def boolWords : List (String × Bool) :=
  [("yes", true), ("Yes", true), ("YES", true), ("no", false), ("No", false), ("NO", false),
   ("true", true), ("True", true), ("TRUE", true), ("false", false), ("False", false),
   ("FALSE", false), ("on", true), ("On", true), ("ON", true), ("off", false), ("Off", false),
   ("OFF", false)]

def isOneOf (words : List String) (text : Text) : Bool :=
  words.any fun word => text = Text.ofString word

/-- A first digit that passes one test, and further ones with underscores among them. -/
def isRun (first other : CodePoint → Bool) : Text → Bool
  | [] => false
  | c :: text => first c && text.all fun c => other c || c = .scalar '_'

def isDigits : Text → Bool := isRun CodePoint.isDigit CodePoint.isDigit

def isCounting : Text → Bool := isRun (·.isBetween '1' '9') CodePoint.isDigit

def isMarked (text : Text) (mark : Text) (digit : CodePoint → Bool) : Bool :=
  match Text.dropLeading? mark text with
  | some rest => !rest.isEmpty && rest.all fun c => digit c || c = .scalar '_'
  | none => false

/-- One or two digits below sixty. -/
def isSixtieth : Text → Bool
  | [c] => c.isDigit
  | [c, d] => c.isBetween '0' '5' && d.isDigit
  | _ => false

/-- A first part and further ones of sixtieths, with colons between them. -/
def isSexagesimal (first : Text → Bool) (text : Text) : Bool :=
  match Text.splitOn (.scalar ':') text with
  | head :: next :: others => first head && (next :: others).all isSixtieth
  | _ => false

def unsigned (text : Text) : Text :=
  match text with
  | c :: rest => if c.isIn "+-" then rest else text
  | [] => []

def isInt (text : Text) : Bool :=
  let body := unsigned text
  body = ("0" : Text) || isCounting body || isMarked body "0b" (·.isBetween '0' '1') ||
    isMarked body "0x" CodePoint.isHexDigit || isMarked body "0" (·.isBetween '0' '7') ||
    isSexagesimal isCounting body

/-- Digits after a point, and an optional power with a sign. -/
def isTail (digits : Text → Bool) (text : Text) : Bool :=
  let isPower (c : CodePoint) : Bool := c.isIn "eE"
  digits (text.takeWhile (!isPower ·)) &&
    match text.dropWhile (!isPower ·) with
    | [] => true
    | _ :: sign :: power => sign.isIn "+-" && !power.isEmpty && power.all CodePoint.isDigit
    | _ => false

def isLooseDigits (text : Text) : Bool := text.all fun c => c.isDigit || c = .scalar '_'

def isFloat (text : Text) : Bool :=
  let body := unsigned text
  isOneOf [".inf", ".Inf", ".INF"] body || isOneOf [".nan", ".NaN", ".NAN"] text ||
    match Text.cut "." body with
    | none => false
    | some (whole, rest) =>
        (isDigits whole && isTail isLooseDigits rest) ||
          (text.head? = some (.scalar '.') && isTail isDigits rest) ||
          (isSexagesimal isDigits whole && isLooseDigits rest)

/-- The end of a pattern may stand before a last line feed. -/
def beforeLastBreak (text : Text) : Text :=
  match text.getLast? with
  | some c => if c = .scalar '\n' then text.dropLast else text
  | none => []

/-- The tag of a plain scalar. -/
def ofPlain (text : Text) : Tag :=
  if text.isEmpty then .null
  else
    let body := beforeLastBreak text
    if body.isEmpty then .str
    else if isOneOf (boolWords.map (·.1)) body then .bool
    else if isFloat body then .float
    else if isInt body then .int
    else if body = ("<<" : Text) then .merge
    else if isOneOf ["~", "null", "Null", "NULL"] body then .null
    else if (Timestamp.read? body).any Timestamp.isPlain then .timestamp
    else if body = ("=" : Text) then .value
    else if isOneOf ["!", "&", "*"] body then .other
    else .str

end Tag

end Stencil.Yaml
