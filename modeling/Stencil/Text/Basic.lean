/-!
# Texts

A text is a list of code points.  A code point is a character or one half of a
surrogate pair that stands alone: escapes in data files can write such a half,
and it has to survive until the text is encoded.
-/

namespace Stencil

inductive CodePoint where
  | scalar (char : Char)
  | surrogate (offset : Fin 2048)
  deriving DecidableEq, Repr, Inhabited

abbrev Text := List CodePoint

namespace CodePoint

def toNat : CodePoint → Nat
  | .scalar char => char.toNat
  | .surrogate offset => 0xD800 + offset.val

def ofNat? (code : Nat) : Option CodePoint :=
  if h : 0xD800 ≤ code ∧ code < 0xE000 then
    some (.surrogate ⟨code - 0xD800, by omega⟩)
  else if code < 0x110000 then some (.scalar (Char.ofNat code))
  else none

/-- Numbers that are no code point become the replacement character. -/
def ofNat (code : Nat) : CodePoint :=
  (ofNat? code).getD (.scalar (Char.ofNat 0xFFFD))

instance : Coe Char CodePoint := ⟨.scalar⟩

/-! ## Plain letters and digits -/

/-- Whether the code point lies in the closed range from `first` to `last`. -/
def isBetween (first last : Char) (c : CodePoint) : Bool :=
  decide (first.toNat ≤ c.toNat) && decide (c.toNat ≤ last.toNat)

def isDigit (c : CodePoint) : Bool := c.isBetween '0' '9'

def isLowerLatin (c : CodePoint) : Bool := c.isBetween 'a' 'z'

def isUpperLatin (c : CodePoint) : Bool := c.isBetween 'A' 'Z'

def isLatin (c : CodePoint) : Bool := c.isLowerLatin || c.isUpperLatin

def digitValue? (c : CodePoint) : Option Nat :=
  if c.isDigit then some (c.toNat - '0'.toNat) else none

/-- The value of a digit in any base up to 36, with letters of either case. -/
def letterDigitValue? (c : CodePoint) : Option Nat :=
  if c.isDigit then some (c.toNat - '0'.toNat)
  else if c.isLowerLatin then some (c.toNat - 'a'.toNat + 10)
  else if c.isUpperLatin then some (c.toNat - 'A'.toNat + 10)
  else none

def digitValueIn? (base : Nat) (c : CodePoint) : Option Nat :=
  match c.letterDigitValue? with
  | some value => if value < base then some value else none
  | none => none

def isHexDigit (c : CodePoint) : Bool := (c.digitValueIn? 16).isSome

/-- The lowercase letter of an uppercase Latin letter, any other code point itself. -/
def lowerLatin (c : CodePoint) : CodePoint :=
  if c.isUpperLatin then ofNat (c.toNat + 32) else c

/-- Whether the code point is one of the characters of `set`. -/
def isIn (set : String) (c : CodePoint) : Bool :=
  match c with
  | .scalar char => set.toList.contains char
  | .surrogate _ => false

end CodePoint

namespace Text

def ofString (s : String) : Text := s.toList.map .scalar

instance : Coe String Text := ⟨ofString⟩

/-- The decimal digits of a number. -/
def ofNat (n : Nat) : Text := (Nat.toDigits 10 n).map .scalar

def ofInt : Int → Text
  | .ofNat n => ofNat n
  | .negSucc n => CodePoint.scalar '-' :: ofNat (n + 1)

/-- Digits of `n` in a base, with letters in lowercase, filled with zeros up to `width`. -/
def ofNatIn (base width n : Nat) : Text :=
  let digits := (Nat.toDigits base n).map CodePoint.scalar
  List.replicate (width - digits.length) (CodePoint.scalar '0') ++ digits

/-- A text, or another one instead of the empty one. -/
def orIfEmpty (text other : Text) : Text := if text.isEmpty then other else text

def joinWith (separator : Text) (parts : List Text) : Text :=
  separator.intercalate parts

/-- What follows `lead` in a text that starts with it. -/
def dropLeading? : (lead text : Text) → Option Text
  | [], text => some text
  | _ :: _, [] => none
  | l :: lead, c :: text => if l = c then dropLeading? lead text else none

def startsWith (lead text : Text) : Bool := (dropLeading? lead text).isSome

def endsWith (tail text : Text) : Bool := startsWith tail.reverse text.reverse

/-- The parts before and after the first occurrence of a separator. -/
def cut (separator : Text) : Text → Option (Text × Text)
  | [] => if separator.isEmpty then some ([], []) else none
  | c :: text =>
      match dropLeading? separator (c :: text) with
      | some after => some ([], after)
      | none => (cut separator text).map fun (before, after) => (c :: before, after)

def contains (needle text : Text) : Bool := (cut needle text).isSome

/-- The position of the first occurrence of a part. -/
def position? (needle text : Text) : Option Nat :=
  (cut needle text).map fun (before, _) => before.length

/-- The pieces between the occurrences of one code point: always one more than these. -/
def splitOn (separator : CodePoint) : Text → List Text
  | [] => [[]]
  | c :: text =>
      if c = separator then [] :: splitOn separator text
      else
        match splitOn separator text with
        | [] => [[c]]
        | piece :: pieces => (c :: piece) :: pieces

private def splitFrom (separator : Text) : Nat → Text → Text → List Text
  | _, current, [] => [current.reverse]
  | skip + 1, current, _ :: text => splitFrom separator skip current text
  | 0, current, c :: text =>
      if startsWith separator (c :: text) then
        current.reverse :: splitFrom separator (separator.length - 1) [] text
      else splitFrom separator 0 (c :: current) text

/-- The pieces between occurrences of a separator, found from the left without overlap. -/
def splitAll (separator text : Text) : List Text := splitFrom separator 0 [] text

/-- Every occurrence of `old`, found from the left without overlap, becomes `new`. -/
def replaceAll (old new text : Text) : Text := joinWith new (splitAll old text)

def trimStart (drop : CodePoint → Bool) (text : Text) : Text := text.dropWhile drop

def trimEnd (drop : CodePoint → Bool) (text : Text) : Text :=
  (text.reverse.dropWhile drop).reverse

def trim (drop : CodePoint → Bool) (text : Text) : Text := trimEnd drop (trimStart drop text)

/-- Whether `first` comes strictly before `second` in the order of code points. -/
def precedes : Text → Text → Bool
  | _, [] => false
  | [], _ :: _ => true
  | a :: first, b :: second =>
      if a = b then precedes first second else decide (a.toNat < b.toNat)

def notAfter (first second : Text) : Bool := !precedes second first

def sort (texts : List Text) : List Text := texts.mergeSort notAfter

/-- Line ends of every convention become a single line feed. -/
def unifyLineEnds : Text → Text
  | [] => []
  | .scalar '\r' :: .scalar '\n' :: text => CodePoint.scalar '\n' :: unifyLineEnds text
  | .scalar '\r' :: text => CodePoint.scalar '\n' :: unifyLineEnds text
  | c :: text => c :: unifyLineEnds text

def lines (text : Text) : List Text := splitOn (CodePoint.scalar '\n') text

/-- The value of a nonempty run of digits in a base. -/
def toNatIn? (base : Nat) : Text → Option Nat
  | [] => none
  | text => text.foldlM (fun value c => (c.digitValueIn? base).map (value * base + ·)) 0

def toNat? (text : Text) : Option Nat := toNatIn? 10 text

end Text

/-! ## Sets of code points -/

/-- Closed ranges of code point numbers in ascending order. -/
abbrev CodeRanges := List (Nat × Nat)

def CodeRanges.has : CodeRanges → Nat → Bool
  | [], _ => false
  | (first, last) :: ranges, code =>
      if code < first then false
      else if code ≤ last then true
      else has ranges code

end Stencil
