import Stencil.Value.Basic

/-!
# Reading JSON

`Json.read` reads one document.  The reading functions work on the text that is
left, so a fault is placed by how much text was left when it was met.  The words
`NaN`, `Infinity` and `-Infinity` are numbers too; of equal keys the last value
counts, at the place of the first.
-/

namespace Stencil.Json

/-! ## Faults -/

inductive Reason where
  | value
  | propertyName
  | colon
  | comma
  | extraData
  | unterminated
  | controlCharacter
  | badEscape
  | badUnicodeEscape
  | byteOrderMark
  | hugeInteger (digits : Nat)
  deriving DecidableEq, Repr

/-- A fault and the length of the text that was left there. -/
structure Fault where
  reason : Reason
  left : Nat
  deriving DecidableEq, Repr

/-- A fault with its place, counted in code points from zero, and its line and column from one. -/
structure ReadError where
  reason : Reason
  position : Nat
  line : Nat
  column : Nat
  deriving DecidableEq, Repr

namespace Reason

def message : Reason → Text
  | .value => "Expecting value"
  | .propertyName => "Expecting property name enclosed in double quotes"
  | .colon => "Expecting ':' delimiter"
  | .comma => "Expecting ',' delimiter"
  | .extraData => "Extra data"
  | .unterminated => "Unterminated string starting at"
  | .controlCharacter => "Invalid control character at"
  | .badEscape => "Invalid \\escape"
  | .badUnicodeEscape => "Invalid \\uXXXX escape"
  | .byteOrderMark => "Unexpected UTF-8 BOM (decode using utf-8-sig)"
  | .hugeInteger digits =>
      ("Exceeds the limit (4300 digits) for integer string conversion: value has " : Text) ++
        Text.ofNat digits ++
        (" digits; use sys.set_int_max_str_digits() to increase the limit" : Text)

end Reason

namespace ReadError

/-- Whether the text is no document at all, and not only too large in a number. -/
def isMalformed (e : ReadError) : Bool :=
  match e.reason with
  | .hugeInteger _ => false
  | _ => true

def message (e : ReadError) : Text :=
  if e.isMalformed then
    e.reason.message ++ (": line " : Text) ++ Text.ofNat e.line ++ (" column " : Text) ++
      Text.ofNat e.column ++ (" (char " : Text) ++ Text.ofNat e.position ++ (")" : Text)
  else e.reason.message

end ReadError

def stop {α : Type} (reason : Reason) (text : Text) : Except Fault (α × Text) :=
  .error ⟨reason, text.length⟩

/-! ## Texts -/

def isSpace (c : CodePoint) : Bool := c.isIn " \t\n\r"

def skipSpace (text : Text) : Text := text.dropWhile isSpace

def hexValue? (digits : Text) : Option Nat :=
  if digits.length = 4 then Text.toNatIn? 16 digits else none

def escaped? : CodePoint → Option CodePoint
  | .scalar '\x22' => some (.scalar '\x22')
  | .scalar '\\' => some (.scalar '\\')
  | .scalar '/' => some (.scalar '/')
  | .scalar 'b' => some (.scalar '\x08')
  | .scalar 'f' => some (.scalar '\x0c')
  | .scalar 'n' => some (.scalar '\n')
  | .scalar 'r' => some (.scalar '\r')
  | .scalar 't' => some (.scalar '\t')
  | _ => none

/-- The code point of a surrogate pair. -/
def joinSurrogates (high low : Nat) : CodePoint :=
  .ofNat (0x10000 + (high - 0xD800) * 0x400 + (low - 0xDC00))

/--
The code point of a numeric escape; `text` starts behind the `u`.  An escaped
high surrogate takes an escaped low one behind it along.
-/
def unicodeEscape (text : Text) : Except Fault (CodePoint × Text) :=
  let rest := text.drop 4
  let fault {α : Type} (left : Nat) : Except Fault (α × Text) := .error ⟨.badUnicodeEscape, left + 1⟩
  if rest.isEmpty then fault text.length
  else
    match hexValue? (text.take 4) with
    | none => fault text.length
    | some high =>
        if 0xD800 ≤ high ∧ high < 0xDC00 ∧ 6 < rest.length then
          match rest with
          | .scalar '\\' :: .scalar 'u' :: second =>
              match hexValue? (second.take 4) with
              | none => fault second.length
              | some low =>
                  if 0xDC00 ≤ low ∧ low < 0xE000 then .ok (joinSurrogates high low, second.drop 4)
                  else .ok (.ofNat high, rest)
          | _ => .ok (.ofNat high, rest)
        else .ok (.ofNat high, rest)

/--
The text up to the closing quote.  `opening` is the length of the text that was
left at the opening quote, `fuel` bounds the number of code points.
-/
def stringBody (opening : Nat) : Nat → Text → Except Fault (Text × Text)
  | 0, _ => .error ⟨.unterminated, opening⟩
  | fuel + 1, text =>
      match text with
      | [] => .error ⟨.unterminated, opening⟩
      | .scalar '\x22' :: rest => .ok ([], rest)
      | .scalar '\\' :: [] => .error ⟨.unterminated, opening⟩
      | .scalar '\\' :: .scalar 'u' :: rest => do
          let (c, rest) ← unicodeEscape rest
          let (body, rest) ← stringBody opening fuel rest
          return (c :: body, rest)
      | .scalar '\\' :: mark :: rest =>
          match escaped? mark with
          | none => stop .badEscape text
          | some c => do
              let (body, rest) ← stringBody opening fuel rest
              return (c :: body, rest)
      | c :: rest =>
          if c.toNat < 0x20 then stop .controlCharacter text
          else do
            let (body, rest) ← stringBody opening fuel rest
            return (c :: body, rest)

/-! ## Numbers -/

/-- The longest number in front of a text: its digits, fraction and exponent. -/
def cutNumber? (text : Text) : Option (Text × Text × Text × Text) :=
  let (sign, body) : Text × Text := match text with
    | .scalar '-' :: body => ([.scalar '-'], body)
    | _ => ([], text)
  let whole? : Option (Text × Text) := match body with
    | .scalar '0' :: rest => some ([.scalar '0'], rest)
    | c :: _ => if c.isDigit then some (body.span CodePoint.isDigit) else none
    | [] => none
  match whole? with
  | none => none
  | some (whole, rest) =>
      let (fraction, rest) : Text × Text := match rest with
        | .scalar '.' :: tail =>
            let digits := tail.takeWhile CodePoint.isDigit
            if digits.isEmpty then ([], rest) else (digits, tail.drop digits.length)
        | _ => ([], rest)
      let (power, rest) : Text × Text := match rest with
        | c :: tail =>
            if c.lowerLatin = .scalar 'e' then
              let (signText, digits) : Text × Text := match tail with
                | .scalar '-' :: digits => ([.scalar '-'], digits)
                | .scalar '+' :: digits => ([.scalar '+'], digits)
                | _ => ([], tail)
              let count := digits.takeWhile CodePoint.isDigit
              if count.isEmpty then ([], rest) else (signText ++ count, digits.drop count.length)
            else ([], rest)
        | [] => ([], rest)
      some (sign ++ whole, fraction, power, rest)

def integer (text : Text) : Int :=
  let (negative, digits) := Binary64.cutSign text
  let n := (Text.toNat? digits).getD 0
  if negative then -(n : Int) else n

def number (text : Text) : Except Fault (Value × Text) :=
  match cutNumber? text with
  | none => stop .value text
  | some (whole, fraction, power, rest) =>
      let (negative, digits) := Binary64.cutSign whole
      if fraction.isEmpty && power.isEmpty then
        if 4300 < digits.length then stop (.hugeInteger digits.length) text
        else .ok (.int (integer whole), rest)
      else .ok (.float (Binary64.ofParts negative digits fraction (integer power)), rest)

/-! ## Documents -/

def words : List (Text × Value) :=
  [("null", .null), ("true", .bool true), ("false", .bool false), ("NaN", .float .nan),
    ("Infinity", .float (.infinity false)), ("-Infinity", .float (.infinity true))]

/-- A word, or else a number. -/
def atom (text : Text) : Except Fault (Value × Text) :=
  match words.findSome? fun (word, v) => (Text.dropLeading? word text).map fun rest => (v, rest) with
  | some found => .ok found
  | none => number text

mutual

def value : Nat → Text → Except Fault (Value × Text)
  | 0, text => stop .value text
  | fuel + 1, text =>
      match text with
      | .scalar '\x22' :: rest => do
          let (body, rest) ← stringBody text.length text.length rest
          return (.text body, rest)
      | .scalar '[' :: rest =>
          match skipSpace rest with
          | .scalar ']' :: rest => .ok (.list [], rest)
          | rest => do
              let (items, rest) ← items fuel rest
              return (.list items, rest)
      | .scalar '\x7b' :: rest =>
          match skipSpace rest with
          | .scalar '\x7d' :: rest => .ok (.map [], rest)
          | rest => do
              let (entries, rest) ← entries fuel rest
              return (.map (Entries.ofList entries), rest)
      | text => atom text

def items : Nat → Text → Except Fault (List Value × Text)
  | 0, text => stop .value text
  | fuel + 1, text => do
      let (first, rest) ← value fuel text
      match skipSpace rest with
      | .scalar ']' :: rest => return ([first], rest)
      | .scalar ',' :: rest =>
          let (others, rest) ← items fuel (skipSpace rest)
          return (first :: others, rest)
      | rest => stop .comma rest

def entries : Nat → Text → Except Fault (List (Scalar × Value) × Text)
  | 0, text => stop .value text
  | fuel + 1, text =>
      match text with
      | .scalar '\x22' :: rest => do
          let (key, rest) ← stringBody text.length text.length rest
          match skipSpace rest with
          | .scalar ':' :: rest =>
              let (first, rest) ← value fuel (skipSpace rest)
              match skipSpace rest with
              | .scalar '\x7d' :: rest => return ([(.text key, first)], rest)
              | .scalar ',' :: rest =>
                  let (others, rest) ← entries fuel (skipSpace rest)
                  return ((.text key, first) :: others, rest)
              | rest => stop .comma rest
          | rest => stop .colon rest
      | text => stop .propertyName text

end

def document (text : Text) : Except Fault Value :=
  match text with
  | .scalar '\ufeff' :: _ => .error ⟨.byteOrderMark, text.length⟩
  | _ => do
      let (result, rest) ← value (text.length + 1) (skipSpace text)
      match skipSpace rest with
      | [] => return result
      | rest => .error ⟨.extraData, rest.length⟩

/-- A fault in its text. -/
def place (text : Text) (fault : Fault) : ReadError :=
  let before := text.take (text.length - fault.left)
  let lines := Text.lines before
  ⟨fault.reason, before.length, lines.length, ((lines.getLast?.map List.length).getD 0) + 1⟩

/-- The value of a document. -/
def read (text : Text) : Except ReadError Value := (document text).mapError (place text)

end Stencil.Json
