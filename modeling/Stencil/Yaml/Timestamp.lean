import Stencil.Value.Scalar
import Stencil.Yaml.Fault

/-!
# Timestamps

A date, or a date and a time with an optional fraction and offset, as YAML
documents write them.  Reading looks at the form alone; `Timestamp.scalar` finds
out whether there is such a time.
-/

namespace Stencil.Yaml

structure ClockTime where
  hour : Nat
  minute : Nat
  second : Nat
  microsecond : Nat
  offset : Option Int
  deriving DecidableEq, Repr

structure Timestamp where
  year : Nat
  month : Nat
  day : Nat
  /-- Whether month and day have two digits each. -/
  isFull : Bool
  time : Option ClockTime
  deriving DecidableEq, Repr

namespace Timestamp

def isBlank (c : CodePoint) : Bool := c.isIn " \t"

/-- A number of at least `least` and at most `most` digits, and how many it has. -/
def number (least most : Nat) (text : Text) : Option (Nat × Nat × Text) := do
  let digits := (text.take most).takeWhile CodePoint.isDigit
  let n ← Text.toNat? digits
  if digits.length < least then none else some (n, digits.length, text.drop digits.length)

def mark (char : Char) (text : Text) : Option Text := Text.dropLeading? [.scalar char] text

def offset (text : Text) : Option (Option Int) :=
  match text.dropWhile isBlank with
  | [] => if text.isEmpty then some none else none
  | [.scalar 'Z'] => some (some 0)
  | sign :: rest => do
      let isWest ← if sign = .scalar '-' then some true
        else if sign = .scalar '+' then some false else none
      let (hours, _, rest) ← number 1 2 rest
      let minutes ← match rest with
        | [] => some 0
        | rest => do
            let (minutes, _, rest) ← number 2 2 (← mark ':' rest)
            if rest.isEmpty then some minutes else none
      let total : Int := (hours * 60 + minutes : Nat)
      return some (if isWest then -total else total)

/-- The first six digits of a fraction, as millionths. -/
def millionths (digits : Text) : Nat :=
  let six := (digits ++ List.replicate 6 (CodePoint.scalar '0')).take 6
  (Text.toNat? six).getD 0

def clock (text : Text) : Option ClockTime := do
  let (hour, _, rest) ← number 1 2 text
  let (minute, _, rest) ← number 2 2 (← mark ':' rest)
  let (second, _, rest) ← number 2 2 (← mark ':' rest)
  let (fraction, rest) := match mark '.' rest with
    | some rest => (rest.takeWhile CodePoint.isDigit, rest.dropWhile CodePoint.isDigit)
    | none => ([], rest)
  return ⟨hour, minute, second, millionths fraction, ← offset rest⟩

/-- The time after a date: `T`, or blanks, and then the clock. -/
def timeAfterDate (text : Text) : Option (Option ClockTime) :=
  match text with
  | [] => some none
  | c :: rest =>
      if c.isIn "Tt" then (clock rest).map some
      else if isBlank c then (clock (rest.dropWhile isBlank)).map some
      else none

def read? (text : Text) : Option Timestamp := do
  let (year, _, rest) ← number 4 4 text
  let (month, monthDigits, rest) ← number 1 2 (← mark '-' rest)
  let (day, dayDigits, rest) ← number 1 2 (← mark '-' rest)
  return ⟨year, month, day, decide (monthDigits = 2 ∧ dayDigits = 2), ← timeAfterDate rest⟩

/-- Whether a plain scalar of this form is a timestamp: a date alone has to be full. -/
def isPlain (t : Timestamp) : Bool := t.isFull || t.time.isSome

def checkOffset (offset : Option Int) : Except CalendarError Unit :=
  match offset with
  | some minutes => if minutes.natAbs < 1440 then .ok () else .error (.offset minutes)
  | none => .ok ()

def scalar (t : Timestamp) : Except CalendarError Scalar := do
  match t.time with
  | none => return .date (← Date.make t.year t.month t.day)
  | some c =>
      checkOffset c.offset
      let date ← Date.make t.year t.month t.day
      return .moment (← Moment.make date c.hour c.minute c.second c.microsecond c.offset)

end Timestamp

end Stencil.Yaml
