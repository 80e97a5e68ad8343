import Stencil.Text.Basic

/-!
# Calendar dates

Dates of the proleptic Gregorian calendar and points in time with an optional
offset from universal time.  `Date.make` and `Moment.make` accept exactly the
parts that exist.
-/

namespace Stencil

structure Date where
  year : Nat
  month : Nat
  day : Nat
  deriving DecidableEq, Repr

/-- A time of a day; `offset` counts minutes east of universal time. -/
structure Moment where
  date : Date
  hour : Nat
  minute : Nat
  second : Nat
  microsecond : Nat
  offset : Option Int
  deriving DecidableEq, Repr

inductive CalendarError where
  | year (value : Nat)
  | month
  | day
  | hour
  | minute
  | second
  | offset (minutes : Int)
  deriving DecidableEq, Repr

namespace CalendarError

/-- A span of minutes, named by its days and seconds. -/
def spanText (minutes : Int) : Text :=
  let days := Int.fdiv minutes 1440
  let seconds := (Int.fmod minutes 1440) * 60
  let dayPart : List Text := if days = 0 then [] else [("days=" : Text) ++ Text.ofInt days]
  let secondPart : List Text :=
    if seconds = 0 then [] else [("seconds=" : Text) ++ Text.ofInt seconds]
  let parts := dayPart ++ secondPart
  ("datetime.timedelta(" : Text) ++
    (if parts.isEmpty then ("0" : Text) else Text.joinWith ", " parts) ++ (")" : Text)

def message : CalendarError → Text
  | .year value => ("year " : Text) ++ Text.ofNat value ++ (" is out of range" : Text)
  | .month => "month must be in 1..12"
  | .day => "day is out of range for month"
  | .hour => "hour must be in 0..23"
  | .minute => "minute must be in 0..59"
  | .second => "second must be in 0..59"
  | .offset minutes =>
      ("offset must be a timedelta strictly between -timedelta(hours=24) and timedelta(hours=24), not " :
        Text) ++ spanText minutes ++ ("." : Text)

end CalendarError

namespace Date

def isLeap (year : Nat) : Bool :=
  year % 4 = 0 && (year % 100 ≠ 0 || year % 400 = 0)

def daysIn (year : Nat) : Nat → Nat
  | 2 => if isLeap year then 29 else 28
  | 4 | 6 | 9 | 11 => 30
  | _ => 31

def make (year month day : Nat) : Except CalendarError Date :=
  if year = 0 ∨ 9999 < year then .error (.year year)
  else if month = 0 ∨ 12 < month then .error .month
  else if day = 0 ∨ daysIn year month < day then .error .day
  else .ok ⟨year, month, day⟩

private def padded (width n : Nat) : Text := Text.ofNatIn 10 width n

def text (d : Date) : Text :=
  padded 4 d.year ++ ("-" : Text) ++ padded 2 d.month ++ ("-" : Text) ++ padded 2 d.day

private def parts (d : Date) : List Nat := [d.year, d.month, d.day]

/-- The constructor call that makes the date. -/
def quoted (d : Date) : Text :=
  ("datetime.date(" : Text) ++ Text.joinWith ", " (d.parts.map Text.ofNat) ++ (")" : Text)

/-- The number of days before the date since the first day of year one. -/
def ordinal (d : Date) : Nat :=
  let years := d.year - 1
  let months := (List.range (d.month - 1)).foldl (fun days m => days + daysIn d.year (m + 1)) 0
  years * 365 + years / 4 - years / 100 + years / 400 + months + (d.day - 1)

end Date

namespace Moment

def make (date : Date) (hour minute second microsecond : Nat) (offset : Option Int) :
    Except CalendarError Moment :=
  if 23 < hour then .error .hour
  else if 59 < minute then .error .minute
  else if 59 < second then .error .second
  else .ok ⟨date, hour, minute, second, microsecond, offset⟩

private def two (n : Nat) : Text := Text.ofNatIn 10 2 n

private def offsetText (minutes : Int) : Text :=
  (if minutes < 0 then CodePoint.scalar '-' else CodePoint.scalar '+') ::
    two (minutes.natAbs / 60) ++ (":" : Text) ++ two (minutes.natAbs % 60)

/-- Date and time, with `mark` between them. -/
def textWith (mark : Text) (m : Moment) : Text :=
  m.date.text ++ mark ++ two m.hour ++ (":" : Text) ++ two m.minute ++ (":" : Text) ++
    two m.second ++
    (if m.microsecond = 0 then [] else ("." : Text) ++ Text.ofNatIn 10 6 m.microsecond) ++
    (m.offset.map offsetText).getD []

def text (m : Moment) : Text := m.textWith " "

private def zoneText (minutes : Int) : Text :=
  if minutes = 0 then "datetime.timezone.utc"
  else ("datetime.timezone(" : Text) ++ CalendarError.spanText minutes ++ (")" : Text)

/-- The constructor call that makes the moment; zero seconds at its end are left out. -/
def quoted (m : Moment) : Text :=
  let tail :=
    if m.microsecond ≠ 0 then [m.second, m.microsecond]
    else if m.second ≠ 0 then [m.second]
    else []
  let parts := [m.date.year, m.date.month, m.date.day, m.hour, m.minute] ++ tail
  ("datetime.datetime(" : Text) ++ Text.joinWith ", " (parts.map Text.ofNat) ++
    ((m.offset.map fun minutes => (", tzinfo=" : Text) ++ zoneText minutes).getD []) ++
    (")" : Text)

/-- Microseconds since the first day of year one, in universal time where an offset is known. -/
def instant (m : Moment) : Int :=
  let minutes : Int :=
    (m.date.ordinal * 1440 + m.hour * 60 + m.minute : Nat) - m.offset.getD 0
  (minutes * 60 + m.second) * 1000000 + m.microsecond

/-- Moments with and without an offset are never the same. -/
def equals (a b : Moment) : Bool :=
  decide (a.offset.isSome = b.offset.isSome) && decide (a.instant = b.instant)

end Moment

end Stencil
