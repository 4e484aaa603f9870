import StrayTouch.Decimal.Places

/-!
Days of the calendar and moments of a day. The calendar has the same rule for leap years in all
its years, of which the first is 1 and the last 9999. A moment may know how far its clock is from
the common one; two such moments are compared by the common clock.
-/
namespace StrayTouch

structure Date where
  year : Nat
  month : Nat
  day : Nat
  deriving DecidableEq

/-- A time of a day. The offset of its clock is in minutes. -/
structure Moment where
  date : Date
  hour : Nat
  minute : Nat
  second : Nat
  micro : Nat
  offset? : Option Int
  deriving DecidableEq

inductive Misfit where
  | year (given : Nat)
  | month
  | day
  | hour
  | minute
  | second
  | offset (minutes : Int)

def filled (width n : Nat) : String :=
  let ds := Decimal.digits n
  String.ofList (Decimal.zeros (width - ds.length) ++ ds)

namespace Date

def isLeap (year : Nat) : Bool :=
  year % 4 == 0 && (year % 100 != 0 || year % 400 == 0)

def daysIn (year month : Nat) : Nat :=
  if month == 2 then if isLeap year then 29 else 28
  else if month == 4 || month == 6 || month == 9 || month == 11 then 30
  else 31

/-- What is wrong with a day, looking at the year first. -/
def misfit? (d : Date) : Option Misfit :=
  if d.year < 1 || 9999 < d.year then some (.year d.year)
  else if d.month < 1 || 12 < d.month then some .month
  else if d.day < 1 || daysIn d.year d.month < d.day then some .day
  else none

def daysBefore (year : Nat) : Nat → Nat
  | 0 => 0
  | 1 => 0
  | month + 1 => daysBefore year month + daysIn year month

def number (d : Date) : Nat :=
  let past := d.year - 1
  365 * past + past / 4 - past / 100 + past / 400 + daysBefore d.year d.month + d.day

def figures (d : Date) : String :=
  filled 4 d.year ++ "-" ++ filled 2 d.month ++ "-" ++ filled 2 d.day

def fields (d : Date) : List Nat :=
  [d.year, d.month, d.day]

end Date

def separated (ns : List Nat) : String :=
  ", ".intercalate (ns.map toString)

def Date.shown (d : Date) : String :=
  "datetime.date(" ++ separated d.fields ++ ")"

def minutesPerDay : Int := 1440

def shownSpan (minutes : Int) : String :=
  let days := minutes / minutesPerDay
  let seconds := minutes % minutesPerDay * 60
  let part := fun (name : String) (n : Int) => if n == 0 then [] else [name ++ "=" ++ toString n]
  let parts := part "days" days ++ part "seconds" seconds
  "datetime.timedelta(" ++ (if parts.isEmpty then "0" else ", ".intercalate parts) ++ ")"

namespace Moment

/-- What is wrong with a moment. Its offset is looked at first and its day next. -/
def misfit? (m : Moment) : Option Misfit :=
  match m.offset?.filter fun o => minutesPerDay ≤ o || o ≤ -minutesPerDay with
  | some o => some (.offset o)
  | none =>
    m.date.misfit?.or
      (if 23 < m.hour then some .hour
       else if 59 < m.minute then some .minute
       else if 59 < m.second then some .second
       else none)

def clock (m : Moment) : Int :=
  (((m.date.number * 24 + m.hour) * 60 + m.minute) * 60 + m.second) * 1000000 + m.micro

/-- The microseconds of the moment on the common clock. -/
def common? (m : Moment) : Option Int :=
  m.offset?.map fun o => m.clock - o * 60000000

def shownOffset (minutes : Int) : String :=
  if minutes == 0 then "datetime.timezone.utc"
  else "datetime.timezone(" ++ shownSpan minutes ++ ")"

/-- How messages show a moment. Seconds are left out if there is no part of one, and so are
microseconds. -/
def shown (m : Moment) : String :=
  let finer :=
    if m.micro != 0 then [m.second, m.micro]
    else if m.second != 0 then [m.second]
    else []
  let offset := match m.offset? with
    | some o => ", tzinfo=" ++ shownOffset o
    | none => ""
  "datetime.datetime(" ++ separated (m.date.fields ++ [m.hour, m.minute] ++ finer) ++ offset
    ++ ")"

def offsetFigures (minutes : Int) : String :=
  (if minutes < 0 then "-" else "+") ++ filled 2 (minutes.natAbs / 60) ++ ":"
    ++ filled 2 (minutes.natAbs % 60)

def figures (m : Moment) : String :=
  m.date.figures ++ " " ++ filled 2 m.hour ++ ":" ++ filled 2 m.minute ++ ":"
    ++ filled 2 m.second
    ++ (if m.micro == 0 then "" else "." ++ filled 6 m.micro)
    ++ (m.offset?.map offsetFigures).getD ""

end Moment

def Misfit.message : Misfit → String
  | year given => "year " ++ toString given ++ " is out of range"
  | month => "month must be in 1..12"
  | day => "day is out of range for month"
  | hour => "hour must be in 0..23"
  | minute => "minute must be in 0..59"
  | second => "second must be in 0..59"
  | offset minutes =>
    "offset must be a timedelta strictly between -timedelta(hours=24) and timedelta(hours=24), not "
      ++ shownSpan minutes ++ "."

end StrayTouch
