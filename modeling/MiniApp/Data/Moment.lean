/-!
# Days and times

What settings files can say about time: a day, a time of day, or both, the latter perhaps with the
distance from universal time. A moment has a plain text, which puts its parts in order of size, and
a notation for messages, which names its sort and leaves out seconds that are zero.
-/

namespace MiniApp

/-- A number with zeros in front, up to the given width. -/
def padded (width n : Nat) : String :=
  let digits := toString n
  "".pushn '0' (width - digits.length) ++ digits

/-- A day of the calendar. -/
structure Day where
  year : Nat
  month : Nat
  day : Nat
  deriving DecidableEq, Repr

namespace Day

/-- Leap years: every fourth year, but of the full centuries only every fourth. -/
def isLeap (year : Nat) : Bool := year % 4 = 0 && (year % 100 != 0 || year % 400 = 0)

/-- The number of days in a month. -/
def daysIn (year month : Nat) : Nat :=
  if month = 2 then if isLeap year then 29 else 28
  else if [4, 6, 9, 11].contains month then 30
  else 31

/-- Whether the calendar has the day. Years are counted from one. -/
def isValid (d : Day) : Bool :=
  1 ≤ d.year && 1 ≤ d.month && d.month ≤ 12 && 1 ≤ d.day && d.day ≤ daysIn d.year d.month

/-- A day as text. -/
def text (d : Day) : String := padded 4 d.year ++ "-" ++ padded 2 d.month ++ "-" ++ padded 2 d.day

/-- The parts of a day. -/
def parts (d : Day) : List Nat := [d.year, d.month, d.day]

end Day

/-- A time of day. -/
structure Clock where
  hour : Nat
  minute : Nat
  second : Nat
  microsecond : Nat := 0
  deriving DecidableEq, Repr

namespace Clock

/-- A time of day as text. Microseconds are shown if there are any. -/
def text (c : Clock) : String :=
  padded 2 c.hour ++ ":" ++ padded 2 c.minute ++ ":" ++ padded 2 c.second ++
    if c.microsecond = 0 then "" else "." ++ padded 6 c.microsecond

/-- The parts of a time of day, without zeros for what is smaller than a minute at the end. -/
def parts (c : Clock) : List Nat :=
  [c.hour, c.minute] ++
    if c.microsecond != 0 then [c.second, c.microsecond]
    else if c.second != 0 then [c.second]
    else []

end Clock

/-- The distance of a clock from universal time, in minutes. -/
structure Offset where
  minutes : Int
  deriving DecidableEq, Repr

namespace Offset

/-- An offset as text: sign, hours and minutes. -/
def text (o : Offset) : String :=
  let size := o.minutes.natAbs
  (if o.minutes < 0 then "-" else "+") ++ padded 2 (size / 60) ++ ":" ++ padded 2 (size % 60)

/-- An offset in the notation of messages. One behind universal time is a day back and the rest of
the day forward. -/
def literal (o : Offset) : String :=
  if o.minutes = 0 then "datetime.timezone.utc"
  else
    let span :=
      if o.minutes < 0 then "days=-1, seconds=" ++ toString (86400 + 60 * o.minutes)
      else "seconds=" ++ toString (60 * o.minutes)
    "datetime.timezone(datetime.timedelta(" ++ span ++ "))"

end Offset

/-- A day, a time of day, or both. -/
inductive Moment where
  | day (d : Day)
  | time (c : Clock)
  | dayTime (d : Day) (c : Clock) (offset : Option Offset)
  deriving DecidableEq, Repr

namespace Moment

/-- A moment as text. -/
def text : Moment → String
  | .day d => d.text
  | .time c => c.text
  | .dayTime d c offset => d.text ++ " " ++ c.text ++ (offset.map Offset.text).getD ""

/-- The name of a moment's sort in messages. -/
def typeName : Moment → String
  | .day _ => "datetime.date"
  | .time _ => "datetime.time"
  | .dayTime _ _ _ => "datetime.datetime"

/-- What is said about a moment in the notation of messages. -/
def details : Moment → List String
  | .day d => d.parts.map toString
  | .time c => c.parts.map toString
  | .dayTime d c offset =>
    (d.parts ++ c.parts).map toString ++ (offset.map fun o => "tzinfo=" ++ o.literal).toList

/-- A moment in the notation of messages. -/
def literal (m : Moment) : String := m.typeName ++ "(" ++ ", ".intercalate m.details ++ ")"

end Moment

end MiniApp
