/-!
# Dates and times

A date, a time of day, or a moment: a date with a time of day and, if it
is known, the offset from universal time. They are written as they are
read, except that fractions of a second lose their trailing zeros and the
date and the time of a moment are joined by a `T`.
-/

namespace SwiftStyle.Toml

/-- **A date** of the calendar. -/
structure Date where
  /-- The year. -/
  year : Nat
  /-- The month, from 1 to 12. -/
  month : Nat
  /-- The day, counted from 1. -/
  day : Nat
deriving DecidableEq, Repr, Inhabited

/-- **A time of day.** -/
structure Time where
  /-- The hour, up to 23. -/
  hour : Nat
  /-- The minute, up to 59. -/
  minute : Nat
  /-- The second, up to 60 for the sake of leap seconds. -/
  second : Nat
  /-- The fraction of the second, in billionths. -/
  nanosecond : Nat
deriving DecidableEq, Repr, Inhabited

/-- **An offset from universal time.** -/
inductive Offset where
  /-- None, and written as such. -/
  | universal
  /-- A number of minutes. -/
  | minutes (count : Int)
deriving DecidableEq, Repr, Inhabited

/-- **A date, a time, or both.** -/
inductive Datetime where
  /-- A date. -/
  | date (date : Date)
  /-- A time of day. -/
  | time (time : Time)
  /-- A date and a time of day. -/
  | moment (date : Date) (time : Time) (offset : Option Offset)
deriving DecidableEq, Repr, Inhabited

/-- Whether a year has a leap day. -/
def isLeapYear (year : Nat) : Bool :=
  year % 4 == 0 && (year % 100 != 0 || year % 400 == 0)

/-- The number of days of a month. -/
def daysIn (year month : Nat) : Nat :=
  if month = 2 then (if isLeapYear year then 29 else 28)
  else if month = 4 || month = 6 || month = 9 || month = 11 then 30
  else 31

/-- A number with zeros before it up to a width. -/
def padded (width n : Nat) : String :=
  let digits := Nat.toDigits 10 n
  String.ofList (List.replicate (width - digits.length) '0' ++ digits)

/-- The text of a date. -/
def Date.text (d : Date) : String :=
  padded 4 d.year ++ "-" ++ padded 2 d.month ++ "-" ++ padded 2 d.day

/-- A text without the zeros at its end. -/
def dropZeros (text : String) : String :=
  String.ofList (text.toList.reverse.dropWhile (· == '0')).reverse

/-- The text of a time of day. -/
def Time.text (t : Time) : String :=
  let whole :=
    padded 2 t.hour ++ ":" ++ padded 2 t.minute ++ ":" ++ padded 2 t.second
  if t.nanosecond = 0 then whole
  else whole ++ "." ++ dropZeros (padded 9 t.nanosecond)

/-- The text of an offset. -/
def Offset.text : Offset → String
  | universal => "Z"
  | minutes count =>
    let n := count.natAbs
    (if count < 0 then "-" else "+") ++ padded 2 (n / 60) ++ ":" ++
      padded 2 (n % 60)

/-- **The text of a date, a time, or both.** -/
def Datetime.text : Datetime → String
  | date d => d.text
  | time t => t.text
  | moment d t offset =>
    d.text ++ "T" ++ t.text ++ (offset.map Offset.text).getD ""

end SwiftStyle.Toml
