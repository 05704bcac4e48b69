import SwiftStyle.Toml.Datetime
import SwiftStyle.Toml.Quoted

/-!
# Reading dates and times

The parts of a date and a time have fixed numbers of digits and must make
sense: no thirtieth of February, no twenty-fifth hour. A time may have
any number of digits after its seconds; what is finer than a billionth of
a second is dropped.
-/

namespace SwiftStyle.Toml

/-- The number that a text of decimal digits stands for. -/
def decimalValue (digits : List Char) : Nat :=
  ofDigits 10 (digits.map fun c => c.toNat - '0'.toNat)

/-- A number with a fixed count of digits, within bounds. -/
def takeFixed (count low high : Nat) : Scan Nat := fun text =>
  let digits := text.take count
  let n := decimalValue digits
  if digits.length = count && digits.all Char.isDigit &&
      decide (low ≤ n) && decide (n ≤ high)
  then some (n, text.drop count)
  else none

/-- A given character. -/
def skipChar? (c : Char) : List Char → Option (List Char)
  | d :: rest => if d = c then some rest else none
  | [] => none

/-- A date. -/
def takeDate : Scan Date := fun text => do
  let (year, rest) ← takeFixed 4 0 9999 text
  let (month, rest) ← takeFixed 2 1 12 (← skipChar? '-' rest)
  let (day, rest) ← takeFixed 2 1 (daysIn year month) (← skipChar? '-' rest)
  return (⟨year, month, day⟩, rest)

/-- The billionths of a second behind a point, if there is one with
digits behind it. -/
def takeFraction (text : List Char) : Nat × List Char :=
  match text with
  | '.' :: rest =>
    match rest.takeWhile Char.isDigit with
    | [] => (0, text)
    | digits =>
      let kept := digits.take 9
      (decimalValue kept * Nat.pow 10 (9 - kept.length),
       rest.dropWhile Char.isDigit)
  | _ => (0, text)

/-- A time of day. -/
def takeTime : Scan Time := fun text => do
  let (hour, rest) ← takeFixed 2 0 23 text
  let (minute, rest) ← takeFixed 2 0 59 (← skipChar? ':' rest)
  let (second, rest) ← takeFixed 2 0 60 (← skipChar? ':' rest)
  let (nanosecond, rest) := takeFraction rest
  return (⟨hour, minute, second, nanosecond⟩, rest)

/-- The hours and minutes of an offset, in minutes. -/
def takeMinutes : Scan Nat := fun text => do
  let (hours, rest) ← takeFixed 2 0 23 text
  let (minutes, rest) ← takeFixed 2 0 59 (← skipChar? ':' rest)
  return (60 * hours + minutes, rest)

/-- An offset from universal time. -/
def takeOffset : Scan Offset
  | 'Z' :: rest => some (.universal, rest)
  | 'z' :: rest => some (.universal, rest)
  | '+' :: rest =>
    (takeMinutes rest).map fun (n, after) => (.minutes n, after)
  | '-' :: rest =>
    (takeMinutes rest).map fun (n, after) => (.minutes (-n), after)
  | _ => none

/-- What a scanner reads, or nothing. -/
def takeOptional {α : Type} (scan : Scan α) (text : List Char) :
    Option α × List Char :=
  match scan text with
  | some (a, rest) => (some a, rest)
  | none => (none, text)

/-- The time of day and the offset behind a date. -/
def takeTimeOfDate : Scan (Time × Option Offset)
  | c :: rest =>
    if c = 'T' || c = 't' || c = ' ' then do
      let (time, rest) ← takeTime rest
      let (offset, rest) := takeOptional takeOffset rest
      return ((time, offset), rest)
    else none
  | [] => none

/-- **A date, a time, or both.** -/
def takeDatetime : Scan Datetime := fun text =>
  match takeDate text with
  | some (date, rest) =>
    match takeTimeOfDate rest with
    | some ((time, offset), rest) => some (.moment date time offset, rest)
    | none => some (.date date, rest)
  | none => (takeTime text).map fun (time, rest) => (.time time, rest)

end SwiftStyle.Toml
