import SwiftStyle.Toml.Clock
import SwiftStyle.Toml.Value

/-!
# Reading numbers

An integer has sixty-four bits and is decimal, with a sign or without
one, or hexadecimal, octal or binary without a sign. A low line may stand
between two digits. A decimal with a fraction or an exponent is a double;
one that is too great to be one is refused, while one that is too small –
below the least double – is negative infinity.
-/

namespace SwiftStyle.Toml

/-- The digits of a run of digits and low lines, if every low line stands
between two digits. -/
def digitsOf? : List Char → Option (List Char)
  | [] => none
  | ['_'] => none
  | '_' :: _ => none
  | [d] => some [d]
  | d :: '_' :: rest => (digitsOf? rest).map (d :: ·)
  | d :: rest => (digitsOf? rest).map (d :: ·)

/-- The digits of a class at the front of a text. -/
def takeDigits (isDigit : Char → Bool) : Scan (List Char) := fun text =>
  let inRun := fun c => isDigit c || c == '_'
  (digitsOf? (text.takeWhile inRun)).map fun digits =>
    (digits, text.dropWhile inRun)

/-- The digits before the point: more than one digit do not start with
zero. -/
def takeWhole : Scan (List Char) := fun text => do
  let (digits, rest) ← takeDigits Char.isDigit text
  if digits.head? = some '0' && 1 < digits.length then none
  else some (digits, rest)

/-- A sign, if there is one; the answer is whether it is a minus. -/
def takeSign : List Char → Bool × List Char
  | '+' :: rest => (false, rest)
  | '-' :: rest => (true, rest)
  | text => (false, text)

/-- The digits behind a point, if there is one. -/
def takeFractionDigits : Scan (Option (List Char))
  | '.' :: rest =>
    (takeDigits Char.isDigit rest).map fun (ds, after) => (some ds, after)
  | text => some (none, text)

/-- The exponent behind the letter e, if there is one. -/
def takeExponent : Scan (Option Int)
  | c :: rest =>
    if c = 'e' || c = 'E' then
      let (negative, rest) := takeSign rest
      (takeDigits Char.isDigit rest).map fun (digits, after) =>
        let n : Int := decimalValue digits
        (some (if negative then -n else n), after)
    else some (none, c :: rest)
  | [] => some (none, [])

/-- An integer, if it has sixty-four bits. -/
def integer? (n : Int) : Option Value :=
  if -0x8000000000000000 ≤ n && n < 0x8000000000000000 then
    some (.integer n)
  else none

/-- A double, unless it is positive infinity. -/
def float? (x : Binary64) : Option Value :=
  if x = .infinity false then none else some (.float x)

/-- A decimal number behind its sign. -/
def takeDecimal (negative : Bool) : Scan Value := fun text => do
  let (whole, rest) ← takeWhole text
  let (fraction, rest) ← takeFractionDigits rest
  let (exponent, rest) ← takeExponent rest
  if fraction.isNone && exponent.isNone then
    let n : Int := decimalValue whole
    let value ← integer? (if negative then -n else n)
    return (value, rest)
  else
    let fraction := fraction.getD []
    let value ← float? <|
      .ofDecimal negative (decimalValue (whole ++ fraction))
        (exponent.getD 0 - fraction.length)
    return (value, rest)

/-- An integer in a base. -/
def takeInBase (base : Nat) : Scan Value := fun text => do
  let isDigit := fun c => (hexDigit? c).any (· < base)
  let (digits, rest) ← takeDigits isDigit text
  let value ← integer? (ofDigits base (digits.filterMap hexDigit?))
  return (value, rest)

/-- Infinity and what is not a number, behind their sign. -/
def takeSpecial (negative : Bool) : Scan Value
  | 'i' :: 'n' :: 'f' :: rest => some (.float (.infinity negative), rest)
  | 'n' :: 'a' :: 'n' :: rest => some (.float (.nan negative), rest)
  | _ => none

/-- A number behind its sign. -/
def takeMagnitude (negative : Bool) : Scan Value := fun text =>
  match text.head? with
  | some 'i' => takeSpecial negative text
  | some 'n' => takeSpecial negative text
  | _ => takeDecimal negative text

/-- **A number.** -/
def takeNumber : Scan Value
  | '0' :: 'x' :: rest => takeInBase 16 rest
  | '0' :: 'o' :: rest => takeInBase 8 rest
  | '0' :: 'b' :: rest => takeInBase 2 rest
  | text =>
    let (negative, rest) := takeSign text
    takeMagnitude negative rest

end SwiftStyle.Toml
