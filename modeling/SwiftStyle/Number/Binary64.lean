/-!
# Double-precision numbers

A double is kept as its sixty-four bits. A decimal is read as the double
nearest to it, of two equally near the one with an even last bit: the
work is done in natural numbers, where nothing is lost.

The bits of a positive finite double are its significand plus a multiple
of `2 ^ 52` that grows with its exponent. So a significand that rounding
carries up to the next power of two is packed as the next exponent, and
one that passes the greatest finite double is packed as infinity.
-/

namespace SwiftStyle

/-- **A double**, by its bits. -/
structure Binary64 where
  /-- The sign, the exponent and the fraction. -/
  bits : UInt64
deriving DecidableEq, Repr, Inhabited

/-- A quotient rounded to the nearest integer, a half to the even one. -/
def divHalfEven (n d : Nat) : Nat :=
  let q := n / d
  let r := n % d
  if 2 * r < d || (2 * r == d && q % 2 == 0) then q else q + 1

namespace Binary64

/-- The bits of positive infinity. -/
def infiniteBits : Nat := 0x7FF <<< 52

/-- The exponent of the last place of the smallest doubles. -/
def leastExponent : Int := -1074

/-- The bits of the double nearest to a positive quotient. -/
def nearestBits (num den : Nat) : Nat :=
  let place (e : Int) : Nat × Nat :=
    if 0 ≤ e then (num, den <<< e.toNat) else (num <<< (-e).toNat, den)
  let rough := (num.log2 : Int) - den.log2 - 53
  let fits := (place rough).1 / (place rough).2 < 1 <<< 53
  let e := max leastExponent (if fits then rough else rough + 1)
  let significand := divHalfEven (place e).1 (place e).2
  min infiniteBits (((e - leastExponent).toNat <<< 52) + significand)

/-- The double of a sign and the bits of its magnitude. -/
def ofMagnitude (negative : Bool) (magnitude : Nat) : Binary64 :=
  ⟨UInt64.ofNat ((if negative then 1 <<< 63 else 0) + magnitude)⟩

/-- **The double nearest to a decimal**, `mantissa` times ten to the
`exponent`. Decimals far outside the range are settled by their size. -/
def ofDecimal (negative : Bool) (mantissa : Nat) (exponent : Int) :
    Binary64 :=
  let digits : Int := (Nat.toDigits 10 mantissa).length
  ofMagnitude negative <|
    if mantissa = 0 || digits + exponent < -400 then 0
    else if 400 < digits + exponent then infiniteBits
    else if 0 ≤ exponent then
      nearestBits (mantissa * Nat.pow 10 exponent.toNat) 1
    else nearestBits mantissa (Nat.pow 10 (-exponent).toNat)

/-- The double nearest to an integer. -/
def ofInt (n : Int) : Binary64 :=
  ofDecimal (decide (n < 0)) n.natAbs 0

/-- An infinity. -/
def infinity (negative : Bool) : Binary64 :=
  ofMagnitude negative infiniteBits

/-- A value that is not a number. -/
def nan (negative : Bool) : Binary64 :=
  ofMagnitude negative (infiniteBits + (1 <<< 51))

/-- The bits without the sign. -/
def magnitude (x : Binary64) : Nat :=
  x.bits.toNat % (1 <<< 63)

/-- Whether a double is not a number. -/
def isNaN (x : Binary64) : Bool :=
  decide (infiniteBits < x.magnitude)

/-- **Equality of numbers**: what is not a number equals nothing, and the
two zeros are equal. -/
def numericEq (x y : Binary64) : Bool :=
  !x.isNaN && !y.isNaN &&
    (x.bits == y.bits || (x.magnitude == 0 && y.magnitude == 0))

end Binary64
end SwiftStyle
