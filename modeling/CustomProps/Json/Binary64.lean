/-!
# Decimals that are whole numbers in binary

A decimal is read as the nearest binary floating-point number of 64 bits, of two equally near ones
as the one with the even significand.  This file tells which whole number that is, if it is one
that a signed word of 64 bits can hold.
-/

set_option autoImplicit false

namespace CustomProps
namespace Binary64

/-- The quotient rounded to the nearest whole number, a tie to the even one. -/
def roundDiv (num den : Nat) : Nat :=
  let q := num / den
  let r := num % den
  if 2 * r < den then q
  else if den < 2 * r then q + 1
  else q + q % 2

/-- The exponent of the greatest power of two that is not above `num / den`. -/
def floorLog2 (num den : Nat) : Int :=
  let e : Int := (num.log2 : Int) - (den.log2 : Int)
  if num <<< (-e).toNat < den <<< e.toNat then e - 1 else e

/-- The significand and the binary exponent of the number nearest to `num / den`, were there no
greatest number. -/
def nearest (num den : Nat) : Nat × Int :=
  let exponent := max (floorLog2 num den - 52) (-1074)
  (roundDiv (num <<< (-exponent).toNat) (den <<< exponent.toNat), exponent)

/-- `significand · 2 ^ exponent`, if that is whole. -/
def whole? (significand : Nat) (exponent : Int) : Option Nat :=
  let down := (-exponent).toNat
  if 0 ≤ exponent then some (significand <<< exponent.toNat)
  else if (significand >>> down) <<< down = significand then some (significand >>> down)
  else none

/-- The size of the whole number that the nearest number of `mantissa · 10 ^ exponent` is.  Sizes
that no word can hold, and those far below the least number, are told by the count of digits. -/
def wholeSize? (mantissa : Nat) (exponent : Int) : Option Nat :=
  let digits : Int := (Nat.toDigits 10 mantissa).length
  if mantissa = 0 ∨ digits + exponent < -400 then some 0
  else if 20 < digits + exponent then none
  else
    let (significand, e) :=
      nearest (mantissa * Nat.pow 10 exponent.toNat) (Nat.pow 10 (-exponent).toNat)
    whole? significand e

/-- The least number that is too great for a signed word of 64 bits. -/
def wordLimit : Nat := 1 <<< 63

/-- The whole number that the nearest number of `mantissa · 10 ^ exponent` is, if it lies strictly
between the powers `-2 ^ 63` and `2 ^ 63`. -/
def wholeOfDecimal? (mantissa exponent : Int) : Option Int :=
  match wholeSize? mantissa.natAbs exponent with
  | some size => if size < wordLimit then some (mantissa.sign * size) else none
  | none => none

end Binary64
end CustomProps
