/-!
Numbers with a fixed number of decimal places.

A double that is finite is a whole number times a power of two. It is multiplied by a power of ten
and rounded to the nearest whole number in exact arithmetic, a tie going to the even neighbour, and
the digits are then split by the point. The sign is that of the double, so a small negative number
may read as minus zero.
-/

namespace Brainfuck.Decimal

/-- The quotient rounded to the nearest whole number, and to the even one of two that are equally
near. -/
def roundDiv (num den : Nat) : Nat :=
  let quotient := num / den
  let rest := num % den
  if 2 * rest < den then quotient
  else if den < 2 * rest then quotient + 1
  else if quotient % 2 = 0 then quotient
  else quotient + 1

/-- A double: a sign and, if finite, `significand * 2 ^ exponent`. -/
inductive Double where
  | finite (negative : Bool) (significand : Nat) (exponent : Int)
  | infinite (negative : Bool)
  | notANumber
  deriving DecidableEq, Repr

/-- The double with a given bit pattern: a sign bit, eleven bits of exponent, and fifty-two bits of
the significand. -/
def Double.ofBits (bits : UInt64) : Double :=
  let n := bits.toNat
  let negative := decide (0x8000000000000000 ≤ n)
  let biased : Nat := n / 0x10000000000000 % 0x800
  let fraction : Nat := n % 0x10000000000000
  if biased = 0x7FF then
    if fraction = 0 then .infinite negative else .notANumber
  else if biased = 0 then .finite negative fraction (-1074)
  else .finite negative (0x10000000000000 + fraction) ((biased : Int) - 1075)

/-- `significand * 2 ^ exponent * 10 ^ places`, rounded to a whole number. -/
def scaled (significand : Nat) (exponent : Int) (places : Nat) : Nat :=
  if 0 ≤ exponent then significand * Nat.pow 2 exponent.toNat * Nat.pow 10 places
  else roundDiv (significand * Nat.pow 10 places) (Nat.pow 2 (-exponent).toNat)

/-- A whole number of units of the last of so many decimal places, with its point. -/
def pointed (n places : Nat) : String :=
  let unit := Nat.pow 10 places
  let fraction := toString (n % unit)
  toString (n / unit) ++ "."
    ++ String.ofList (List.replicate (places - fraction.length) '0') ++ fraction

/-- A double with so many decimal places. -/
def Double.fixed (places : Nat) : Double → String
  | .finite negative significand exponent =>
    (if negative then "-" else "") ++ pointed (scaled significand exponent places) places
  | .infinite negative => (if negative then "-" else "") ++ "inf"
  | .notANumber => "nan"

end Brainfuck.Decimal
