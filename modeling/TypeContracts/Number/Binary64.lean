/-!
Floating-point numbers of 64 bits, held as their bit patterns. `Binary64.reading` gives the number a
pattern stands for; every comparison goes through it in exact integer arithmetic, so no rounding
can enter a verdict.
-/

namespace TypeContracts

/-- A floating-point number in the 64-bit interchange format. -/
structure Binary64 where
  bits : UInt64
  deriving DecidableEq

namespace Binary64

/-- What a bit pattern stands for. A finite pattern is `± significand * 2 ^ exponent`. -/
inductive Reading where
  | notANumber
  | infinite (negative : Bool)
  | finite (negative : Bool) (significand : Nat) (exponent : Int)
  deriving DecidableEq

/-! ## Fields of a pattern -/

/-- Bit 63: set for negative numbers, `-0.0` included. -/
def isNegative (x : Binary64) : Bool := x.bits.toNat / Nat.pow 2 63 % 2 == 1

/-- Bits 52 to 62: the biased exponent. -/
def exponentField (x : Binary64) : Nat := x.bits.toNat / Nat.pow 2 52 % Nat.pow 2 11

/-- Bits 0 to 51: the trailing part of the significand. -/
def fraction (x : Binary64) : Nat := x.bits.toNat % Nat.pow 2 52

/-- The number a pattern stands for: exponent field 2047 holds the infinities and the patterns that
are no number, field 0 the subnormals, and any other field a significand with its leading bit. -/
def reading (x : Binary64) : Reading :=
  if x.exponentField = 2047 then
    if x.fraction = 0 then .infinite x.isNegative else .notANumber
  else if x.exponentField = 0 then
    .finite x.isNegative x.fraction (-1074)
  else
    .finite x.isNegative (Nat.pow 2 52 + x.fraction) (x.exponentField - 1075)

/-- Patterns that stand for no number. -/
def isNaN (x : Binary64) : Bool := x.exponentField == 2047 && x.fraction != 0

/-- The two zeros. -/
def isZero (x : Binary64) : Bool := x.exponentField == 0 && x.fraction == 0

/-! ## Comparison -/

/-- Numeric equality: a pattern that is no number equals nothing, itself included, and the two
zeros are equal. Apart from the zeros a number has one pattern only. -/
def equal (x y : Binary64) : Bool :=
  !x.isNaN && !y.isNaN && (x.bits == y.bits || (x.isZero && y.isZero))

/-- The integer with the given sign and magnitude. -/
def signed (negative : Bool) (magnitude : Nat) : Int :=
  if negative then -(magnitude : Int) else magnitude

/-! ## Comparison with integers -/

def isFinite (x : Binary64) : Bool := x.exponentField != 2047

/-- A finite number without its digits after the point. -/
def truncated (x : Binary64) : Int :=
  match x.reading with
  | .finite negative significand exponent =>
      if 0 ≤ exponent then signed negative (significand * Nat.pow 2 exponent.toNat)
      else signed negative (significand / Nat.pow 2 (-exponent).toNat)
  | _ => 0

/-- Whether something other than zero comes after the point. -/
def hasFraction (x : Binary64) : Bool :=
  match x.reading with
  | .finite _ significand exponent =>
      exponent < 0 && significand % Nat.pow 2 (-exponent).toNat != 0
  | _ => true

/-- The 64-bit integers go from `-int64Bound` up to `int64Bound`, this one excluded. -/
def int64Bound : Int := 9223372036854775808

/-- Conversion to a 64-bit integer: truncated, and beyond the bounds the nearest of them. What is no number
becomes zero. -/
def toInt64 (x : Binary64) : Int64 :=
  match x.reading with
  | .notANumber => 0
  | .infinite negative => if negative then Int64.minValue else Int64.maxValue
  | .finite _ _ _ => Int64.ofIntClamp x.truncated

/-- Exact equality with a 64-bit integer: the integer is never rounded to a float. The float is converted
instead, once nothing of it can get lost in doing so. -/
def equalsInt (x : Binary64) (i : Int64) : Bool :=
  x.isFinite && !x.hasFraction && -int64Bound ≤ x.truncated && x.truncated < int64Bound &&
    x.toInt64 == i

end Binary64

end TypeContracts
