import TypeContracts.Number.Binary64

/-!
Shortest decimal digits of a binary floating-point number: of all decimals that read back as the
number, those with the fewest digits, and of these the nearest. The search tests, for one digit, two
digits and so on, the two neighbours of the number on that decimal grid, in exact arithmetic.
-/

namespace TypeContracts

/-- The decimal `coefficient * 10 ^ exponent`. -/
structure Decimal where
  coefficient : Nat
  exponent : Int
  deriving DecidableEq

namespace Decimal

/-- Number of decimal digits of `n`; zero has one. -/
def digitCount (n : Nat) : Nat := (Nat.toDigits 10 n).length

/-- The same decimal without trailing zeros in its coefficient. `fuel` bounds the digits removed. -/
def stripZeros : Nat → Decimal → Decimal
  | 0, d => d
  | fuel + 1, d =>
      if d.coefficient ≠ 0 ∧ d.coefficient % 10 = 0 then
        stripZeros fuel ⟨d.coefficient / 10, d.exponent + 1⟩
      else d

/-- The normal form: no trailing zeros. -/
def normalize (d : Decimal) : Decimal := stripZeros (digitCount d.coefficient) d

/-- The exponent in scientific notation: the power of ten of the leading digit. -/
def leadingExponent (d : Decimal) : Int := d.exponent + digitCount d.coefficient - 1

end Decimal

namespace Binary64

/-- The reals that round to one finite number, as fractions over a common denominator: `value` is
the number, `low` and `high` are the midpoints to its neighbours. The midpoints themselves round
to it when `closed` holds. -/
structure Interval where
  low : Nat
  value : Nat
  high : Nat
  denominator : Nat
  closed : Bool

/-- The rounding interval of `significand * 2 ^ exponent`, in quarters of the unit in the last place.
Below a power of two the neighbour is nearer, and ties round to the even significand. -/
def roundingInterval (significand : Nat) (exponent : Int) : Interval :=
  let below := if significand = Nat.pow 2 52 ∧ exponent ≠ -1074 then 1 else 2
  let scale := Nat.pow 2 (exponent - 2).toNat
  { low := (4 * significand - below) * scale
    value := 4 * significand * scale
    high := (4 * significand + 2) * scale
    denominator := Nat.pow 2 (2 - exponent).toNat
    closed := significand % 2 == 0 }

namespace Interval

/-- Whether `p / q` lies in the interval. -/
def contains (i : Interval) (p q : Nat) : Bool :=
  let p := p * i.denominator
  if i.closed then i.low * q ≤ p && p ≤ i.high * q
  else i.low * q < p && p < i.high * q

/-- The least `k` with `value < 10 ^ k`. -/
def magnitude (i : Interval) : Int :=
  if i.denominator ≤ i.value then
    Decimal.digitCount (i.value / i.denominator)
  else
    let c := (i.denominator + i.value - 1) / i.value
    1 - (Decimal.digitCount (c - 1) : Int)

/-- The better of the two neighbours of the value on the grid of multiples of `10 ^ unit`, if one of
them lies in the interval: the nearer of two hits, and the upper one when they are equally near. -/
def onGrid? (i : Interval) (unit : Int) : Option Decimal :=
  let up := Nat.pow 10 unit.toNat
  let down := Nat.pow 10 (-unit).toNat
  let c := i.value * down / (i.denominator * up)
  let rest := i.value * down % (i.denominator * up)
  match i.contains (c * up) down, i.contains ((c + 1) * up) down with
  | true, true =>
      if 2 * rest < i.denominator * up then some ⟨c, unit⟩ else some ⟨c + 1, unit⟩
  | true, false => some ⟨c, unit⟩
  | false, true => some ⟨c + 1, unit⟩
  | false, false => none

/-- The first hit on the grids `10 ^ unit`, `10 ^ (unit - 1)`, …, at most `grids` of them; when none
hits, the value itself cut to the last grid. -/
def firstHit (i : Interval) : Nat → Int → Decimal
  | 0, unit =>
      ⟨i.value * Nat.pow 10 (-unit).toNat / (i.denominator * Nat.pow 10 unit.toNat), unit⟩
  | grids + 1, unit =>
      match i.onGrid? unit with
      | some d => d
      | none => firstHit i grids (unit - 1)

/-- The shortest decimal of the interval. Seventeen digits tell any two numbers apart. -/
def shortest (i : Interval) : Decimal :=
  (i.firstHit 17 (i.magnitude - 1)).normalize

end Interval

/-- The shortest decimal that reads back as the finite number `significand * 2 ^ exponent`. -/
def shortestDecimal (significand : Nat) (exponent : Int) : Decimal :=
  if significand = 0 then ⟨0, 0⟩ else (roundingInterval significand exponent).shortest

end Binary64

end TypeContracts
