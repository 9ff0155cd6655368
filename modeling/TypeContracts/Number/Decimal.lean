import TypeContracts.Number.Shortest

/-!
Written form of floating-point numbers. A `NumberStyle` says where positional notation ends; the
digits are always the shortest that read back.
-/

namespace TypeContracts

/-- How a number is laid out. Leading exponents from `least` to `greatest` are written positionally,
with at least one digit after the point; all others as digits and an exponent, without a point when
there is one digit only. -/
structure NumberStyle where
  least : Int
  greatest : Int

namespace Decimal

/-- Digits with a point: `12.5`, `0.001`, `300.0`. -/
def positional (d : Decimal) : String :=
  let digits := Nat.toDigits 10 d.coefficient
  if 0 ≤ d.exponent then
    String.ofList (digits ++ List.replicate d.exponent.toNat '0') ++ ".0"
  else
    let places := (-d.exponent).toNat
    if places < digits.length then
      String.ofList (digits.take (digits.length - places)) ++ "."
        ++ String.ofList (digits.drop (digits.length - places))
    else
      "0." ++ String.ofList (List.replicate (places - digits.length) '0' ++ digits)

/-- Digits with an exponent: `1e16`, `2.5e-7`. -/
def scientific (d : Decimal) : String :=
  let mantissa := match Nat.toDigits 10 d.coefficient with
    | [] => ""
    | [c] => String.ofList [c]
    | c :: rest => String.ofList (c :: '.' :: rest)
  mantissa ++ "e" ++ toString d.leadingExponent

/-- A normalized decimal in the given style. -/
def render (style : NumberStyle) (d : Decimal) : String :=
  if d.coefficient = 0 ∨ (style.least ≤ d.leadingExponent ∧ d.leadingExponent ≤ style.greatest) then
    d.positional
  else
    d.scientific

end Decimal

namespace Binary64

/-- A number in the given style; the sign of a zero is kept. -/
def render (style : NumberStyle) (x : Binary64) : String :=
  let sign (negative : Bool) := if negative then "-" else ""
  match x.reading with
  | .notANumber => "NaN"
  | .infinite negative => sign negative ++ "inf"
  | .finite negative significand exponent =>
      sign negative ++ (shortestDecimal significand exponent).render style

end Binary64

end TypeContracts
