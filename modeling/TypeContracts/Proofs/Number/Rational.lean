import Mathlib.Algebra.Order.Field.Power
import Mathlib.Data.Rat.Cast.CharZero
import TypeContracts.Proofs.Number.Binary64
import TypeContracts.Value.Equality

/-!
Floats as rational numbers. `Binary64.value?` is what a pattern stands for by the definition of the format,
and a float equals an integer when this is the integer: no float is rounded on the way, and conversion
does not come to its bounds. Main statement: `Value.int_equal_float_iff`.
-/

namespace TypeContracts

namespace Binary64

/-- The number that a finite pattern stands for, without its sign: with exponent field `e` and fraction `f`
it is `(1 + f / 2 ^ 52) * 2 ^ (e - 1023)`, and `f / 2 ^ 52 * 2 ^ (-1022)` if `e` is zero. -/
def absolute (x : Binary64) : ℚ :=
  if x.exponentField = 0 then x.fraction / 2 ^ 52 * 2 ^ (-1022 : ℤ)
  else (1 + x.fraction / 2 ^ 52) * 2 ^ ((x.exponentField : ℤ) - 1023)

/-- The number that a pattern stands for. The infinities and the patterns that are no number, those with
the greatest exponent field, have none. -/
def value? (x : Binary64) : Option ℚ :=
  if x.exponentField = 2047 then none
  else some (if x.isNegative then -x.absolute else x.absolute)

variable {x : Binary64}

theorem absolute_eq (x : Binary64) : x.absolute = x.magnitude / 2 ^ 1074 := by
  have unit : (2 : ℚ) ^ 1074 = 2 ^ 52 * 2 ^ 1022 := by rw [← pow_add]
  rw [absolute, magnitude, significand, scale, unit]
  by_cases e : x.exponentField = 0
  · rw [if_pos e, if_pos e, e, zpow_neg, ← div_eq_mul_inv, div_div, Nat.zero_sub, pow_zero, mul_one]
    rfl
  · have shift : (x.exponentField : ℤ) - 1023 = ((x.exponentField - 1 : ℕ) : ℤ) - (1022 : ℕ) := by omega
    have leading : (1 : ℚ) + x.fraction / 2 ^ 52 = (2 ^ 52 + x.fraction) / 2 ^ 52 :=
      one_add_div (pow_ne_zero 52 two_ne_zero)
    rw [if_neg e, if_neg e, shift, zpow_sub₀ two_ne_zero, zpow_natCast, zpow_natCast, leading,
      div_mul_div_comm]
    simp only [Nat.cast_mul, Nat.cast_add, Nat.cast_pow, Nat.cast_ofNat]

/-- The number of a finite pattern is its magnitude, with the sign, in units of the smallest subnormal. -/
theorem value?_of_finite (h : x.exponentField ≠ 2047) :
    x.value? = some (((signed x.isNegative x.magnitude : ℤ) : ℚ) / 2 ^ 1074) := by
  rw [value?, if_neg h, absolute_eq, signed]
  cases x.isNegative with
  | false => rw [if_neg Bool.false_ne_true, if_neg Bool.false_ne_true, Int.cast_natCast]
  | true => rw [if_pos rfl, if_pos rfl, Int.cast_neg, Int.cast_natCast, neg_div]

theorem signed_mul (negative : Bool) (j k : ℕ) :
    signed negative (j * k) = signed negative j * k := by
  cases negative <;> simp [signed]

theorem natAbs_signed (negative : Bool) (k : ℕ) : (signed negative k).natAbs = k := by
  cases negative <;> simp [signed]

/-- A pattern whose magnitude, with the sign, is so many ones holds their number. -/
theorem whole?_of_magnitude {n : ℤ} (finite : x.exponentField ≠ 2047)
    (h : signed x.isNegative x.magnitude = n * (2 ^ 1074 : ℕ)) : x.whole? = some n := by
  have cancel : ∀ {a b : ℤ} (k : ℕ), a * (2 ^ k : ℕ) = b * (2 ^ k : ℕ) → a = b := fun k same =>
    Int.eq_of_mul_eq_mul_right (Int.natCast_ne_zero.2 (Nat.two_pow_pos k).ne') same
  rw [magnitude] at h
  rw [whole?, reading_of_finite finite]
  dsimp only [Nat.pow_eq]
  by_cases le : 1074 ≤ x.scale
  · -- the significand counts ones, or more
    obtain ⟨d, scale⟩ := Nat.exists_eq_add_of_le' le
    have exponent : ((x.scale : ℤ) - 1074).toNat = d := by omega
    rw [scale, pow_add, ← mul_assoc, signed_mul] at h
    rw [if_pos (by omega), exponent, cancel 1074 h]
  · -- the significand counts parts of one, `2 ^ d` of them to the whole
    obtain ⟨d, scale⟩ := Nat.exists_eq_add_of_le (Nat.le_of_not_le le)
    have exponent : (-((x.scale : ℤ) - 1074)).toNat = d := by omega
    rw [scale, pow_add, mul_comm (2 ^ x.scale), Nat.cast_mul, ← mul_assoc, signed_mul] at h
    have parts : signed x.isNegative x.significand = n * (2 ^ d : ℕ) := cancel x.scale h
    have significand : x.significand = n.natAbs * 2 ^ d := by
      rw [← natAbs_signed x.isNegative x.significand, parts, Int.natAbs_mul, Int.natAbs_natCast]
    have sign : signed x.isNegative n.natAbs = n := by
      rw [significand, signed_mul] at parts
      exact cancel d parts
    rw [if_neg (by omega), exponent, significand, if_pos (Nat.mul_mod_left _ _),
      Nat.mul_div_cancel _ (Nat.two_pow_pos d), sign]

theorem whole?_eq_some_iff_magnitude {n : ℤ} :
    x.whole? = some n ↔
      x.exponentField ≠ 2047 ∧ signed x.isNegative x.magnitude = n * (2 ^ 1074 : ℕ) := by
  refine ⟨fun h => ⟨finite_of_whole? h, ?_⟩, fun h => whole?_of_magnitude h.1 h.2⟩
  obtain ⟨k, rfl, magnitude⟩ := magnitude_of_whole? h
  rw [magnitude, signed_mul]

/-- A pattern that stands for an integer holds it. -/
theorem value?_eq_intCast_iff {n : ℤ} : x.value? = some (n : ℚ) ↔ x.whole? = some n := by
  rw [whole?_eq_some_iff_magnitude]
  by_cases h : x.exponentField = 2047
  · rw [value?, if_pos h]
    exact ⟨nofun, fun finite => absurd h finite.1⟩
  · rw [value?_of_finite h, Option.some.injEq, div_eq_iff (pow_ne_zero 1074 two_ne_zero), and_iff_right h]
    have units : (n : ℚ) * 2 ^ 1074 = ((n * (2 ^ 1074 : ℕ) : ℤ) : ℚ) := by
      rw [Int.cast_mul, Int.cast_natCast, Nat.cast_pow, Nat.cast_ofNat]
    rw [units, Int.cast_inj]

end Binary64

/-! ## Integers and floats -/

/-- An integer and a float are equal, whichever comes first, if the number that the float stands for is the
integer. So a float equals one integer at most. -/
theorem Value.int_equal_float_iff (x : Binary64) :
    (∀ i : Int64, (Value.int i).equal (.float x) ↔ x.value? = some (i.toInt : ℚ)) ∧
      (∀ i : Int64, (Value.float x).equal (.int i) ↔ x.value? = some (i.toInt : ℚ)) ∧
        ∀ i j : Int64, (Value.int i).equal (.float x) → (Value.int j).equal (.float x) → i = j := by
  have exact : ∀ i : Int64, x.equalsInt i ↔ x.value? = some (i.toInt : ℚ) := fun i => by
    rw [Binary64.equalsInt_iff, Binary64.value?_eq_intCast_iff]
  refine ⟨fun i => ?_, fun i => ?_, fun i j hi hj => ?_⟩
  · rw [equal, exact]
  · rw [equal, exact]
  · rw [equal, exact] at hi hj
    have same : (i.toInt : ℚ) = j.toInt := Option.some.inj (hi.symm.trans hj)
    exact Int64.toInt_inj.1 (Int.cast_inj.1 same)

/-- The least integer is the float of `-2 ^ 63`. Its successor, which would round to the same float, is
not. -/
theorem Value.least_int_equal_float :
    (Value.int Int64.minValue).equal (.float ⟨0xC3E0000000000000⟩) ∧
      Binary64.value? ⟨0xC3E0000000000000⟩ = some (Int64.minValue.toInt : ℚ) ∧
        ¬ (Value.int (Int64.minValue + 1)).equal (.float ⟨0xC3E0000000000000⟩) := by
  have least : (Value.int Int64.minValue).equal (.float ⟨0xC3E0000000000000⟩) := by
    rw [equal]
    decide
  refine ⟨least, ((Value.int_equal_float_iff _).1 _).1 least, fun next => ?_⟩
  have same := (Value.int_equal_float_iff _).2.2 _ _ least next
  exact absurd same (by decide)

end TypeContracts
