import Mathlib.Tactic.Ring
import TypeContracts.Number.Binary64

/-!
Numeric equality of floats, among themselves and with integers. A finite pattern stands for
`± magnitude / 2 ^ 1074` with a whole `magnitude`, so two patterns can be compared without rational
arithmetic. Main statement: `Binary64.equal_of_whole?`. Apart from the zeros an integer is held by one
pattern only, which makes the mixed equality of integers and floats transitive.
-/

namespace TypeContracts

namespace Binary64

/-- The significand, with its leading bit unless the number is subnormal. -/
def significand (x : Binary64) : Nat :=
  if x.exponentField = 0 then x.fraction else 2 ^ 52 + x.fraction

/-- The exponent of the unit of the significand, counted from that of the smallest subnormal. -/
def scale (x : Binary64) : Nat := x.exponentField - 1

/-- The absolute value of a finite pattern in units of `2 ^ -1074`. -/
def magnitude (x : Binary64) : Nat := x.significand * 2 ^ x.scale

/-- The integer that `x` is exactly equal to, if `x` is finite and has no fractional part. -/
def whole? (x : Binary64) : Option Int :=
  match x.reading with
  | .finite negative significand exponent =>
      if 0 ≤ exponent then
        some (signed negative (significand * Nat.pow 2 exponent.toNat))
      else if significand % Nat.pow 2 (-exponent).toNat = 0 then
        some (signed negative (significand / Nat.pow 2 (-exponent).toNat))
      else
        none
  | _ => none

/-! ## Fields -/

theorem fraction_lt (x : Binary64) : x.fraction < 2 ^ 52 := Nat.mod_lt _ (by decide)

theorem significand_lt (x : Binary64) : x.significand < 2 ^ 53 := by
  have := x.fraction_lt
  simp only [significand]
  split <;> omega

theorem significand_normal (x : Binary64) : 2 ^ 52 ≤ x.significand ∨ x.scale = 0 := by
  simp only [significand, scale]
  split <;> omega

/-- A pattern is its sign, its exponent field and its fraction. -/
theorem eq_of_fields {x y : Binary64} (sign : x.isNegative = y.isNegative)
    (exponent : x.exponentField = y.exponentField) (fraction : x.fraction = y.fraction) : x = y := by
  obtain ⟨x⟩ := x
  obtain ⟨y⟩ := y
  have hx := x.toNat_lt
  have hy := y.toNat_lt
  simp only [isNegative, exponentField, Binary64.fraction, Nat.pow_eq, Bool.beq_eq_decide_eq,
    decide_eq_decide] at sign exponent fraction
  rw [Binary64.mk.injEq, ← UInt64.toNat_inj]
  omega

/-- Two finite patterns of one magnitude agree in all but the sign. -/
theorem fields_of_magnitude {x y : Binary64} (h : x.magnitude = y.magnitude) :
    x.exponentField = y.exponentField ∧ x.fraction = y.fraction := by
  have key : ∀ a b : Binary64, a.magnitude = b.magnitude → ¬ a.scale < b.scale := by
    intro a b h lt
    have hb : 2 ^ 52 ≤ b.significand := b.significand_normal.resolve_right (by omega)
    have : a.magnitude < b.magnitude := calc
      a.significand * 2 ^ a.scale < 2 ^ 53 * 2 ^ a.scale :=
        Nat.mul_lt_mul_of_pos_right a.significand_lt (Nat.two_pow_pos _)
      _ = 2 ^ 52 * 2 ^ (a.scale + 1) := by ring
      _ ≤ b.significand * 2 ^ b.scale :=
        Nat.mul_le_mul hb (Nat.pow_le_pow_right (by decide) lt)
    omega
  have scale : x.scale = y.scale := by
    have := key x y h
    have := key y x h.symm
    omega
  have significand : x.significand = y.significand := by
    rw [magnitude, magnitude, scale] at h
    exact Nat.eq_of_mul_eq_mul_right (Nat.two_pow_pos _) h
  have hx := x.fraction_lt
  have hy := y.fraction_lt
  simp only [Binary64.scale, Binary64.significand] at scale significand
  split at significand <;> split at significand <;> omega

theorem isZero_of_magnitude {x : Binary64} (h : x.magnitude = 0) : x.isZero := by
  have : x.significand = 0 := by
    rcases Nat.mul_eq_zero.1 h with h | h
    · exact h
    · exact absurd h (Nat.two_pow_pos _).ne'
  simp only [significand] at this
  split at this
  · rename_i e
    simp [isZero, e, this]
  · omega

/-! ## Whole numbers -/

theorem reading_of_finite {x : Binary64} (h : x.exponentField ≠ 2047) :
    x.reading = .finite x.isNegative x.significand (x.scale - 1074) := by
  rw [reading, if_neg h]
  by_cases e : x.exponentField = 0
  · simp [e, significand, scale]
  · have : ((x.exponentField - 1 : Nat) : Int) - 1074 = x.exponentField - 1075 := by omega
    simp [e, significand, scale, this]

theorem finite_of_whole? {x : Binary64} {n : Int} (h : x.whole? = some n) :
    x.exponentField ≠ 2047 := by
  intro e
  by_cases f : x.fraction = 0 <;> simp [whole?, reading, e, f] at h

/-- A pattern that holds an integer has its absolute value as magnitude. -/
theorem magnitude_of_whole? {x : Binary64} {n : Int} (h : x.whole? = some n) :
    ∃ k, n = signed x.isNegative k ∧ x.magnitude = k * 2 ^ 1074 := by
  rw [whole?, reading_of_finite (finite_of_whole? h)] at h
  simp only [Nat.pow_eq] at h
  split at h
  · rename_i le
    have e : x.scale = ((x.scale : Int) - 1074).toNat + 1074 := by omega
    refine ⟨_, (Option.some.inj h).symm, ?_⟩
    rw [Nat.mul_assoc, ← Nat.pow_add, ← e, magnitude]
  · split at h
    · rename_i lt whole
      have e : (-((x.scale : Int) - 1074)).toNat + x.scale = 1074 := by omega
      refine ⟨_, (Option.some.inj h).symm, ?_⟩
      rw [← e, Nat.pow_add, ← Nat.mul_assoc,
        Nat.div_mul_cancel (Nat.dvd_of_mod_eq_zero whole), magnitude]
    · cases h

theorem signed_inj {s t : Bool} {j k : Nat} (h : signed s j = signed t k) :
    j = k ∧ (s = t ∨ k = 0) := by
  cases s <;> cases t <;> simp [signed] at h ⊢ <;> omega

theorem isNaN_of_finite {x : Binary64} (h : x.exponentField ≠ 2047) : x.isNaN = false := by
  simp [isNaN, h]

/-- Two patterns that hold the same integer are equal. -/
theorem equal_of_whole? {x y : Binary64} {n : Int} (hx : x.whole? = some n)
    (hy : y.whole? = some n) : x.equal y := by
  obtain ⟨j, ej, mj⟩ := magnitude_of_whole? hx
  obtain ⟨k, ek, mk⟩ := magnitude_of_whole? hy
  obtain ⟨rfl, sign⟩ := signed_inj (ej.symm.trans ek)
  have nx := isNaN_of_finite (finite_of_whole? hx)
  have ny := isNaN_of_finite (finite_of_whole? hy)
  rcases sign with sign | rfl
  · obtain ⟨exponent, fraction⟩ := fields_of_magnitude (mj.trans mk.symm)
    simp [equal, ny, eq_of_fields sign exponent fraction]
  · simp only [Nat.zero_mul] at mj mk
    simp [equal, nx, ny, isZero_of_magnitude mj, isZero_of_magnitude mk]

/-- The zeros hold the integer zero. -/
theorem whole?_of_isZero {x : Binary64} (h : x.isZero) : x.whole? = some 0 := by
  simp only [isZero, Bool.and_eq_true, beq_iff_eq] at h
  have zero : x.significand = 0 := by simp [significand, h.1, h.2]
  rw [whole?, reading_of_finite (by omega), zero]
  dsimp only
  split <;> simp only [Nat.zero_mul, Nat.zero_mod, Nat.zero_div, if_true] <;>
    cases x.isNegative <;> rfl

/-- Equal patterns hold the same integer, if any. -/
theorem whole?_congr {x y : Binary64} (h : x.equal y) : x.whole? = y.whole? := by
  simp only [equal, Bool.and_eq_true, Bool.or_eq_true, beq_iff_eq] at h
  rcases h.2 with bits | ⟨zx, zy⟩
  · rw [show x = y by cases x; cases y; simpa using bits]
  · rw [whole?_of_isZero zx, whole?_of_isZero zy]

/-! ## Numeric equality -/

theorem equal_symm {x y : Binary64} (h : x.equal y) : y.equal x := by
  simp only [equal, Bool.and_eq_true, Bool.or_eq_true, beq_iff_eq] at h ⊢
  exact ⟨⟨h.1.2, h.1.1⟩, h.2.imp Eq.symm And.symm⟩

theorem equal_trans {x y z : Binary64} (hxy : x.equal y) (hyz : y.equal z) : x.equal z := by
  simp only [equal, Bool.and_eq_true, Bool.or_eq_true, beq_iff_eq] at hxy hyz ⊢
  refine ⟨⟨hxy.1.1, hyz.1.2⟩, ?_⟩
  rcases hxy.2, hyz.2 with ⟨exy | zxy, eyz | zyz⟩
  · exact .inl (exy.trans eyz)
  · rw [show x = y by cases x; cases y; simpa using exy]
    exact .inr zyz
  · rw [show z = y by cases y; cases z; simpa using eyz.symm]
    exact .inr zxy
  · exact .inr ⟨zxy.1, zyz.2⟩

/-! ## Equality with integers -/

/-- A whole number is a finite one without a fractional part, and truncating it loses nothing. -/
theorem whole?_eq_some_iff {x : Binary64} {n : Int} :
    x.whole? = some n ↔ x.isFinite ∧ x.hasFraction = false ∧ x.truncated = n := by
  by_cases e : x.exponentField = 2047
  · have nonfinite : x.isFinite = false := by simp [isFinite, e]
    have none : x.whole? ≠ some n := fun h => finite_of_whole? h e
    simp [nonfinite, none]
  · have finite : x.isFinite = true := by simp [isFinite, e]
    rw [whole?, hasFraction, truncated, reading_of_finite e]
    generalize (x.scale : Int) - 1074 = exponent
    by_cases le : 0 ≤ exponent
    · simp [finite, le]
    · have lt : exponent < 0 := by omega
      by_cases whole : x.significand % Nat.pow 2 (-exponent).toNat = 0
      · simp [finite, le, lt, whole, -Nat.pow_eq]
      · simp [le, lt, whole, -Nat.pow_eq]

/-- The bounds enclose the 64-bit integers. -/
theorem toInt_bounds (i : Int64) : -int64Bound ≤ i.toInt ∧ i.toInt < int64Bound :=
  ⟨i.le_toInt, i.toInt_lt⟩

/-- Within the bounds conversion is truncation. -/
theorem toInt_toInt64 {x : Binary64} (finite : x.isFinite) (lower : -int64Bound ≤ x.truncated)
    (upper : x.truncated < int64Bound) : x.toInt64.toInt = x.truncated := by
  have e : x.exponentField ≠ 2047 := by simpa [isFinite] using finite
  rw [toInt64, reading_of_finite e]
  have least : Int64.minValue.toInt = -int64Bound := rfl
  have greatest : Int64.maxValue.toInt = int64Bound - 1 := rfl
  exact Int64.toInt_ofIntClamp (by omega) (by omega)

theorem equalsInt_iff {x : Binary64} {i : Int64} : x.equalsInt i ↔ x.whole? = some i.toInt := by
  simp only [equalsInt, Bool.and_eq_true, Bool.not_eq_true', decide_eq_true_eq, beq_iff_eq,
    whole?_eq_some_iff]
  constructor
  · rintro ⟨⟨⟨⟨finite, whole⟩, lower⟩, upper⟩, rfl⟩
    exact ⟨finite, whole, (toInt_toInt64 finite lower upper).symm⟩
  · rintro ⟨finite, whole, same⟩
    obtain ⟨lower, upper⟩ := toInt_bounds i
    rw [← same] at lower upper
    refine ⟨⟨⟨⟨finite, whole⟩, lower⟩, upper⟩, ?_⟩
    rw [← Int64.toInt_inj, toInt_toInt64 finite lower upper, same]

end Binary64

end TypeContracts
