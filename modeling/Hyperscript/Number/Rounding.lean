import Hyperscript.Number.Basic

namespace Hyperscript.Number

/-- The quotient to the nearest whole number, a half to the even neighbour. -/
def roundQuotient (numerator denominator : Nat) : Nat :=
  let quotient := numerator / denominator
  match compare (2 * (numerator % denominator)) denominator with
  | .lt => quotient
  | .eq => quotient + quotient % 2
  | .gt => quotient + 1

/-- Rounding gives the whole part of the quotient or the next number. -/
theorem roundQuotient_bounds (numerator denominator : Nat) :
    numerator / denominator ≤ roundQuotient numerator denominator ∧
      roundQuotient numerator denominator ≤ numerator / denominator + 1 := by
  simp only [roundQuotient]
  split <;> omega

/-- The whole part of `numerator / denominator`, counted in units of `2 ^ exponent`. -/
def wholeUnits (numerator denominator : Nat) (exponent : Int) : Nat :=
  numerator * Nat.pow 2 (-exponent).toNat / (denominator * Nat.pow 2 exponent.toNat)

/-- The unit in which the quotient has 53 binary digits, never below the least one. The two logarithms
leave the choice between two neighbours. -/
def unitExponent (numerator denominator : Nat) : Int :=
  let lower := (numerator.log2 : Int) - denominator.log2 - 53
  let unit := if wholeUnits numerator denominator lower < Nat.pow 2 53 then lower else lower + 1
  max unit (-1074)

/-- In a unit twice as large the count is half as large. -/
theorem wholeUnits_succ (numerator denominator : Nat) (exponent : Int) :
    wholeUnits numerator denominator (exponent + 1) = wholeUnits numerator denominator exponent / 2 := by
  have double (k : Nat) : Nat.pow 2 (k + 1) = Nat.pow 2 k * 2 := rfl
  unfold wholeUnits
  rw [Nat.div_div_eq_div_mul]
  by_cases below : exponent < 0
  · rw [show (-exponent).toNat = (-(exponent + 1)).toNat + 1 by omega, show exponent.toNat = 0 by omega,
      show (exponent + 1).toNat = 0 by omega, double, ← Nat.mul_assoc]
    exact (Nat.mul_div_mul_right _ _ (by decide)).symm
  · rw [show (-exponent).toNat = 0 by omega, show (-(exponent + 1)).toNat = 0 by omega,
      show (exponent + 1).toNat = exponent.toNat + 1 by omega, double, ← Nat.mul_assoc]

theorem wholeUnits_le (numerator denominator : Nat) {exponent larger : Int} (le : exponent ≤ larger) :
    wholeUnits numerator denominator larger ≤ wholeUnits numerator denominator exponent := by
  obtain ⟨steps, rfl⟩ := Int.le.dest le
  induction steps with
  | zero => simp
  | succ steps ih =>
    have ih := ih (Int.le_add_of_nonneg_right (Int.natCast_nonneg steps))
    rw [show exponent + ((steps + 1 : Nat) : Int) = exponent + steps + 1 by omega, wholeUnits_succ]
    omega

/-- The two logarithms say how many units there are up to a factor of four. -/
theorem wholeUnits_bounds {numerator denominator : Nat} (notZero : numerator ≠ 0) (positive : 0 < denominator) :
    Nat.pow 2 52 ≤ wholeUnits numerator denominator ((numerator.log2 : Int) - denominator.log2 - 53) ∧
      wholeUnits numerator denominator ((numerator.log2 : Int) - denominator.log2 - 53) < Nat.pow 2 54 := by
  have add (j k : Nat) : Nat.pow 2 (j + k) = Nat.pow 2 j * Nat.pow 2 k := Nat.pow_add 2 j k
  have above (k : Nat) : 0 < Nat.pow 2 k := Nat.two_pow_pos k
  have low : Nat.pow 2 numerator.log2 ≤ numerator := Nat.log2_self_le notZero
  have high : numerator < Nat.pow 2 (numerator.log2 + 1) := Nat.lt_log2_self
  have low' : Nat.pow 2 denominator.log2 ≤ denominator := Nat.log2_self_le (Nat.ne_of_gt positive)
  have high' : denominator < Nat.pow 2 (denominator.log2 + 1) := Nat.lt_log2_self
  generalize numerator.log2 = top at *
  generalize denominator.log2 = bottom at *
  unfold wholeUnits
  generalize shift : (-((top : Int) - bottom - 53)).toNat = up
  generalize shift' : ((top : Int) - bottom - 53).toNat = down
  have scale : Nat.pow 2 52 * (Nat.pow 2 (bottom + 1) * Nat.pow 2 down) = Nat.pow 2 top * Nat.pow 2 up := by
    simp only [← add]
    exact congrArg (Nat.pow 2) (by omega)
  have scale' : Nat.pow 2 (top + 1) * Nat.pow 2 up = Nat.pow 2 54 * (Nat.pow 2 bottom * Nat.pow 2 down) := by
    simp only [← add]
    exact congrArg (Nat.pow 2) (by omega)
  constructor
  · rw [Nat.le_div_iff_mul_le (Nat.mul_pos positive (above down))]
    calc Nat.pow 2 52 * (denominator * Nat.pow 2 down)
        ≤ Nat.pow 2 52 * (Nat.pow 2 (bottom + 1) * Nat.pow 2 down) :=
          Nat.mul_le_mul_left _ (Nat.mul_le_mul_right _ (Nat.le_of_lt high'))
      _ = Nat.pow 2 top * Nat.pow 2 up := scale
      _ ≤ numerator * Nat.pow 2 up := Nat.mul_le_mul_right _ low
  · rw [Nat.div_lt_iff_lt_mul (Nat.mul_pos positive (above down))]
    calc numerator * Nat.pow 2 up
        < Nat.pow 2 (top + 1) * Nat.pow 2 up := Nat.mul_lt_mul_of_pos_right high (above up)
      _ = Nat.pow 2 54 * (Nat.pow 2 bottom * Nat.pow 2 down) := scale'
      _ ≤ Nat.pow 2 54 * (denominator * Nat.pow 2 down) :=
          Nat.mul_le_mul_left _ (Nat.mul_le_mul_right _ low')

/-- There are 53 binary digits in the unit chosen, or fewer in the least one. -/
theorem wholeUnits_unitExponent {numerator denominator : Nat} (notZero : numerator ≠ 0)
    (positive : 0 < denominator) :
    wholeUnits numerator denominator (unitExponent numerator denominator) < Nat.pow 2 53 ∧
      (Nat.pow 2 52 ≤ wholeUnits numerator denominator (unitExponent numerator denominator) ∨
        unitExponent numerator denominator = -1074) := by
  obtain ⟨low, high⟩ := wholeUnits_bounds notZero positive
  simp only [unitExponent]
  generalize (numerator.log2 : Int) - denominator.log2 - 53 = lower at *
  generalize chosen : (if wholeUnits numerator denominator lower < Nat.pow 2 53 then lower else lower + 1) = unit
  have digits : Nat.pow 2 52 ≤ wholeUnits numerator denominator unit ∧
      wholeUnits numerator denominator unit < Nat.pow 2 53 := by
    have powers : Nat.pow 2 53 = 2 * Nat.pow 2 52 ∧ Nat.pow 2 54 = 2 * Nat.pow 2 53 := by decide
    subst chosen
    split
    · next small => exact ⟨low, small⟩
    · next large =>
      rw [wholeUnits_succ]
      omega
  by_cases least : unit ≤ -1074
  · rw [Int.max_eq_right least]
    exact ⟨Nat.lt_of_le_of_lt (wholeUnits_le numerator denominator least) digits.2, Or.inr rfl⟩
  · rw [Int.max_eq_left (by omega)]
    exact ⟨digits.2, Or.inl digits.1⟩

/-- The nearest significand, and its unit. A count that is rounded up to `2 ^ 53` has a digit too many, and is
half as large in the next unit. -/
def rounded (numerator denominator : Nat) : Nat × Int :=
  let unit := unitExponent numerator denominator
  let units := roundQuotient (numerator * Nat.pow 2 (-unit).toNat) (denominator * Nat.pow 2 unit.toNat)
  if units = Nat.pow 2 53 then (Nat.pow 2 52, unit + 1) else (units, unit)

/-- What a quotient is rounded to has the one spelling that a finite number has, if it is not too large. -/
theorem isCanonical_rounded {numerator denominator : Nat} (notZero : numerator ≠ 0) (positive : 0 < denominator)
    (finite : (rounded numerator denominator).2 ≤ 971) :
    IsCanonical (rounded numerator denominator).1 (rounded numerator denominator).2 := by
  obtain ⟨digits, leading⟩ := wholeUnits_unitExponent notZero positive
  have least : -1074 ≤ unitExponent numerator denominator := Int.le_max_right ..
  simp only [rounded] at finite ⊢
  generalize unitExponent numerator denominator = unit at *
  obtain ⟨below, above⟩ := roundQuotient_bounds (numerator * Nat.pow 2 (-unit).toNat)
    (denominator * Nat.pow 2 unit.toNat)
  rw [← wholeUnits] at below above
  split at finite
  · next full =>
    rw [if_pos full]
    have half : Nat.pow 2 52 < Nat.pow 2 53 := by decide
    exact ⟨half, Or.inl (Nat.le_refl _), Int.le_trans least (Int.le_add_of_nonneg_right (by decide)), finite⟩
  · next other =>
    rw [if_neg other]
    have small : roundQuotient (numerator * Nat.pow 2 (-unit).toNat) (denominator * Nat.pow 2 unit.toNat) <
        Nat.pow 2 53 := by omega
    exact ⟨small, leading.imp_left fun enough => Nat.le_trans enough below, least, finite⟩

/-- The number nearest to `numerator / denominator`, infinite if that lies beyond the finite ones. -/
def ofQuotient (negative : Bool) (numerator denominator : Nat) (positive : 0 < denominator) : Number :=
  if none : numerator = 0 then zero negative
  else if finite : (rounded numerator denominator).2 ≤ 971 then
    .finite negative (rounded numerator denominator).1 (rounded numerator denominator).2
      (isCanonical_rounded none positive finite)
  else .infinite negative

/-- The number nearest to `digits * 10 ^ exponent`. What lies above `10 ^ 400` or below `10 ^ -400` is
decided by its size alone. -/
def ofDecimal (negative : Bool) (digits : Nat) (exponent : Int) : Number :=
  if digits = 0 || exponent + digits.log2 + 1 < -400 then zero negative
  else if exponent > 400 then .infinite negative
  else
    ofQuotient negative (digits * Nat.pow 10 exponent.toNat) (Nat.pow 10 (-exponent).toNat)
      (Nat.pow_pos (by decide))

end Hyperscript.Number
