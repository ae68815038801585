import Mathlib.Algebra.Order.Field.Rat
import Mathlib.Tactic.Linarith
import Mathlib.Tactic.NormNum
import DotDiagram.AttrValue

/-! Numbers of 64 bits as the quantities they stand for. Apart from the two zeros, no two
of them stand for the same, and a NaN stands for none; so comparing bits comes down to
comparing quantities. -/

namespace DotDiagram

inductive Quantity where
  | finite (q : ℚ)
  | infinite (negative : Bool)

namespace Binary64

variable {x y : Binary64}

def sign (x : Binary64) : ℚ := if x.isNegative then -1 else 1

def quantity? (x : Binary64) : Option Quantity :=
  if x.isNaN then none
  else if x.isInfinite then some (.infinite x.isNegative)
  else some (.finite (x.sign * x.significand * 2 ^ x.exponent))

/-- Finite numbers are whole multiples of the least positive one. -/
def multiple (x : Binary64) : Nat := x.significand * 2 ^ (x.exponentField - 1)

theorem fractionField_lt (x : Binary64) : x.fractionField < 2 ^ 52 := Nat.mod_lt _ (by decide)

theorem significand_eq (x : Binary64) :
    x.significand = if x.exponentField = 0 then x.fractionField else 2 ^ 52 + x.fractionField := by
  by_cases h : x.exponentField = 0 <;> simp [significand, isSubnormal, h]

theorem exponent_eq (x : Binary64) : x.exponent = (x.exponentField - 1 : Nat) + (-1074) := by
  by_cases h : x.exponentField = 0
  · simp [exponent, isSubnormal, h]
  · have hs : x.isSubnormal = false := beq_false_of_ne h
    rw [exponent, hs, if_neg Bool.false_ne_true]
    omega

theorem two_zpow_ne_zero (n : ℤ) : (2 : ℚ) ^ n ≠ 0 := zpow_ne_zero n (by norm_num)

theorem significand_mul_two_zpow (x : Binary64) :
    (x.significand : ℚ) * 2 ^ x.exponent = x.multiple * 2 ^ (-1074 : ℤ) := by
  rw [exponent_eq, zpow_add₀ (by norm_num), zpow_natCast, multiple, Nat.cast_mul, Nat.cast_pow,
    Nat.cast_ofNat, mul_assoc]

theorem eq_of_fields (hs : x.isNegative = y.isNegative) (he : x.exponentField = y.exponentField)
    (hf : x.fractionField = y.fractionField) : x = y := by
  have hx := x.bits.toNat_lt
  have hy := y.bits.toNat_lt
  have hbits : x.bits.toNat = y.bits.toNat := by
    simp only [isNegative, exponentField, fractionField, Nat.pow_eq, decide_eq_decide] at hs he hf
    omega
  have hxy := UInt64.toNat_inj.mp hbits
  cases x
  cases y
  exact congrArg mk hxy

/-- A larger exponent leaves no room for the same multiple. -/
theorem fields_eq_of_le (he : x.exponentField ≤ y.exponentField) (h : x.multiple = y.multiple) :
    x.exponentField = y.exponentField ∧ x.fractionField = y.fractionField := by
  obtain ⟨d, hd⟩ := Nat.exists_eq_add_of_le (Nat.sub_le_sub_right he 1)
  have hsig : x.significand = y.significand * 2 ^ d := by
    have hpos : 0 < 2 ^ (x.exponentField - 1) := Nat.two_pow_pos _
    apply Nat.eq_of_mul_eq_mul_right hpos
    rw [multiple, multiple, hd, Nat.pow_add] at h
    rw [h, Nat.mul_assoc, Nat.mul_comm (2 ^ d)]
  have hx := x.fractionField_lt
  have hy := y.fractionField_lt
  rw [significand_eq, significand_eq] at hsig
  cases d with
  | zero =>
    rw [Nat.pow_zero, Nat.mul_one] at hsig
    split at hsig <;> split at hsig <;> omega
  | succ d =>
    have hnormal : y.exponentField ≠ 0 := by omega
    have htwo : 2 ^ 1 ≤ 2 ^ (d + 1) := Nat.pow_le_pow_right (by decide) (by omega)
    have hbig : 2 ^ 53 ≤ (2 ^ 52 + y.fractionField) * 2 ^ (d + 1) :=
      calc 2 ^ 53 = 2 ^ 52 * 2 ^ 1 := rfl
        _ ≤ (2 ^ 52 + y.fractionField) * 2 ^ (d + 1) :=
          Nat.mul_le_mul (Nat.le_add_right _ _) htwo
    rw [if_neg hnormal] at hsig
    split at hsig <;> omega

theorem fields_eq_of_multiple_eq (h : x.multiple = y.multiple) :
    x.exponentField = y.exponentField ∧ x.fractionField = y.fractionField := by
  rcases Nat.le_total x.exponentField y.exponentField with he | he
  · exact fields_eq_of_le he h
  · exact (fields_eq_of_le he h.symm).imp Eq.symm Eq.symm

theorem isZero_iff : x.isZero = true ↔ x.multiple = 0 := by
  rw [multiple, Nat.mul_eq_zero, or_iff_left (Nat.two_pow_pos _).ne', significand_eq]
  simp only [isZero, Bool.and_eq_true, beq_iff_eq]
  split <;> omega

theorem finite_eq_iff : x.sign * x.significand * 2 ^ x.exponent =
      y.sign * y.significand * 2 ^ y.exponent ↔
    x = y ∨ x.isZero = true ∧ y.isZero = true := by
  rw [mul_assoc, mul_assoc, significand_mul_two_zpow, significand_mul_two_zpow, ← mul_assoc,
    ← mul_assoc, mul_left_inj' (two_zpow_ne_zero _), isZero_iff, isZero_iff]
  constructor
  · intro h
    by_cases hs : x.isNegative = y.isNegative
    · left
      have hsign : x.sign = y.sign := by rw [sign, sign, hs]
      have hne : y.sign ≠ 0 := by
        rw [sign]
        split <;> norm_num
      rw [hsign, mul_right_inj' hne, Nat.cast_inj] at h
      obtain ⟨he, hf⟩ := fields_eq_of_multiple_eq h
      exact eq_of_fields hs he hf
    · right
      have hneg : (x.multiple : ℚ) = -y.multiple := by
        cases hx : x.isNegative <;> cases hy : y.isNegative <;> simp_all [sign]
      have hx : (0 : ℚ) ≤ x.multiple := Nat.cast_nonneg _
      have hy : (0 : ℚ) ≤ y.multiple := Nat.cast_nonneg _
      have hzero : (x.multiple : ℚ) = 0 ∧ (y.multiple : ℚ) = 0 := by
        constructor <;> linarith
      exact_mod_cast hzero
  · rintro (rfl | ⟨hx, hy⟩)
    · rfl
    · rw [hx, hy]
      simp

theorem isInfinite_of_isZero (h : x.isZero = true) : x.isInfinite = false := by
  simp only [isZero, isInfinite, Bool.and_eq_true, beq_iff_eq] at h ⊢
  simp [h.1]

theorem quantity?_eq_none_iff : x.quantity? = none ↔ x.isNaN = true := by
  unfold quantity?
  split
  · next h => simp [h]
  · next h => split <;> simp [h]

theorem exists_quantity (h : x.isNaN = false) : ∃ q, x.quantity? = some q :=
  Option.ne_none_iff_exists'.mp fun hnone =>
    Bool.false_ne_true (h.symm.trans (quantity?_eq_none_iff.mp hnone))

theorem eq_of_infinite (hs : x.isNegative = y.isNegative) (hx : x.isInfinite = true)
    (hy : y.isInfinite = true) : x = y := by
  simp only [isInfinite, Bool.and_eq_true, beq_iff_eq] at hx hy
  exact eq_of_fields hs (hx.1.trans hy.1.symm) (hx.2.trans hy.2.symm)

theorem quantity?_eq_iff (hx : x.isNaN = false) (hy : y.isNaN = false) :
    x.quantity? = y.quantity? ↔ x = y ∨ x.isZero = true ∧ y.isZero = true := by
  have hzero {z : Binary64} (hz : z.isInfinite = true) : z.isZero = false :=
    Bool.eq_false_iff.mpr fun h => Bool.false_ne_true ((isInfinite_of_isZero h).symm.trans hz)
  unfold quantity?
  rw [hx, hy, if_neg Bool.false_ne_true, if_neg Bool.false_ne_true]
  cases hix : x.isInfinite <;> cases hiy : y.isInfinite
  · simpa using finite_eq_iff
  · rw [hzero hiy]
    have hne : x ≠ y := fun h => by rw [h, hiy] at hix; cases hix
    simp [hne]
  · rw [hzero hix]
    have hne : x ≠ y := fun h => by rw [h, hiy] at hix; cases hix
    simp [hne]
  · rw [hzero hix]
    simp only [if_true, Option.some.injEq, Quantity.infinite.injEq, Bool.false_eq_true, false_and,
      or_false]
    exact ⟨fun hs => eq_of_infinite hs hix hiy, fun h => by rw [h]⟩

/-- The comparison of bits is that of quantities. -/
theorem sameNumber_iff :
    x.sameNumber y = true ↔ ∃ q, x.quantity? = some q ∧ y.quantity? = some q := by
  cases hx : x.isNaN with
  | true => simp [sameNumber, hx, quantity?_eq_none_iff.mpr hx]
  | false =>
    cases hy : y.isNaN with
    | true => simp [sameNumber, hy, quantity?_eq_none_iff.mpr hy]
    | false =>
      obtain ⟨q, hq⟩ := exists_quantity hx
      have hbits : x.bits = y.bits ↔ x = y := by
        cases x
        cases y
        simp
      have hexists : (∃ q, x.quantity? = some q ∧ y.quantity? = some q) ↔
          x.quantity? = y.quantity? := by
        rw [hq]
        simp [eq_comm]
      rw [hexists, quantity?_eq_iff hx hy]
      simp [sameNumber, hx, hy, hbits]

end Binary64

end DotDiagram
