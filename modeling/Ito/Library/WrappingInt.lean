import Ito.Library.CheckedInt

/-! Signed 64-bit arithmetic that wraps.

An operation is exact where its integer result fits, and truncating division
stands in for a product. -/

namespace WrappingInt

theorem bmod_of_fits {x : Int} (low : -2 ^ 63 ≤ x) (high : x < 2 ^ 63) :
    x.bmod (2 ^ 64) = x :=
  Int.bmod_eq_of_le (by omega) (by omega)

theorem toInt_add_of_fits {a b : Int64} (low : -2 ^ 63 ≤ a.toInt + b.toInt)
    (high : a.toInt + b.toInt < 2 ^ 63) : (a + b).toInt = a.toInt + b.toInt := by
  rw [Int64.toInt_add, bmod_of_fits low high]

theorem toInt_sub_of_fits {a b : Int64} (low : -2 ^ 63 ≤ a.toInt - b.toInt)
    (high : a.toInt - b.toInt < 2 ^ 63) : (a - b).toInt = a.toInt - b.toInt := by
  rw [Int64.toInt_sub, bmod_of_fits low high]

theorem toInt_neg_of_fits {a : Int64} (above : -2 ^ 63 < a.toInt) : (-a).toInt = -a.toInt := by
  have top := a.toInt_lt
  rw [Int64.toInt_neg, bmod_of_fits (by omega) (by omega)]

theorem toInt_abs_of_fits {a : Int64} (above : -2 ^ 63 < a.toInt) : a.abs.toInt = |a.toInt| := by
  have negative : a.toBitVec ≠ BitVec.intMin 64 := by
    intro least
    have low : a.toInt = (BitVec.intMin 64).toInt := congrArg BitVec.toInt least
    rw [low] at above
    exact absurd above (by decide)
  have same : a.abs.toInt = a.toBitVec.abs.toInt := rfl
  rw [same, BitVec.toInt_abs_eq_natAbs_of_ne_intMin negative, Int.abs_eq_natAbs]
  rfl

theorem div_lt_iff {bound quantity : Int64} (price : Int64) (nonneg : 0 ≤ bound.toInt)
    (positive : 0 < quantity.toInt) :
    bound / quantity < price ↔ bound.toInt < price.toInt * quantity.toInt := by
  have negOne : quantity ≠ -1 := by
    intro equal
    rw [equal] at positive
    exact absurd positive (by decide)
  rw [Int64.lt_iff_toInt_lt, Int64.toInt_div_of_ne_right bound quantity negOne,
    Int.tdiv_eq_ediv_of_nonneg nonneg, Int.ediv_lt_iff_lt_mul positive]

theorem positive_iff {a : Int64} : ¬ a ≤ 0 ↔ 0 < a.toInt := by
  rw [Int64.not_le, Int64.lt_iff_toInt_lt, Int64.toInt_zero]

theorem sized_iff {quantity bound : Int64} :
    ¬ (quantity ≤ 0 ∨ quantity > bound) ↔
      0 < quantity.toInt ∧ quantity.toInt ≤ bound.toInt := by
  rw [not_or, positive_iff, gt_iff_lt, Int64.not_lt, Int64.le_iff_toInt_le]

theorem product_iff (bound : Int64) {price quantity : Int64} (cost : 0 < price.toInt)
    (positive : 0 < quantity.toInt) :
    ¬ (bound ≤ 0 ∨ price > bound / quantity) ↔
      price.toInt * quantity.toInt ≤ bound.toInt := by
  have product : 0 < price.toInt * quantity.toInt := Int.mul_pos cost positive
  rw [not_or, Int64.not_le, Int64.lt_iff_toInt_lt, Int64.toInt_zero, gt_iff_lt]
  constructor
  · intro passed
    have quotient := (div_lt_iff price passed.1.le positive).not.mp passed.2
    exact not_lt.mp quotient
  · intro fits
    have above := product.trans_le fits
    exact ⟨above, (div_lt_iff price above.le positive).not.mpr (not_lt.mpr fits)⟩

section Bounds

variable {limit quantity : Int64} (nonneg : 0 ≤ limit.toInt) (positive : 0 < quantity.toInt)
  (position : Int64)
include nonneg positive

theorem le_sub_iff :
    position ≤ limit - quantity ↔ position.toInt + quantity.toInt ≤ limit.toInt := by
  have limitTop := limit.toInt_lt
  have quantityTop := quantity.toInt_lt
  rw [Int64.le_iff_toInt_le, toInt_sub_of_fits (by omega) (by omega)]
  omega

theorem neg_add_le_iff :
    -limit + quantity ≤ position ↔ -limit.toInt ≤ position.toInt - quantity.toInt := by
  have limitTop := limit.toInt_lt
  have quantityTop := quantity.toInt_lt
  have floor := toInt_neg_of_fits (show -2 ^ 63 < limit.toInt by omega)
  rw [Int64.le_iff_toInt_le, toInt_add_of_fits (by omega) (by omega), floor]
  omega

end Bounds

/-! Where wrapping and checked arithmetic agree -/

theorem add?_of_fits {a b : Int64} (low : -2 ^ 63 ≤ a.toInt + b.toInt)
    (high : a.toInt + b.toInt < 2 ^ 63) : CheckedInt.add? a b = some (a + b) :=
  CheckedInt.ofInt?_eq_some.mpr (toInt_add_of_fits low high)

theorem sub?_of_fits {a b : Int64} (low : -2 ^ 63 ≤ a.toInt - b.toInt)
    (high : a.toInt - b.toInt < 2 ^ 63) : CheckedInt.sub? a b = some (a - b) :=
  CheckedInt.ofInt?_eq_some.mpr (toInt_sub_of_fits low high)

theorem neg?_of_fits {a : Int64} (above : -2 ^ 63 < a.toInt) : CheckedInt.neg? a = some (-a) :=
  CheckedInt.ofInt?_eq_some.mpr (toInt_neg_of_fits above)

theorem div?_of_pos (a : Int64) {b : Int64} (positive : 0 < b.toInt) :
    CheckedInt.div? a b = some (a / b) := by
  have nonzero : b ≠ 0 := by
    intro zero
    rw [zero] at positive
    exact absurd positive (by decide)
  have negOne : b ≠ -1 := by
    intro equal
    rw [equal] at positive
    exact absurd positive (by decide)
  rw [CheckedInt.div?, if_neg nonzero]
  exact CheckedInt.ofInt?_eq_some.mpr (Int64.toInt_div_of_ne_right a b negOne)

end WrappingInt
