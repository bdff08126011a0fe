import Mathlib.Algebra.Order.Ring.Int
import Mathlib.Tactic.Common

/-! A signed position moved by an unsigned amount, in one bit more than either.

The extra bit is not enough for every sum: the sum wraps where the exact one
leaves the signed range of the wider word. -/

namespace WideSum

variable {w : Nat}

def exact (up : Bool) (position amount : BitVec w) : Int :=
  if up then position.toInt + amount.toNat else position.toInt - amount.toNat

def wide (up : Bool) (position amount : BitVec w) : BitVec (w + 1) :=
  position.signExtend (w + 1) +
    if up then amount.zeroExtend (w + 1) else -(amount.zeroExtend (w + 1))

/-- Neither above the bound nor below its negation, compared as signed words. -/
def within (sum : BitVec (w + 1)) (bound : BitVec w) : Bool :=
  !((bound.zeroExtend (w + 1)).slt sum) && !(sum.slt (-(bound.zeroExtend (w + 1))))

theorem toInt_zeroExtend (a : BitVec w) : (a.zeroExtend (w + 1)).toInt = a.toNat := by
  have bound := a.isLt
  have double : 2 ^ (w + 1) = 2 * 2 ^ w := by omega
  rw [BitVec.toInt_eq_toNat_of_lt, BitVec.toNat_setWidth_of_le (by omega)]
  rw [BitVec.toNat_setWidth_of_le (by omega)]
  omega

theorem toInt_neg_zeroExtend (a : BitVec w) : (-(a.zeroExtend (w + 1))).toInt = -a.toNat := by
  have bound := a.isLt
  have double : 2 ^ (w + 1) = 2 * 2 ^ w := by omega
  rw [BitVec.toInt_neg, toInt_zeroExtend]
  apply Int.bmod_eq_of_le <;> omega

theorem toInt_wide (up : Bool) (position amount : BitVec w) :
    (wide up position amount).toInt = (exact up position amount).bmod (2 ^ (w + 1)) := by
  cases up
  · simp only [wide, exact, Bool.false_eq_true, if_false, BitVec.toInt_add, toInt_neg_zeroExtend,
      BitVec.toInt_signExtend_of_le (Nat.le_succ w)]
    rfl
  · simp only [wide, exact, if_true, BitVec.toInt_add, toInt_zeroExtend,
      BitVec.toInt_signExtend_of_le (Nat.le_succ w)]

theorem within_iff (sum : BitVec (w + 1)) (bound : BitVec w) :
    within sum bound = true ↔ sum.toInt.natAbs ≤ bound.toNat := by
  simp only [within, Bool.and_eq_true, Bool.not_eq_true', BitVec.slt_eq_decide, toInt_zeroExtend,
    toInt_neg_zeroExtend, decide_eq_false_iff_not]
  omega

theorem bmod_once {x : Int} {half : Nat} (near : x.natAbs < 2 * half) :
    x.bmod (2 * half) =
      if half ≤ x then x - 2 * half else if x < -half then x + 2 * half else x := by
  split
  · rw [← Int.sub_bmod_right]
    apply Int.bmod_eq_of_le <;> omega
  · split
    · rw [← Int.add_bmod_right]
      apply Int.bmod_eq_of_le <;> omega
    · apply Int.bmod_eq_of_le <;> omega

theorem natAbs_exact_lt (up : Bool) (position amount : BitVec w) :
    (exact up position amount).natAbs < 2 * 2 ^ w := by
  have low : -((2 ^ w : Nat) : Int) ≤ 2 * position.toInt := by
    exact_mod_cast position.le_two_mul_toInt
  have high : 2 * position.toInt < (2 ^ w : Nat) := by
    exact_mod_cast position.two_mul_toInt_lt
  have bound := amount.isLt
  rw [exact]
  split <;> omega

/-- The wrapped sum passes a bound where the exact sum does, or where it is so
large that wrapping brings it back within the bound. -/
theorem within_wide_iff (up : Bool) (position amount bound : BitVec w) :
    within (wide up position amount) bound = true ↔
      (exact up position amount).natAbs ≤ bound.toNat ∨
        2 ^ (w + 1) ≤ (exact up position amount).natAbs + bound.toNat := by
  have small := bound.isLt
  have near := natAbs_exact_lt up position amount
  have double : 2 ^ (w + 1) = 2 * 2 ^ w := by omega
  rw [within_iff, toInt_wide, double, bmod_once near]
  generalize exact up position amount = x at near
  generalize 2 ^ w = half at *
  split
  · omega
  · split <;> omega

end WideSum
