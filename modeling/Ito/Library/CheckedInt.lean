import Mathlib.Algebra.Order.Ring.Int
import Mathlib.Tactic.Common

/-! Signed 64-bit arithmetic whose overflow is undefined.

Every operation computes over the integers and is `none` where the result does
not fit, so that a defined result is always the exact one. -/

namespace CheckedInt

def InRange (x : Int) : Prop := -2 ^ 63 ≤ x ∧ x < 2 ^ 63

instance (x : Int) : Decidable (InRange x) := inferInstanceAs (Decidable (_ ∧ _))

def ofInt? (x : Int) : Option Int64 :=
  if -2 ^ 63 ≤ x ∧ x < 2 ^ 63 then some (Int64.ofInt x) else none

def add? (a b : Int64) : Option Int64 := ofInt? (a.toInt + b.toInt)
def sub? (a b : Int64) : Option Int64 := ofInt? (a.toInt - b.toInt)
def mul? (a b : Int64) : Option Int64 := ofInt? (a.toInt * b.toInt)
def neg? (a : Int64) : Option Int64 := ofInt? (-a.toInt)

/-- Division truncates towards zero and is undefined by zero. -/
def div? (a b : Int64) : Option Int64 :=
  if b = 0 then none else ofInt? (a.toInt.tdiv b.toInt)

theorem ofInt?_eq_some {x : Int} {y : Int64} : ofInt? x = some y ↔ y.toInt = x := by
  rw [ofInt?]
  constructor
  · intro eval
    split at eval
    case isTrue fits =>
      cases eval
      exact Int64.toInt_ofInt_of_le fits.1 fits.2
    case isFalse => cases eval
  · rintro rfl
    rw [if_pos ⟨y.le_toInt, y.toInt_lt⟩, Int64.ofInt_toInt]

theorem ofInt?_defined {x : Int} (low : -2 ^ 63 ≤ x) (high : x < 2 ^ 63) :
    ∃ y, ofInt? x = some y ∧ y.toInt = x :=
  ⟨Int64.ofInt x, if_pos ⟨low, high⟩, Int64.toInt_ofInt_of_le low high⟩

theorem ofInt?_of_inRange {x : Int} (inside : InRange x) : ∃ y, ofInt? x = some y ∧ y.toInt = x :=
  ofInt?_defined inside.1 inside.2

theorem inRange_toInt (x : Int64) : InRange x.toInt := ⟨x.le_toInt, x.toInt_lt⟩

theorem pos_iff {x : Int64} : 0 < x ↔ 0 < x.toInt := by
  rw [Int64.lt_iff_toInt_lt, Int64.toInt_zero]

theorem add?_defined {a b : Int64} (low : -2 ^ 63 ≤ a.toInt + b.toInt)
    (high : a.toInt + b.toInt < 2 ^ 63) :
    ∃ sum, add? a b = some sum ∧ sum.toInt = a.toInt + b.toInt :=
  ofInt?_defined low high

theorem sub?_defined {a b : Int64} (low : -2 ^ 63 ≤ a.toInt - b.toInt)
    (high : a.toInt - b.toInt < 2 ^ 63) :
    ∃ difference, sub? a b = some difference ∧ difference.toInt = a.toInt - b.toInt :=
  ofInt?_defined low high

theorem tdiv_between {low high dividend divisor : Int} (positive : 0 < divisor)
    (lower : low * divisor ≤ dividend) (upper : dividend ≤ high * divisor) :
    low ≤ dividend.tdiv divisor ∧ dividend.tdiv divisor ≤ high := by
  have nonzero : divisor ≠ 0 := by omega
  constructor
  · calc
      low = (low * divisor).tdiv divisor := (Int.mul_tdiv_cancel low nonzero).symm
      _ ≤ dividend.tdiv divisor := Int.tdiv_le_tdiv positive lower
  · calc
      dividend.tdiv divisor ≤ (high * divisor).tdiv divisor := Int.tdiv_le_tdiv positive upper
      _ = high := Int.mul_tdiv_cancel high nonzero

theorem inRange_tdiv (x : Int64) {divisor : Int} (positive : 0 < divisor) :
    InRange (x.toInt.tdiv divisor) := by
  have ⟨low, high⟩ := inRange_toInt x
  have ⟨above, below⟩ : -2 ^ 63 ≤ x.toInt.tdiv divisor ∧ x.toInt.tdiv divisor ≤ 2 ^ 63 - 1 := by
    apply tdiv_between positive
    · calc
        -2 ^ 63 * divisor ≤ -2 ^ 63 * 1 := Int.mul_le_mul_of_nonpos_left (by decide) positive
        _ ≤ x.toInt := low
    · calc
        x.toInt ≤ (2 ^ 63 - 1) * 1 := by omega
        _ ≤ (2 ^ 63 - 1) * divisor := Int.mul_le_mul_of_nonneg_left positive (by decide)
  exact ⟨above, Int.lt_of_le_sub_one below⟩

theorem inRange_of_abs {x : Int} (inside : InRange |x|) : InRange x := by
  have ⟨low, high⟩ := abs_lt.mp inside.2
  exact ⟨low.le, high⟩

theorem div?_defined {a b : Int64} (nonzero : b ≠ 0) (inside : InRange (a.toInt.tdiv b.toInt)) :
    ∃ quotient, div? a b = some quotient ∧ quotient.toInt = a.toInt.tdiv b.toInt := by
  rw [div?, if_neg nonzero]
  exact ofInt?_of_inRange inside

theorem toInt_min (a b : Int64) : (min a b).toInt = min a.toInt b.toInt := by
  change (if a ≤ b then a else b).toInt = _
  simp only [Int64.le_iff_toInt_le]
  split <;> omega

theorem toInt_max (a b : Int64) : (max a b).toInt = max a.toInt b.toInt := by
  change (if a ≤ b then b else a).toInt = _
  simp only [Int64.le_iff_toInt_le]
  split <;> omega

@[simp] theorem or_some (left : Bool) (right : Option Bool) :
    (some left <||> right) = if left then some true else right := by
  cases left <;> rfl

@[simp] theorem and_some (left : Bool) (right : Option Bool) :
    (some left <&&> right) = if left then right else some false := by
  cases left <;> rfl

end CheckedInt
