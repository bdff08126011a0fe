import Mathlib.Algebra.Order.Ring.Nat
import Mathlib.Tactic.Common

/-! Counters kept in a 64-bit word, and ring indices made from them.

The word holds the count modulo `2 ^ 64`. Differences of counters that are close are exact, and a
power of two divides the modulus, so that masking a counter gives its place in the ring. -/

namespace WrapCounter

def Counts (word : UInt64) (n : Nat) : Prop := word.toNat = n % 2 ^ 64

theorem counts_zero : Counts 0 0 := rfl

section Counters

variable {head tail : UInt64} {c p : Nat}

theorem Counts.succ (counts : Counts tail p) : Counts (tail + 1) (p + 1) := by
  have value : tail.toNat = p % 2 ^ 64 := counts
  rw [Counts, UInt64.toNat_add, UInt64.toNat_one, value]
  omega

theorem Counts.toNat_sub (tails : Counts tail p) (heads : Counts head c) (order : c ≤ p)
    (near : p < c + 2 ^ 64) : (tail - head).toNat = p - c := by
  have upper : tail.toNat = p % 2 ^ 64 := tails
  have lower : head.toNat = c % 2 ^ 64 := heads
  rw [UInt64.toNat_sub]
  omega

theorem Counts.eq_iff (heads : Counts head c) (tails : Counts tail p) (order : c ≤ p)
    (near : p < c + 2 ^ 64) : head = tail ↔ c = p := by
  have upper : tail.toNat = p % 2 ^ 64 := tails
  have lower : head.toNat = c % 2 ^ 64 := heads
  rw [← UInt64.toNat_inj]
  omega

end Counters

section PowerOfTwo

variable {size : UInt64}

theorem toNat_mask (nonzero : size ≠ 0) : (size - 1).toNat = size.toNat - 1 := by
  have positive : size.toNat ≠ 0 := fun zero => nonzero (UInt64.toNat_inj.mp zero)
  exact UInt64.toNat_sub_of_le size 1
    (UInt64.le_iff_toNat_le.mpr (Nat.one_le_iff_ne_zero.mpr positive))

theorem exists_log (nonzero : size ≠ 0) (single : size &&& (size - 1) = 0) :
    ∃ k, k < 64 ∧ size.toNat = 2 ^ k := by
  have positive : size.toNat ≠ 0 := fun zero => nonzero (UInt64.toNat_inj.mp zero)
  have bound := size.toNat_lt
  have bits : size.toNat &&& (size.toNat - 1) = 0 := by
    rw [← toNat_mask nonzero, ← UInt64.toNat_and, single, UInt64.toNat_zero]
  rcases (Nat.and_sub_one_eq_zero_iff_isPowerOfTwo positive).mp bits with ⟨k, power⟩
  refine ⟨k, ?_, power⟩
  rw [power] at bound
  exact (Nat.pow_lt_pow_iff_right (by decide)).mp bound

theorem Counts.toNat_masked (nonzero : size ≠ 0) (single : size &&& (size - 1) = 0)
    {word : UInt64} {n : Nat} (counts : Counts word n) :
    (word &&& (size - 1)).toNat = n % size.toNat := by
  have value : word.toNat = n % 2 ^ 64 := counts
  rcases exists_log nonzero single with ⟨k, small, power⟩
  rw [power]
  calc (word &&& (size - 1)).toNat
    _ = word.toNat &&& (2 ^ k - 1) := by rw [UInt64.toNat_and, toNat_mask nonzero, power]
    _ = n % 2 ^ 64 % 2 ^ k := by rw [Nat.and_two_pow_sub_one_eq_mod, value]
    _ = n % 2 ^ k := Nat.mod_mod_of_dvd n (Nat.pow_dvd_pow 2 small.le)

end PowerOfTwo

theorem mod_ne_mod {i j size : Nat} (less : i < j) (near : j < i + size) :
    i % size ≠ j % size := by
  intro same
  have whole : (j - i) % size = 0 := Nat.sub_mod_eq_zero_of_mod_eq same.symm
  rw [Nat.mod_eq_of_lt (by omega)] at whole
  omega

end WrapCounter
