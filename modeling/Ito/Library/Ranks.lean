import Mathlib.Algebra.BigOperators.Group.List.Basic
import Mathlib.Algebra.Order.Ring.Int
import Mathlib.Order.Monotone.Basic

/-! Ranks of values that are only known by their class.

Values are sorted by a relation, and a class function keeps the order. How many values lie in the
classes up to one tells which class the value of a given rank is in. -/

namespace Ranks

variable {α : Type*} {r : α → α → Prop} {f : α → ℕ} {xs : List α} {i : ℕ} {x : α}

theorem countP_lt_le (mono : ∀ a b, r a b → f a ≤ f b) (sorted : xs.Pairwise r)
    (found : xs[i]? = some x) : xs.countP (f · < f x) ≤ i := by
  induction xs generalizing i with
  | nil => cases found
  | cons a xs ih =>
      rcases List.pairwise_cons.mp sorted with ⟨least, tail⟩
      cases i with
      | zero =>
          rcases Option.some.inj found with rfl
          refine (List.countP_eq_zero.mpr fun y member => ?_).le
          rcases List.mem_cons.mp member with rfl | later
          · simp
          · simpa using mono _ _ (least y later)
      | succ i =>
          rw [List.countP_cons]
          have rest := ih tail found
          split <;> omega

theorem lt_countP_lt_succ (mono : ∀ a b, r a b → f a ≤ f b) (sorted : xs.Pairwise r)
    (found : xs[i]? = some x) : i < xs.countP (f · < f x + 1) := by
  induction xs generalizing i with
  | nil => cases found
  | cons a xs ih =>
      rcases List.pairwise_cons.mp sorted with ⟨least, tail⟩
      cases i with
      | zero =>
          rcases Option.some.inj found with rfl
          rw [List.countP_cons_of_pos (by simp)]
          exact Nat.succ_pos _
      | succ i =>
          have rest := ih tail found
          have low : f a ≤ f x := mono a x (least x (List.mem_of_getElem? found))
          rw [List.countP_cons_of_pos (by simpa using Nat.lt_succ_of_le low)]
          exact Nat.succ_lt_succ rest

theorem countP_lt_succ (f : α → ℕ) (xs : List α) (k : ℕ) :
    xs.countP (f · < k + 1) = xs.countP (f · < k) + xs.countP (f · = k) := by
  induction xs with
  | nil => rfl
  | cons a xs ih =>
      simp only [List.countP_cons, decide_eq_true_eq, ih]
      rcases Nat.lt_trichotomy (f a) k with lower | same | upper
      · rw [if_pos (by omega), if_pos lower, if_neg (by omega)]
        omega
      · rw [if_pos (by omega), if_neg (by omega), if_pos same]
        omega
      · rw [if_neg (by omega), if_neg (by omega), if_neg (by omega)]
        omega

theorem sum_counts (f : α → ℕ) (xs : List α) (k : ℕ) :
    ((List.range k).map fun j => xs.countP (f · = j)).sum = xs.countP (f · < k) := by
  induction k with
  | zero => simp
  | succ k ih =>
      rw [List.range_succ, List.map_append, List.sum_append, ih, countP_lt_succ, List.map_singleton,
        List.sum_singleton]

end Ranks
