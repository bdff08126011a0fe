import Mathlib.Algebra.BigOperators.Group.List.Basic

/-! Loops that add up, as the sums that they leave in their accumulators. -/

namespace Accumulators

variable {α K M : Type*} [AddCommMonoid M]

theorem foldl_add {step : M → α → M} {part : α → M}
    (adds : ∀ total item, step total item = total + part item) (items : List α) (total : M) :
    items.foldl step total = total + (items.map part).sum := by
  induction items generalizing total with
  | nil => simp
  | cons item items ih =>
      rw [List.foldl_cons, ih, adds, List.map_cons, List.sum_cons, add_assoc]

theorem foldl_table {step : (K → M) → α → K → M} {part : α → K → M}
    (adds : ∀ table item key, step table item key = table key + part item key)
    (items : List α) (table : K → M) (key : K) :
    items.foldl step table key = table key + (items.map fun item => part item key).sum := by
  induction items generalizing table with
  | nil => simp
  | cons item items ih =>
      rw [List.foldl_cons, ih, adds, List.map_cons, List.sum_cons, add_assoc]

theorem foldl_update [DecidableEq K] (name : α → K) (part : α → M) (items : List α)
    (table : K → M) (key : K) :
    items.foldl (fun table item =>
        Function.update table (name item) (table (name item) + part item)) table key =
      table key + (items.map fun item => if name item = key then part item else 0).sum := by
  apply foldl_table
  intro table item key
  rw [Function.update_apply]
  by_cases own : key = name item
  · rw [if_pos own, if_pos own.symm, own]
  · rw [if_neg own, if_neg fun same => own same.symm, add_zero]

end Accumulators
