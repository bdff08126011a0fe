import Mathlib.Tactic.Common

/-! Chains of guards, each of which ends a decision with a refusal. -/

namespace Guards

variable {α : Type*} {c : Prop} [Decidable c]

theorem past_iff {refused rest outcome : α} (refuses : refused ≠ outcome) :
    (if c then refused else rest) = outcome ↔ ¬ c ∧ rest = outcome := by
  by_cases stopped : c <;> simp [stopped, refuses]

theorem flag_past_iff {reason : α} {rest : Bool × α} :
    (if c then (false, reason) else rest).1 = true ↔ ¬ c ∧ rest.1 = true := by
  by_cases stopped : c <;> simp [stopped]

end Guards
