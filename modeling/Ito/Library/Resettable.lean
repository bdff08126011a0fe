import Ito.Library.Clocked
import Mathlib.Data.List.Induction

/-! Circuits with a reset.

An edge either samples the inputs or finds the reset low, which `none` stands for. -/

namespace Clocked

variable {σ α β : Type*}

def edge (reset : σ → σ) (clock : σ → α → σ) (s : σ) : Option α → σ
  | none => reset s
  | some a => clock s a

/-- The inputs that were sampled since the last reset, the newest first. -/
def sinceReset (edges : List (Option α)) : List α :=
  run (edge (fun _ => []) fun recent a => a :: recent) [] edges

variable {reset : σ → σ} {clock : σ → α → σ}

theorem run_concat (s : σ) (edges : List (Option α)) (last : Option α) :
    run (edge reset clock) s (edges ++ [last]) =
      edge reset clock (run (edge reset clock) s edges) last :=
  run_append

@[simp] theorem sinceReset_nil : sinceReset ([] : List (Option α)) = [] := rfl

@[simp] theorem sinceReset_reset (edges : List (Option α)) : sinceReset (edges ++ [none]) = [] :=
  run_concat _ _ _

@[simp] theorem sinceReset_sampled (edges : List (Option α)) (a : α) :
    sinceReset (edges ++ [some a]) = a :: sinceReset edges :=
  run_concat _ _ _

theorem sinceReset_map (f : α → β) (edges : List (Option α)) :
    sinceReset (edges.map (Option.map f)) = (sinceReset edges).map f := by
  induction edges using List.reverseRecOn with
  | nil => rfl
  | append_singleton edges last ih =>
      rw [List.map_append, List.map_singleton]
      cases last with
      | none => exact (sinceReset_reset _).trans (congrArg (List.map f) (sinceReset_reset _)).symm
      | some a =>
          rw [Option.map_some, sinceReset_sampled, sinceReset_sampled, ih, List.map_cons]

/-- History rule: what a reset establishes of no inputs and every edge carries over to one more
input holds of the inputs since the last reset. -/
theorem history {I : σ → List α → Prop} (start : ∀ s, I (reset s) [])
    (step : ∀ s recent a, I s recent → I (clock s a) (a :: recent)) (s : σ)
    (edges : List (Option α)) :
    I (run (edge reset clock) (reset s) edges) (sinceReset edges) := by
  induction edges using List.reverseRecOn with
  | nil => exact start s
  | append_singleton edges last ih =>
      rw [run_concat]
      cases last with
      | none =>
          rw [sinceReset_reset]
          exact start _
      | some a =>
          rw [sinceReset_sampled]
          exact step _ _ a ih

end Clocked
