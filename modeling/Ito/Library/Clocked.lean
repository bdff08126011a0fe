import Mathlib.Algebra.FreeMonoid.Basic
import Mathlib.Algebra.Order.BigOperators.Group.List
import Mathlib.Algebra.Order.Ring.Int

/-! Clocked circuits, whose registers take their next values on every edge.

A cycle is what the registers hold with the inputs that its edge samples. -/

namespace Clocked

variable {σ α : Type*} (clock : σ → α → σ)

def cycles : σ → List α → List (σ × α)
  | _, [] => []
  | s, a :: inputs => (s, a) :: cycles (clock s a) inputs

def run (s : σ) (inputs : List α) : σ := inputs.foldl clock s

def next (cycle : σ × α) : σ := clock cycle.1 cycle.2

def trace (s : σ) (input : ℕ → α) (n : ℕ) : σ := run clock s ((List.range n).map input)

variable {clock} {s : σ} {inputs front back : List α}

theorem run_append : run clock s (front ++ back) = run clock (run clock s front) back :=
  List.foldl_append

theorem trace_succ (s : σ) (input : ℕ → α) (n : ℕ) :
    trace clock s input (n + 1) = clock (trace clock s input n) (input n) := by
  rw [trace, List.range_succ, List.map_append, run_append]
  rfl

theorem cycles_append :
    cycles clock s (front ++ back) =
      cycles clock s front ++ cycles clock (run clock s front) back := by
  induction front generalizing s with
  | nil => rfl
  | cons a front ih => exact congrArg ((s, a) :: ·) ih

theorem length_cycles : (cycles clock s inputs).length = inputs.length := by
  induction inputs generalizing s with
  | nil => rfl
  | cons a inputs ih => exact congrArg (· + 1) ih

theorem mem_inputs {cycle : σ × α} (member : cycle ∈ cycles clock s inputs) : cycle.2 ∈ inputs := by
  induction inputs generalizing s with
  | nil => cases member
  | cons a inputs ih =>
      rcases List.mem_cons.mp member with rfl | later
      · exact List.mem_cons_self
      · exact List.mem_cons_of_mem _ (ih later)

theorem cycles_split {early late : List (σ × α)} (split : cycles clock s inputs = early ++ late) :
    ∃ front back, inputs = front ++ back ∧ early = cycles clock s front ∧
      late = cycles clock (run clock s front) back := by
  induction early generalizing s inputs with
  | nil => exact ⟨[], inputs, rfl, rfl, split.symm⟩
  | cons cycle early ih =>
      cases inputs with
      | nil => cases split
      | cons a inputs =>
          rcases List.cons.inj split with ⟨rfl, rest⟩
          rcases ih rest with ⟨front, back, rfl, rfl, rfl⟩
          exact ⟨a :: front, back, rfl, rfl, rfl⟩

/-- Invariant rule: what allowed inputs keep holds on every cycle and after the run. -/
theorem invariant {I : σ → Prop} {A : α → Prop} (keep : ∀ s a, I s → A a → I (clock s a))
    (start : I s) (allowed : ∀ a ∈ inputs, A a) :
    (∀ cycle ∈ cycles clock s inputs, I cycle.1 ∧ A cycle.2) ∧ I (run clock s inputs) := by
  induction inputs generalizing s with
  | nil => exact ⟨by simp [cycles], start⟩
  | cons a inputs ih =>
      rcases List.forall_mem_cons.mp allowed with ⟨here, others⟩
      rcases ih (keep s a start here) others with ⟨each, final⟩
      exact ⟨List.forall_mem_cons.mpr ⟨⟨start, here⟩, each⟩, final⟩

theorem run_refines {τ β : Type*} {I : σ → Prop} {view : σ → τ} {read : α → β} {abstract : τ → β → τ}
    (keep : ∀ s a, I s → I (clock s a))
    (step : ∀ s a, I s → view (clock s a) = abstract (view s) (read a)) (start : I s)
    (inputs : List α) : view (run clock s inputs) = run abstract (view s) (inputs.map read) := by
  induction inputs generalizing s with
  | nil => rfl
  | cons a inputs ih =>
      calc
        view (run clock s (a :: inputs)) = run abstract (view (clock s a)) (inputs.map read) :=
          ih (keep s a start)
        _ = run abstract (view s) ((a :: inputs).map read) := by
          rw [step s a start]
          rfl

theorem sum_balance {M : Type*} [AddMonoid M] (held : σ → M) (taken given : σ × α → M)
    (each : ∀ cycle ∈ cycles clock s inputs,
      held cycle.1 + taken cycle = given cycle + held (next clock cycle)) :
    held s + ((cycles clock s inputs).map taken).sum =
      ((cycles clock s inputs).map given).sum + held (run clock s inputs) := by
  induction inputs generalizing s with
  | nil => exact (add_zero (held s)).trans (zero_add (held s)).symm
  | cons a inputs ih =>
      rcases List.forall_mem_cons.mp each with ⟨first, others⟩
      have rest := ih others
      calc
        held s + (taken (s, a) + ((cycles clock (clock s a) inputs).map taken).sum) =
            given (s, a) + (held (clock s a) + ((cycles clock (clock s a) inputs).map taken).sum) := by
          rw [← add_assoc, ← add_assoc, first]
          rfl
        _ = given (s, a) + (((cycles clock (clock s a) inputs).map given).sum +
            held (run clock (clock s a) inputs)) := by rw [rest]
        _ = given (s, a) + ((cycles clock (clock s a) inputs).map given).sum +
            held (run clock (clock s a) inputs) := (add_assoc _ _ _).symm

theorem flatMap_balance {β : Type*} (held : σ → List β) (taken given : σ × α → List β)
    (each : ∀ cycle ∈ cycles clock s inputs,
      held cycle.1 ++ taken cycle = given cycle ++ held (next clock cycle)) :
    held s ++ (cycles clock s inputs).flatMap taken =
      (cycles clock s inputs).flatMap given ++ held (run clock s inputs) := by
  have summed : ∀ f : σ × α → List β,
      ((cycles clock s inputs).map fun cycle => FreeAddMonoid.ofList (f cycle)).sum =
        FreeAddMonoid.ofList ((cycles clock s inputs).flatMap f) := by
    intro f
    rw [List.flatMap_def, FreeAddMonoid.ofList_flatten, List.map_map]
    rfl
  have balanced := sum_balance (fun s => FreeAddMonoid.ofList (held s))
    (fun cycle => FreeAddMonoid.ofList (taken cycle))
    (fun cycle => FreeAddMonoid.ofList (given cycle)) each
  rw [summed, summed] at balanced
  exact balanced

theorem sum_le_sum {M : Type*} [AddCommMonoid M] [PartialOrder M] [IsOrderedAddMonoid M]
    (held : σ → M) (taken given : σ × α → M)
    (each : ∀ cycle ∈ cycles clock s inputs,
      given cycle + held (next clock cycle) ≤ held cycle.1 + taken cycle) :
    ((cycles clock s inputs).map given).sum + held (run clock s inputs) ≤
      held s + ((cycles clock s inputs).map taken).sum := by
  induction inputs generalizing s with
  | nil => exact ((zero_add (held s)).trans (add_zero (held s)).symm).le
  | cons a inputs ih =>
      rcases List.forall_mem_cons.mp each with ⟨first, others⟩
      have rest := ih others
      calc
        given (s, a) + ((cycles clock (clock s a) inputs).map given).sum +
            held (run clock (clock s a) inputs) =
          given (s, a) + (((cycles clock (clock s a) inputs).map given).sum +
            held (run clock (clock s a) inputs)) := add_assoc _ _ _
        _ ≤ given (s, a) + (held (clock s a) +
            ((cycles clock (clock s a) inputs).map taken).sum) := by gcongr
        _ = given (s, a) + held (clock s a) +
            ((cycles clock (clock s a) inputs).map taken).sum := (add_assoc _ _ _).symm
        _ ≤ held s + taken (s, a) + ((cycles clock (clock s a) inputs).map taken).sum :=
          add_le_add_left first _
        _ = held s + (taken (s, a) + ((cycles clock (clock s a) inputs).map taken).sum) :=
          add_assoc _ _ _

theorem countP_eq_sum (p : σ × α → Bool) (cycles : List (σ × α)) :
    cycles.countP p = (cycles.map fun cycle => (p cycle).toNat).sum := by
  induction cycles with
  | nil => rfl
  | cons cycle cycles ih =>
      rw [List.countP_cons, List.map_cons, List.sum_cons, ih, Nat.add_comm]
      cases p cycle <;> rfl

end Clocked
