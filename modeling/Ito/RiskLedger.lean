import Ito.RiskEvaluate
import Mathlib.Algebra.Order.Group.Abs

/-! The position ledger of the risk engine, in every state that calls reach.

Limits are installed as they come, also negative ones, so no bound on them is assumed. -/

namespace Ito.RiskEngine

structure Booked (engine next : RiskEngine) (side : Side) (quantity : Int64) : Prop where
  named : side = .buy ∨ side = .sell
  positive : 0 < quantity.toInt
  gross : next.position.grossPosition.toInt =
    engine.position.grossPosition.toInt + quantity.toInt
  grossLimit : next.position.grossPosition.toInt ≤ engine.limits.maxGrossPosition.toInt
  net : next.position.netPosition.toInt =
    engine.position.netPosition.toInt + side.sign * quantity.toInt
  netLimit : |next.position.netPosition.toInt| ≤ engine.limits.maxNetPosition.toInt

theorem ledger_iff (position : PositionSnapshot) :
    position.Ledger ↔ 0 ≤ position.grossPosition.toInt ∧
      |position.netPosition.toInt| ≤ position.grossPosition.toInt := by
  rw [abs_le, PositionSnapshot.Ledger]
  omega

theorem applyFill_booked {engine : RiskEngine} (ledger : engine.position.Ledger)
    (journal : EventJournal) (side : Side) (quantity : Int64) :
    ∃ next journal' booked, engine.applyFill journal side quantity = some (next, journal', booked) ∧
      (booked = true → Booked engine next side quantity) ∧
      (booked = false → next = engine ∧ journal' = journal) := by
  obtain ⟨position, evaluated, values⟩ := applyFill_eq ledger journal side quantity
  by_cases fits : engine.Bookable side quantity
  · rw [if_pos fits] at evaluated
    refine ⟨_, _, _, evaluated, ?_, by simp⟩
    intro _
    obtain ⟨net, gross⟩ := values fits
    obtain ⟨named, positive, grossLimit, lower, upper⟩ := fits
    refine ⟨?_, positive, gross, ?_, net, ?_⟩
    · cases side with
      | buy => exact Or.inl rfl
      | sell => exact Or.inr rfl
      | unnamed => exact absurd rfl named
    · rw [gross]
      exact grossLimit
    · rw [net, abs_le]
      exact ⟨lower, upper⟩
  · rw [if_neg fits] at evaluated
    exact ⟨_, _, _, evaluated, by simp, fun _ => ⟨rfl, rfl⟩⟩

/-- Whatever is called, with whatever arguments and limits, no arithmetic overflows and the gross
position bounds the net one. -/
theorem position_ledger (journal : EventJournal) (ops : List Op) :
    ∃ engine journal' log, Machine.exec step ({}, journal) ops = some ((engine, journal'), log) ∧
      0 ≤ engine.position.grossPosition.toInt ∧
      |engine.position.netPosition.toInt| ≤ engine.position.grossPosition.toInt ∧
      (∀ position, ∃ next, engine.setPosition position = some next) ∧
      ∀ side quantity, ∃ next journal'' booked,
        engine.applyFill journal' side quantity = some (next, journal'', booked) ∧
        (booked = true → Booked engine next side quantity) ∧
        (booked = false → next.position = engine.position ∧ journal'' = journal') := by
  obtain ⟨⟨engine, journal'⟩, log, ran, ledger⟩ := exec_ledger journal ops
  obtain ⟨gross, net⟩ := (ledger_iff _).mp ledger
  refine ⟨engine, journal', log, ran, gross, net, ?_, ?_⟩
  · intro position
    exact ⟨_, setPosition_eq engine position⟩
  · intro side quantity
    obtain ⟨next, journal'', booked, called, taken, refused⟩ :=
      applyFill_booked ledger journal' side quantity
    refine ⟨next, journal'', booked, called, taken, ?_⟩
    intro no
    obtain ⟨same, unchanged⟩ := refused no
    exact ⟨congrArg RiskEngine.position same, unchanged⟩

end Ito.RiskEngine
