import Ito.MicrostructureErrors
import Ito.TradedVolume
import Ito.QueueAgreement
import Ito.Library.Greedy

/-! What becomes of the whole quantity of a limit order. An order that crosses is walked like a
market order, and what the book cannot cover of it neither rests nor is reported. -/

namespace Ito.Backtest.MicrostructureEngine

def stocked (ladder : List BookLevel) : List BookLevel := ladder.filter fun level => 0 < level.size

theorem stocked_positive (ladder : List BookLevel) : ∀ level ∈ stocked ladder, 0 < level.size := by
  intro level member
  exact of_decide_eq_true (List.mem_filter.mp member).2

section Walk

variable {F : Type} [PythonFloat F]

def WalkAdmits (maxPosition side : Int) : Int → Int → List BookLevel → Prop
  | _, _, [] => True
  | position, remaining, level :: ladder =>
      if remaining ≤ 0 then True
      else if level.size ≤ 0 then WalkAdmits maxPosition side position remaining ladder
      else
        let next := position + signed side (min remaining level.size)
        |next| ≤ maxPosition ∧
          WalkAdmits maxPosition side next (remaining - min remaining level.size) ladder

/-- An order that is walked is refused no fill by the position limit. -/
def LeavesRoom (engine : MicrostructureEngine F) (signal : Signal) : Prop :=
  engine.Crosses signal.side (engine.limitPrice signal) →
    WalkAdmits engine.maxPosition signal.side engine.position signal.quantity
      (engine.ladder signal.side)

def leaves (before after : MicrostructureEngine F) : Int :=
  ((after.restingOrders.drop before.restingOrders.length).map
    RestingOrder.remainingQuantity).sum

/-- The levels that the order can be walked against offer no less than the order asks for. -/
def Covers (engine : MicrostructureEngine F) (signal : Signal) : Prop :=
  signal.quantity ≤ ((stocked (engine.ladder signal.side)).map BookLevel.size).sum

instance (engine : MicrostructureEngine F) (signal : Signal) : Decidable (engine.Covers signal) :=
  inferInstanceAs (Decidable (_ ≤ _))

variable {engine : MicrostructureEngine F} {signal : Signal}

theorem walk_volume (arrivalTime latency : Int) {ladder : List BookLevel}
    {position remaining : Int} (room : WalkAdmits engine.maxPosition signal.side position remaining ladder) :
    volume (engine.walk signal arrivalTime latency position remaining ladder).2.2 =
      ((Greedy.fills BookLevel.size remaining (stocked ladder)).map Prod.snd).sum := by
  induction ladder generalizing position remaining with
  | nil => rfl
  | cons level ladder ih =>
      rw [walk]
      rw [WalkAdmits] at room
      by_cases done : remaining ≤ 0
      · rw [if_pos done, Greedy.fills_of_nonpos done]
        rfl
      · rw [if_neg done] at room
        by_cases empty : level.size ≤ 0
        · have same : stocked (level :: ladder) = stocked ladder :=
            List.filter_cons_of_neg (by simpa using empty)
          rw [if_pos empty] at room
          rw [if_neg done, if_pos empty, same]
          exact ih room
        · rw [if_neg empty] at room
          have more : 0 < remaining := not_le.mp done
          have here : 0 < level.size := not_le.mp empty
          have first : stocked (level :: ladder) = level :: stocked ladder :=
            List.filter_cons_of_pos (by simpa using here)
          have fits : ¬ |position + signed signal.side (min remaining level.size)| >
              engine.maxPosition := not_lt.mpr room.1
          rw [if_neg done, if_neg empty, first, Greedy.fills, if_pos more, List.map_cons,
            List.sum_cons, ← ih room.2]
          simp only [if_neg fits]
          rfl

theorem leaves_same {before after : MicrostructureEngine F}
    (same : after.restingOrders = before.restingOrders) : leaves before after = 0 := by
  rw [leaves, same, List.drop_length]
  rfl

theorem submitOrder_limit (type : signal.orderType = .limit) (submittable : Submittable signal)
    (room : engine.LeavesRoom signal) :
    volume (engine.submitOrder signal).2 + leaves engine (engine.submitOrder signal).1 =
      if engine.Crosses signal.side (engine.limitPrice signal) then
        min signal.quantity ((stocked (engine.ladder signal.side)).map BookLevel.size).sum
      else signal.quantity := by
  have positive : 0 ≤ signal.quantity := by
    rw [Submittable] at submittable
    omega
  have call : ∃ time arrivalTime latency, engine.submitOrder signal =
      { engine with currentTimeNs := time }.placeLimit signal arrivalTime latency false := by
    rw [submitOrder, if_pos submittable, type]
    exact ⟨_, _, _, rfl⟩
  rcases call with ⟨time, arrivalTime, latency, call⟩
  have placing := placeLimit_cases { engine with currentTimeNs := time } signal arrivalTime latency
    false
  rw [call]
  by_cases crosses : engine.Crosses signal.side (engine.limitPrice signal)
  · have filled := @walk_volume _ _ { engine with currentTimeNs := time } signal arrivalTime latency
      _ _ _ (room crosses)
    have kept : leaves engine ({ engine with currentTimeNs := time }.executeAggressive signal
        arrivalTime latency).1 = 0 := leaves_same rfl
    rw [placing.1 crosses, if_pos crosses, if_neg Bool.false_ne_true, kept, Int.add_zero,
      ← Greedy.sum_fills (stocked_positive _) positive]
    exact filled
  · rcases placing.2 crosses with ⟨order, placed, done⟩
    rw [done, if_neg crosses, leaves]
    simp [placed.remaining, volume]

end Walk

/-- No quantity of a limit order that the position limit refuses no fill of is lost by a call that
returns, exactly where the order does not cross, or the book covers it. -/
theorem limit_accounted_iff {F : Type} [CheckedFloat F] {engine next : MicrostructureEngine F}
    {signal : Signal} {fills : List (Fill F)} (type : signal.orderType = .limit)
    (submittable : Submittable signal) (room : engine.LeavesRoom signal)
    (returned : engine.submitOrderChecked signal = (next, some fills)) :
    volume fills + leaves engine next = signal.quantity ↔
      (engine.Crosses signal.side (engine.limitPrice signal) → engine.Covers signal) := by
  have total := submitOrder_limit type submittable room
  rw [submitOrderChecked_eq returned] at total
  rw [total, Covers]
  split
  · rename_i crosses
    rw [min_eq_left_iff]
    exact ⟨fun covers _ => covers, fun covers => covers crosses⟩
  · rename_i stays
    exact iff_of_true rfl fun crosses => absurd crosses stays

def offeredEngine : MicrostructureEngine Rat :=
  newEngine.quoted { timestampNs := 1000, bidTicks := 100, askTicks := 102 }

def crossingBuy (quantity : Int) : Signal :=
  { timestampNs := 2000, side := 1, quantity, orderType := .limit, limitPriceTicks := some 105 }

theorem offeredEngine_room (quantity : Int) : offeredEngine.LeavesRoom (crossingBuy quantity) := by
  intro _
  change WalkAdmits 500 1 0 quantity [⟨102, 100⟩]
  rw [WalkAdmits]
  split
  case isTrue => trivial
  case isFalse more =>
    refine ⟨?_, trivial⟩
    change |0 + min quantity 100| ≤ 500
    have small : |0 + min quantity 100| = min quantity 100 := by
      rw [Int.zero_add]
      exact abs_of_nonneg (by omega)
    omega

theorem limit_accounted_covered : ∃ next fills,
    offeredEngine.submitOrderChecked (crossingBuy 40) = (next, some fills) ∧
      volume fills + leaves offeredEngine next = 40 := by
  have computed : (offeredEngine.submitOrderChecked (crossingBuy 40)).2.isSome := by
    decide +kernel
  rcases called : offeredEngine.submitOrderChecked (crossingBuy 40) with ⟨next, returned⟩
  rw [called] at computed
  rcases Option.isSome_iff_exists.mp computed with ⟨fills, same⟩
  dsimp only at same
  rw [same] at called
  refine ⟨next, fills, same ▸ rfl, ?_⟩
  exact (limit_accounted_iff rfl (by decide) (offeredEngine_room 40) called).mpr
    fun _ => by decide +kernel

/-- Of a buy of 150 the offer of 100 is filled, and 50 are lost. -/
theorem remainder_lost : offeredEngine.LeavesRoom (crossingBuy 150) ∧
    ∃ next fills, offeredEngine.submitOrderChecked (crossingBuy 150) = (next, some fills) ∧
      volume fills = 100 ∧ leaves offeredEngine next = 0 ∧
      volume fills + leaves offeredEngine next ≠ (crossingBuy 150).quantity := by
  have computed : (offeredEngine.submitOrderChecked (crossingBuy 150)).2.map volume = some 100 ∧
      (offeredEngine.submitOrderChecked (crossingBuy 150)).1.restingOrders = [] := by
    decide +kernel
  rcases called : offeredEngine.submitOrderChecked (crossingBuy 150) with ⟨next, returned⟩
  rw [called] at computed
  rcases Option.map_eq_some_iff.mp computed.1 with ⟨fills, same, filled⟩
  dsimp only at same
  have nothing : leaves offeredEngine next = 0 := leaves_same computed.2
  refine ⟨offeredEngine_room 150, next, fills, same ▸ rfl, filled, nothing, ?_⟩
  rw [filled, nothing]
  decide

end Ito.Backtest.MicrostructureEngine
