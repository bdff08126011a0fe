import Ito.EngineLedger
import Ito.MicrostructureErrors
import Ito.QueueAgreement

/-! What every run of the backtest engine keeps of its position and its orders. A call that
raises keeps the position limit, and nothing else of it. -/

namespace Ito.Backtest.MicrostructureEngine

variable {F : Type} [CheckedFloat F]

/-- No call of the run has raised. -/
def Quiet (log : List (Event × Option (List (Fill F)))) : Prop := ∀ entry ∈ log, entry.2.isSome

/-- What the source promises of its books in every state. -/
structure Booked (engine : MicrostructureEngine F) : Prop where
  position : engine.position = holding engine.fills
  positive : ∀ fill ∈ engine.fills, 0 < fill.quantity
  waits : ∀ order ∈ engine.restingOrders, 0 < order.remainingQuantity
  given : ∀ order ∈ engine.restingOrders, ∀ events final log,
    Machine.exec stepChecked engine events = some (final, log) → Quiet log →
      received order.orderId engine events ≤ order.remainingQuantity

theorem exec_of_quiet {start engine : MicrostructureEngine F} {events : List Event}
    {log : List (Event × Option (List (Fill F)))}
    (ran : Machine.exec stepChecked start events = some (engine, log)) (quiet : Quiet log) :
    ∃ total, Machine.exec step start events = some (engine, total) := by
  induction events generalizing start log with
  | nil =>
      simp only [Machine.exec_nil, Option.some.injEq, Prod.mk.injEq] at ran
      exact ⟨[], by rw [Machine.exec_nil, ran.1]⟩
  | cons event events ih =>
      rcases Machine.exec_cons_eq_some.mp ran with ⟨next, returned, rest, stepped, later, rfl⟩
      rcases List.forall_mem_cons.mp quiet with ⟨here, quietLater⟩
      rcases Option.isSome_iff_exists.mp here with ⟨fills, same⟩
      dsimp only at same
      rw [same] at stepped
      rcases ih later quietLater with ⟨total, run⟩
      exact ⟨(event, fills) :: total, Machine.exec_cons_eq_some.mpr
        ⟨next, fills, total, step_of_stepChecked stepped, run, rfl⟩⟩

theorem exec_limited {maxPosition : Int} {start engine : MicrostructureEngine F}
    {events : List Event} {log : List (Event × Option (List (Fill F)))}
    (limited : Limited maxPosition start)
    (ran : Machine.exec stepChecked start events = some (engine, log)) :
    Limited maxPosition engine := by
  apply Machine.exec_invariant (fun _ => Limited maxPosition) _ limited ran
  intro _ before event next returned kept stepped
  exact stepChecked_limited kept stepped

theorem exec_books {start engine : MicrostructureEngine F} {events : List Event}
    {log : List (Event × List (Fill F))} (sane : Sane start) (ledger : Ledger start)
    (ran : Machine.exec step start events = some (engine, log)) : Sane engine ∧ Ledger engine := by
  apply Machine.exec_invariant (fun _ now => Sane now ∧ Ledger now) _ ⟨sane, ledger⟩ ran
  intro _ before event next fills kept stepped
  exact ⟨step_sane kept.1 stepped, step_ledger kept.1 kept.2 stepped⟩

/-- Whatever its calls were given, an engine stays within its position limit. As long as none of
them has raised, its position is that of its fills, which all have a positive quantity, every
resting order waits for something, and none is given more than it waits for. -/
theorem position_invariant {maxPosition : Int} {config : Option (MicrostructureConfig F)}
    {start engine : MicrostructureEngine F} {events : List Event}
    {log : List (Event × Option (List (Fill F)))} (created : create maxPosition config = .ok start)
    (ran : Machine.exec stepChecked start events = some (engine, log)) :
    |engine.position| ≤ maxPosition ∧ (Quiet log → Booked engine) := by
  refine ⟨(exec_limited (create_limited created) ran).limit, ?_⟩
  intro quiet
  rcases exec_of_quiet ran quiet with ⟨total, run⟩
  rcases exec_books (create_sane created) (create_ledger created) run with ⟨sane, ledger⟩
  have numbered := exec_numbered created run
  refine ⟨ledger.position, ledger.positive, sane.remaining, ?_⟩
  intro order rests later _ _ _ _
  exact received_le sane (held_of_rests numbered rests) later

def bookedEvents : List Event :=
  [.quote { timestampNs := 1000, bidTicks := 100, askTicks := 102, bidSize := 0 },
    .signal { timestampNs := 1100, side := 1, quantity := 10, orderType := .limit,
              limitPriceTicks := some 100 },
    .trade { timestampNs := 3000, priceTicks := 100, quantity := 4, aggressorSide := -1 },
    .signal { timestampNs := 4000, side := 1, quantity := 3 }]

theorem position_invariant_run : ∃ engine log,
    Machine.exec stepChecked newEngine bookedEvents = some (engine, log) ∧ engine.position = 7 ∧
      |engine.position| ≤ 500 ∧ Booked engine := by
  have created : create 500 (some noCancellations) = .ok newEngine := rfl
  have computed : (Machine.exec stepChecked newEngine bookedEvents).map
      (fun run => (run.1.position, run.2.map fun entry => entry.2.isSome)) =
        some (7, [true, true, true, true]) := by decide +kernel
  rcases Option.map_eq_some_iff.mp computed with ⟨⟨engine, log⟩, ran, same⟩
  rw [Prod.mk.injEq] at same
  rcases position_invariant created ran with ⟨limit, booked⟩
  refine ⟨engine, log, ran, same.1, limit, booked ?_⟩
  intro entry member
  have among := List.mem_map_of_mem (f := fun entry => entry.2.isSome) member
  rw [same.2] at among
  simpa using among

def overflowingEvents : List Event :=
  [.signal { timestampNs := 1000, side := 1, quantity := 5, orderType := .limit,
             limitPriceTicks := some (10 ^ 400) },
    .trade { timestampNs := 3000, priceTicks := 100, quantity := 5, aggressorSide := -1 }]

/-- The fee of the fill cannot be computed. By then the position has moved and the order has
nothing left, but the fill is not recorded and the order still rests. -/
theorem fill_unrecorded : ∃ engine log,
    Machine.exec stepChecked newEngine overflowingEvents = some (engine, log) ∧
      engine.position ≠ holding engine.fills ∧
      ∃ order ∈ engine.restingOrders, ¬ 0 < order.remainingQuantity := by
  have computed : (Machine.exec stepChecked newEngine overflowingEvents).map
      (fun run => (run.1.position, run.1.fills.length,
        run.1.restingOrders.map RestingOrder.remainingQuantity)) = some (5, 0, [0]) := by
    decide +kernel
  rcases Option.map_eq_some_iff.mp computed with ⟨⟨engine, log⟩, ran, same⟩
  simp only [Prod.mk.injEq] at same
  rcases same with ⟨position, fills, orders⟩
  refine ⟨engine, log, ran, ?_, ?_⟩
  · rw [position, List.length_eq_zero_iff.mp fills]
    decide
  · have nothing : (0 : Int) ∈ engine.restingOrders.map RestingOrder.remainingQuantity := by
      rw [orders]
      exact List.mem_singleton_self 0
    rcases List.mem_map.mp nothing with ⟨order, rests, left⟩
    exact ⟨order, rests, by omega⟩

end Ito.Backtest.MicrostructureEngine
