import Ito.Library.Clocked

/-! The order sequencer in front of the transmitter, clock by clock.

Source: `rtl/order_sequencer/order_sequencer.sv`. A step is one rising clock edge while `rst_n` is
high, and `reset` is what a low `rst_n` leaves. -/

namespace Ito.Rtl

open Clocked

variable {w : Nat}

/-- The registers of `order_sequencer`, `WIDTH` being `w`. -/
structure OrderSequencer (w : Nat) where
  txValid : Bool
  txOrderId : BitVec w
  txPriceTicks : BitVec w
  txQuantity : BitVec w
  busy : Bool
  deriving DecidableEq, Repr

namespace OrderSequencer

structure Input (w : Nat) where
  halt : Bool
  approvedValid : Bool
  txReady : Bool
  clientOrderId : BitVec w
  priceTicks : BitVec w
  quantity : BitVec w
  deriving DecidableEq, Repr

abbrev Order (w : Nat) := BitVec w × BitVec w × BitVec w

def reset : OrderSequencer w :=
  { txValid := false, txOrderId := 0, txPriceTicks := 0, txQuantity := 0, busy := false }

def clock (sequencer : OrderSequencer w) (input : Input w) : OrderSequencer w :=
  if input.halt then { sequencer with txValid := false, busy := false }
  else if !sequencer.busy && input.approvedValid then
    { txOrderId := input.clientOrderId
      txPriceTicks := input.priceTicks
      txQuantity := input.quantity
      txValid := true
      busy := true }
  else if sequencer.busy && input.txReady then { sequencer with txValid := false, busy := false }
  else sequencer

def outputs (sequencer : OrderSequencer w) : Order w :=
  (sequencer.txOrderId, sequencer.txPriceTicks, sequencer.txQuantity)

def captured (cycle : OrderSequencer w × Input w) : List (Order w) :=
  if cycle.2.approvedValid && !cycle.1.busy then
    [(cycle.2.clientOrderId, cycle.2.priceTicks, cycle.2.quantity)]
  else []

def delivered (cycle : OrderSequencer w × Input w) : List (Order w) :=
  if cycle.1.txValid && cycle.2.txReady then [outputs cycle.1] else []

def pending (sequencer : OrderSequencer w) : List (Order w) :=
  if sequencer.busy then [outputs sequencer] else []

variable {inputs : List (Input w)}

theorem clock_cases (sequencer : OrderSequencer w) {input : Input w} (running : input.halt = false) :
    (sequencer.busy = false ∧ input.approvedValid = true ∧ clock sequencer input =
      { txOrderId := input.clientOrderId, txPriceTicks := input.priceTicks,
        txQuantity := input.quantity, txValid := true, busy := true }) ∨
    (sequencer.busy = false ∧ input.approvedValid = false ∧ clock sequencer input = sequencer) ∨
    (sequencer.busy = true ∧ input.txReady = true ∧
      clock sequencer input = { sequencer with txValid := false, busy := false }) ∨
    (sequencer.busy = true ∧ input.txReady = false ∧ clock sequencer input = sequencer) := by
  rw [clock, running]
  cases sequencer.busy <;> cases input.approvedValid <;> cases input.txReady <;> simp

theorem clock_valid (sequencer : OrderSequencer w) (input : Input w)
    (valid : sequencer.txValid = sequencer.busy) :
    (clock sequencer input).txValid = (clock sequencer input).busy := by
  rw [clock]
  split
  · rfl
  · split
    · rfl
    · split
      · rfl
      · exact valid

theorem clock_balance {sequencer : OrderSequencer w} {input : Input w}
    (valid : sequencer.txValid = sequencer.busy) (running : input.halt = false) :
    pending sequencer ++ captured (sequencer, input) =
      delivered (sequencer, input) ++ pending (clock sequencer input) := by
  rw [captured, delivered, valid]
  rcases clock_cases sequencer running with
    ⟨free, approved, stepped⟩ | ⟨free, idle, stepped⟩ | ⟨held, ready, stepped⟩ |
      ⟨held, stalled, stepped⟩
  · rw [stepped, free, approved, pending, free]
    rfl
  · rw [stepped, free, idle, pending, free]
    rfl
  · rw [stepped, held, ready, pending, held]
    simp [pending]
  · rw [stepped, held, stalled, pending, held]
    simp

/-- The outputs are valid exactly while an order waits, they stand still while the transmitter
stalls, and the transmitter takes the captured orders, each once and in their order, but for the
one that still waits. -/
theorem sequencer_delivers (running : ∀ input ∈ inputs, input.halt = false) :
    (∀ cycle ∈ cycles clock reset inputs, cycle.1.txValid = cycle.1.busy ∧
      (next clock cycle).txValid = (next clock cycle).busy) ∧
    (∀ cycle ∈ cycles clock reset inputs, cycle.1.txValid = true → cycle.2.txReady = false →
      outputs (next clock cycle) = outputs cycle.1 ∧ (next clock cycle).txValid = true) ∧
    (cycles clock reset inputs).flatMap captured =
      (cycles clock reset inputs).flatMap delivered ++ pending (run clock reset inputs) := by
  have idle : (reset : OrderSequencer w).txValid = (reset : OrderSequencer w).busy := rfl
  have valid := (invariant (I := fun sequencer : OrderSequencer w =>
    sequencer.txValid = sequencer.busy)
    (fun sequencer input held _ => clock_valid sequencer input held) idle running).1
  refine ⟨?_, ?_, ?_⟩
  · exact fun cycle member => ⟨(valid cycle member).1, clock_valid _ _ (valid cycle member).1⟩
  · intro cycle member sending stalled
    have held : cycle.1.busy = true := (valid cycle member).1.symm.trans sending
    rcases clock_cases cycle.1 (valid cycle member).2 with
      ⟨free, -⟩ | ⟨free, -⟩ | ⟨-, ready, -⟩ | ⟨-, -, stepped⟩
    · exact absurd (held.symm.trans free) (by decide)
    · exact absurd (held.symm.trans free) (by decide)
    · exact absurd (ready.symm.trans stalled) (by decide)
    · rw [next, stepped]
      exact ⟨rfl, sending⟩
  · exact flatMap_balance pending captured delivered fun cycle member =>
      clock_balance (valid cycle member).1 (valid cycle member).2

theorem sequencer_delivers_stalled :
    let order : Input 64 := { halt := false, approvedValid := true, txReady := false,
                              clientOrderId := 1, priceTicks := 100, quantity := 5 }
    let inputs := [order, { order with clientOrderId := 2 },
      { order with clientOrderId := 3, txReady := true }, { order with clientOrderId := 4 }]
    (cycles clock reset inputs).flatMap captured = [(1, 100, 5), (4, 100, 5)] ∧
    (cycles clock reset inputs).flatMap captured =
      (cycles clock reset inputs).flatMap delivered ++ pending (run clock reset inputs) := by
  intro order inputs
  exact ⟨by decide, (@sequencer_delivers 64 inputs (by decide)).2.2⟩

end OrderSequencer

end Ito.Rtl
