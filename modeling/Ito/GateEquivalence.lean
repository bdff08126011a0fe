import Ito.Library.Clocked
import Ito.Library.Delay
import Ito.PreTradeGate

/-! The pre-trade gate and the accelerator, cycle by cycle.

The gate decides on the operands its stage holds; the accelerator multiplies and
adds when it captures the request and decides on the registered results. Both
are the same decision behind two registers. -/

namespace Ito.Rtl

variable {w : Nat}

def gateDecision (order : GateOrder w) : Bool × BitVec 4 :=
  decisionComb order (notional order) (nextPosition order)

/-- The inputs of one edge: the valid wire, and the order on the other wires. -/
abbrev GateInput (w : Nat) := Bool × GateOrder w

def request (input : GateInput w) : Option (GateOrder w) := if input.1 then some input.2 else none

namespace PreTradeGate

def run (gate : PreTradeGate w) (inputs : List (GateInput w)) : PreTradeGate w :=
  inputs.foldl (fun gate input => gate.clock input.1 input.2) gate

/-- The outputs `decision_valid`, `approved` and `reason_code`. -/
def outputs (gate : PreTradeGate w) : Bool × Bool × BitVec 4 :=
  (gate.decisionValid, gate.approved, gate.reasonCode)

def shown (gate : PreTradeGate w) : Option (Bool × BitVec 4) :=
  if gate.decisionValid then some (gate.approved, gate.reasonCode) else none

def trace : PreTradeGate w → List (GateInput w) → List (Option (Bool × BitVec 4))
  | _, [] => []
  | gate, input :: inputs =>
      (gate.clock input.1 input.2).shown :: (gate.clock input.1 input.2).trace inputs

def delay (gate : PreTradeGate w) : Delay.Registers (GateOrder w) (Bool × BitVec 4) :=
  { stage := if gate.stageValid then some gate.stage else none
    valid := gate.decisionValid
    out := (gate.approved, gate.reasonCode) }

theorem delay_clock (gate : PreTradeGate w) (input : GateInput w) :
    (gate.clock input.1 input.2).delay = Delay.clock gateDecision gate.delay (request input) := by
  rcases input with ⟨valid, order⟩
  cases staged : gate.stageValid <;> cases valid <;>
    simp [delay, clock, Delay.clock, request, gateDecision, staged]

theorem delay_run (gate : PreTradeGate w) (inputs : List (GateInput w)) :
    (gate.run inputs).delay = (inputs.map request).foldl (Delay.clock gateDecision) gate.delay :=
  Clocked.run_refines (I := fun _ => True) (fun _ _ _ => trivial)
    (fun gate input _ => gate.delay_clock input) trivial inputs

theorem trace_delay (gate : PreTradeGate w) (inputs : List (GateInput w)) :
    gate.trace inputs = Delay.trace gateDecision gate.delay (inputs.map request) := by
  induction inputs generalizing gate with
  | nil => rfl
  | cons input inputs ih =>
      rw [trace, ih, delay_clock, List.map_cons, Delay.trace, ← delay_clock]
      rfl

end PreTradeGate

namespace RiskAccelerator

def run (gate : RiskAccelerator w) (inputs : List (GateInput w)) : RiskAccelerator w :=
  inputs.foldl (fun gate input => gate.clock input.1 input.2) gate

/-- The outputs `response_valid`, `approved` and `reason_code`. -/
def outputs (gate : RiskAccelerator w) : Bool × Bool × BitVec 4 :=
  (gate.responseValid, gate.approved, gate.reasonCode)

def shown (gate : RiskAccelerator w) : Option (Bool × BitVec 4) :=
  if gate.responseValid then some (gate.approved, gate.reasonCode) else none

def trace : RiskAccelerator w → List (GateInput w) → List (Option (Bool × BitVec 4))
  | _, [] => []
  | gate, input :: inputs =>
      (gate.clock input.1 input.2).shown :: (gate.clock input.1 input.2).trace inputs

def delay (gate : RiskAccelerator w) : Delay.Registers (GateOrder w) (Bool × BitVec 4) :=
  { stage := if gate.stage1Valid then some gate.stage1 else none
    valid := gate.responseValid
    out := (gate.approved, gate.reasonCode) }

def Captured (gate : RiskAccelerator w) : Prop :=
  gate.stage1Valid = true →
    gate.stage1Notional = notional gate.stage1 ∧
      gate.stage1NextPosition = nextPosition gate.stage1

theorem captured_clock (gate : RiskAccelerator w) (input : GateInput w) :
    (gate.clock input.1 input.2).Captured := by
  intro valid
  have sampled : input.1 = true := valid
  simp [clock, sampled]

theorem delay_clock {gate : RiskAccelerator w} (captured : gate.Captured) (input : GateInput w) :
    (gate.clock input.1 input.2).delay = Delay.clock gateDecision gate.delay (request input) := by
  rcases input with ⟨valid, order⟩
  cases staged : gate.stage1Valid with
  | false => cases valid <;> simp [delay, clock, Delay.clock, request, staged]
  | true =>
      rcases captured staged with ⟨product, position⟩
      cases valid <;>
        simp [delay, clock, Delay.clock, request, gateDecision, staged, product, position]

theorem delay_run {gate : RiskAccelerator w} (captured : gate.Captured)
    (inputs : List (GateInput w)) :
    (gate.run inputs).delay = (inputs.map request).foldl (Delay.clock gateDecision) gate.delay :=
  Clocked.run_refines (fun gate input _ => captured_clock gate input)
    (fun _ input captured => delay_clock captured input) captured inputs

theorem trace_delay {gate : RiskAccelerator w} (captured : gate.Captured)
    (inputs : List (GateInput w)) :
    gate.trace inputs = Delay.trace gateDecision gate.delay (inputs.map request) := by
  induction inputs generalizing gate with
  | nil => rfl
  | cons input inputs ih =>
      rw [trace, ih (captured_clock gate input), delay_clock captured, List.map_cons, Delay.trace,
        ← delay_clock captured]
      rfl

theorem captured_reset (gate : RiskAccelerator w) : gate.reset.Captured := by
  intro valid
  cases valid

end RiskAccelerator

theorem delay_reset (gate : PreTradeGate w) (accelerator : RiskAccelerator w) :
    gate.reset.delay = ⟨none, false, (false, 1)⟩ ∧ accelerator.reset.delay = gate.reset.delay :=
  ⟨rfl, rfl⟩

/-- From reset on, the outputs of the two gates are equal after every edge, each
gate shows the decision on a request one edge after it was staged and nothing
else, so the valid answers are the decisions on the valid requests in order, and
between them the outputs hold the last one. -/
theorem gates_sequentially_equivalent (gate : PreTradeGate w) (accelerator : RiskAccelerator w)
    (inputs : List (GateInput w)) :
    (gate.reset.run inputs).outputs = (accelerator.reset.run inputs).outputs ∧
    gate.reset.trace inputs =
      (none :: inputs.map request).dropLast.map (Option.map gateDecision) ∧
    accelerator.reset.trace inputs =
      (none :: inputs.map request).dropLast.map (Option.map gateDecision) ∧
    (gate.reset.trace inputs).reduceOption =
      (inputs.map request).dropLast.reduceOption.map gateDecision ∧
    (accelerator.reset.trace inputs).reduceOption =
      (inputs.map request).dropLast.reduceOption.map gateDecision ∧
    ((gate.reset.run inputs).approved, (gate.reset.run inputs).reasonCode) =
      ((none :: inputs.map request).dropLast.reduceOption.map gateDecision).getLastD (false, 1) := by
  have captured := RiskAccelerator.captured_reset accelerator
  rcases delay_reset gate accelerator with ⟨start, common⟩
  have empty : gate.reset.delay.stage = none := by rw [start]
  have gateTrace := gate.reset.trace_delay inputs
  have acceleratorTrace := RiskAccelerator.trace_delay captured inputs
  rw [common] at acceleratorTrace
  have gateRun := gate.reset.delay_run inputs
  have acceleratorRun := RiskAccelerator.delay_run captured inputs
  rw [common, ← gateRun] at acceleratorRun
  constructor
  · have valid := congrArg Delay.Registers.valid acceleratorRun
    have out := congrArg Delay.Registers.out acceleratorRun
    exact Prod.ext valid.symm out.symm
  constructor
  · rw [gateTrace, Delay.trace_eq, empty]
  constructor
  · rw [acceleratorTrace, Delay.trace_eq, empty]
  constructor
  · rw [gateTrace, Delay.reduceOption_trace gateDecision empty]
  constructor
  · rw [acceleratorTrace, Delay.reduceOption_trace gateDecision empty]
  · have held := Delay.out_run gateDecision gate.reset.delay (inputs.map request)
    rw [← gateRun, empty, start] at held
    exact held

end Ito.Rtl
