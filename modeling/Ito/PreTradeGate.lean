import Ito.RiskAccelerator
import Ito.Library.CheckedInt

/-! The pre-trade gate in hardware and its cycle-accurate software model.

Source: `rtl/risk_gate/pre_trade_gate.sv` and `cpp/ito_risk/hardware_risk_bridge.hpp`.
A conversion between 64-bit types wraps; signed overflow is undefined. -/

namespace Ito.Rtl

variable {w : Nat}

/-- The registers of `pre_trade_gate`. -/
structure PreTradeGate (w : Nat) where
  stageValid : Bool
  stage : GateOrder w
  decisionValid : Bool
  approved : Bool
  reasonCode : BitVec 4
  deriving DecidableEq, Repr

namespace PreTradeGate

def reset (gate : PreTradeGate w) : PreTradeGate w :=
  { gate with stageValid := false, decisionValid := false, approved := false, reasonCode := 1 }

def clock (gate : PreTradeGate w) (intentValid : Bool) (order : GateOrder w) : PreTradeGate w :=
  let comb := decisionComb gate.stage (notional gate.stage) (nextPosition gate.stage)
  { stageValid := intentValid
    stage := if intentValid then order else gate.stage
    decisionValid := gate.stageValid
    approved := if gate.stageValid then comb.1 else gate.approved
    reasonCode := if gate.stageValid then comb.2 else gate.reasonCode }

end PreTradeGate

end Ito.Rtl

namespace Ito.HardwareBridge

inductive HardwareReasonCode where
  | approved
  | haltedOrDisabled
  | limitsInvalid
  | feedClockUnhealthy
  | quantityLimit
  | notionalLimit
  | positionLimit
  | priceZero
  deriving DecidableEq, Repr

def HardwareReasonCode.value : HardwareReasonCode → BitVec 4
  | .approved => 0
  | .haltedOrDisabled => 1
  | .limitsInvalid => 2
  | .feedClockUnhealthy => 3
  | .quantityLimit => 4
  | .notionalLimit => 5
  | .positionLimit => 6
  | .priceZero => 7

structure HardwareGateInputs where
  intentValid : Bool := false
  sideBuy : Bool := true
  tradingEnabled : Bool := true
  limitsValid : Bool := true
  clockHealthy : Bool := true
  feedHealthy : Bool := true
  halted : Bool := false
  priceTicks : UInt64 := 0
  quantity : UInt64 := 0
  maxQuantity : UInt64 := 0
  maxNotionalTicks : UInt64 := 0
  netPosition : Int64 := 0
  maxNetPosition : UInt64 := 0
  deriving DecidableEq, Repr

structure HardwareGateOutputs where
  decisionValid : Bool := false
  approved : Bool := false
  reasonCode : HardwareReasonCode := .approved
  deriving DecidableEq, Repr

/-- The stage registers repeat the inputs of the step before, `stage_valid_` being
its `intent_valid`. -/
structure HardwareRiskGateModel where
  stage : HardwareGateInputs
  out : HardwareGateOutputs
  deriving DecidableEq, Repr

namespace HardwareRiskGateModel

def reset : HardwareRiskGateModel :=
  { stage :=
      { intentValid := false
        sideBuy := false
        tradingEnabled := false
        limitsValid := false
        clockHealthy := false
        feedHealthy := false }
    out := {} }

def notionalExceeded (stage : HardwareGateInputs) : Bool :=
  (stage.priceTicks > 0 && stage.quantity > 0) &&
    stage.quantity > stage.maxNotionalTicks / stage.priceTicks

def signedQuantity (stage : HardwareGateInputs) : Option Int64 :=
  if stage.sideBuy then some stage.quantity.toInt64 else CheckedInt.neg? stage.quantity.toInt64

def nextPosition (stage : HardwareGateInputs) : Option Int64 :=
  (signedQuantity stage).bind (CheckedInt.add? stage.netPosition)

def positionExceeded (stage : HardwareGateInputs) (next : Int64) : Option Bool :=
  some (next > stage.maxNetPosition.toInt64 : Bool) <||>
    (CheckedInt.neg? stage.maxNetPosition.toInt64).map fun bound => next < bound

/-- The decision on a valid stage. The next position is computed before any check. -/
def decision (stage : HardwareGateInputs) : Option (Bool × HardwareReasonCode) :=
  (nextPosition stage).bind fun next =>
    if !stage.tradingEnabled || stage.halted then some (false, .haltedOrDisabled)
    else if !stage.limitsValid then some (false, .limitsInvalid)
    else if !stage.clockHealthy || !stage.feedHealthy then some (false, .feedClockUnhealthy)
    else if stage.quantity = 0 ∨ stage.quantity > stage.maxQuantity then
      some (false, .quantityLimit)
    else if notionalExceeded stage then some (false, .notionalLimit)
    else (positionExceeded stage next).map fun exceeded =>
      if exceeded then (false, .positionLimit)
      else if stage.priceTicks = 0 then (false, .priceZero)
      else (true, .approved)

def step (model : HardwareRiskGateModel) (input : HardwareGateInputs) :
    Option (HardwareRiskGateModel × HardwareGateOutputs) :=
  (if model.stage.intentValid then
    (decision model.stage).map fun decided =>
      { decisionValid := true, approved := decided.1, reasonCode := decided.2 }
  else some {}).map fun out => ({ stage := input, out }, out)

end HardwareRiskGateModel

end Ito.HardwareBridge
