import Ito.Library.WideSum
import Ito.RiskService

/-! The hardware risk gate: frame bridge and accelerator, clock by clock.

Source: `rtl/protocol_bridge/order_frame_bridge.sv` and
`rtl/risk_gate/risk_accelerator.sv`. A state holds the registers, a step is one
rising clock edge while `rst_n` is high, and `reset` is what a low `rst_n` does.
Registers without a reset value keep theirs. -/

namespace Ito.Rtl

variable {w : Nat}

/-- The fields of an order as the gates see them, `WIDTH` being `w`. -/
structure GateOrder (w : Nat) where
  sideBuy : Bool
  tradingEnabled : Bool
  halted : Bool
  limitsValid : Bool
  clockHealthy : Bool
  feedHealthy : Bool
  priceTicks : BitVec w
  quantity : BitVec w
  maxQuantity : BitVec w
  maxNotionalTicks : BitVec w
  netPosition : BitVec w
  maxNetPosition : BitVec w
  deriving DecidableEq, Repr

/-- The product is assigned to `2 * WIDTH` bits, which widens its operands first. -/
def notional (order : GateOrder w) : BitVec (2 * w) :=
  order.priceTicks.zeroExtend (2 * w) * order.quantity.zeroExtend (2 * w)

def nextPosition (order : GateOrder w) : BitVec (w + 1) :=
  order.netPosition.signExtend (w + 1) +
    if order.sideBuy then order.quantity.zeroExtend (w + 1)
    else -(order.quantity.zeroExtend (w + 1))

def decisionComb (order : GateOrder w) (notional : BitVec (2 * w)) (next : BitVec (w + 1)) :
    Bool × BitVec 4 :=
  let bound := order.maxNetPosition.zeroExtend (w + 1)
  if !order.tradingEnabled || order.halted then (false, 1)
  else if !order.limitsValid then (false, 2)
  else if !order.clockHealthy || !order.feedHealthy then (false, 3)
  else if order.quantity = 0 ∨ order.quantity > order.maxQuantity then (false, 4)
  else if notional > order.maxNotionalTicks.zeroExtend (2 * w) then (false, 5)
  else if bound.slt next || next.slt (-bound) then (false, 6)
  else if order.priceTicks = 0 then (false, 7)
  else (true, 0)

/-- The inputs of `order_frame_bridge` at one clock edge. -/
structure FrameInput (w : Nat) where
  valid : Bool
  priceTicks : BitVec w
  quantity : BitVec w
  maxQuantity : BitVec w
  maxNotionalTicks : BitVec w
  netPosition : BitVec w
  maxNetPosition : BitVec w
  control : BitVec 8
  health : BitVec 8
  deriving DecidableEq, Repr

def frameParityOk (frame : FrameInput w) : Bool :=
  frame.control.extractLsb' 3 5 == 0 && frame.health.extractLsb' 3 5 == 0

/-- The registers of `order_frame_bridge`, all of them outputs. -/
structure OrderFrameBridge (w : Nat) where
  requestValid : Bool
  order : GateOrder w
  deriving DecidableEq, Repr

def OrderFrameBridge.reset : OrderFrameBridge w :=
  { requestValid := false
    order := ⟨false, false, true, false, false, false, 0, 0, 0, 0, 0, 0⟩ }

def OrderFrameBridge.clock (bridge : OrderFrameBridge w) (frame : FrameInput w) :
    OrderFrameBridge w :=
  if frame.valid && frameParityOk frame then
    { requestValid := true
      order :=
        { sideBuy := frame.control.getLsbD 2
          tradingEnabled := frame.control.getLsbD 0
          halted := frame.control.getLsbD 1
          limitsValid := frame.health.getLsbD 0
          clockHealthy := frame.health.getLsbD 1
          feedHealthy := frame.health.getLsbD 2
          priceTicks := frame.priceTicks
          quantity := frame.quantity
          maxQuantity := frame.maxQuantity
          maxNotionalTicks := frame.maxNotionalTicks
          netPosition := frame.netPosition
          maxNetPosition := frame.maxNetPosition } }
  else { bridge with requestValid := false }

/-- The registers of `risk_accelerator`. -/
structure RiskAccelerator (w : Nat) where
  stage1Valid : Bool
  stage1 : GateOrder w
  stage1Notional : BitVec (2 * w)
  stage1NextPosition : BitVec (w + 1)
  responseValid : Bool
  approved : Bool
  reasonCode : BitVec 4
  deriving DecidableEq, Repr

namespace RiskAccelerator

def requestReady (gate : RiskAccelerator w) : Bool := !gate.stage1Valid || gate.responseValid

def reset (gate : RiskAccelerator w) : RiskAccelerator w :=
  { gate with
    stage1Valid := false
    stage1Notional := 0
    stage1NextPosition := 0
    responseValid := false
    approved := false
    reasonCode := 1 }

def clock (gate : RiskAccelerator w) (requestValid : Bool) (order : GateOrder w) :
    RiskAccelerator w :=
  let comb := decisionComb gate.stage1 gate.stage1Notional gate.stage1NextPosition
  { stage1Valid := requestValid
    stage1 := if requestValid then order else gate.stage1
    stage1Notional := if requestValid then notional order else gate.stage1Notional
    stage1NextPosition := if requestValid then nextPosition order else gate.stage1NextPosition
    responseValid := gate.stage1Valid
    approved := if gate.stage1Valid then comb.1 else gate.approved
    reasonCode := if gate.stage1Valid then comb.2 else gate.reasonCode }

end RiskAccelerator

/-- The bridge feeding the accelerator on a common clock. -/
structure Pipeline (w : Nat) where
  bridge : OrderFrameBridge w
  gate : RiskAccelerator w
  deriving DecidableEq, Repr

def Pipeline.reset (pipe : Pipeline w) : Pipeline w :=
  { bridge := OrderFrameBridge.reset, gate := pipe.gate.reset }

/-- At an edge the accelerator samples what the bridge held before it. -/
def Pipeline.clock (pipe : Pipeline w) (frame : FrameInput w) : Pipeline w :=
  { bridge := pipe.bridge.clock frame
    gate := pipe.gate.clock pipe.bridge.requestValid pipe.bridge.order }

def Pipeline.run (pipe : Pipeline w) (frames : List (FrameInput w)) : Pipeline w :=
  frames.foldl Pipeline.clock pipe

def present (frame : RiskService.FpgaRiskFrame) : FrameInput 64 :=
  { valid := true
    priceTicks := frame.priceTicks.toBitVec
    quantity := frame.quantity.toBitVec
    maxQuantity := frame.maxQuantity.toBitVec
    maxNotionalTicks := frame.maxNotionalTicks.toBitVec
    netPosition := frame.netPosition.toBitVec
    maxNetPosition := frame.maxNetPosition.toBitVec
    control := frame.control.toBitVec
    health := frame.health.toBitVec }

end Ito.Rtl
