import Mathlib.Algebra.Order.Ring.Int
import Mathlib.Tactic.Common

/-! The software risk gate of the risk service and the frame it hands to hardware.

Source: `rust/risk_service/src/lib.rs`. The digest of a request (its JSON, hashed
and written in hexadecimal) comes from external crates and is a parameter. -/

namespace Ito.RiskService

inductive Side where
  | buy
  | sell
  deriving DecidableEq, Repr

structure RiskRequest where
  priceTicks : UInt64
  quantity : UInt64
  maxQuantity : UInt64
  maxNotionalTicks : UInt64
  netPosition : Int64
  maxNetPosition : UInt64
  side : Side
  tradingEnabled : Bool
  limitsValid : Bool
  clockHealthy : Bool
  feedHealthy : Bool
  halted : Bool
  deriving DecidableEq, Repr

inductive Decision where
  | approved
  | tradingDisabled
  | limitsInvalid
  | healthInvalid
  | quantityInvalid
  | priceInvalid
  | notionalInvalid
  | positionInvalid
  | arithmeticOverflow
  deriving DecidableEq, Repr

structure RiskResponse where
  decision : Decision
  reasonCode : UInt8
  requestDigest : String
  deriving DecidableEq, Repr

/-- Multiplication of `u64` that reports overflow. -/
def checkedMul (a b : UInt64) : Option UInt64 :=
  if a.toNat * b.toNat < 2 ^ 64 then some (a * b) else none

/-- The position after the order. Both operands are `i64` or `u64` values, so the
`i128` sum of the source never overflows. -/
def nextPosition (request : RiskRequest) : Int :=
  let signed : Int := match request.side with
    | .buy => request.quantity.toNat
    | .sell => -request.quantity.toNat
  request.netPosition.toInt + signed

/-- The chain of checks in `evaluate`. -/
def decisionOf (request : RiskRequest) : Decision :=
  if !request.tradingEnabled || request.halted then .tradingDisabled
  else if !request.limitsValid then .limitsInvalid
  else if !request.clockHealthy || !request.feedHealthy then .healthInvalid
  else if request.quantity = 0 ∨ request.quantity > request.maxQuantity then .quantityInvalid
  else if request.priceTicks = 0 then .priceInvalid
  else if (checkedMul request.priceTicks request.quantity).isNone then .arithmeticOverflow
  else if request.priceTicks * request.quantity > request.maxNotionalTicks then .notionalInvalid
  else if (nextPosition request).natAbs > request.maxNetPosition.toNat then .positionInvalid
  else .approved

def reasonCode : Decision → UInt8
  | .approved => 0
  | .tradingDisabled => 1
  | .limitsInvalid => 2
  | .healthInvalid => 3
  | .quantityInvalid => 4
  | .priceInvalid => 5
  | .notionalInvalid => 6
  | .positionInvalid => 7
  | .arithmeticOverflow => 8

def evaluate (digest : RiskRequest → String) (request : RiskRequest) : RiskResponse :=
  let decision := decisionOf request
  { decision, reasonCode := reasonCode decision, requestDigest := digest request }

structure FpgaRiskFrame where
  priceTicks : UInt64
  quantity : UInt64
  maxQuantity : UInt64
  maxNotionalTicks : UInt64
  netPosition : Int64
  maxNetPosition : UInt64
  control : UInt8
  health : UInt8
  deriving DecidableEq, Repr

def toFpgaFrame (request : RiskRequest) : FpgaRiskFrame :=
  { priceTicks := request.priceTicks
    quantity := request.quantity
    maxQuantity := request.maxQuantity
    maxNotionalTicks := request.maxNotionalTicks
    netPosition := request.netPosition
    maxNetPosition := request.maxNetPosition
    control := request.tradingEnabled.toUInt8 ||| (request.halted.toUInt8 <<< 1) |||
      ((request.side == .buy).toUInt8 <<< 2)
    health := request.limitsValid.toUInt8 ||| (request.clockHealthy.toUInt8 <<< 1) |||
      (request.feedHealthy.toUInt8 <<< 2) }

end Ito.RiskService
