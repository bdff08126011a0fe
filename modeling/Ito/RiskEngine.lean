import Ito.Library.CheckedInt
import Ito.Library.Machine
import Ito.Protocol

/-! The pre-trade risk engine.

Source: `cpp/ito_risk/risk_engine.cpp`. Signed arithmetic is checked: a call
that would overflow an `int64` is `none`. -/

namespace Ito

open CheckedInt

inductive Health where
  | healthy
  | stale
  | halted
  deriving DecidableEq, Repr

structure RiskEngine where
  limits : LimitSnapshot := ⟨0, 0, 0, 0, 0, 0, 0, false⟩
  position : PositionSnapshot := ⟨0, 0⟩
  health : Health := .halted
  ordersThisSecond : UInt64 := 0
  secondEpochNs : UInt64 := 0
  deriving DecidableEq, Repr

namespace RiskEngine

def kNotEnabled : UInt16 := 100
def kExpiredLimits : UInt16 := 101
def kUnhealthy : UInt16 := 102
def kQuantity : UInt16 := 103
def kNotional : UInt16 := 104
def kPosition : UInt16 := 105
def kRate : UInt16 := 106
def kOverflow : UInt16 := 107
def kInvalidOrder : UInt16 := 108
def kInvalidLimits : UInt16 := 109

def setLimits (engine : RiskEngine) (limits : LimitSnapshot) : RiskEngine :=
  { engine with limits, ordersThisSecond := 0, secondEpochNs := 0 }

/-- The positions `set_position` ignores. -/
def positionRefused (position : PositionSnapshot) : Option Bool :=
  pure (decide (position.grossPosition < 0)) <||>
    pure (decide (position.netPosition > position.grossPosition)) <||>
    (do return decide (position.netPosition < (← neg? position.grossPosition)))

def setPosition (engine : RiskEngine) (position : PositionSnapshot) : Option RiskEngine := do
  if ← positionRefused position then return engine
  else return { engine with position }

def setHealth (engine : RiskEngine) (health : Health) : RiskEngine := { engine with health }

def signedQuantity (side : Side) (quantity : Int64) : Option Int64 :=
  if side = .buy then pure quantity else neg? quantity

/-- First guard of `apply_fill`: the fill is empty or the gross position would
leave the `int64` range. -/
def grossOverflows (position : PositionSnapshot) (quantity : Int64) : Option Bool :=
  pure (decide (quantity ≤ 0)) <||>
    pure (decide (position.grossPosition < 0)) <||>
    (do return decide (quantity > (← sub? Int64.maxValue position.grossPosition)))

/-- Second guard of `apply_fill`: the net position would leave the `int64` range. -/
def netOverflows (position : PositionSnapshot) (signed : Int64) : Option Bool :=
  (pure (decide (signed > 0)) <&&>
      (do return decide (position.netPosition > (← sub? Int64.maxValue signed)))) <||>
    (pure (decide (signed < 0)) <&&>
      (do return decide (position.netPosition < (← sub? Int64.minValue signed))))

/-- Third guard of `apply_fill`: the position after the fill breaks a limit. -/
def breaksLimits (limits : LimitSnapshot) (nextGross nextNet : Int64) : Option Bool :=
  pure (decide (nextGross > limits.maxGrossPosition)) <||>
    pure (decide (nextNet > limits.maxNetPosition)) <||>
    (do return decide (nextNet < (← neg? limits.maxNetPosition)))

def applyFill (engine : RiskEngine) (journal : EventJournal) (side : Side) (quantity : Int64) :
    Option (RiskEngine × EventJournal × Bool) := do
  if ← grossOverflows engine.position quantity then return (engine, journal, false)
  else
    let signed ← signedQuantity side quantity
    if side ≠ .buy ∧ side ≠ .sell then return (engine, journal, false)
    else if ← netOverflows engine.position signed then return (engine, journal, false)
    else
      let nextGross ← add? engine.position.grossPosition quantity
      let nextNet ← add? engine.position.netPosition signed
      if ← breaksLimits engine.limits nextGross nextNet then return (engine, journal, false)
      else
        return ({ engine with position := ⟨nextNet, nextGross⟩ },
          journal.append .fill 0 (toString quantity.toInt), true)

def reject (engine : RiskEngine) (journal : EventJournal) (correlationId nowNs : UInt64)
    (reason : UInt16) : RiskEngine × EventJournal × RiskDecision :=
  (engine, journal.append .riskDecision correlationId (toString reason.toNat),
    { eventId := journal.nextEventId
      correlationId
      limitVersion := engine.limits.version
      status := .rejected
      reasonCode := reason
      decidedNs := nowNs })

/-- The price is not positive or the notional would leave the `int64` range. -/
def notionalOverflows (intent : OrderIntent) : Option Bool :=
  pure (decide (intent.priceTicks ≤ 0)) <||>
    (do return decide (intent.priceTicks > (← div? Int64.maxValue intent.quantity)))

def netExceeded (limits : LimitSnapshot) (position : PositionSnapshot) (signed : Int64) :
    Option Bool :=
  (pure (decide (signed > 0)) <&&>
      ((do return decide (position.netPosition > (← sub? limits.maxNetPosition signed))) <||>
       (do return decide (position.netPosition < (← add? Int64.minValue signed))))) <||>
    (pure (decide (signed < 0)) <&&>
      ((do return decide (position.netPosition < (← sub? (← neg? limits.maxNetPosition) signed))) <||>
       (do return decide (position.netPosition > (← add? Int64.maxValue signed)))))

def grossExceeded (limits : LimitSnapshot) (position : PositionSnapshot) (quantity : Int64) :
    Option Bool :=
  pure (decide (position.grossPosition < 0)) <||>
    pure (decide (limits.maxGrossPosition < position.grossPosition)) <||>
    (do return decide (quantity > (← sub? limits.maxGrossPosition position.grossPosition)))

/-- The checks `evaluate` makes on the order's quantity, notional and position,
in order: the reason of the first one that fails, or `none` when all pass. -/
def sizeRefusal (limits : LimitSnapshot) (position : PositionSnapshot) (intent : OrderIntent) :
    Option (Option UInt16) := do
  if intent.quantity ≤ 0 ∨ intent.quantity > limits.maxOrderQuantity then return some kQuantity
  else if ← notionalOverflows intent then return some kOverflow
  else
    let notional ← mul? intent.priceTicks intent.quantity
    if notional > limits.maxOrderNotionalTicks then return some kNotional
    else
      let signed ← signedQuantity intent.side intent.quantity
      if ← netExceeded limits position signed then return some kPosition
      else if ← grossExceeded limits position intent.quantity then return some kPosition
      else return none

/-- All checks `evaluate` makes before it looks at the order rate. -/
def refusal (engine : RiskEngine) (intent : OrderIntent) (nowNs : UInt64) :
    Option (Option UInt16) :=
  let limits := engine.limits
  if !limits.tradingEnabled then
    some (some kNotEnabled)
  else if limits.version = 0 ∨ limits.expiresNs = 0 ∨ limits.maxOrderQuantity ≤ 0 ∨
      limits.maxOrderNotionalTicks ≤ 0 ∨ limits.maxNetPosition < 0 ∨
      limits.maxGrossPosition < 0 ∨ limits.maxOrdersPerSecond = 0 then
    some (some kInvalidLimits)
  else if limits.expiresNs ≤ nowNs then
    some (some kExpiredLimits)
  else if engine.health ≠ .healthy then
    some (some kUnhealthy)
  else if intent.eventId = 0 ∨ intent.correlationId = 0 ∨ intent.strategyId = 0 ∨
      intent.branchId = 0 ∨ intent.entityId = 0 ∨ intent.instrumentId = 0 ∨
      intent.venueId = 0 ∨ intent.accountId = 0 ∨ intent.createdNs > nowNs ∨
      intent.orderType ≠ .limit ∨ (intent.side ≠ .buy ∧ intent.side ≠ .sell) then
    some (some kInvalidOrder)
  else
    sizeRefusal limits engine.position intent

/-- The rate window an order at `nowNs` falls into: the current one, or a new
one when it has run out, has never been opened, or the clock went back. -/
def rollWindow (engine : RiskEngine) (nowNs : UInt64) : RiskEngine :=
  if engine.secondEpochNs = 0 ∨ nowNs < engine.secondEpochNs ∨
      nowNs - engine.secondEpochNs ≥ 1000000000 then
    { engine with secondEpochNs := nowNs, ordersThisSecond := 0 }
  else
    engine

def evaluate (engine : RiskEngine) (journal : EventJournal) (intent : OrderIntent)
    (nowNs : UInt64) : Option (RiskEngine × EventJournal × RiskDecision) := do
  match ← refusal engine intent nowNs with
  | some reason => return reject engine journal intent.correlationId nowNs reason
  | none =>
      let rolled := rollWindow engine nowNs
      if rolled.ordersThisSecond ≥ rolled.limits.maxOrdersPerSecond then
        return reject rolled journal intent.correlationId nowNs kRate
      else
        return ({ rolled with ordersThisSecond := rolled.ordersThisSecond + 1 },
          journal.append .riskDecision intent.correlationId "approved",
          { eventId := journal.nextSequence
            correlationId := intent.correlationId
            limitVersion := rolled.limits.version
            status := .approved
            reasonCode := 0
            decidedNs := nowNs })

inductive Op where
  | setLimits (limits : LimitSnapshot)
  | setPosition (position : PositionSnapshot)
  | setHealth (health : Health)
  | applyFill (side : Side) (quantity : Int64)
  | evaluate (intent : OrderIntent) (nowNs : UInt64)

inductive Output where
  | done
  | filled (booked : Bool)
  | decided (decision : RiskDecision)

def step : RiskEngine × EventJournal → Op → Option ((RiskEngine × EventJournal) × Output)
  | (engine, journal), .setLimits limits => some ((engine.setLimits limits, journal), .done)
  | (engine, journal), .setPosition position =>
      (engine.setPosition position).map fun next => ((next, journal), .done)
  | (engine, journal), .setHealth health => some ((engine.setHealth health, journal), .done)
  | (engine, journal), .applyFill side quantity =>
      (engine.applyFill journal side quantity).map fun next =>
        ((next.1, next.2.1), .filled next.2.2)
  | (engine, journal), .evaluate intent nowNs =>
      (engine.evaluate journal intent nowNs).map fun next =>
        ((next.1, next.2.1), .decided next.2.2)

end RiskEngine

end Ito
