import Mathlib.Tactic.Common

/-! The protocol records shared by every component, and the in-memory journal.

Source: `interfaces/schemas/ito_protocol.hpp` and `cpp/ito_core/event.cpp`.
Fixed-width fields keep their width. Identifiers that are only ever counted up
(journal sequence numbers, venue order ids) are natural numbers: a component
would have to count past `2 ^ 64` for the difference to show. -/

namespace Ito

/-- A C++ enumeration over `std::uint8_t` also holds values without an
enumerator. The risk engine tests for them on the side of an order, so they are
kept there as `unnamed`. -/
inductive Side where
  | buy
  | sell
  | unnamed
  deriving DecidableEq, Repr

inductive OrderType where
  | limit
  | market
  deriving DecidableEq, Repr

inductive TimeInForce where
  | day
  | ioc
  | fok
  deriving DecidableEq, Repr

inductive RiskStatus where
  | approved
  | rejected
  | halted
  deriving DecidableEq, Repr

inductive EventType where
  | intent
  | riskDecision
  | orderSent
  | acknowledgment
  | fill
  | cancel
  | halt
  deriving DecidableEq, Repr

structure OrderIntent where
  eventId : UInt64
  correlationId : UInt64
  strategyId : UInt64
  branchId : UInt64
  entityId : UInt64
  instrumentId : UInt32
  venueId : UInt16
  accountId : UInt32
  side : Side
  orderType : OrderType
  timeInForce : TimeInForce
  priceTicks : Int64
  quantity : Int64
  createdNs : UInt64
  deriving DecidableEq, Repr

structure LimitSnapshot where
  version : UInt64
  expiresNs : UInt64
  maxOrderQuantity : Int64
  maxOrderNotionalTicks : Int64
  maxNetPosition : Int64
  maxGrossPosition : Int64
  maxOrdersPerSecond : UInt64
  tradingEnabled : Bool
  deriving DecidableEq, Repr

structure RiskDecision where
  eventId : Nat
  correlationId : UInt64
  limitVersion : UInt64
  status : RiskStatus
  reasonCode : UInt16
  decidedNs : UInt64
  deriving DecidableEq, Repr

structure ExecutionEvent where
  eventId : Nat
  correlationId : UInt64
  venueOrderId : Nat
  type : EventType
  priceTicks : Int64
  quantity : Int64
  timestampNs : UInt64
  deriving DecidableEq, Repr

structure PositionSnapshot where
  netPosition : Int64
  grossPosition : Int64
  deriving DecidableEq, Repr

structure EventEnvelope where
  eventId : Nat
  sequence : Nat
  type : EventType
  payload : String
  deriving DecidableEq, Repr

structure EventJournal where
  nextSequence : Nat := 1
  nextEventId : Nat := 1
  events : List EventEnvelope := []
  deriving DecidableEq, Repr

namespace EventJournal

/-- The journal after `append`. The call returns the event id the new envelope
carries, which is `nextEventId` of the journal before it. -/
def append (journal : EventJournal) (type : EventType) (correlationId : UInt64)
    (payload : String) : EventJournal :=
  { nextSequence := journal.nextSequence + 1
    nextEventId := journal.nextEventId + 1
    events := journal.events ++
      [{ eventId := journal.nextEventId
         sequence := journal.nextSequence
         type
         payload := toString correlationId.toNat ++ ":" ++ payload }] }

end EventJournal

end Ito
