import Ito.ExchangeConservation
import Ito.VenueAdapter

/-! The venue adapter over the exchange simulator.

Source: `cpp/ito_connectivity/simulator_adapter.cpp`. The adapter and its exchange
hold one journal, which is the exchange's here. -/

namespace Ito

/-- The execution report of this adapter. Its venue order ids and execution ids are counted
up and never reach the width of the field. -/
structure SimulatorReport where
  correlationId : UInt64
  clientOrderId : UInt64
  venueOrderId : Nat
  executionId : Nat
  status : ExecutionStatus
  priceTicks : Int64
  quantity : Int64
  leavesQuantity : Int64
  exchangeTimestampNs : UInt64
  receiveTimestampNs : UInt64
  reasonCode : UInt16
  deriving DecidableEq, Repr

structure SimulatorAdapter where
  identity : VenueIdentity
  status : SessionStatus := .disabled
  exchange : ExchangeSimulator
  nextExecutionId : Nat := 1
  clientToVenue : Finmap fun _ : UInt64 => Nat := ∅

namespace SimulatorAdapter

def create (journal : EventJournal) (identity : VenueIdentity) : SimulatorAdapter :=
  { identity, exchange := ExchangeSimulator.create journal }

def connect (adapter : SimulatorAdapter) (_nowNs : UInt64) : SimulatorAdapter × Bool :=
  ({ adapter with status := .ready }, true)

def disconnect (adapter : SimulatorAdapter) (_nowNs : UInt64) : SimulatorAdapter :=
  { adapter with status := .disabled }

def intentOf (adapter : SimulatorAdapter) (order : NormalizedOrder) (nowNs : UInt64) : OrderIntent :=
  { eventId := order.clientOrderId
    correlationId := order.correlationId
    strategyId := order.strategyId
    branchId := 0
    entityId := 0
    instrumentId := order.instrumentId
    venueId := adapter.identity.venueId
    accountId := order.accountId
    side := order.side
    orderType := order.orderType
    timeInForce := order.timeInForce
    priceTicks := order.priceTicks
    quantity := order.quantity
    createdNs := nowNs }

/-- The body of the loop over the matches: the filled quantity so far, and a journal entry. -/
def noteMatch (correlationId : UInt64) (now : EventJournal × Int64) (event : MatchEvent) :
    Option (EventJournal × Int64) := do
  let filled ← CheckedInt.add? now.2 event.quantity
  return (now.1.append .fill correlationId
    (toString event.makerOrderId ++ ":" ++ toString event.quantity.toInt), filled)

def submit (adapter : SimulatorAdapter) (order : NormalizedOrder) (nowNs : UInt64) :
    Option (SimulatorAdapter × Option SimulatorReport) :=
  if adapter.status ≠ .ready ∨ adapter.identity.venueId = 0 then some (adapter, none)
  else do
    let (exchange, result) ← adapter.exchange.submit (adapter.intentOf order nowNs) nowNs
    if !result.accepted then
      return ({ adapter with exchange }, some ⟨order.correlationId, order.clientOrderId,
        result.venueOrderId, 0, .rejected, order.priceTicks, 0, order.quantity, nowNs, nowNs, 300⟩)
    let (journal, filled) ←
      result.matchEvents.foldlM (noteMatch order.correlationId) (exchange.journal, 0)
    let status := if filled = 0 then .accepted
      else if result.remainingQuantity = 0 then .filled else .partiallyFilled
    let clientToVenue := if 0 < result.remainingQuantity then
        adapter.clientToVenue.insert order.clientOrderId result.venueOrderId
      else adapter.clientToVenue
    return ({ adapter with
        exchange := { exchange with journal }
        nextExecutionId := adapter.nextExecutionId + 1
        clientToVenue },
      some ⟨order.correlationId, order.clientOrderId, result.venueOrderId, adapter.nextExecutionId,
        status, order.priceTicks, filled, result.remainingQuantity, nowNs, nowNs, 0⟩)

def cancelReport (clientOrderId : UInt64) (venueOrderId : Nat) (status : ExecutionStatus)
    (nowNs : UInt64) (reasonCode : UInt16) : SimulatorReport :=
  ⟨0, clientOrderId, venueOrderId, 0, status, 0, 0, 0, nowNs, nowNs, reasonCode⟩

def cancel (adapter : SimulatorAdapter) (clientOrderId : UInt64) (nowNs : UInt64) :
    SimulatorAdapter × Option SimulatorReport :=
  if adapter.status ≠ .ready then (adapter, none)
  else
    match adapter.clientToVenue.lookup clientOrderId with
    | none => (adapter, some (cancelReport clientOrderId 0 .unknown nowNs 304))
    | some venueOrderId =>
        match adapter.exchange.cancel venueOrderId nowNs with
        | (exchange, false) =>
            ({ adapter with exchange },
              some (cancelReport clientOrderId venueOrderId .unknown nowNs 304))
        | (exchange, true) =>
            ({ adapter with
                exchange
                clientToVenue := adapter.clientToVenue.erase clientOrderId },
              some (cancelReport clientOrderId venueOrderId .cancelled nowNs 0))

def poll (_adapter : SimulatorAdapter) (_nowNs : UInt64) : List SimulatorReport := []

inductive Op where
  | connect (nowNs : UInt64)
  | disconnect (nowNs : UInt64)
  | submit (order : NormalizedOrder) (nowNs : UInt64)
  | cancel (clientOrderId : UInt64) (nowNs : UInt64)
  | poll (nowNs : UInt64)

def step (adapter : SimulatorAdapter) : Op → Option (SimulatorAdapter × List SimulatorReport)
  | .connect nowNs => some ((adapter.connect nowNs).1, [])
  | .disconnect nowNs => some (adapter.disconnect nowNs, [])
  | .submit order nowNs => (adapter.submit order nowNs).map fun next => (next.1, next.2.toList)
  | .cancel clientOrderId nowNs =>
      let next := adapter.cancel clientOrderId nowNs
      some (next.1, next.2.toList)
  | .poll nowNs => some (adapter, adapter.poll nowNs)

end SimulatorAdapter

end Ito
