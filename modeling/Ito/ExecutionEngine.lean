import Ito.RiskEngine
import Mathlib.Data.Finmap

/-! The execution engine: order entry behind the risk engine, with a halt
switch, a gateway state and a circuit breaker.

Source: `cpp/ito_execution/execution_engine.cpp`. The journal and the risk
engine are references in the source, shared with their other clients, so both
are part of the state here. -/

namespace Ito

inductive GatewayState where
  | disconnected
  | ready
  | halted
  | uncertain
  deriving DecidableEq, Repr

inductive CircuitState where
  | closed
  | halfOpen
  | open
  deriving DecidableEq, Repr

structure ExecutionEngine where
  journal : EventJournal
  riskEngine : RiskEngine
  gatewayState : GatewayState := .disconnected
  circuitState : CircuitState := .closed
  halted : Bool := true
  nextVenueOrderId : Nat := 1
  circuitFailures : Nat := 0
  circuitOpenedAtNs : UInt64 := 0
  halfOpenInFlight : Bool := false
  active : Finmap (fun _ : UInt64 => ExecutionEvent) := ∅

namespace ExecutionEngine

def kGatewayUnavailable : Nat := 200
def kRiskRejected : Nat := 202
def kDuplicateCorrelation : Nat := 203
def kCircuitOpen : Nat := 204
def kCircuitHalfOpen : Nat := 205
def kCircuitFailureThreshold : Nat := 5
def kCircuitCooldownNs : UInt64 := 30000000000

def create (journal : EventJournal) (riskEngine : RiskEngine) : ExecutionEngine :=
  { journal, riskEngine }

def setGatewayState (engine : ExecutionEngine) (state : GatewayState) : ExecutionEngine :=
  if state = .ready then
    { engine with
      gatewayState := state, circuitState := .closed, circuitFailures := 0, circuitOpenedAtNs := 0 }
  else { engine with gatewayState := state }

def setHalted (engine : ExecutionEngine) (halted : Bool) : ExecutionEngine :=
  if halted then
    { engine with
      halted := true
      gatewayState := .halted
      journal := engine.journal.append .halt 0 "halted" }
  else if engine.gatewayState = .halted then
    { engine with
      halted := false
      gatewayState := .ready
      journal := engine.journal.append .acknowledgment 0 "halt_cleared" }
  else { engine with halted := false }

def countFailure (engine : ExecutionEngine) (nowNs : UInt64) : ExecutionEngine :=
  let counted := { engine with circuitFailures := engine.circuitFailures + 1 }
  if counted.circuitFailures ≥ kCircuitFailureThreshold then
    { counted with circuitState := .open, circuitOpenedAtNs := nowNs }
  else counted

def coolDown (engine : ExecutionEngine) (nowNs : UInt64) : ExecutionEngine :=
  if engine.circuitState = .open ∧ nowNs - engine.circuitOpenedAtNs ≥ kCircuitCooldownNs then
    { engine with circuitState := .halfOpen }
  else engine

def refuse (engine : ExecutionEngine) (correlationId : UInt64) (code : Nat) :
    ExecutionEngine × Option ExecutionEvent :=
  ({ engine with journal := engine.journal.append .orderSent correlationId (toString code) }, none)

/-- The end of `submit`, after every check has passed. -/
def send (engine : ExecutionEngine) (intent : OrderIntent) (nowNs : UInt64) :
    ExecutionEngine × Option ExecutionEvent :=
  let event : ExecutionEvent :=
    { eventId := engine.journal.nextEventId
      correlationId := intent.correlationId
      venueOrderId := engine.nextVenueOrderId
      type := .orderSent
      priceTicks := intent.priceTicks
      quantity := intent.quantity
      timestampNs := nowNs }
  ({ engine with
      halfOpenInFlight := engine.halfOpenInFlight || engine.circuitState = .halfOpen
      nextVenueOrderId := engine.nextVenueOrderId + 1
      journal := engine.journal.append .orderSent intent.correlationId (toString event.venueOrderId)
      active := engine.active.insert intent.correlationId event }, some event)

def submit (engine : ExecutionEngine) (intent : OrderIntent) (nowNs : UInt64) :
    Option (ExecutionEngine × Option ExecutionEvent) :=
  if intent.correlationId = 0 ∨ intent.correlationId ∈ engine.active then
    some (engine.refuse intent.correlationId kDuplicateCorrelation)
  else
    let engine := engine.coolDown nowNs
    if engine.circuitState = .open then
      some (engine.refuse intent.correlationId kCircuitOpen)
    else if engine.circuitState = .halfOpen ∧ engine.halfOpenInFlight then
      some (engine.refuse intent.correlationId kCircuitHalfOpen)
    else if engine.halted ∨ engine.gatewayState ≠ .ready then
      some ((engine.countFailure nowNs).refuse intent.correlationId kGatewayUnavailable)
    else
      (engine.riskEngine.evaluate engine.journal intent nowNs).map fun decided =>
        let engine := { engine with riskEngine := decided.1, journal := decided.2.1 }
        if decided.2.2.status ≠ .approved then
          (engine.countFailure nowNs).refuse intent.correlationId kRiskRejected
        else engine.send intent nowNs

def cancelReplace (engine : ExecutionEngine) (correlationId : UInt64) (newPrice newQuantity : Int64)
    (nowNs : UInt64) : ExecutionEngine × Option ExecutionEvent :=
  match engine.active.lookup correlationId with
  | none => (engine, none)
  | some order =>
      if newPrice ≤ 0 ∨ newQuantity ≤ 0 ∨ engine.halted ∨ engine.gatewayState ≠ .ready then
        (engine, none)
      else
        let replaced : ExecutionEvent :=
          { order with
            eventId := engine.journal.nextEventId
            type := .cancel
            priceTicks := newPrice
            quantity := newQuantity
            timestampNs := nowNs }
        ({ engine with
            journal := engine.journal.append .cancel correlationId
              (toString order.venueOrderId ++ ":" ++ toString newPrice.toInt ++ ":" ++
                toString newQuantity.toInt)
            active := engine.active.insert correlationId replaced }, some replaced)

/-- The acknowledgment names an active order and the venue id it was sent under. -/
def awaits (engine : ExecutionEngine) (correlationId : UInt64) (venueOrderId : Nat) : Bool :=
  match engine.active.lookup correlationId with
  | none => false
  | some order => order.venueOrderId == venueOrderId

def acknowledge (engine : ExecutionEngine) (correlationId : UInt64) (venueOrderId : Nat)
    (nowNs : UInt64) : ExecutionEngine × Bool :=
  if engine.awaits correlationId venueOrderId then
    let noted := { engine with
      journal := engine.journal.append .acknowledgment correlationId (toString venueOrderId)
      active := engine.active.erase correlationId }
    if noted.circuitState = .halfOpen then
      ({ noted with
          circuitState := .closed
          circuitFailures := 0
          circuitOpenedAtNs := 0
          halfOpenInFlight := false }, true)
    else (noted, true)
  else
    let failed := { engine with gatewayState := .uncertain }.countFailure nowNs
    ({ failed with journal := failed.journal.append .acknowledgment correlationId "uncertain" },
      false)

/-- The calls on the engine, and the calls others make on its risk engine. -/
inductive Op where
  | submit (intent : OrderIntent) (nowNs : UInt64)
  | cancelReplace (correlationId : UInt64) (newPrice newQuantity : Int64) (nowNs : UInt64)
  | acknowledge (correlationId : UInt64) (venueOrderId : Nat) (nowNs : UInt64)
  | setGatewayState (state : GatewayState)
  | setHalted (halted : Bool)
  | risk (op : RiskEngine.Op)

inductive Output where
  | done
  | event (event : Option ExecutionEvent)
  | acknowledged (matched : Bool)

def step (engine : ExecutionEngine) : Op → Option (ExecutionEngine × Output)
  | .submit intent nowNs =>
      (engine.submit intent nowNs).map fun next => (next.1, .event next.2)
  | .cancelReplace correlationId newPrice newQuantity nowNs =>
      let next := engine.cancelReplace correlationId newPrice newQuantity nowNs
      some (next.1, .event next.2)
  | .acknowledge correlationId venueOrderId nowNs =>
      let next := engine.acknowledge correlationId venueOrderId nowNs
      some (next.1, .acknowledged next.2)
  | .setGatewayState state => some (engine.setGatewayState state, .done)
  | .setHalted halted => some (engine.setHalted halted, .done)
  | .risk op =>
      (RiskEngine.step (engine.riskEngine, engine.journal) op).map fun next =>
        ({ engine with riskEngine := next.1.1, journal := next.1.2 }, .done)

end ExecutionEngine

end Ito
