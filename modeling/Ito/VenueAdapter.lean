import Ito.Protocol

/-! The normalized order and execution records of venue connectivity and the
interface every venue adapter implements.

Source: `cpp/ito_connectivity/venue_types.hpp` and `venue_adapter.hpp`. A call
into an adapter may depend on the world outside, which `Answer` stands for. -/

namespace Ito

inductive VenueKind where
  | exchange
  | broker
  | darkPool
  | simulator
  deriving DecidableEq, Repr

inductive SessionStatus where
  | disabled
  | connecting
  | ready
  | degraded
  | halted
  | uncertain
  deriving DecidableEq, Repr

inductive ExecutionStatus where
  | accepted
  | rejected
  | partiallyFilled
  | filled
  | cancelled
  | expired
  | unknown
  deriving DecidableEq, Repr

inductive AdapterProtocol where
  | fix
  | binary
  | rest
  | webSocket
  | simulator
  deriving DecidableEq, Repr

structure VenueIdentity where
  venueId : UInt16
  brokerId : UInt16
  kind : VenueKind := .simulator
  protocol : AdapterProtocol := .simulator
  name : String
  region : String
  deriving DecidableEq, Repr

structure SessionConfig where
  venue : VenueIdentity
  liveEnabled : Bool := false
  deriving DecidableEq, Repr

structure NormalizedOrder where
  correlationId : UInt64
  clientOrderId : UInt64
  instrumentId : UInt32
  accountId : UInt32
  side : Side
  orderType : OrderType
  timeInForce : TimeInForce
  priceTicks : Int64
  quantity : Int64
  strategyId : UInt64
  deriving DecidableEq, Repr

structure ExecutionReport where
  correlationId : UInt64
  clientOrderId : UInt64
  venueOrderId : UInt64
  executionId : UInt64
  status : ExecutionStatus
  priceTicks : Int64
  quantity : Int64
  leavesQuantity : Int64
  exchangeTimestampNs : UInt64
  receiveTimestampNs : UInt64
  reasonCode : UInt16
  deriving DecidableEq, Repr

class VenueAdapter (A : Type) (Answer : outParam Type) where
  identity : A → VenueIdentity
  status : A → SessionStatus
  connect : A → Answer → UInt64 → A × Bool
  disconnect : A → UInt64 → A
  submit : A → Answer → NormalizedOrder → UInt64 → A × Option ExecutionReport
  cancel : A → Answer → UInt64 → UInt64 → A × Option ExecutionReport
  poll : A → Answer → UInt64 → A × List ExecutionReport

end Ito
