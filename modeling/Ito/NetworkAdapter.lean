import Ito.EndpointConnector
import Ito.VenueAdapter
import Mathlib.Data.Finmap

/-! The venue adapter that talks to a venue over a connection.

Source: `cpp/ito_connectivity/network_adapter.cpp`. -/

namespace Ito

structure NetworkVenueAdapter where
  session : SessionConfig
  connector : EndpointConnector
  status : SessionStatus := .disabled
  reports : List ExecutionReport := []
  pending : Finmap (fun _ : UInt64 => NormalizedOrder) := ∅

namespace NetworkVenueAdapter

def sideName (side : Side) : Bytes := Bytes.ofText (if side = .buy then "B" else "S")

def packFramedMessage (payload : Bytes) : Bytes :=
  let length := UInt32.ofNat payload.length
  (length &&& 0xFF).toUInt8 :: ((length >>> 8) &&& 0xFF).toUInt8 ::
    ((length >>> 16) &&& 0xFF).toUInt8 :: ((length >>> 24) &&& 0xFF).toUInt8 :: payload

def encodeOrder (order : NormalizedOrder) : Bytes :=
  Bytes.ofText "N|" ++ Bytes.decimal order.clientOrderId.toNat ++
    Bytes.ofText "|" ++ Bytes.decimal order.instrumentId.toNat ++
    Bytes.ofText "|" ++ sideName order.side ++
    Bytes.ofText "|" ++ Bytes.signedDecimal order.priceTicks.toInt ++
    Bytes.ofText "|" ++ Bytes.signedDecimal order.quantity.toInt ++
    Bytes.ofText "|" ++ Bytes.decimal order.strategyId.toNat ++ Bytes.ofText "\n"

def encodeCancel (clientOrderId : UInt64) : Bytes :=
  Bytes.ofText "C|" ++ Bytes.decimal clientOrderId.toNat ++ Bytes.ofText "\n"

def create (session : SessionConfig) (endpoint : EndpointConnectorConfig) : NetworkVenueAdapter :=
  { session, connector := { config := endpoint } }

def connect (adapter : NetworkVenueAdapter) (network : Network) : NetworkVenueAdapter × Bool :=
  if !adapter.session.liveEnabled then ({ adapter with status := .disabled }, false)
  else
    let (connector, opened) := adapter.connector.open network
    ({ adapter with connector, status := if opened then .ready else .degraded }, opened)

def disconnect (adapter : NetworkVenueAdapter) : NetworkVenueAdapter :=
  { adapter with connector := adapter.connector.close, status := .disabled }

def submit (adapter : NetworkVenueAdapter) (network : Network) (order : NormalizedOrder)
    (nowNs : UInt64) : NetworkVenueAdapter × Option ExecutionReport :=
  if order.clientOrderId = 0 ∨ order.correlationId = 0 ∨ order.quantity ≤ 0 ∨
      adapter.status ≠ .ready ∨ order.clientOrderId ∈ adapter.pending then
    (adapter, none)
  else
    let (connector, delivered) :=
      adapter.connector.send network (packFramedMessage (encodeOrder order))
    if !delivered then ({ adapter with connector, status := .degraded }, none)
    else
      ({ adapter with
         connector
         pending := adapter.pending.insert order.clientOrderId order
         status := .uncertain },
       some ⟨order.correlationId, order.clientOrderId, 0, 0, .unknown, order.priceTicks, 0,
         order.quantity, nowNs, nowNs, 0⟩)

def cancel (adapter : NetworkVenueAdapter) (network : Network) (clientOrderId nowNs : UInt64) :
    NetworkVenueAdapter × Option ExecutionReport :=
  let unsent := ({ adapter with status := .uncertain }, none)
  if clientOrderId = 0 ∨ adapter.status = .disabled ∨ adapter.status = .degraded then unsent
  else
    match adapter.pending.lookup clientOrderId with
    | none => unsent
    | some order =>
        let (connector, delivered) :=
          adapter.connector.send network (packFramedMessage (encodeCancel clientOrderId))
        let after := { adapter with connector, status := .uncertain }
        if !delivered then (after, none)
        else
          (after, some ⟨order.correlationId, clientOrderId, 0, 0, .unknown, 0, 0, order.quantity,
            nowNs, nowNs, 0⟩)

def report (adapter : NetworkVenueAdapter) (report : ExecutionReport) : NetworkVenueAdapter :=
  { adapter with reports := adapter.reports ++ [report] }

/-- The handler of the exceptions that reading numbers throws. -/
def unreadable (adapter : NetworkVenueAdapter) (nowNs : UInt64) : NetworkVenueAdapter :=
  adapter.report ⟨0, 0, 0, 0, .unknown, 0, 0, 0, nowNs, nowNs, 401⟩

def field (index : Nat) (line : Bytes) : Bytes := Bytes.piece (Bytes.ofChar '|') index line

/-- One turn of the loop of `decode_reports`. The status is set before the rest of
the line is read, so an exception keeps it. -/
def decodeLine (nowNs : UInt64) (adapter : NetworkVenueAdapter) (line : Bytes) :
    NetworkVenueAdapter :=
  let kind := field 0 line
  match Bytes.stoull (field 1 line) with
  | none => adapter.unreadable nowNs
  | some clientOrderId =>
      let pending := adapter.pending.lookup clientOrderId
      let correlationId := (pending.map NormalizedOrder.correlationId).getD 0
      let ready := { adapter with status := .ready }
      let finished := { ready with pending := adapter.pending.erase clientOrderId }
      if kind = Bytes.ofText "ACK" then
        match Bytes.stoull (field 2 line) with
        | none => ready.unreadable nowNs
        | some venue =>
            finished.report ⟨correlationId, clientOrderId, venue, 0, .accepted, 0, 0,
              (pending.map NormalizedOrder.quantity).getD 0, nowNs, nowNs, 0⟩
      else if kind = Bytes.ofText "FILL" then
        match Bytes.stoll (field 5 line), Bytes.stoull (field 2 line), Bytes.stoll (field 3 line),
            Bytes.stoll (field 4 line) with
        | some remaining, some execution, some price, some quantity =>
            (if remaining = 0 then finished else ready).report
              ⟨correlationId, clientOrderId, 0, execution,
                if remaining = 0 then .filled else .partiallyFilled, price, quantity, remaining,
                nowNs, nowNs, 0⟩
        | _, _, _, _ => ready.unreadable nowNs
      else if kind = Bytes.ofText "REJECT" then
        finished.report ⟨correlationId, clientOrderId, 0, 0, .rejected, 0, 0, 0, nowNs, nowNs, 400⟩
      else adapter

def decodeReports (adapter : NetworkVenueAdapter) (network : Network) (nowNs : UInt64) :
    NetworkVenueAdapter :=
  match adapter.connector.receive network with
  | none => adapter
  | some raw => (Bytes.pieces (Bytes.ofChar '\n') raw).foldl (decodeLine nowNs) adapter

def poll (adapter : NetworkVenueAdapter) (network : Network) (nowNs : UInt64) :
    NetworkVenueAdapter × List ExecutionReport :=
  let decoded := adapter.decodeReports network nowNs
  ({ decoded with
     reports := []
     status :=
       if decoded.pending = ∅ ∧ decoded.status = .uncertain then .ready else decoded.status },
   decoded.reports)

instance : VenueAdapter NetworkVenueAdapter Network where
  identity adapter := adapter.session.venue
  status adapter := adapter.status
  connect adapter network _ := adapter.connect network
  disconnect adapter _ := adapter.disconnect
  submit := submit
  cancel := cancel
  poll := poll

end NetworkVenueAdapter

end Ito
