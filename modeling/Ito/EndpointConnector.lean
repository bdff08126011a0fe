import Ito.Library.ByteText

/-! One TLS connection to a venue and the frames on it.

Source: `cpp/ito_connectivity/endpoint_connector.cpp`. The operating system and
the TLS library are outside: `Network` says how they answer during one call. -/

namespace Ito

/-- What one read returns: at least one byte and at most the buffer. -/
structure Chunk where
  bytes : Bytes
  received : 0 < bytes.length
  fits : bytes.length ≤ 4096

/-- Whether a connection and its TLS session come about, whether every write of a
message goes through, and what a read finds. -/
structure Network where
  establishes : Bool
  writes : Bool
  reads : Option Chunk

structure EndpointConnectorConfig where
  tlsRequired : Bool := true
  liveEnabled : Bool := false
  deriving DecidableEq, Repr

/-- `sent` records the messages whose sending succeeded. It is not a field of the
source: it is what the other end of the connections has been given. -/
structure EndpointConnector where
  config : EndpointConnectorConfig
  connected : Bool := false
  sent : List Bytes := []
  deriving DecidableEq, Repr

def EndpointConnector.open (connector : EndpointConnector) (network : Network) :
    EndpointConnector × Bool :=
  if !connector.config.liveEnabled || !connector.config.tlsRequired || connector.connected then
    (connector, false)
  else ({ connector with connected := network.establishes }, network.establishes)

namespace EndpointConnector

def close (connector : EndpointConnector) : EndpointConnector :=
  { connector with connected := false }

def send (connector : EndpointConnector) (network : Network) (bytes : Bytes) :
    EndpointConnector × Bool :=
  if !connector.connected then (connector, false)
  else if bytes.isEmpty || network.writes then
    ({ connector with sent := connector.sent ++ [bytes] }, true)
  else (connector.close, false)

def le32ToCpu (b0 b1 b2 b3 : UInt8) : UInt32 :=
  b0.toUInt32 ||| (b1.toUInt32 <<< 8) ||| (b2.toUInt32 <<< 16) ||| (b3.toUInt32 <<< 24)

def verifyMessage (message : Bytes) : Bool := 0 < message.length

def receive (connector : EndpointConnector) (network : Network) : Option Bytes :=
  if !connector.connected then none
  else
    match network.reads with
    | none => none
    | some chunk =>
        match chunk.bytes with
        | b0 :: b1 :: b2 :: b3 :: message =>
            let length := le32ToCpu b0 b1 b2 b3
            if length > 4096 - 4 || message.length ≠ length.toNat then none
            else if !verifyMessage message then none
            else some message
        | _ => none

end EndpointConnector

end Ito
