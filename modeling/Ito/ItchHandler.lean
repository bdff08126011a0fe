import Ito.Library.PythonText
import Ito.Library.StructPack

/-! The market-data handler: binary ITCH messages, MoldUDP64 packets and capture files.

Source: `python/connectivity/itch_handler.py`. -/

namespace Ito.ItchHandler

open LittleEndian StructPack PythonText

/-- The exceptions that the functions raise. -/
inductive Error where
  | structError
  | unicodeEncodeError
  | unicodeDecodeError
  | valueError (message : String)
  deriving DecidableEq, Repr

structure ItchAddOrder where
  locateId : Int
  timestampNs : Int
  orderRef : Int
  side : List Char
  shares : Int
  stock : List Char
  priceTicks : Int
  deriving DecidableEq, Repr

structure ItchOrderExecuted where
  locateId : Int
  timestampNs : Int
  orderRef : Int
  executedShares : Int
  matchNumber : Int
  deriving DecidableEq, Repr

structure ItchOrderCancel where
  locateId : Int
  timestampNs : Int
  orderRef : Int
  canceledShares : Int
  deriving DecidableEq, Repr

structure ItchOrderDelete where
  locateId : Int
  timestampNs : Int
  orderRef : Int
  deriving DecidableEq, Repr

inductive ItchMessage where
  | addOrder (message : ItchAddOrder)
  | orderExecuted (message : ItchOrderExecuted)
  | orderCancel (message : ItchOrderCancel)
  | orderDelete (message : ItchOrderDelete)
  deriving DecidableEq, Repr

structure MoldPacket where
  session : List Char
  sequenceNumber : Int
  count : Int
  messages : List Bytes
  deriving DecidableEq, Repr

def packed (bytes : Option Bytes) : Except Error Bytes := bytes.elim (.error .structError) .ok

/-- `str.ljust` with blanks. -/
def ljust (text : List Char) (width : Nat) : List Char :=
  text ++ List.replicate (width - text.length) ' '

/-- `str.encode("ascii")`. -/
def encodeAscii (text : List Char) : Except Error Bytes :=
  if text.all fun c => c.toNat < 128 then .ok (text.map Bytes.ofChar)
  else .error .unicodeEncodeError

def charOf (byte : UInt8) : Char := Char.ofNat byte.toNat

/-- `bytes.decode("ascii")`. -/
def decodeAscii (bytes : Bytes) : Except Error (List Char) :=
  if bytes.all fun byte => byte < 128 then .ok (bytes.map charOf) else .error .unicodeDecodeError

/-- `bytes.decode("ascii", errors="replace")`. -/
def decodeReplace (bytes : Bytes) : List Char :=
  bytes.map fun byte => if byte < 128 then charOf byte else '\uFFFD'

def parseUint48Be (raw : Bytes) : Nat := ofBig (raw.take 2) <<< 32 ||| ofBig (raw.drop 2)

def encodeUint48Be (val : Int) : Except Error Bytes := do
  let hi := val / 2 ^ 32 % 2 ^ 16
  let lo := val % 2 ^ 32
  return (← packed (packBig 2 hi)) ++ (← packed (packBig 4 lo))

/-- The format character `c`. -/
def packChar (bytes : Bytes) : Option Bytes := if bytes.length = 1 then some bytes else none

/-- The format `8s` or `10s`. -/
def packString (width : Nat) (bytes : Bytes) : Bytes :=
  (bytes ++ List.replicate (width - bytes.length) 0).take width

/-- What all messages begin with: their kind, `>HH` of the locate id, and the timestamp. -/
def encodeHead (kind : UInt8) (locateId timestampNs : Int) : Except Error Bytes := do
  let tsBytes ← encodeUint48Be timestampNs
  return [kind] ++ ((← packed (packBig 2 locateId)) ++ ((← packed (packBig 2 0)) ++ tsBytes))

def encodeItchAddOrder (message : ItchAddOrder) : Except Error Bytes := do
  let stockPadded ← encodeAscii ((ljust message.stock 8).take 8)
  let sideByte := (← encodeAscii message.side).take 1
  return (← encodeHead 0x41 message.locateId message.timestampNs) ++
    ((← packed (packBig 8 message.orderRef)) ++ ((← packed (packChar sideByte)) ++
      ((← packed (packBig 4 message.shares)) ++ (packString 8 stockPadded ++
        (← packed (packBig 4 message.priceTicks))))))

def encodeItchOrderExecuted (message : ItchOrderExecuted) : Except Error Bytes := do
  return (← encodeHead 0x45 message.locateId message.timestampNs) ++
    ((← packed (packBig 8 message.orderRef)) ++ ((← packed (packBig 4 message.executedShares)) ++
      (← packed (packBig 8 message.matchNumber))))

def encodeItchOrderCancel (message : ItchOrderCancel) : Except Error Bytes := do
  return (← encodeHead 0x58 message.locateId message.timestampNs) ++
    ((← packed (packBig 8 message.orderRef)) ++ (← packed (packBig 4 message.canceledShares)))

def encodeItchOrderDelete (message : ItchOrderDelete) : Except Error Bytes := do
  return (← encodeHead 0x44 message.locateId message.timestampNs) ++
    (← packed (packBig 8 message.orderRef))

def encodeItch : ItchMessage → Except Error Bytes
  | .addOrder message => encodeItchAddOrder message
  | .orderExecuted message => encodeItchOrderExecuted message
  | .orderCancel message => encodeItchOrderCancel message
  | .orderDelete message => encodeItchOrderDelete message

def encodeBlocks : List Bytes → Except Error Bytes
  | [] => .ok []
  | msg :: rest => do
      let length ← packed (packBig 2 msg.length)
      return length ++ (msg ++ (← encodeBlocks rest))

def encodeMoldPacket (session : List Char) (sequenceNumber : Int) (messages : List Bytes) :
    Except Error Bytes := do
  let sessBytes ← encodeAscii ((ljust session 10).take 10)
  return packString 10 sessBytes ++ ((← packed (packBig 8 sequenceNumber)) ++
    ((← packed (packBig 2 messages.length)) ++ (← encodeBlocks messages)))

/-- The loop of `parse_mold_packet`, with `count` rounds to go. -/
def parseBlocks (raw : Bytes) : Nat → Nat → List Bytes
  | 0, _ => []
  | count + 1, offset =>
      if offset + 2 > raw.length then []
      else
        let msgLen := ofBig (field raw offset 2)
        if offset + 2 + msgLen > raw.length then []
        else field raw (offset + 2) msgLen :: parseBlocks raw count (offset + 2 + msgLen)

def parseMoldPacket (raw : Bytes) : Except Error MoldPacket :=
  if raw.length < 20 then .error (.valueError "packet_too_short")
  else
    let count := ofBig (field raw 18 2)
    .ok
      { session := strip (decodeReplace (field raw 0 10))
        sequenceNumber := ofBig (field raw 10 8)
        count
        messages := parseBlocks raw count 20 }

def locateOf (raw : Bytes) : Int := ofBig (field raw 1 2)
def timestampOf (raw : Bytes) : Int := parseUint48Be (field raw 5 6)
def orderRefOf (raw : Bytes) : Int := ofBig (field raw 11 8)

def parseItchMessage (raw : Bytes) : Except Error (Option ItchMessage) := do
  match raw.head? with
  | none => return none
  | some kind =>
      if kind = 0x41 ∧ raw.length ≥ 36 then
        let side ← decodeAscii (field raw 19 1)
        let stock ← decodeAscii (field raw 24 8)
        return some (.addOrder
          { locateId := locateOf raw
            timestampNs := timestampOf raw
            orderRef := orderRefOf raw
            side
            shares := ofBig (field raw 20 4)
            stock := strip stock
            priceTicks := ofBig (field raw 32 4) })
      else if kind = 0x45 ∧ raw.length ≥ 31 then
        return some (.orderExecuted
          { locateId := locateOf raw
            timestampNs := timestampOf raw
            orderRef := orderRefOf raw
            executedShares := ofBig (field raw 19 4)
            matchNumber := ofBig (field raw 23 8) })
      else if kind = 0x58 ∧ raw.length ≥ 23 then
        return some (.orderCancel
          { locateId := locateOf raw
            timestampNs := timestampOf raw
            orderRef := orderRefOf raw
            canceledShares := ofBig (field raw 19 4) })
      else if kind = 0x44 ∧ raw.length ≥ 19 then
        return some (.orderDelete
          { locateId := locateOf raw
            timestampNs := timestampOf raw
            orderRef := orderRefOf raw })
      else
        return none

/-- `<IHHiIII` of the constants. -/
def pcapHdr : Bytes :=
  toBytes 4 0xA1B2C3D4 ++ toBytes 2 2 ++ toBytes 2 4 ++ toBytes 4 0 ++ toBytes 4 0 ++
    toBytes 4 65535 ++ toBytes 4 1

def pktHdr (idx length : Nat) : Except Error Bytes := do
  return (← packed (packLittle 4 (1700000000 + idx))) ++ ((← packed (packLittle 4 (idx * 1000))) ++
    ((← packed (packLittle 4 length)) ++ (← packed (packLittle 4 length))))

def packetBytes (idx : Nat) (payload : Bytes) : Except Error Bytes := do
  let fullFrame := List.replicate 42 0 ++ payload
  return (← pktHdr idx fullFrame.length) ++ fullFrame

/-- Write a packet and go on, or stop at its exception. -/
def writeThen : Except Error Bytes → Bytes × Option Error → Bytes × Option Error
  | .error error, _ => ([], some error)
  | .ok packet, written => (packet ++ written.1, written.2)

/-- The loop of `write_synthetic_pcap`: what it writes, and the exception that ends it. -/
def writePackets : Nat → List Bytes → Bytes × Option Error
  | _, [] => ([], none)
  | idx, payload :: rest => writeThen (packetBytes idx payload) (writePackets (idx + 1) rest)

def writeSyntheticPcap (packetsPayloads : List Bytes) : Bytes × Option Error :=
  let written := writePackets 0 packetsPayloads
  (pcapHdr ++ written.1, written.2)

/-- The loop of `read_pcap_payloads` on what is left of the file. -/
def readPackets (file : Bytes) : List Bytes :=
  if file.length < 16 then []
  else
    let caplen := ofBytes (field file 8 4)
    let frame := (file.drop 16).take caplen
    let rest := readPackets ((file.drop 16).drop caplen)
    if frame.length > 42 then frame.drop 42 :: rest else rest
  termination_by file.length
  decreasing_by
    rw [List.length_drop, List.length_drop]
    omega

def readPcapPayloads (file : Bytes) : List Bytes :=
  if file.length < 24 then [] else readPackets (file.drop 24)

end Ito.ItchHandler
