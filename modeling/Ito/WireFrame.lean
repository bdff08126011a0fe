import Ito.Library.LittleEndian

/-! The wire frames of the connectivity guard.

Source: `rust/connectivity_guard/src/codec.rs`. `none` is a panic: a slice out
of range, a copy between slices of different lengths, or an overflowing sum. The
hash function is a parameter. -/

namespace Ito

open LittleEndian

structure WireFrame where
  version : UInt16
  messageType : UInt16
  flags : UInt16
  branchId : UInt64
  entityId : UInt64
  venueId : UInt16
  sessionEpoch : UInt64
  sequence : UInt64
  expiresAtNs : UInt64
  payloadHash : Vector UInt8 32
  payload : List UInt8
  deriving DecidableEq

inductive CodecError where
  | invalidMagic
  | unsupportedVersion
  | payloadTooLarge
  | truncated
  | invalidLength
  | invalidScope
  | invalidSequence
  | invalidExpiry
  | invalidPayloadHash
  deriving DecidableEq, Repr

namespace WireFrame

def magic : UInt16 := 0x4954
def maxPayload : Nat := 4096
def headerBytes : Nat := 88
def supportedVersion : UInt16 := 1

section

variable (hashPayload : List UInt8 → Vector UInt8 32)

def new (version messageType flags : UInt16) (branchId entityId : UInt64) (venueId : UInt16)
    (sessionEpoch sequence expiresAtNs : UInt64) (payload : List UInt8) :
    Except CodecError WireFrame :=
  if version ≠ supportedVersion then .error .unsupportedVersion
  else if payload.length > maxPayload then .error .payloadTooLarge
  else if branchId = 0 ∨ entityId = 0 ∨ venueId = 0 ∨ sessionEpoch = 0 ∨ sequence = 0 ∨
      expiresAtNs = 0 then .error .invalidScope
  else .ok
    { version, messageType, flags, branchId, entityId, venueId, sessionEpoch, sequence,
      expiresAtNs, payloadHash := hashPayload payload, payload }

def le16 (value : UInt16) : List UInt8 := toBytes 2 value.toNat
def le32 (value : UInt32) : List UInt8 := toBytes 4 value.toNat
def le64 (value : UInt64) : List UInt8 := toBytes 8 value.toNat

def layout (frame : WireFrame) (reserved : List UInt8) : List UInt8 :=
  le16 magic ++ (le16 frame.version ++ (le16 frame.messageType ++ (le16 frame.flags ++
    (le64 frame.branchId ++ (le64 frame.entityId ++ (le16 frame.venueId ++ (reserved ++
    (le64 frame.sessionEpoch ++ (le64 frame.sequence ++ (le64 frame.expiresAtNs ++
    (le32 (UInt32.ofNat frame.payload.length) ++ (frame.payloadHash.toList ++
    frame.payload))))))))))))

def encode (frame : WireFrame) : Except CodecError (List UInt8) :=
  if frame.version ≠ supportedVersion then .error .unsupportedVersion
  else if frame.branchId = 0 ∨ frame.entityId = 0 ∨ frame.venueId = 0 ∨ frame.sessionEpoch = 0 ∨
      frame.sequence = 0 ∨ frame.expiresAtNs = 0 then .error .invalidScope
  else if frame.payload.length > maxPayload then .error .payloadTooLarge
  else if frame.payloadHash ≠ hashPayload frame.payload then .error .invalidPayloadHash
  else .ok (frame.layout (le16 0))

/-- `bytes[start..stop]`. -/
def slice (bytes : List UInt8) (start stop : Nat) : Option (List UInt8) :=
  if start ≤ stop ∧ stop ≤ bytes.length then some (field bytes start (stop - start)) else none

/-- A slice turned into an array of `width` bytes, for what comes next. -/
def read {β : Type} (bytes : List UInt8) (start stop width : Nat)
    (next : List UInt8 → Option (Except CodecError β)) : Option (Except CodecError β) :=
  (slice bytes start stop).bind fun part =>
    if part.length = width then next part else some (.error .truncated)

def from16 (bytes : List UInt8) : UInt16 := UInt16.ofNat (ofBytes bytes)
def from32 (bytes : List UInt8) : UInt32 := UInt32.ofNat (ofBytes bytes)
def from64 (bytes : List UInt8) : UInt64 := UInt64.ofNat (ofBytes bytes)

/-- `copy_from_slice` into an array of 32 bytes. -/
def copyFromSlice (part : List UInt8) : Option (Vector UInt8 32) :=
  if whole : part.length = 32 then some ⟨part.toArray, by simpa using whole⟩ else none

/-- `last_sequence == u64::MAX || sequence != last_sequence + 1`. -/
def outOfSequence (sequence lastSequence : UInt64) : Option Bool :=
  if lastSequence = 0xFFFFFFFFFFFFFFFF then some true
  else if lastSequence.toNat + 1 < 2 ^ 64 then some (sequence != lastSequence + 1)
  else none

def decode (bytes : List UInt8) (nowNs expectedBranchId expectedEntityId lastSequence : UInt64) :
    Option (Except CodecError WireFrame) :=
  if bytes.length < headerBytes then some (.error .truncated)
  else
    read bytes 0 2 2 fun tag =>
    if from16 tag ≠ magic then some (.error .invalidMagic)
    else
      read bytes 2 4 2 fun version =>
      if from16 version ≠ supportedVersion then some (.error .unsupportedVersion)
      else
        read bytes 8 16 8 fun branchId =>
        read bytes 16 24 8 fun entityId =>
        read bytes 24 26 2 fun venueId =>
        read bytes 28 36 8 fun sessionEpoch =>
        read bytes 36 44 8 fun sequence =>
        read bytes 44 52 8 fun expiresAtNs =>
        read bytes 52 56 4 fun payloadLength =>
        if (from32 payloadLength).toNat > maxPayload then some (.error .payloadTooLarge)
        else if bytes.length ≠ headerBytes + (from32 payloadLength).toNat then
          some (.error .invalidLength)
        else if from64 branchId ≠ expectedBranchId ∨ from64 entityId ≠ expectedEntityId ∨
            from16 venueId = 0 ∨ from64 sessionEpoch = 0 then some (.error .invalidScope)
        else
          (outOfSequence (from64 sequence) lastSequence).bind fun outOfSequence =>
          if outOfSequence then some (.error .invalidSequence)
          else if from64 expiresAtNs ≤ nowNs then some (.error .invalidExpiry)
          else
            (slice bytes 56 88).bind fun hashed =>
            (copyFromSlice hashed).bind fun payloadHash =>
            (slice bytes headerBytes bytes.length).bind fun payload =>
            if payloadHash ≠ hashPayload payload then some (.error .invalidPayloadHash)
            else
              read bytes 4 6 2 fun messageType =>
              read bytes 6 8 2 fun flags =>
              some (.ok
                { version := from16 version
                  messageType := from16 messageType
                  flags := from16 flags
                  branchId := from64 branchId
                  entityId := from64 entityId
                  venueId := from16 venueId
                  sessionEpoch := from64 sessionEpoch
                  sequence := from64 sequence
                  expiresAtNs := from64 expiresAtNs
                  payloadHash
                  payload })

end

end WireFrame

end Ito
