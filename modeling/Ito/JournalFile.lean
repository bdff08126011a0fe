import Ito.Library.ByteText
import Ito.Protocol
import Mathlib.Algebra.Order.Ring.Int

/-! The journal on disk: one JSON line for each event.

Source: `cpp/ito_journal/journal_file.cpp`. The file is its bytes. A write that
fails leaves the first bytes of the line behind; a restart opens what is there. -/

namespace Ito

open Bytes

def EventType.number : EventType → Nat
  | .intent => 1
  | .riskDecision => 2
  | .orderSent => 3
  | .acknowledgment => 4
  | .fill => 5
  | .cancel => 6
  | .halt => 7

/-- An envelope with the widths and the bytes that reach the file. -/
structure JournalRecord where
  eventId : UInt64
  sequence : UInt64
  type : EventType
  payload : Bytes
  deriving DecidableEq, Repr

def needsEscape (byte : UInt8) : Bool :=
  byte = ofChar '\\' || byte = ofChar '"' || byte < 0x20

def hexDigit (n : Nat) : UInt8 := if n < 10 then UInt8.ofNat (48 + n) else UInt8.ofNat (87 + n)

def escapeByte (byte : UInt8) : Bytes :=
  if byte = ofChar '\\' then ofText "\\\\"
  else if byte = ofChar '"' then ofText "\\\""
  else if byte = 8 then ofText "\\b"
  else if byte = 12 then ofText "\\f"
  else if byte = 10 then ofText "\\n"
  else if byte = 13 then ofText "\\r"
  else if byte = 9 then ofText "\\t"
  else if byte < 0x20 then
    ofText "\\u00" ++ [hexDigit (byte.toNat / 16), hexDigit (byte.toNat % 16)]
  else [byte]

def writeEscapedJson (value : Bytes) : Bytes :=
  if value.any needsEscape then value.flatMap escapeByte else value

namespace JournalRecord

def head (event : JournalRecord) : Bytes :=
  ofText "\x7b\"event_id\":" ++ decimal event.eventId.toNat ++ ofText ",\"sequence\":"

def body (event : JournalRecord) : Bytes :=
  ofText ",\"event_type\":" ++ decimal event.type.number ++ ofText ",\"payload\":\"" ++
    writeEscapedJson event.payload ++ ofText "\"\x7d"

def line (event : JournalRecord) : Bytes :=
  event.head ++ decimal event.sequence.toNat ++ event.body

end JournalRecord

structure JournalFile where
  content : Bytes
  good : Bool := true
  lastSequence : UInt64 := 0
  deriving DecidableEq, Repr

namespace JournalFile

def newline : UInt8 := 10

def sequenceMarker : Bytes := ofText "\"sequence\":"

/-- The loop of the constructor over the lines that `std::getline` reads. -/
def scanLines (file : JournalFile) : List Bytes → JournalFile
  | [] => file
  | line :: rest =>
      match after sequenceMarker line with
      | none => scanLines file rest
      | some digits =>
          match stoull digits with
          | some sequence => scanLines { file with lastSequence := sequence } rest
          | none => { file with good := false }

/-- The constructor on a path whose file holds `content`. -/
def create (content : Bytes) : JournalFile :=
  scanLines { content } (pieces newline content)

/-- `append`, with how much of the line reaches the file: all of it, or its first
bytes before the write fails. -/
def append (file : JournalFile) (event : JournalRecord) (landed : Option Nat := none) :
    JournalFile × Bool :=
  if !file.good || event.sequence ≠ file.lastSequence + 1 then (file, false)
  else
    match landed with
    | none =>
        ({ file with
           content := file.content ++ (event.line ++ [newline])
           lastSequence := event.sequence }, true)
    | some count =>
        ({ file with
           content := file.content ++ (event.line ++ [newline]).take count
           good := false }, false)

inductive Op where
  | append (event : JournalRecord) (landed : Option Nat)
  | restart

def step (file : JournalFile) : Op → Option (JournalFile × Bool)
  | .append event landed => some (file.append event landed)
  | .restart => some (create file.content, true)

/-- The file after every one of the events was accepted, or `none`. -/
def appendAll (file : JournalFile) : List JournalRecord → Option JournalFile
  | [] => some file
  | event :: rest =>
      let next := file.append event
      if next.2 then appendAll next.1 rest else none

end JournalFile

end Ito
