import Ito.Library.Json
import Ito.Library.PythonText

/-! The replay tool: reading a journal back and checking its numbering.

Source: `python/replay/replay.py`. An exception is the error of the result. The
event type and the payload are stored as texts by `str`; nothing looks inside them,
so an event keeps the values they are made from. -/

namespace Ito.Replay

open PythonText

inductive LoadError where
  | unicodeDecode
  | jsonDecode
  | keyError (key : String)
  | typeError
  | valueError
  | overflowError
  deriving DecidableEq, Repr

structure Event where
  eventId : Int
  sequence : Int
  eventType : Json
  correlationId : Int
  payload : Json

/-- `int(value)`. -/
def pyInt : Json → Except LoadError Int
  | .int n => .ok n
  | .bool value => .ok (if value then 1 else 0)
  | .float value => .ok (value.num.tdiv value.den)
  | .nan => .error .valueError
  | .infinity _ => .error .overflowError
  | .str text =>
      match intOfText text with
      | some n => .ok n
      | none => .error .valueError
  | .null => .error .typeError
  | .arr _ => .error .typeError
  | .obj _ => .error .typeError

/-- `raw[key]`. -/
def item (raw : Json) (key : String) : Except LoadError Json :=
  match raw with
  | .obj entries =>
      match Json.get? key entries with
      | some value => .ok value
      | none => .error (.keyError key)
  | _ => .error .typeError

def loadLine (line : List Char) : Except LoadError Event :=
  match Json.loads line with
  | none => .error .jsonDecode
  | some raw => do
      let eventId ← (item raw "event_id").bind pyInt
      let sequence ← (item raw "sequence").bind pyInt
      let eventType ← item raw "event_type"
      let correlationId ← (item raw "correlation_id").bind pyInt
      let payload ← item raw "payload"
      return { eventId, sequence, eventType, correlationId, payload }

def loadLines : List (List Char) → Except LoadError (List Event)
  | [] => .ok []
  | line :: rest =>
      if strip line = [] then loadLines rest
      else do
        let event ← loadLine line
        let events ← loadLines rest
        return event :: events

def loadEvents (content : Bytes) : Except LoadError (List Event) :=
  match decodeUtf8 content with
  | none => .error .unicodeDecode
  | some text => loadLines (splitlines (universalNewlines text))

inductive Failure where
  | identifierInvalid (eventId correlationId : Int)
  | duplicateEventId (eventId : Int)
  | sequenceGap (expected sequence : Int)
  deriving DecidableEq, Repr

def Failure.message : Failure → String
  | .identifierInvalid eventId correlationId =>
      "identifier_invalid:" ++ toString eventId ++ ":" ++ toString correlationId
  | .duplicateEventId eventId => "duplicate_event_id:" ++ toString eventId
  | .sequenceGap expected sequence =>
      "sequence_gap:" ++ toString expected ++ ":" ++ toString sequence

def failuresFrom (expected : Int) (eventIds : List Int) : List Event → List Failure
  | [] => []
  | event :: rest =>
      (if event.eventId ≤ 0 ∨ event.correlationId < 0 then
        [.identifierInvalid event.eventId event.correlationId] else []) ++
      (if event.eventId ∈ eventIds then [.duplicateEventId event.eventId] else []) ++
      (if event.sequence ≠ expected then [.sequenceGap expected event.sequence] else []) ++
      failuresFrom (if expected ≤ event.sequence then event.sequence + 1 else expected)
        (event.eventId :: eventIds) rest

def validate (events : List Event) : List String :=
  (failuresFrom 1 [] events).map Failure.message

end Ito.Replay
