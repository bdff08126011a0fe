import Ito.Library.Machine
import Ito.Library.NumberedTable
import Ito.Library.SortedMap

/-! The durable event store on SQLite.

Source: `python/operations/durable_store.py`. A statement that SQLite refuses or cannot run leaves
the tables and the `AUTOINCREMENT` counter as they were. Numbers that do not fit into 64 bits are
refused when they are bound. A snapshot is written, and the number it carries read, in one
transaction. -/

namespace Ito.DurableStore

inductive Error where
  | storeError (message : String)
  | typeError
  | valueError
  | overflowError
  | operationalError
  /-- `sqlite3.ProgrammingError`: the connection is closed. -/
  | programmingError
  deriving DecidableEq, Repr

/-- JSON and SHA-256, over the values of a payload. -/
structure Codecs (V : Type) where
  /-- `json.dumps`, without a result for a value that is not serializable. -/
  dumps : V → Option String
  loads : String → Option V
  /-- The hexadecimal digest of a text. -/
  sha256 : String → String

structure EventRow where
  eventId : Int
  correlationId : Int
  eventType : String
  timestampNs : Int
  payload : String
  deriving DecidableEq, Repr

structure SnapshotRow where
  sequence : Int
  payload : String
  sha256 : String
  deriving DecidableEq, Repr

structure DurableEventStore where
  events : NumberedTable EventRow := {}
  snapshots : SortedMap (fun a b : String => a < b) SnapshotRow := SortedMap.empty
  isOpen : Bool := true

structure Event (V : Type) where
  sequence : Int
  eventId : Int
  correlationId : Int
  eventType : String
  timestampNs : Int
  payload : V

structure Snapshot (V : Type) where
  name : String
  sequence : Int
  payload : V
  sha256 : String

def maxInteger : Int := 2 ^ 63 - 1

variable {V : Type}

namespace DurableEventStore

def raises {A : Type} (store : DurableEventStore) (raised : Error) :
    DurableEventStore × Except Error A :=
  (store, .error raised)

/-- The row that the `INSERT` of `append` has to store, once it is bound. -/
def insertEvent (codecs : Codecs V) (store : DurableEventStore) (runs : Bool)
    (eventId correlationId : Int) (eventType : String) (timestampNs : Int) (payload : V) :
    Except Error (NumberedTable EventRow) :=
  if min (min eventId correlationId) timestampNs ≤ 0 ∨ eventType = "" then
    .error (.storeError "event_invalid")
  else
    match codecs.dumps payload with
    | none => .error .typeError
    | some serialized =>
        if store.isOpen = false then .error .programmingError
        else if max (max eventId correlationId) timestampNs > maxInteger then .error .overflowError
        else if runs = false then .error .operationalError
        else
          match store.events.insert EventRow.eventId maxInteger
              ⟨eventId, correlationId, eventType, timestampNs, serialized⟩ with
          | .error .duplicate => .error (.storeError "duplicate_event")
          | .error .full => .error .operationalError
          | .ok events => .ok events

/-- `runs` and `reads` say whether SQLite can run the `INSERT` and the `SELECT`, without an error
of the disk or of a lock. The `SELECT` comes after the commit. -/
def append (codecs : Codecs V) (store : DurableEventStore) (runs reads : Bool)
    (eventId correlationId : Int) (eventType : String) (timestampNs : Int) (payload : V) :
    DurableEventStore × Except Error Int :=
  match store.insertEvent codecs runs eventId correlationId eventType timestampNs payload with
  | .error raised => store.raises raised
  | .ok events =>
      ({ store with events := events },
        if reads = false then .error .operationalError
        else
          match events.rows.find? fun entry => entry.2.eventId = eventId with
          | some entry => .ok entry.1
          | none => .error .typeError)

def lastSequence (store : DurableEventStore) : Int := store.events.last

def loadEvent (codecs : Codecs V) (entry : Int × EventRow) : Except Error (Event V) :=
  match codecs.loads entry.2.payload with
  | some payload =>
      .ok ⟨entry.1, entry.2.eventId, entry.2.correlationId, entry.2.eventType,
        entry.2.timestampNs, payload⟩
  | none => .error .valueError

def eventsFrom (codecs : Codecs V) (store : DurableEventStore) (startSequence : Int) :
    Except Error (List (Event V)) :=
  if startSequence ≤ 0 then .error (.storeError "sequence_invalid")
  else if store.isOpen = false then .error .programmingError
  else if startSequence > maxInteger then .error .overflowError
  else
    (store.events.ordered.filter fun entry => entry.1 ≥ startSequence).mapM (loadEvent codecs)

def writeSnapshot (codecs : Codecs V) (store : DurableEventStore) (runs : Bool) (name : String)
    (payload : V) : DurableEventStore × Except Error Unit :=
  if name = "" then store.raises (.storeError "snapshot_name_invalid")
  else
    match codecs.dumps payload with
    | none => store.raises .typeError
    | some serialized =>
        if store.isOpen = false then store.raises .programmingError
        else if runs = false then store.raises .operationalError
        else
          ({ store with
              snapshots := store.snapshots.set name
                ⟨store.lastSequence, serialized, codecs.sha256 serialized⟩ }, .ok ())

def readSnapshot (codecs : Codecs V) (store : DurableEventStore) (name : String) :
    Except Error (Snapshot V) :=
  if store.isOpen = false then .error .programmingError
  else
    match store.snapshots.find? name with
    | none => .error (.storeError "snapshot_missing")
    | some row =>
        if codecs.sha256 row.payload ≠ row.sha256 then
          .error (.storeError "snapshot_integrity_failure")
        else
          match codecs.loads row.payload with
          | some payload => .ok ⟨name, row.sequence, payload, row.sha256⟩
          | none => .error .valueError

def recoverSnapshot (codecs : Codecs V) (count : Nat) (entry : String × SnapshotRow) :
    Except Error Unit :=
  if entry.2.sequence > count ∨ codecs.sha256 entry.2.payload ≠ entry.2.sha256 then
    .error (.storeError ("snapshot_recovery_failure:" ++ entry.1))
  else .ok ()

def verifyRecovery (codecs : Codecs V) (store : DurableEventStore) : Except Error Unit :=
  if store.isOpen = false then .error .programmingError
  else
    let sequences := store.events.ordered.map Prod.fst
    if sequences ≠ (List.range sequences.length).map fun index : Nat => (index : Int) + 1 then
      .error (.storeError "sequence_continuity_failure")
    else forM store.snapshots.entries (recoverSnapshot codecs sequences.length)

end DurableEventStore

/-! Runs -/

inductive Op (V : Type) where
  | append (runs reads : Bool) (eventId correlationId : Int) (eventType : String)
      (timestampNs : Int) (payload : V)
  | writeSnapshot (runs : Bool) (name : String) (payload : V)
  | close
  /-- A new store on the same file. -/
  | reopen

inductive Output where
  | raised (error : Error)
  | appended (sequence : Int)
  | done
  deriving DecidableEq

def step (codecs : Codecs V) (store : DurableEventStore) :
    Op V → Option (DurableEventStore × Output)
  | .append runs reads eventId correlationId eventType timestampNs payload =>
      let result :=
        store.append codecs runs reads eventId correlationId eventType timestampNs payload
      match result.2 with
      | .ok sequence => some (result.1, .appended sequence)
      | .error raised => some (result.1, .raised raised)
  | .writeSnapshot runs name payload =>
      let result := store.writeSnapshot codecs runs name payload
      match result.2 with
      | .ok _ => some (result.1, .done)
      | .error raised => some (result.1, .raised raised)
  | .close => some ({ store with isOpen := false }, .done)
  | .reopen => some ({ store with isOpen := true }, .done)

abbrev Log (V : Type) := List (Op V × Output)

end Ito.DurableStore
