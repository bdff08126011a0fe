import Ito.DurableStore
import Ito.Library.Clocked
import Ito.Library.JsonDumps

/-! The checkpoint stores on one SQLite file.

Source: `interfaces/recovery/checkpoint_store.py`. Any number of stores are open on the file at a
time, and each sees what the others have committed. A statement that SQLite refuses or cannot run
leaves the table as it was. -/

namespace Ito.CheckpointStore

open Clocked

inductive Error where
  | valueError (message : String)
  | keyError (message : String)
  | jsonDecodeError
  | typeError
  | overflowError
  | operationalError
  /-- `sqlite3.ProgrammingError`: the connection is closed. -/
  | programmingError
  deriving DecidableEq, Repr

structure Codecs (V : Type) extends DurableStore.Codecs V where
  /-- `isinstance(payload, dict)`. -/
  isDict : V → Bool

structure Checkpoint (V : Type) where
  name : String
  sequence : Int
  payload : V
  checksum : String

structure Row where
  sequence : Int
  payload : String
  checksum : String
  deriving DecidableEq, Repr

structure Database where
  checkpoints : SortedMap (fun a b : String => a < b) Row := SortedMap.empty
  isOpen : Nat → Bool := fun _ => false

variable {V : Type}

namespace Database

def init (database : Database) (store : Nat) : Database :=
  { database with isOpen := fun other => other = store || database.isOpen other }

def close (database : Database) (store : Nat) : Database :=
  { database with isOpen := fun other => other ≠ store && database.isOpen other }

/-- The statement is one that SQLite can run now, without an error of the disk or of a lock. -/
def save (codecs : Codecs V) (database : Database) (store : Nat) (runs : Bool) (name : String)
    (sequence : Int) (payload : V) : Database × Except Error (Checkpoint V) :=
  if name = "" ∨ sequence < 0 then
    (database, .error (.valueError "checkpoint_metadata_invalid"))
  else
    match codecs.dumps payload with
    | none => (database, .error .typeError)
    | some serialized =>
        let checksum := codecs.sha256 serialized
        if database.isOpen store = false then (database, .error .programmingError)
        else if sequence > DurableStore.maxInteger then (database, .error .overflowError)
        else if runs = false then (database, .error .operationalError)
        else
          ({ database with
              checkpoints := database.checkpoints.set name ⟨sequence, serialized, checksum⟩ },
            .ok ⟨name, sequence, payload, checksum⟩)

def load (codecs : Codecs V) (database : Database) (store : Nat) (name : String) :
    Except Error (Checkpoint V) :=
  if database.isOpen store = false then .error .programmingError
  else
    match database.checkpoints.find? name with
    | none => .error (.keyError "checkpoint_missing")
    | some row =>
        if codecs.sha256 row.payload ≠ row.checksum then
          .error (.valueError "checkpoint_integrity_failure")
        else
          match codecs.loads row.payload with
          | none => .error .jsonDecodeError
          | some payload =>
              if codecs.isDict payload = false then
                .error (.valueError "checkpoint_payload_invalid")
              else .ok ⟨name, row.sequence, payload, row.checksum⟩

/-! Runs -/

inductive Op (V : Type) where
  | init (store : Nat)
  | save (store : Nat) (runs : Bool) (name : String) (sequence : Int) (payload : V)
  | close (store : Nat)

def step (codecs : Codecs V) (database : Database) : Op V → Database
  | .init store => database.init store
  | .save store runs name sequence payload =>
      (database.save codecs store runs name sequence payload).1
  | .close store => database.close store

/-- The checkpoint that a call of `save` returns. -/
def saved (codecs : Codecs V) (cycle : Database × Op V) : Option (Checkpoint V) :=
  match cycle.2 with
  | .save store runs name sequence payload =>
      (cycle.1.save codecs store runs name sequence payload).2.toOption
  | _ => none

def latest (name : String) (checkpoints : List (Checkpoint V)) : Option (Checkpoint V) :=
  checkpoints.reverse.find? fun checkpoint => checkpoint.name = name

def lastSaved (codecs : Codecs V) (checkpoints : List (Checkpoint V)) (name : String) :
    Except Error (Checkpoint V) :=
  match latest name checkpoints with
  | none => .error (.keyError "checkpoint_missing")
  | some checkpoint =>
      if codecs.isDict checkpoint.payload = false then
        .error (.valueError "checkpoint_payload_invalid")
      else .ok checkpoint

/-- What `json.dumps` makes of the payload of a call is read back as that payload. -/
def Op.Faithful (codecs : Codecs V) : Op V → Prop
  | .save _ _ _ _ payload =>
      ∀ text, codecs.dumps payload = some text → codecs.loads text = some payload
  | _ => True

def rowOf (codecs : Codecs V) (checkpoint : Checkpoint V) : Row :=
  ⟨checkpoint.sequence, (codecs.dumps checkpoint.payload).getD "", checkpoint.checksum⟩

def Readable (codecs : Codecs V) (checkpoint : Checkpoint V) : Prop :=
  ∃ text, codecs.dumps checkpoint.payload = some text ∧
    codecs.loads text = some checkpoint.payload ∧ checkpoint.checksum = codecs.sha256 text

structure Kept (codecs : Codecs V) (database : Database) (checkpoints : List (Checkpoint V)) :
    Prop where
  rows : ∀ name, database.checkpoints.find? name = (latest name checkpoints).map (rowOf codecs)
  readable : ∀ checkpoint ∈ checkpoints, Readable codecs checkpoint

variable {codecs : Codecs V} {database : Database} {checkpoints : List (Checkpoint V)}

theorem latest_concat (name : String) (checkpoint : Checkpoint V) :
    latest name (checkpoints ++ [checkpoint]) =
      if checkpoint.name = name then some checkpoint else latest name checkpoints := by
  rw [latest, List.reverse_append, List.reverse_singleton, List.singleton_append, List.find?_cons]
  split
  case h_1 same => rw [if_pos (of_decide_eq_true same)]
  case h_2 other => rw [if_neg (of_decide_eq_false other), latest]

/-- A call of `save` either leaves the table, or puts the row of what it returns there. -/
theorem save_cases (store : Nat) (runs : Bool) (name : String) (sequence : Int) (payload : V) :
    ((database.save codecs store runs name sequence payload).1 = database ∧
      ∃ error, (database.save codecs store runs name sequence payload).2 = .error error) ∨
    ∃ text, codecs.dumps payload = some text ∧
      database.save codecs store runs name sequence payload =
        ({ database with
            checkpoints :=
              database.checkpoints.set name ⟨sequence, text, codecs.sha256 text⟩ },
          .ok ⟨name, sequence, payload, codecs.sha256 text⟩) := by
  rw [save]
  split
  case isTrue => exact Or.inl ⟨rfl, _, rfl⟩
  case isFalse =>
    split
    case h_1 => exact Or.inl ⟨rfl, _, rfl⟩
    case h_2 text serialized =>
      dsimp only
      split
      case isTrue => exact Or.inl ⟨rfl, _, rfl⟩
      case isFalse =>
        split
        case isTrue => exact Or.inl ⟨rfl, _, rfl⟩
        case isFalse =>
          split
          case isTrue => exact Or.inl ⟨rfl, _, rfl⟩
          case isFalse => exact Or.inr ⟨text, serialized, rfl⟩

theorem kept_step (kept : Kept codecs database checkpoints) {op : Op V}
    (faithful : op.Faithful codecs) :
    Kept codecs (step codecs database op) (checkpoints ++ (saved codecs (database, op)).toList) := by
  cases op with
  | init store =>
      have same : Kept codecs (database.init store) checkpoints := ⟨kept.rows, kept.readable⟩
      simpa [saved, step] using same
  | close store =>
      have same : Kept codecs (database.close store) checkpoints := ⟨kept.rows, kept.readable⟩
      simpa [saved, step] using same
  | save store runs name sequence payload =>
      rw [step, saved]
      dsimp only
      rcases @save_cases V codecs database store runs name sequence payload with
        ⟨same, error, refused⟩ | ⟨text, serialized, written⟩
      · rw [same, refused]
        simpa [Except.toOption] using kept
      · rw [written]
        refine ⟨fun other => ?_, ?_⟩
        · dsimp only [Except.toOption, Option.toList]
          rw [latest_concat, SortedMap.find?_set]
          by_cases same : name = other
          · rw [if_pos same.symm, if_pos same, Option.map_some, rowOf, serialized, Option.getD_some]
          · rw [if_neg (Ne.symm same), if_neg same]
            exact kept.rows other
        · intro checkpoint member
          rcases List.mem_append.mp member with earlier | last
          · exact kept.readable checkpoint earlier
          · rw [List.mem_singleton.mp last]
            exact ⟨text, serialized, faithful text serialized, rfl⟩

theorem kept_run (kept : Kept codecs database checkpoints) {ops : List (Op V)}
    (faithful : ∀ op ∈ ops, op.Faithful codecs) :
    Kept codecs (run (step codecs) database ops)
      (checkpoints ++ (cycles (step codecs) database ops).filterMap (saved codecs)) := by
  induction ops generalizing database checkpoints with
  | nil => simpa [run, cycles] using kept
  | cons op ops ih =>
      rw [List.forall_mem_cons] at faithful
      have later := ih (kept_step kept faithful.1) faithful.2
      rw [List.append_assoc] at later
      rw [cycles, List.filterMap_cons]
      change Kept codecs (run _ (step codecs database op) ops) _
      cases made : saved codecs (database, op) with
      | none => simpa [made] using later
      | some checkpoint => simpa [made] using later

theorem load_kept (codecs : Codecs V) {ops : List (Op V)}
    (faithful : ∀ op ∈ ops, op.Faithful codecs) (store : Nat) (name : String) :
    let database := run (step codecs) {} ops
    let checkpoints := (cycles (step codecs) {} ops).filterMap (saved codecs)
    database.load codecs store name =
      if database.isOpen store = false then .error .programmingError
      else lastSaved codecs checkpoints name := by
  intro database checkpoints
  have start : Kept codecs {} [] := ⟨fun name => rfl, by simp⟩
  have kept : Kept codecs database checkpoints := kept_run start faithful
  rw [load, kept.rows, lastSaved]
  split
  case isTrue => rfl
  case isFalse =>
    cases found : latest name checkpoints with
    | none => rfl
    | some checkpoint =>
        have among : checkpoint ∈ checkpoints := List.mem_reverse.mp (List.mem_of_find?_eq_some found)
        have named : checkpoint.name = name := by
          rw [latest] at found
          simpa using List.find?_some found
        rcases kept.readable checkpoint among with ⟨text, serialized, read, checksum⟩
        have row : rowOf codecs checkpoint = ⟨checkpoint.sequence, text, checkpoint.checksum⟩ := by
          rw [rowOf, serialized, Option.getD_some]
        simp only [Option.map_some, row, checksum, ne_eq, not_true, if_false, read, ← named]
        rw [← checksum]

/-! The store writes its payloads with `json.dumps` and reads them with `json.loads` -/

/-- `float.__repr__` and the hash are parameters. -/
def jsonCodecs (float : ℚ → List Char) (sha256 : String → String) : Codecs Json.Document where
  dumps document := some (String.ofList (document.dumps (.compact float)))
  loads text := Json.Document.loads text.toList
  sha256 := sha256
  isDict document :=
    match document.value with
    | .obj _ => true
    | _ => false

def Op.Printable (float : ℚ → List Char) : Op Json.Document → Prop
  | .save _ _ _ _ payload => Json.Printable (.compact float) payload.value
  | _ => True

theorem Op.Printable.faithful {float : ℚ → List Char} {op : Op Json.Document}
    (printable : op.Printable float) (sha256 : String → String) :
    op.Faithful (jsonCodecs float sha256) := by
  cases op with
  | save store runs name sequence payload =>
      intro text written
      have read := Json.Document.loads_dumps printable (List.forall_mem_nil _)
      rw [← Option.some.inj written]
      simpa [jsonCodecs] using read
  | init store => trivial
  | close store => trivial

/-- Over every run of the stores on one file, which are opened, closed and fail as they may, each
store that is open reads under a name the checkpoint that the last successful save of the name
returned, by whichever store, unless its payload is no dictionary. -/
theorem load_latest (float : ℚ → List Char) (sha256 : String → String)
    {ops : List (Op Json.Document)} (printable : ∀ op ∈ ops, op.Printable float) (store : Nat)
    (name : String) :
    let codecs := jsonCodecs float sha256
    let database := run (step codecs) {} ops
    let checkpoints := (cycles (step codecs) {} ops).filterMap (saved codecs)
    database.load codecs store name =
      if database.isOpen store = false then .error .programmingError
      else lastSaved codecs checkpoints name := by
  intro codecs
  have faithful : ∀ op ∈ ops, op.Faithful codecs := fun op member =>
    (printable op member).faithful sha256
  exact load_kept codecs faithful store name

def positionPayload (position : Int) : Json.Document :=
  .of (.obj [(Json.codes "position".toList, .int position)])

def positionText (position : Int) : String := "\x7b\"position\":" ++ toString position ++ "\x7d"

def positionDigest (text : String) : String :=
  if text = positionText 5 then
    "92fbdf129585d8ff6032d40345175a3f5fc83bc24e4cd74ffece8caee3072d7e"
  else "8d12f50f34d6842f5799d0429720d5079767b0a632325ad27704fa6e15320cac"

def positionOps : List (Op Json.Document) :=
  [.init 0, .save 0 true "risk" 7 (positionPayload 5), .init 1,
    .save 1 true "risk" 3 (positionPayload 8), .close 1]

theorem load_latest_overwritten :
    let codecs := jsonCodecs (fun _ => []) positionDigest
    (run (step codecs) {} positionOps).load codecs 0 "risk" =
      .ok ⟨"risk", 3, positionPayload 8, positionDigest (positionText 8)⟩ := by
  intro codecs
  have printable : ∀ op ∈ positionOps, op.Printable fun _ => [] := by
    have written (position : Int) :
        Json.Printable (.compact fun _ => []) (positionPayload position).value := by
      apply Json.printable_canonical
      refine .obj (fun entry member => ?_) fun entry member => ?_
      · have plain : Json.Whole (Json.codes "position".toList) := ⟨by decide, by decide⟩
        rw [List.mem_singleton.mp member]
        exact plain
      · rw [List.mem_singleton.mp member]
        exact .int position
    simp only [positionOps, List.forall_mem_cons, Op.Printable]
    exact ⟨trivial, written 5, trivial, written 8, trivial, by simp⟩
  rw [load_latest (fun _ => []) positionDigest printable 0 "risk"]
  rfl

end Database

end Ito.CheckpointStore
