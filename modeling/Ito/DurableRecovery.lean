import Ito.DurableStore
import Ito.Library.Fallible

/-! Every durable store that calls have reached recovers.

Source: `python/operations/durable_store.py`. -/

namespace Ito.DurableStore

open DurableEventStore NumberedTable

variable {V : Type} {codecs : Codecs V} {store next : DurableEventStore} {log : Log V} {op : Op V}
  {out : Output}

structure AppendCall (V : Type) where
  eventId : Int
  correlationId : Int
  eventType : String
  timestampNs : Int
  payload : V

def AppendCall.event (sequence : Int) (call : AppendCall V) : Event V :=
  ⟨sequence, call.eventId, call.correlationId, call.eventType, call.timestampNs, call.payload⟩

def AppendCall.row (codecs : Codecs V) (call : AppendCall V) : EventRow :=
  ⟨call.eventId, call.correlationId, call.eventType, call.timestampNs,
    (codecs.dumps call.payload).getD ""⟩

def appendOf : Op V × Output → Option (AppendCall V)
  | (.append _ _ eventId correlationId eventType timestampNs payload, .appended _) =>
      some ⟨eventId, correlationId, eventType, timestampNs, payload⟩
  | _ => none

def appends (log : Log V) : List (AppendCall V) := log.filterMap appendOf

def writeOf (name : String) : Op V × Output → Option V
  | (.writeSnapshot _ other payload, .done) => if other = name then some payload else none
  | _ => none

def Wrote (log : Log V) (name : String) (payload : V) (count : Nat) : Prop :=
  ∃ past entry later, log = past ++ entry :: later ∧ writeOf name entry = some payload ∧
    (∀ entry ∈ later, writeOf name entry = none) ∧ count = (appends past).length

structure Recovered (codecs : Codecs V) (store : DurableEventStore) (log : Log V) : Prop where
  events : store.eventsFrom codecs 1 =
    .ok ((number (appends log)).map fun entry => entry.2.event entry.1)
  distinct : ((appends log).map AppendCall.eventId).Nodup
  recovery : store.verifyRecovery codecs = .ok ()
  snapshot : ∀ name payload count, Wrote log name payload count →
    ∃ sha256, store.readSnapshot codecs name = .ok ⟨name, count, payload, sha256⟩

/-! The tables against the log -/

structure Kept (codecs : Codecs V) (store : DurableEventStore) (log : Log V) : Prop where
  holds : Holds EventRow.eventId store.events ((appends log).map (AppendCall.row codecs))
  serialized : ∀ call ∈ appends log, (codecs.dumps call.payload).isSome
  written : ∀ name payload count, Wrote log name payload count →
    ∃ text, codecs.dumps payload = some text ∧
      store.snapshots.find? name = some ⟨count, text, codecs.sha256 text⟩
  intact : ∀ entry ∈ store.snapshots.entries, entry.2.sequence ≤ (appends log).length ∧
    codecs.sha256 entry.2.payload = entry.2.sha256

theorem kept_new (codecs : Codecs V) : Kept codecs {} [] where
  holds := holds_empty EventRow.eventId
  serialized := by simp [appends]
  written := by
    rintro name payload count ⟨past, entry, later, split, _⟩
    simp at split
  intact := by simp [SortedMap.empty]

section Recovery

variable (kept : Kept codecs store log) (isOpen : store.isOpen = true)

include kept isOpen

theorem verifyRecovery_ok : store.verifyRecovery codecs = .ok () := by
  rw [verifyRecovery, if_neg (by simp [isOpen]), kept.holds.ordered_eq, map_fst_number]
  simp only [List.length_map, List.length_range, ne_eq, not_true_eq_false, if_false]
  rw [Fallible.forM_eq_ok]
  intro entry member
  obtain ⟨bound, same⟩ := kept.intact entry member
  rw [recoverSnapshot, if_neg]
  rw [not_or, not_lt, not_not]
  exact ⟨bound, same⟩

variable (roundTrip : ∀ value text, codecs.dumps value = some text →
  codecs.loads text = some value)

include roundTrip

theorem readSnapshot_ok {name : String} {payload : V} {count : Nat}
    (wrote : Wrote log name payload count) :
    ∃ sha256, store.readSnapshot codecs name = .ok ⟨name, count, payload, sha256⟩ := by
  obtain ⟨text, dumped, found⟩ := kept.written name payload count wrote
  refine ⟨codecs.sha256 text, ?_⟩
  rw [readSnapshot, if_neg (by simp [isOpen]), found]
  simp [roundTrip payload text dumped]

theorem events_ok : store.eventsFrom codecs 1 =
    .ok ((number (appends log)).map fun entry => entry.2.event entry.1) := by
  have every : (number ((appends log).map (AppendCall.row codecs))).filter
      (fun entry => decide (entry.1 ≥ 1)) = number ((appends log).map (AppendCall.row codecs)) := by
    rw [List.filter_eq_self]
    intro entry member
    exact decide_eq_true (mem_number member).1
  rw [eventsFrom, if_neg (by decide), if_neg (by simp [isOpen]), if_neg (by decide),
    kept.holds.ordered_eq, every, number_map, List.mapM_map]
  apply Fallible.mapM_eq_ok
  intro entry member
  obtain ⟨text, dumped⟩ := Option.isSome_iff_exists.mp (kept.serialized _ (mem_number member).2)
  simp [loadEvent, AppendCall.row, AppendCall.event, dumped, roundTrip _ _ dumped]

theorem recovered : Recovered codecs store log where
  events := events_ok kept isOpen roundTrip
  distinct := by
    have distinct := kept.holds.distinct
    rw [List.map_map] at distinct
    exact distinct
  recovery := verifyRecovery_ok kept isOpen
  snapshot _ _ _ wrote := readSnapshot_ok kept isOpen roundTrip wrote

end Recovery

/-! The log after one more call -/

theorem appends_concat (log : Log V) (entry : Op V × Output) :
    appends (log ++ [entry]) = appends log ++ (appendOf entry).toList := by
  rw [appends, List.filterMap_append]
  cases found : appendOf entry <;> simp [appends, found]

theorem wrote_concat {entry : Op V × Output} {name : String} {payload : V} {count : Nat} :
    Wrote (log ++ [entry]) name payload count ↔
      (writeOf name entry = some payload ∧ count = (appends log).length) ∨
        (writeOf name entry = none ∧ Wrote log name payload count) := by
  constructor
  · rintro ⟨past, wrote, later, split, here, quiet, taken⟩
    induction later using List.reverseRec with
    | nil =>
        rw [List.append_singleton_inj] at split
        obtain ⟨rfl, rfl⟩ := split
        exact Or.inl ⟨here, taken⟩
    | append_singleton later last =>
        rw [← List.cons_append, ← List.append_assoc, List.append_singleton_inj] at split
        obtain ⟨split, rfl⟩ := split
        rw [List.forall_mem_append, List.forall_mem_singleton] at quiet
        exact Or.inr ⟨quiet.2, past, wrote, later, split, here, quiet.1, taken⟩
  · rintro (⟨here, taken⟩ | ⟨quiet, past, wrote, later, split, here, others, taken⟩)
    · exact ⟨log, entry, [], rfl, here, by simp, taken⟩
    · refine ⟨past, wrote, later ++ [entry], by rw [split]; simp, here, ?_, taken⟩
      rw [List.forall_mem_append, List.forall_mem_singleton]
      exact ⟨others, quiet⟩

namespace Kept

variable (kept : Kept codecs store log)

include kept

/-- A call that neither appends nor writes. -/
theorem frame (events : next.events = store.events) (snapshots : next.snapshots = store.snapshots)
    (notAppend : appendOf (op, out) = none) (notWrite : ∀ name, writeOf name (op, out) = none) :
    Kept codecs next (log ++ [(op, out)]) := by
  have same : appends (log ++ [(op, out)]) = appends log := by
    rw [appends_concat, notAppend, Option.toList_none, List.append_nil]
  refine ⟨?_, ?_, ?_, ?_⟩
  · rw [same, events]
    exact kept.holds
  · rw [same]
    exact kept.serialized
  · intro name payload count wrote
    rw [wrote_concat] at wrote
    obtain ⟨here, _⟩ | ⟨_, earlier⟩ := wrote
    · rw [notWrite name] at here
      cases here
    · rw [snapshots]
      exact kept.written name payload count earlier
  · rw [same, snapshots]
    exact kept.intact

theorem append {call : AppendCall V} {events : NumberedTable EventRow}
    (appended : appendOf (op, out) = some call) (notWrite : ∀ name, writeOf name (op, out) = none)
    (dumped : (codecs.dumps call.payload).isSome)
    (holds : Holds EventRow.eventId events
      ((appends log).map (AppendCall.row codecs) ++ [call.row codecs])) :
    Kept codecs { store with events := events } (log ++ [(op, out)]) := by
  have more : appends (log ++ [(op, out)]) = appends log ++ [call] := by
    rw [appends_concat, appended, Option.toList_some]
  refine ⟨?_, ?_, ?_, ?_⟩
  · rw [more, List.map_append, List.map_singleton]
    exact holds
  · rw [more, List.forall_mem_append, List.forall_mem_singleton]
    exact ⟨kept.serialized, dumped⟩
  · intro name payload count wrote
    rw [wrote_concat] at wrote
    obtain ⟨here, _⟩ | ⟨_, earlier⟩ := wrote
    · rw [notWrite name] at here
      cases here
    · exact kept.written name payload count earlier
  · intro entry member
    obtain ⟨bound, same⟩ := kept.intact entry member
    refine ⟨bound.trans ?_, same⟩
    rw [more, List.length_append]
    omega

theorem write {runs : Bool} {name text : String} {payload : V}
    (dumped : codecs.dumps payload = some text) :
    Kept codecs { store with
        snapshots := store.snapshots.set name ⟨store.lastSequence, text, codecs.sha256 text⟩ }
      (log ++ [(.writeSnapshot runs name payload, .done)]) := by
  have same : appends (log ++ [(.writeSnapshot runs name payload, .done)]) = appends log := by
    rw [appends_concat]
    exact List.append_nil _
  have last : store.lastSequence = (appends log).length := by
    rw [lastSequence, kept.holds.last_eq, List.length_map]
  refine ⟨?_, ?_, ?_, ?_⟩
  · rw [same]
    exact kept.holds
  · rw [same]
    exact kept.serialized
  · intro other written count wrote
    rw [wrote_concat, writeOf] at wrote
    obtain ⟨here, rfl⟩ | ⟨quiet, earlier⟩ := wrote
    · split at here
      case isFalse => cases here
      case isTrue own =>
        obtain rfl := Option.some.inj here
        refine ⟨text, dumped, ?_⟩
        rw [← own, SortedMap.find?_set_self, last]
    · have differ : other ≠ name := by
        rintro rfl
        rw [if_pos rfl] at quiet
        cases quiet
      rw [SortedMap.find?_set_ne _ differ]
      exact kept.written other written count earlier
  · intro entry member
    rw [same]
    obtain ⟨other, row⟩ := entry
    obtain ⟨rfl, rfl⟩ | ⟨_, old⟩ := (SortedMap.mem_set _).mp member
    · exact ⟨le_of_eq last, rfl⟩
    · exact kept.intact (other, row) old

end Kept

/-! One call -/

theorem insertEvent_holds {rows : List EventRow} (holds : Holds EventRow.eventId store.events rows)
    {runs : Bool} {eventId correlationId : Int} {eventType : String} {timestampNs : Int}
    {payload : V} {events : NumberedTable EventRow}
    (inserted : store.insertEvent codecs runs eventId correlationId eventType timestampNs payload =
      .ok events) :
    ∃ text, codecs.dumps payload = some text ∧
      Holds EventRow.eventId events
        (rows ++ [⟨eventId, correlationId, eventType, timestampNs, text⟩]) := by
  rw [insertEvent] at inserted
  split at inserted
  case isTrue => cases inserted
  case isFalse =>
    split at inserted
    case h_1 => cases inserted
    case h_2 text dumped =>
      split_ifs at inserted
      split at inserted
      case h_1 => cases inserted
      case h_2 => cases inserted
      case h_3 done =>
        obtain rfl := Except.ok.inj inserted
        exact ⟨text, dumped, holds.insert_ok done⟩

theorem writeSnapshot_cases (codecs : Codecs V) (store : DurableEventStore) (runs : Bool)
    (name : String) (payload : V) :
    (∃ raised, store.writeSnapshot codecs runs name payload = (store, .error raised)) ∨
      ∃ text, codecs.dumps payload = some text ∧
        store.writeSnapshot codecs runs name payload =
          ({ store with
              snapshots := store.snapshots.set name
                ⟨store.lastSequence, text, codecs.sha256 text⟩ }, .ok ()) := by
  rw [writeSnapshot]
  split
  case isTrue => exact Or.inl ⟨_, rfl⟩
  case isFalse =>
    split
    case h_1 => exact Or.inl ⟨_, rfl⟩
    case h_2 text dumped =>
      split_ifs
      · exact Or.inl ⟨_, rfl⟩
      · exact Or.inl ⟨_, rfl⟩
      · exact Or.inr ⟨text, dumped, rfl⟩

/-- What the claim asks of a step: a call that raises leaves the store, and an open store
recovers. -/
def Recovers (codecs : Codecs V) (before : DurableEventStore × Log V) (_ : Op V) (out : Output)
    (after : DurableEventStore × Log V) : Prop :=
  (∀ raised, out = .raised raised → after.1 = before.1) ∧
    (after.1.isOpen = true → Recovered codecs after.1 after.2)

/-- An `INSERT` that SQLite accepts is followed by a `SELECT` that it can run. -/
def ReadsBack (codecs : Codecs V) (store : DurableEventStore) : Op V → Prop
  | .append runs reads eventId correlationId eventType timestampNs payload =>
      (∃ events, store.insertEvent codecs runs eventId correlationId eventType timestampNs payload =
        .ok events) → reads = true
  | _ => True

theorem step_kept (kept : Kept codecs store log) (stepped : step codecs store op = some (next, out))
    (readsBack : ReadsBack codecs store op) :
    (∀ raised, out = .raised raised → next = store) ∧ Kept codecs next (log ++ [(op, out)]) := by
  cases op with
  | append runs reads eventId correlationId eventType timestampNs payload =>
      rw [step, DurableEventStore.append] at stepped
      cases inserted : store.insertEvent codecs runs eventId correlationId eventType timestampNs
          payload with
      | error raised =>
          rw [inserted] at stepped
          obtain ⟨rfl, rfl⟩ := Prod.mk.inj (Option.some.inj stepped)
          exact ⟨fun _ _ => rfl, kept.frame rfl rfl rfl fun _ => rfl⟩
      | ok events =>
          obtain ⟨text, dumped, holds⟩ := insertEvent_holds kept.holds inserted
          have found := holds.find_last
          rw [inserted, readsBack ⟨events, inserted⟩] at stepped
          simp only [found, reduceCtorEq, if_false] at stepped
          obtain ⟨rfl, rfl⟩ := Prod.mk.inj (Option.some.inj stepped)
          refine ⟨fun _ impossible => Output.noConfusion impossible, ?_⟩
          apply kept.append rfl (fun _ => rfl)
          · rw [dumped]
            rfl
          · rw [AppendCall.row, dumped]
            exact holds
  | writeSnapshot runs name payload =>
      rw [step] at stepped
      obtain ⟨raised, failed⟩ | ⟨text, dumped, done⟩ :=
        writeSnapshot_cases codecs store runs name payload
      · rw [failed] at stepped
        obtain ⟨rfl, rfl⟩ := Prod.mk.inj (Option.some.inj stepped)
        exact ⟨fun _ _ => rfl, kept.frame rfl rfl rfl fun _ => rfl⟩
      · rw [done] at stepped
        obtain ⟨rfl, rfl⟩ := Prod.mk.inj (Option.some.inj stepped)
        exact ⟨fun _ impossible => Output.noConfusion impossible, kept.write dumped⟩
  | close =>
      obtain ⟨rfl, rfl⟩ := Prod.mk.inj (Option.some.inj stepped)
      exact ⟨fun _ impossible => Output.noConfusion impossible,
        kept.frame rfl rfl rfl fun _ => rfl⟩
  | reopen =>
      obtain ⟨rfl, rfl⟩ := Prod.mk.inj (Option.some.inj stepped)
      exact ⟨fun _ impossible => Output.noConfusion impossible,
        kept.frame rfl rfl rfl fun _ => rfl⟩

theorem readsBack_of_unchanged (kept : Kept codecs store log)
    (stepped : step codecs store op = some (next, out))
    (unchanged : ∀ raised, out = .raised raised → next = store) : ReadsBack codecs store op := by
  cases op with
  | append runs reads eventId correlationId eventType timestampNs payload =>
      rintro ⟨events, inserted⟩
      obtain ⟨text, dumped, holds⟩ := insertEvent_holds kept.holds inserted
      rw [step, DurableEventStore.append, inserted] at stepped
      cases reads with
      | true => rfl
      | false =>
          simp only [if_true] at stepped
          obtain ⟨rfl, rfl⟩ := Prod.mk.inj (Option.some.inj stepped)
          have same : events = store.events := congrArg DurableEventStore.events (unchanged _ rfl)
          have longer := holds.counter
          rw [same, kept.holds.counter, List.length_append, List.length_singleton] at longer
          omega
  | _ => trivial

/-! Every run -/

/-- In a run every call that raises leaves the store, and every open store recovers, exactly when
every event that was committed is read back. -/
theorem recovered_along_iff (codecs : Codecs V)
    (roundTrip : ∀ value text, codecs.dumps value = some text → codecs.loads text = some value)
    (ops : List (Op V)) :
    Machine.Along (Machine.logged (step codecs)) (Recovers codecs) ({}, []) ops ↔
      Machine.Along (Machine.logged (step codecs)) (fun before op _ _ => ReadsBack codecs before.1 op)
        ({}, []) ops := by
  apply Machine.along_iff (fun state => Kept codecs state.1 state.2) (A := fun _ => True) _
    (kept_new codecs) fun _ _ => trivial
  rintro ⟨before, past⟩ op out ⟨after, log⟩ kept - stepped
  obtain ⟨once, rfl⟩ := Machine.logged_eq_some.mp stepped
  refine ⟨⟨fun held => readsBack_of_unchanged kept once held.1, fun readsBack => ?_⟩,
    fun readsBack => (step_kept kept once readsBack).2⟩
  obtain ⟨unchanged, kept'⟩ := step_kept kept once readsBack
  exact ⟨unchanged, fun isOpen => recovered kept' isOpen roundTrip⟩

/-! The test of the repository: an event, a snapshot, a restart, a second event with the same
identifier -/

inductive TestPayload where
  | quantity
  | net
  | nothing

def TestPayload.text : TestPayload → String
  | .quantity => "\x7b\"quantity\":2\x7d"
  | .net => "\x7b\"net\":2\x7d"
  | .nothing => "\x7b\x7d"

def testCodecs : Codecs TestPayload where
  dumps payload := some payload.text
  loads text :=
    if text = TestPayload.quantity.text then some .quantity
    else if text = TestPayload.net.text then some .net
    else if text = TestPayload.nothing.text then some .nothing
    else none
  sha256 text :=
    if text = TestPayload.quantity.text then
      "e71ff9768dda684ac2b95e952bc1f0ad19bab9c6632b91d062279a7c34e9cab7"
    else if text = TestPayload.net.text then
      "eaf3747e34b5418669411af31c3875ab953bba81135658d936669584c20f1cfe"
    else "44136fa355b3678a1146ad16f7e8649e94fb4fc21fe77e8310c060f61caaff8a"

/-- The disk fails when the number of the first event is read back. -/
theorem append_read_fails :
    ¬ Machine.Along (Machine.logged (step testCodecs)) (Recovers testCodecs) ({}, [])
      [.append true false 1 10 "intent" 100 .quantity] := by
  intro recovers
  have unchanged := (recovers _ _ rfl).1.1 .operationalError rfl
  have counted := congrArg (fun store : DurableEventStore => store.events.counter) unchanged
  exact absurd counted (by decide)

def restart : List (Op TestPayload) :=
  [.append true true 1 10 "intent" 100 .quantity, .writeSnapshot true "portfolio" .net, .close,
    .reopen, .append true false 1 10 "duplicate" 101 .nothing, .close]

theorem recovered_along_restart :
    Machine.Along (Machine.logged (step testCodecs)) (Recovers testCodecs) ({}, []) restart := by
  refine (recovered_along_iff testCodecs ?_ restart).mpr ?_
  · intro value text dumped
    cases value <;> cases dumped <;> rfl
  · iterate 4 refine (Machine.along_cons rfl).mpr ⟨by first | trivial | exact fun _ => rfl, ?_⟩
    refine (Machine.along_cons rfl).mpr ⟨?_, (Machine.along_cons rfl).mpr ⟨trivial, trivial⟩⟩
    rintro ⟨events, inserted⟩
    have duplicate : Except.error (Error.storeError "duplicate_event") = .ok events := inserted
    cases duplicate

end Ito.DurableStore
