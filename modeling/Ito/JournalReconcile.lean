import Ito.ExecutionEffects
import Ito.ExecutionLimits
import Ito.JournalReplay
import Ito.Reconcile

/-! What the reconciliation tool reports on journals that the native code wrote. -/

namespace Ito

open PythonText

/-- The record that an envelope of the journal in memory becomes. -/
def JournalRecord.ofEnvelope (envelope : EventEnvelope) : JournalRecord where
  eventId := UInt64.ofNat envelope.eventId
  sequence := UInt64.ofNat envelope.sequence
  type := envelope.type
  payload := encodeUtf8 envelope.payload.toList

namespace Reconcile

/-! Lines -/

theorem fileLines_fileText (events : List JournalRecord) :
    fileLines (fileText events) =
      events.map fun event => event.lineText event.payloadText ++ ['\n'] := by
  induction events with
  | nil => rfl
  | cons event events ih =>
      have clean : '\n' ∉ event.lineText event.payloadText := by
        intro member
        exact absurd (event.lineText_printable _ _ member) (by decide)
      rw [fileText, List.flatMap_cons, List.append_assoc, List.singleton_append,
        fileLines_front clean, ← fileText, ih, List.map_cons]

theorem strip_lineText (event : JournalRecord) (payload : List Char) :
    strip (event.lineText payload ++ ['\n']) = event.lineText payload := by
  have closing := event.lineStart_append (payload.flatMap escapeChar ++ ['"']) ['\x7d']
  rw [List.append_assoc] at closing
  rw [JournalRecord.lineText]
  have stripped := strip_line '\x7b' '\x7d' (by decide) (by decide)
    (event.lineStart (payload.flatMap escapeChar ++ ['"'])).tail
  rw [show ['"', '\x7d'] = ['"'] ++ ['\x7d'] from rfl, closing]
  exact stripped

/-- No line names its correlation id, so the tool takes it to be 0. -/
def nativeOrder (lineNumber : Nat) (event : JournalRecord) : UncertainOrder where
  line := lineNumber
  correlationId := .int 0
  eventId := .int event.eventId.toNat

theorem readRecord_entries (progress : Progress) (lineNumber : Nat) (event : JournalRecord)
    (payload : List Char) :
    readRecord progress lineNumber (event.entries payload) =
      match event.type with
      | .orderSent =>
          { progress with
            uncertainOrders := progress.uncertainOrders ++ [nativeOrder lineNumber event] }
      | .acknowledgment =>
          { uncertainOrders := progress.uncertainOrders.filter fun order =>
              !Json.same order.correlationId (.int 0)
            resolvedOrders := progress.resolvedOrders ++ [.acknowledged (.int 0)] }
      | _ => progress := by
  have type : getD (event.entries payload) "event_type" .null = .int event.type.number := by rfl
  have absent : getD (event.entries payload) "correlation_id" (.int 0) = .int 0 := by rfl
  have eventId : getD (event.entries payload) "event_id" .null = .int event.eventId.toNat := by rfl
  have number : ∀ left right : Int, Json.same (.int left) (.int right) = decide (left = right) := by
    intro left right
    simp [Json.same, Json.number?]
  rw [readRecord, type, absent, eventId, number, number]
  cases event.type <;> simp [EventType.number, nativeOrder]

/-- Every order line is followed by an acknowledgment, of whatever order. -/
def Answered : List EventType → Prop
  | [] => True
  | type :: rest => (type = .orderSent → .acknowledgment ∈ rest) ∧ Answered rest

instance decidableAnswered : (types : List EventType) → Decidable (Answered types)
  | [] => isTrue trivial
  | type :: rest =>
      have := decidableAnswered rest
      inferInstanceAs (Decidable ((type = .orderSent → .acknowledgment ∈ rest) ∧ Answered rest))

theorem readLine_lineText (progress : Progress) (lineNumber : Nat) (event : JournalRecord)
    (payload : List Char) :
    readLine progress lineNumber (event.lineText payload ++ ['\n']) =
      readRecord progress lineNumber (event.entries payload) := by
  have visible : event.lineText payload ≠ [] := by
    simp [JournalRecord.lineText, JournalRecord.lineStart]
  rw [readLine, strip_lineText, if_neg visible, event.loads_lineText]

theorem readLines_native (events : List JournalRecord) (progress : Progress) (lineNumber : Nat)
    (zero : ∀ order ∈ progress.uncertainOrders, order.correlationId = .int 0) :
    let final := readLines progress lineNumber
      (events.map fun event => event.lineText event.payloadText ++ ['\n'])
    (∀ order ∈ final.uncertainOrders, order.correlationId = .int 0) ∧
    (final.uncertainOrders = [] ↔
      (progress.uncertainOrders = [] ∨
        EventType.acknowledgment ∈ events.map JournalRecord.type) ∧
      Answered (events.map JournalRecord.type)) := by
  induction events generalizing progress lineNumber with
  | nil =>
      simp only [List.map_nil, readLines, Answered, List.not_mem_nil, or_false, and_true]
      exact zero
  | cons event events ih =>
      simp only [List.map_cons, readLines, Answered, List.mem_cons]
      rw [readLine_lineText, readRecord_entries]
      cases type : event.type with
      | orderSent =>
          have added : ∀ order ∈ progress.uncertainOrders ++ [nativeOrder lineNumber event],
              order.correlationId = .int 0 := by
            intro other member
            rcases List.mem_append.mp member with earlier | new
            · exact zero other earlier
            · rw [List.mem_singleton.mp new]
              rfl
          rcases ih { progress with
            uncertainOrders := progress.uncertainOrders ++ [nativeOrder lineNumber event] }
            (lineNumber + 1) added with ⟨kept, empty⟩
          constructor
          · exact kept
          · rw [empty]
            simp
            tauto
      | acknowledgment =>
          have cleared : progress.uncertainOrders.filter (fun order =>
              !Json.same order.correlationId (.int 0)) = [] := by
            apply List.filter_eq_nil_iff.mpr
            intro other member
            rw [zero other member]
            simp [Json.same, Json.number?]
          simp only [cleared]
          rcases ih { uncertainOrders := []
                      resolvedOrders := progress.resolvedOrders ++ [.acknowledged (.int 0)] }
            (lineNumber + 1) (by simp) with ⟨kept, empty⟩
          constructor
          · exact kept
          · rw [empty]
            simp
      | intent => simpa using ih progress (lineNumber + 1) zero
      | riskDecision => simpa using ih progress (lineNumber + 1) zero
      | fill => simpa using ih progress (lineNumber + 1) zero
      | cancel => simpa using ih progress (lineNumber + 1) zero
      | halt => simpa using ih progress (lineNumber + 1) zero

theorem reconcileOrders_native {envelopes : List EventEnvelope} {file : JournalFile}
    (persisted : (JournalFile.create []).appendAll (envelopes.map JournalRecord.ofEnvelope) =
      some file) (venueId : String) :
    ∃ uncertain resolved orders, reconcileOrders (some file.content) venueId =
        some (.reconciled venueId uncertain resolved orders) ∧
      (∀ order ∈ orders, order.correlationId = .int 0) ∧
      (orders = [] ↔ Answered (envelopes.map EventEnvelope.type)) := by
  have valid : ∀ event ∈ envelopes.map JournalRecord.ofEnvelope,
      ∃ text, event.payload = encodeUtf8 text := by
    intro event member
    rcases List.mem_map.mp member with ⟨envelope, _, same⟩
    rw [← same]
    exact ⟨_, rfl⟩
  have read := decode_content persisted valid
  rcases Option.map_eq_some_iff.mp read with ⟨text, decoded, translated⟩
  have native := readLines_native (envelopes.map JournalRecord.ofEnvelope) {} 1 (by simp)
  have types : (envelopes.map JournalRecord.ofEnvelope).map JournalRecord.type =
      envelopes.map EventEnvelope.type := by
    rw [List.map_map]
    rfl
  rw [← fileLines_fileText, ← translated, types] at native
  simp only [reconcileOrders, decoded, Option.map_some]
  rcases native with ⟨zero, empty⟩
  constructor
  constructor
  constructor
  constructor
  · rfl
  constructor
  · exact zero
  · simpa using empty

/-! Runs -/

/-- The calls on the engine, and the entries that other components append to the
journal they share with it. -/
inductive Op where
  | engine (op : ExecutionEngine.Op)
  | note (type : EventType) (correlationId : UInt64) (payload : String)

inductive Output where
  | engine (output : ExecutionEngine.Output)
  | noted

def step (engine : ExecutionEngine) : Op → Option (ExecutionEngine × Output)
  | .engine op => (engine.step op).map fun next => (next.1, .engine next.2)
  | .note type correlationId payload =>
      some ({ engine with journal := engine.journal.append type correlationId payload }, .noted)

def Acknowledges (correlationId : UInt64) (envelope : EventEnvelope) : Prop :=
  envelope.type = .acknowledgment ∧
    (toString correlationId.toNat ++ ":").toList <+: envelope.payload.toList

/-- A submission of the run returned an event, and no later envelope acknowledges it. -/
def Unanswered (log : List (Op × Output)) (journal : EventJournal) (correlationId : UInt64) :
    Prop :=
  ∃ intent nowNs event,
    (Op.engine (.submit intent nowNs), Output.engine (.event (some event))) ∈ log ∧
    intent.correlationId = correlationId ∧
    ∀ envelope ∈ journal.events, event.eventId < envelope.eventId →
      ¬ Acknowledges correlationId envelope

theorem submit_none_of_zero {engine : ExecutionEngine} {intent : OrderIntent}
    (zero : intent.correlationId = 0) (nowNs : UInt64) :
    ∃ next, engine.submit intent nowNs = some (next, none) := by
  rw [ExecutionEngine.submit, if_pos (Or.inl zero)]
  exact ⟨_, rfl⟩

theorem sent_ne_zero {engine final : ExecutionEngine} {ops : List Op} {log : List (Op × Output)}
    (ran : Machine.exec step engine ops = some (final, log)) {intent : OrderIntent}
    {nowNs : UInt64} {event : ExecutionEvent}
    (sent : (Op.engine (.submit intent nowNs), Output.engine (.event (some event))) ∈ log) :
    intent.correlationId ≠ 0 := by
  have each : Machine.Along step (fun _ op output _ => ∀ intent nowNs event,
      op = .engine (.submit intent nowNs) → output = .engine (.event (some event)) →
        intent.correlationId ≠ 0) engine ops := by
    apply Machine.along_of_invariant (fun _ => True) _ trivial
    intro before op output after _ taken
    constructor
    · intro intent nowNs event submitted returned zero
      rw [submitted, step, ExecutionEngine.step] at taken
      rcases submit_none_of_zero zero nowNs with ⟨next, refused⟩
      rw [refused] at taken
      simp [returned] at taken
    · trivial
  exact Machine.log_of_along ran each _ sent intent nowNs event rfl rfl

/-- The correlation ids that are reported are those of the orders without an
acknowledgment. -/
def Exact (log : List (Op × Output)) (journal : EventJournal) (orders : List UncertainOrder) :
    Prop :=
  ∀ reported, reported ∈ orders.map UncertainOrder.correlationId ↔
    ∃ correlationId, Unanswered log journal correlationId ∧ reported = .int correlationId.toNat

theorem exact_zero_iff {engine final : ExecutionEngine} {ops : List Op} {log : List (Op × Output)}
    (ran : Machine.exec step engine ops = some (final, log)) {orders : List UncertainOrder}
    (zero : ∀ order ∈ orders, order.correlationId = .int 0) :
    Exact log final.journal orders ↔
      orders = [] ∧ ∀ correlationId, ¬ Unanswered log final.journal correlationId := by
  constructor
  · intro exact
    have nothing : orders = [] := by
      apply List.eq_nil_iff_forall_not_mem.mpr
      intro order member
      rcases (exact order.correlationId).mp (List.mem_map_of_mem member) with
        ⟨correlationId, ⟨intent, nowNs, event, sent, own, _⟩, same⟩
      rw [zero order member, Json.int.injEq] at same
      apply sent_ne_zero ran sent
      rw [own, ← UInt64.toNat_inj]
      exact_mod_cast same.symm
    constructor
    · exact nothing
    · intro correlationId unanswered
      have listed := (exact (.int correlationId.toNat)).mpr ⟨correlationId, unanswered, rfl⟩
      rw [nothing] at listed
      exact absurd listed (by simp)
  · intro quiet reported
    rw [quiet.1]
    constructor
    · intro listed
      exact absurd listed (by simp)
    · intro listed
      rcases listed with ⟨correlationId, unanswered, _⟩
      exact absurd unanswered (quiet.2 correlationId)

/-- The report is exact when there is nothing to report: every order line is followed by
some acknowledgment, and every order that was sent by its own. -/
theorem reconcile_exact_iff {risk : RiskEngine} {engine : ExecutionEngine} {ops : List Op}
    {log : List (Op × Output)} {file : JournalFile}
    (ran : Machine.exec step (ExecutionEngine.create {} risk) ops = some (engine, log))
    (persisted : (JournalFile.create []).appendAll
      (engine.journal.events.map JournalRecord.ofEnvelope) = some file) (venueId : String) :
    ∃ uncertain resolved orders,
      reconcileOrders (some file.content) venueId false =
        some (.reconciled venueId uncertain resolved orders) ∧
      (Exact log engine.journal orders ↔
        Answered (engine.journal.events.map EventEnvelope.type) ∧
          ∀ correlationId, ¬ Unanswered log engine.journal correlationId) := by
  rcases reconcileOrders_native persisted venueId with
    ⟨uncertain, resolved, orders, report, zero, empty⟩
  have exact := exact_zero_iff ran zero
  rw [empty] at exact
  exact ⟨uncertain, resolved, orders, report, exact⟩

def singleOrder : List Op :=
  [.engine (.setGatewayState .ready), .engine (.setHalted false),
    .engine (.submit ExecutionEngine.sampleIntent 2)]

def acknowledgedOrder : List Op := singleOrder ++ [.engine (.acknowledge 5001 1 3)]

theorem reconcile_exact_iff_acknowledged :
    ∃ engine log file,
      Machine.exec step (ExecutionEngine.create {} ExecutionEngine.sampleRisk) acknowledgedOrder =
        some (engine, log) ∧
      (JournalFile.create []).appendAll (engine.journal.events.map JournalRecord.ofEnvelope) =
        some file ∧
      Answered (engine.journal.events.map EventEnvelope.type) ∧
      ∃ uncertain resolved orders,
        reconcileOrders (some file.content) "exchange-a-sim" false =
          some (.reconciled "exchange-a-sim" uncertain resolved orders) ∧
        (Exact log engine.journal orders ↔
          Answered (engine.journal.events.map EventEnvelope.type) ∧
            ∀ correlationId, ¬ Unanswered log engine.journal correlationId) := by
  cases ran : Machine.exec step (ExecutionEngine.create {} ExecutionEngine.sampleRisk)
      acknowledgedOrder with
  | none => exact absurd ran (by decide +kernel)
  | some result =>
      have answered : (Machine.exec step
          (ExecutionEngine.create {} ExecutionEngine.sampleRisk) acknowledgedOrder).map
            (fun result => decide (Answered (result.1.journal.events.map EventEnvelope.type))) =
          some true := by
        decide +kernel
      have written : (Machine.exec step
          (ExecutionEngine.create {} ExecutionEngine.sampleRisk) acknowledgedOrder).map
            (fun result => ((JournalFile.create []).appendAll
              (result.1.journal.events.map JournalRecord.ofEnvelope)).isSome) = some true := by
        decide +kernel
      rw [ran, Option.map_some, Option.some.injEq] at answered written
      rcases Option.isSome_iff_exists.mp written with ⟨file, persisted⟩
      exact ⟨result.1, result.2, file, rfl, persisted, of_decide_eq_true answered,
        reconcile_exact_iff ran persisted "exchange-a-sim"⟩

/-- The order 5001 without an acknowledgment is not reported as 5001. -/
theorem sent_order_reported_as_zero :
    ¬ ∀ (risk : RiskEngine) (engine : ExecutionEngine) (ops : List Op) (log : List (Op × Output))
      (file : JournalFile),
      Machine.exec step (ExecutionEngine.create {} risk) ops = some (engine, log) →
      (JournalFile.create []).appendAll (engine.journal.events.map JournalRecord.ofEnvelope) =
        some file →
      ∀ uncertain resolved orders, reconcileOrders (some file.content) "exchange-a-sim" false =
        some (.reconciled "exchange-a-sim" uncertain resolved orders) →
      Exact log engine.journal orders := by
  intro always
  cases ran : Machine.exec step (ExecutionEngine.create {} ExecutionEngine.sampleRisk)
      singleOrder with
  | none => exact absurd ran (by decide +kernel)
  | some result =>
      have unanswered : (Machine.exec step
          (ExecutionEngine.create {} ExecutionEngine.sampleRisk) singleOrder).map (fun result =>
            decide (Answered (result.1.journal.events.map EventEnvelope.type))) = some false := by
        decide +kernel
      have written : (Machine.exec step
          (ExecutionEngine.create {} ExecutionEngine.sampleRisk) singleOrder).map (fun result =>
            ((JournalFile.create []).appendAll
              (result.1.journal.events.map JournalRecord.ofEnvelope)).isSome) = some true := by
        decide +kernel
      rw [ran, Option.map_some, Option.some.injEq] at unanswered written
      rcases Option.isSome_iff_exists.mp written with ⟨file, persisted⟩
      rcases reconcileOrders_native persisted "exchange-a-sim" with
        ⟨uncertain, resolved, orders, report, zero, empty⟩
      have exact := always _ result.1 singleOrder result.2 file ran persisted _ _ _ report
      have none := ((exact_zero_iff ran zero).mp exact).1
      exact absurd (empty.mp none) (of_decide_eq_false unanswered)

end Reconcile

end Ito
