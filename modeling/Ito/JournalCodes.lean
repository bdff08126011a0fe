import Ito.ExecutionEffects
import Ito.ExecutionLimits

/-! What the journal says about the fate of a submission: an accepted one writes its
venue order id where a rejected one writes its reason code. -/

namespace Ito

theorem EventJournal.append_events (journal : EventJournal) (type : EventType)
    (correlationId : UInt64) (payload : String) :
    (journal.append type correlationId payload).events = journal.events ++
      [⟨journal.nextEventId, journal.nextSequence, type,
        toString correlationId.toNat ++ ":" ++ payload⟩] := rfl

theorem RiskEngine.evaluate_journal {engine next : RiskEngine} {journal journal' : EventJournal}
    {intent : OrderIntent} {nowNs : UInt64} {decision : RiskDecision}
    (evaluated : engine.evaluate journal intent nowNs = some (next, journal', decision)) :
    ∃ payload, journal' = journal.append .riskDecision intent.correlationId payload := by
  rw [evaluate, Option.bind_eq_bind] at evaluated
  rcases Option.bind_eq_some_iff.mp evaluated with ⟨reason, _, rest⟩
  cases reason with
  | some code =>
      simp only [reject, Option.pure_def, Option.some.injEq, Prod.mk.injEq] at rest
      exact ⟨_, rest.2.1.symm⟩
  | none =>
      simp only [reject, Option.pure_def] at rest
      split at rest
      · simp only [Option.some.injEq, Prod.mk.injEq] at rest
        exact ⟨_, rest.2.1.symm⟩
      · simp only [Option.some.injEq, Prod.mk.injEq] at rest
        exact ⟨_, rest.2.1.symm⟩

namespace ExecutionEngine

/-- The reason codes that `submit` journals. -/
def reasonCodes : List Nat :=
  [kGatewayUnavailable, kRiskRejected, kDuplicateCorrelation, kCircuitOpen, kCircuitHalfOpen]

/-- What has to hold for `submit` to send the order. -/
structure Admits (engine : ExecutionEngine) (intent : OrderIntent) (nowNs : UInt64) : Prop where
  identified : intent.correlationId ≠ 0
  fresh : intent.correlationId ∉ engine.active
  circuit : (engine.coolDown nowNs).circuitState ≠ .open
  probe : ¬ ((engine.coolDown nowNs).circuitState = .halfOpen ∧ engine.halfOpenInFlight = true)
  gateway : ¬ engine.Blocked
  risk : ∃ decided, engine.riskEngine.evaluate engine.journal intent nowNs = some decided ∧
    decided.2.2.status = .approved

/-- The envelopes of a submission: a risk decision at most, then the order line with
its code or venue order id. -/
def OrderLine (engine next : ExecutionEngine) (correlationId : UInt64) (number : Nat) : Prop :=
  ∃ decisions line, next.journal.events = engine.journal.events ++ decisions ++ [line] ∧
    (∀ envelope ∈ decisions, envelope.type ≠ .orderSent) ∧ line.type = .orderSent ∧
    line.payload = toString correlationId.toNat ++ ":" ++ toString number

@[simp] theorem countFailure_journal (engine : ExecutionEngine) (nowNs : UInt64) :
    (engine.countFailure nowNs).journal = engine.journal := by
  simp only [countFailure]
  split <;> rfl

@[simp] theorem coolDown_nextVenueOrderId (engine : ExecutionEngine) (nowNs : UInt64) :
    (engine.coolDown nowNs).nextVenueOrderId = engine.nextVenueOrderId := by
  simp only [coolDown]
  split <;> rfl

theorem orderLine_direct {engine next : ExecutionEngine} {correlationId : UInt64} {number : Nat}
    (journal : next.journal =
      engine.journal.append .orderSent correlationId (toString number)) :
    OrderLine engine next correlationId number := by
  have events := engine.journal.append_events .orderSent correlationId (toString number)
  rw [← journal] at events
  exact ⟨[], _, by simpa using events, by simp, rfl, rfl⟩

theorem orderLine_decided {engine next : ExecutionEngine} {correlationId : UInt64} {number : Nat}
    (decided : String) (journal : next.journal =
      (engine.journal.append .riskDecision correlationId decided).append .orderSent correlationId
        (toString number)) :
    OrderLine engine next correlationId number := by
  have events := (engine.journal.append .riskDecision correlationId decided).append_events
    .orderSent correlationId (toString number)
  rw [← journal, EventJournal.append_events] at events
  exact ⟨_, _, events, by simp, rfl, rfl⟩

/-- A submission is sent exactly when it is admitted, and its order line carries the
next venue order id; otherwise the line carries a reason code. -/
theorem submit_journal {engine next : ExecutionEngine} {intent : OrderIntent} {nowNs : UInt64}
    {result : Option ExecutionEvent} (ran : engine.submit intent nowNs = some (next, result)) :
    (result.isSome = true ∧ engine.Admits intent nowNs ∧
      OrderLine engine next intent.correlationId engine.nextVenueOrderId) ∨
    (result = none ∧ ¬ engine.Admits intent nowNs ∧
      ∃ code ∈ reasonCodes, OrderLine engine next intent.correlationId code) := by
  rw [submit] at ran
  split at ran
  case isTrue known =>
    simp only [refuse, Option.some.injEq, Prod.mk.injEq] at ran
    rcases ran with ⟨rfl, rfl⟩
    right
    constructor
    · rfl
    constructor
    · intro admits
      rcases known with zero | member
      · exact admits.identified zero
      · exact admits.fresh member
    · exact ⟨kDuplicateCorrelation, by decide, orderLine_direct rfl⟩
  case isFalse fresh =>
    simp only at ran
    split at ran
    case isTrue opened =>
      simp only [refuse, Option.some.injEq, Prod.mk.injEq] at ran
      rcases ran with ⟨rfl, rfl⟩
      exact Or.inr ⟨rfl, fun admits => admits.circuit opened,
        kCircuitOpen, by decide, orderLine_direct (by simp)⟩
    case isFalse closed =>
      split at ran
      case isTrue probing =>
        simp only [refuse, Option.some.injEq, Prod.mk.injEq] at ran
        rcases ran with ⟨rfl, rfl⟩
        rw [coolDown_halfOpenInFlight] at probing
        exact Or.inr ⟨rfl, fun admits => admits.probe probing,
          kCircuitHalfOpen, by decide, orderLine_direct (by simp)⟩
      case isFalse probe =>
        split at ran
        case isTrue blocked =>
          simp only [refuse, Option.some.injEq, Prod.mk.injEq] at ran
          rcases ran with ⟨rfl, rfl⟩
          rw [coolDown_halted, coolDown_gatewayState] at blocked
          exact Or.inr ⟨rfl, fun admits => admits.gateway blocked,
            kGatewayUnavailable, by decide, orderLine_direct (by simp)⟩
        case isFalse ready =>
          rw [coolDown_halfOpenInFlight] at probe
          simp only [coolDown_riskEngine, coolDown_journal, coolDown_halted,
            coolDown_gatewayState] at ran ready
          rcases Option.map_eq_some_iff.mp ran with ⟨⟨risk, journal', decision⟩, evaluated, final⟩
          rcases RiskEngine.evaluate_journal evaluated with ⟨payload, decided⟩
          simp only at final
          split at final
          case isTrue refused =>
            simp only [refuse, Prod.mk.injEq] at final
            rcases final with ⟨rfl, rfl⟩
            right
            constructor
            · rfl
            constructor
            · intro admits
              rcases admits.risk with ⟨other, same, approved⟩
              rw [evaluated, Option.some.injEq] at same
              rw [← same] at approved
              exact refused approved
            · exact ⟨kRiskRejected, by decide, orderLine_decided payload (by simp [decided])⟩
          case isFalse approved =>
            simp only [send, Prod.mk.injEq] at final
            rcases final with ⟨rfl, rfl⟩
            left
            constructor
            · rfl
            constructor
            · rw [not_or] at fresh
              exact ⟨fresh.1, fresh.2, closed, probe, ready, _, evaluated, by simpa using approved⟩
            · exact orderLine_decided payload (by simp [decided])

/-- Reads an order line: it says that the order was sent unless it ends in a reason
code. -/
def saysSent (_ : EventType) (payload : String) : Bool :=
  !reasonCodes.any fun code =>
    payload.toList.dropWhile (· ≠ ':') = ':' :: (toString code).toList

/-- The reader is right about every order line that the step appends. -/
def Tells (reader : EventType → String → Bool) (before : ExecutionEngine) (op : Op)
    (output : Output) (after : ExecutionEngine) : Prop :=
  ∀ intent nowNs result, op = .submit intent nowNs → output = .event result →
    ∀ envelope ∈ after.journal.events.drop before.journal.events.length,
      envelope.type = .orderSent → reader envelope.type envelope.payload = result.isSome

/-- An order that is sent does not get a reason code for its venue order id. -/
def FreeId (before : ExecutionEngine) (op : Op) : Prop :=
  ∀ intent nowNs, op = .submit intent nowNs → before.Admits intent nowNs →
    before.nextVenueOrderId ∉ reasonCodes

theorem payload_suffix (correlationId : UInt64) (number : Nat) :
    (toString correlationId.toNat ++ ":" ++ toString number).toList.dropWhile (· ≠ ':') =
      ':' :: (toString number).toList := by
  have noColon : ∀ c ∈ (toString correlationId.toNat).toList, decide (c ≠ ':') = true := by
    intro c member
    have digit : c.isDigit = true := by
      rw [Nat.toString_eq_ofList_toDigits, String.toList_ofList] at member
      exact Nat.isDigit_of_mem_toDigits (by omega) (by omega) member
    apply decide_eq_true
    intro same
    rw [same] at digit
    exact absurd digit (by decide)
  rw [String.toList_append, String.toList_append, List.append_assoc,
    List.dropWhile_append_of_pos noColon]
  rfl

theorem toString_toList_inj {first second : Nat}
    (same : (toString first).toList = (toString second).toList) : first = second := by
  rw [Nat.toString_eq_ofList_toDigits, Nat.toString_eq_ofList_toDigits, String.toList_ofList,
    String.toList_ofList] at same
  have read := congrArg (fun digits => Nat.ofDigitChars 10 digits 0) same
  simpa using read

theorem saysSent_iff (type : EventType) (correlationId : UInt64) (number : Nat) :
    saysSent type (toString correlationId.toNat ++ ":" ++ toString number) = true ↔
      number ∉ reasonCodes := by
  rw [saysSent, payload_suffix, Bool.not_eq_true', List.any_eq_false]
  constructor
  · intro differs member
    exact absurd (decide_eq_true rfl) (differs number member)
  · intro free code member same
    have digits := (List.cons.inj (of_decide_eq_true same)).2
    rw [toString_toList_inj digits] at free
    exact free member

theorem OrderLine.tells_iff {before after : ExecutionEngine} {correlationId : UInt64}
    {number : Nat} (line : OrderLine before after correlationId number)
    (reader : EventType → String → Bool) (sent : Bool) :
    (∀ envelope ∈ after.journal.events.drop before.journal.events.length,
      envelope.type = .orderSent → reader envelope.type envelope.payload = sent) ↔
    reader .orderSent (toString correlationId.toNat ++ ":" ++ toString number) = sent := by
  rcases line with ⟨decisions, envelope, events, others, type, payload⟩
  rw [events, List.append_assoc, List.drop_left]
  constructor
  · intro all
    have last := all envelope (by simp) type
    rwa [type, payload] at last
  · intro right other member ordered
    rcases List.mem_append.mp member with decision | last
    · exact absurd ordered (others other decision)
    · rw [List.mem_singleton.mp last, type, payload]
      exact right

theorem tells_submit {before next : ExecutionEngine} {intent : OrderIntent} {nowNs : UInt64}
    {result : Option ExecutionEvent} (ran : before.submit intent nowNs = some (next, result)) :
    Tells saysSent before (.submit intent nowNs) (.event result) next ↔
      FreeId before (.submit intent nowNs) := by
  have tells : Tells saysSent before (.submit intent nowNs) (.event result) next ↔
      ∀ envelope ∈ next.journal.events.drop before.journal.events.length,
        envelope.type = .orderSent →
          saysSent envelope.type envelope.payload = result.isSome := by
    constructor
    · intro all
      exact all intent nowNs result rfl rfl
    · intro all intent' nowNs' result' sameOp sameOutput
      rw [Output.event.injEq] at sameOutput
      rw [← sameOutput]
      exact all
  have free : FreeId before (.submit intent nowNs) ↔
      (before.Admits intent nowNs → before.nextVenueOrderId ∉ reasonCodes) := by
    constructor
    · intro all
      exact all intent nowNs rfl
    · intro all intent' nowNs' same
      rw [Op.submit.injEq] at same
      rw [← same.1, ← same.2]
      exact all
  rw [tells, free]
  rcases submit_journal ran with ⟨sent, admits, line⟩ | ⟨refused, barred, code, known, line⟩
  · rw [line.tells_iff, sent, saysSent_iff]
    constructor
    · intro free _
      exact free
    · intro free
      exact free admits
  · rw [line.tells_iff, refused, Option.isSome_none]
    constructor
    · intro _ admits
      exact absurd admits barred
    · intro _
      apply Bool.eq_false_iff.mpr
      intro taken
      exact (saysSent_iff _ _ _).mp taken known

theorem tells_other {before after : ExecutionEngine} {op : Op} {output : Output}
    (other : ∀ intent nowNs, op ≠ .submit intent nowNs) :
    Tells saysSent before op output after ↔ FreeId before op := by
  apply iff_of_true
  · intro intent nowNs _ same
    exact absurd same (other intent nowNs)
  · intro intent nowNs same
    exact absurd same (other intent nowNs)

theorem tells_submit_iff {before after : ExecutionEngine} {op : Op} {output : Output}
    (taken : before.step op = some (after, output)) :
    Tells saysSent before op output after ↔ FreeId before op := by
  by_cases submits : ∃ intent nowNs, op = .submit intent nowNs
  · rcases submits with ⟨intent, nowNs, rfl⟩
    simp only [step, Option.map_eq_some_iff, Prod.mk.injEq] at taken
    rcases taken with ⟨⟨next, result⟩, ran, rfl, rfl⟩
    exact tells_submit ran
  · apply tells_other
    intro intent nowNs same
    exact submits ⟨intent, nowNs, same⟩

/-- The reader `saysSent` is right about every order line of a run exactly when no order of
the run is sent under a venue order id that is also a reason code. -/
theorem journal_tells_sent_iff (journal : EventJournal) (risk : RiskEngine) (ops : List Op) :
    Machine.Along step (Tells saysSent) (create journal risk) ops ↔
      Machine.Along step (fun before op _ _ => FreeId before op) (create journal risk) ops := by
  apply Machine.along_iff (fun _ => True) (A := fun _ => True) _ trivial (fun _ _ => trivial)
  intro before op output after _ _ taken
  exact ⟨tells_submit_iff taken, fun _ => trivial⟩

def busyRisk : RiskEngine :=
  { limits := ⟨1, 10000000000, 100, 1000, 100, 200, 1000, true⟩, health := .healthy }

def busyIntent (correlationId : UInt64) : OrderIntent :=
  ⟨1, correlationId, 7, 11, 21, 101, 5, 33, .buy, .limit, .day, 100, 10, 1⟩

def busyOps : List Op :=
  [.setGatewayState .ready, .setHalted false] ++
    (List.range 199).flatMap fun index =>
      [.submit (busyIntent (UInt64.ofNat (index + 1))) 2,
        .acknowledge (UInt64.ofNat (index + 1)) (index + 1) 2]

/-- Order 5001 is refused with the code 200 while the gateway is away; after 199 orders
it is sent as venue order 200, with the same line in the journal. -/
theorem refused_and_sent_alike :
    ¬ ∃ reader : EventType → String → Bool,
      ∀ (journal : EventJournal) (risk : RiskEngine) (ops : List Op),
        Machine.Along step (Tells reader) (create journal risk) ops := by
  intro decided
  rcases decided with ⟨reader, always⟩
  have refused : reader .orderSent (toString (5001 : UInt64).toNat ++ ":" ++ toString 200) =
      false := by
    have away : (create {} busyRisk).step (.submit (busyIntent 5001) 2) =
        some ((((create {} busyRisk).countFailure 2).refuse 5001 kGatewayUnavailable).1,
          .event none) := by rfl
    have told := (always {} busyRisk [.submit (busyIntent 5001) 2] _ _ away).1
    exact (orderLine_direct rfl).tells_iff reader false |>.mp (told _ _ _ rfl rfl)
  have sent : reader .orderSent (toString (5001 : UInt64).toNat ++ ":" ++ toString 200) =
      true := by
    have busy : (Machine.exec step (create {} busyRisk) busyOps).map (fun result =>
        (result.1.nextVenueOrderId,
          (result.1.submit (busyIntent 5001) 2).map fun next => next.2.isSome)) =
        some (200, some true) := by decide +kernel
    cases ran : Machine.exec step (create {} busyRisk) busyOps with
    | none =>
        rw [ran] at busy
        exact absurd busy (by simp)
    | some result =>
        rw [ran, Option.map_some, Option.some.injEq, Prod.mk.injEq, Option.map_eq_some_iff] at busy
        rcases busy with ⟨venueOrderId, ⟨next, event⟩, submitted, returned⟩
        have taken : result.1.step (.submit (busyIntent 5001) 2) = some (next, .event event) := by
          rw [step, submitted, Option.map_some]
        have told := (Machine.along_of_append ran
          (always {} busyRisk (busyOps ++ [.submit (busyIntent 5001) 2])) _ _ taken).1
        rcases submit_journal submitted with ⟨_, _, line⟩ | ⟨none, _⟩
        · have right := (line.tells_iff reader event.isSome).mp (told _ _ _ rfl rfl)
          rw [venueOrderId, returned] at right
          exact right
        · rw [none] at returned
          exact absurd returned (by simp)
  rw [refused] at sent
  exact absurd sent (by simp)

end ExecutionEngine

end Ito
