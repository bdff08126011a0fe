import Ito.RiskEvaluate

/-! A risk engine and other components on one event journal.

Source: `cpp/ito_risk/risk_engine.cpp`, `cpp/ito_core/event.cpp`. The engine's mutex is held for
a whole call, the journal's only for one `append` or one `next_sequence`. A rejection takes its
event id from the append. An approval reads the next sequence number and appends afterwards, so
another component can append in between. -/

namespace Ito.SharedJournal

open RiskEngine

structure System where
  engine : RiskEngine := {}
  journal : EventJournal := {}
  /-- The decision of an approving call that has read the next sequence number and not yet
  appended. -/
  pending : Option RiskDecision := none
  deriving DecidableEq, Repr

inductive Event where
  /-- Another component appends. -/
  | append (type : EventType) (correlationId : UInt64) (payload : String)
  /-- `evaluate` up to the append of a rejection, or up to `next_sequence` of an approval. -/
  | begin (intent : OrderIntent) (nowNs : UInt64)
  /-- The append of an approval. -/
  | finish
  /-- Any other call on the engine. -/
  | call (op : RiskEngine.Op)

def rejected (system : System) (outcome : RiskEngine × EventJournal × RiskDecision) :
    System × Option RiskDecision :=
  ({ system with engine := outcome.1, journal := outcome.2.1 }, some outcome.2.2)

def begin (system : System) (intent : OrderIntent) (nowNs : UInt64) :
    Option (System × Option RiskDecision) := do
  match ← refusal system.engine intent nowNs with
  | some reason =>
      return rejected system (reject system.engine system.journal intent.correlationId nowNs reason)
  | none =>
      let rolled := rollWindow system.engine nowNs
      if rolled.ordersThisSecond ≥ rolled.limits.maxOrdersPerSecond then
        return rejected system (reject rolled system.journal intent.correlationId nowNs kRate)
      else
        return ({ system with
          engine := { rolled with ordersThisSecond := rolled.ordersThisSecond + 1 }
          pending := some
            { eventId := system.journal.nextSequence
              correlationId := intent.correlationId
              limitVersion := rolled.limits.version
              status := .approved
              reasonCode := 0
              decidedNs := nowNs } }, none)

def finish (system : System) (decision : RiskDecision) : System × Option RiskDecision :=
  ({ system with
    journal := system.journal.append .riskDecision decision.correlationId "approved"
    pending := none }, some decision)

/-- One step of the system, with the decision a call returns. A call waits for the engine's
mutex. -/
def step (system : System) (event : Event) : Option (System × Option RiskDecision) :=
  match event, system.pending with
  | .append type correlationId payload, _ =>
      some ({ system with journal := system.journal.append type correlationId payload }, none)
  | .begin intent nowNs, none => begin system intent nowNs
  | .finish, some decision => some (finish system decision)
  | .call (.evaluate _ _), none => none
  | .call op, none =>
      (RiskEngine.step (system.engine, system.journal) op).map fun next =>
        ({ system with engine := next.1.1, journal := next.1.2 }, none)
  | _, _ => none

/-- A returned decision carries the id of the envelope that its call appended in this step. -/
def OwnEnvelope (system : System) (_ : Event) (returned : Option RiskDecision) (next : System) :
    Prop :=
  ∀ decision, returned = some decision → ∃ envelope,
    next.journal.events = system.journal.events ++ [envelope] ∧
      envelope.type = .riskDecision ∧ decision.eventId = envelope.eventId

/-- Another component appends only while no approval waits for its append. -/
def Undisturbed (system : System) (event : Event) (_ : Option RiskDecision) (_ : System) : Prop :=
  match event with
  | .append _ _ _ => system.pending = none
  | _ => True

instance (system next : System) (event : Event) (returned : Option RiskDecision) :
    Decidable (Undisturbed system event returned next) :=
  match event with
  | .append _ _ _ => inferInstanceAs (Decidable (system.pending = none))
  | .begin _ _ | .finish | .call _ => inferInstanceAs (Decidable True)

theorem evaluate_eq (system : System) (intent : OrderIntent) (nowNs : UInt64) :
    system.engine.evaluate system.journal intent nowNs =
      (begin system intent nowNs).bind fun begun =>
        match begun.2, begun.1.pending with
        | some decision, _ => some (begun.1.engine, begun.1.journal, decision)
        | none, some decision =>
            some ((finish begun.1 decision).1.engine, (finish begun.1 decision).1.journal, decision)
        | none, none => none := by
  rw [RiskEngine.evaluate, begin]
  cases refusal system.engine intent nowNs with
  | none => rfl
  | some outcome =>
      simp only [Option.bind_eq_bind, Option.bind_some]
      cases outcome with
      | some reason => rfl
      | none =>
          by_cases full : (rollWindow system.engine nowNs).ordersThisSecond ≥
              (rollWindow system.engine nowNs).limits.maxOrdersPerSecond
          · simp only [if_pos full]
            rfl
          · simp only [if_neg full]
            rfl

def Paired (journal : EventJournal) : Prop := journal.nextSequence = journal.nextEventId

theorem paired_append {journal : EventJournal} (paired : Paired journal) (type : EventType)
    (correlationId : UInt64) (payload : String) :
    Paired (journal.append type correlationId payload) :=
  congrArg (· + 1) paired

structure Steady (system : System) : Prop where
  ledger : system.engine.position.Ledger
  paired : Paired system.journal

/-- A pending decision still carries the id that its envelope will get. -/
def Fresh (system : System) : Prop :=
  ∀ decision, system.pending = some decision → decision.eventId = system.journal.nextEventId

def Stale (system : System) : Prop :=
  ∃ decision, system.pending = some decision ∧ decision.eventId < system.journal.nextEventId

theorem begin_cases {system next : System} {intent : OrderIntent} {nowNs : UInt64}
    {returned : Option RiskDecision} (steady : Steady system)
    (begun : begin system intent nowNs = some (next, returned)) :
    next.engine.position = system.engine.position ∧
      ((∃ decision payload, returned = some decision ∧
          decision.eventId = system.journal.nextEventId ∧ next.pending = system.pending ∧
          next.journal = system.journal.append .riskDecision intent.correlationId payload) ∨
        (∃ decision, returned = none ∧ next.pending = some decision ∧
          decision.eventId = system.journal.nextSequence ∧ next.journal = system.journal)) := by
  rw [begin] at begun
  rcases refusal_spec steady.ledger intent nowNs with ⟨outcome, defined, _⟩
  rw [defined, Option.bind_eq_bind, Option.bind_some] at begun
  cases outcome with
  | some reason =>
      cases begun
      exact ⟨rfl, .inl ⟨_, _, rfl, rfl, rfl, rfl⟩⟩
  | none =>
      simp only at begun
      split at begun
      · cases begun
        exact ⟨rollWindow_position system.engine nowNs, .inl ⟨_, _, rfl, rfl, rfl, rfl⟩⟩
      · cases begun
        exact ⟨rollWindow_position system.engine nowNs, .inr ⟨_, rfl, rfl, rfl, rfl⟩⟩

theorem call_journal {engine next : RiskEngine} {journal journal' : EventJournal} {op : Op}
    {output : Output} (ledger : engine.position.Ledger)
    (other : ∀ intent nowNs, op ≠ .evaluate intent nowNs)
    (called : RiskEngine.step (engine, journal) op = some ((next, journal'), output)) :
    journal' = journal ∨
      ∃ type correlationId payload, journal' = journal.append type correlationId payload := by
  cases op with
  | setLimits limits =>
      cases called
      exact .inl rfl
  | setPosition position =>
      rw [RiskEngine.step, setPosition_eq, Option.map_some] at called
      cases called
      exact .inl rfl
  | setHealth health =>
      cases called
      exact .inl rfl
  | applyFill side quantity =>
      rcases applyFill_eq ledger journal side quantity with ⟨position, evaluated, _⟩
      rw [RiskEngine.step, evaluated, Option.map_some] at called
      split at called
      · cases called
        exact .inr ⟨_, _, _, rfl⟩
      · cases called
        exact .inl rfl
  | evaluate intent nowNs => exact absurd rfl (other intent nowNs)

theorem call_cases {system next : System} {op : Op} {returned : Option RiskDecision}
    (idle : system.pending = none) (stepped : step system (.call op) = some (next, returned)) :
    (∀ intent nowNs, op ≠ .evaluate intent nowNs) ∧ returned = none ∧ ∃ called output,
      RiskEngine.step (system.engine, system.journal) op = some (called, output) ∧
        next = { system with engine := called.1, journal := called.2 } := by
  have other : ∀ intent nowNs, op ≠ .evaluate intent nowNs := by
    intro intent nowNs same
    simp [step, idle, same] at stepped
  have mapped : (RiskEngine.step (system.engine, system.journal) op).map
      (fun called => ({ system with engine := called.1.1, journal := called.1.2 }, none)) =
        some (next, returned) := by
    cases op with
    | evaluate intent nowNs => exact absurd rfl (other intent nowNs)
    | setLimits | setPosition | setHealth | applyFill => simpa only [step, idle] using stepped
  rcases Option.map_eq_some_iff.mp mapped with ⟨⟨called, output⟩, defined, result⟩
  cases result
  exact ⟨other, rfl, called, output, defined, rfl⟩

inductive Effect (system next : System) : Event → Option RiskDecision → Prop where
  | foreign (type : EventType) (correlationId : UInt64) (payload : String)
      (pending : next.pending = system.pending)
      (journal : next.journal = system.journal.append type correlationId payload) :
      Effect system next (.append type correlationId payload) none
  | rejected (intent : OrderIntent) (nowNs : UInt64) (decision : RiskDecision) (payload : String)
      (idle : system.pending = none) (pending : next.pending = none)
      (own : decision.eventId = system.journal.nextEventId)
      (journal : next.journal =
        system.journal.append .riskDecision intent.correlationId payload) :
      Effect system next (.begin intent nowNs) (some decision)
  | approved (intent : OrderIntent) (nowNs : UInt64) (decision : RiskDecision)
      (idle : system.pending = none) (pending : next.pending = some decision)
      (read : decision.eventId = system.journal.nextSequence)
      (journal : next.journal = system.journal) :
      Effect system next (.begin intent nowNs) none
  | finished (decision : RiskDecision) (waiting : system.pending = some decision)
      (pending : next.pending = none)
      (journal : next.journal =
        system.journal.append .riskDecision decision.correlationId "approved") :
      Effect system next .finish (some decision)
  | called (op : Op) (idle : system.pending = none) (pending : next.pending = none) :
      Effect system next (.call op) none

theorem step_effect {system next : System} {event : Event} {returned : Option RiskDecision}
    (steady : Steady system) (stepped : step system event = some (next, returned)) :
    Steady next ∧ Effect system next event returned := by
  have ledger := steady.ledger
  cases event with
  | append type correlationId payload =>
      cases stepped
      exact ⟨⟨ledger, paired_append steady.paired _ _ _⟩, .foreign _ _ _ rfl rfl⟩
  | begin intent nowNs =>
      cases waiting : system.pending with
      | some decision => simp [step, waiting] at stepped
      | none =>
          have begun : begin system intent nowNs = some (next, returned) := by
            simpa [step, waiting] using stepped
          rcases begin_cases steady begun with ⟨position, ⟨decision, payload, rfl, own, pending,
            journal⟩ | ⟨decision, rfl, pending, read, journal⟩⟩
          · have paired := paired_append steady.paired .riskDecision intent.correlationId payload
            exact ⟨⟨position ▸ ledger, journal ▸ paired⟩,
              .rejected _ _ _ _ waiting (pending.trans waiting) own journal⟩
          · exact ⟨⟨position ▸ ledger, journal ▸ steady.paired⟩,
              .approved _ _ _ waiting pending read journal⟩
  | finish =>
      cases waiting : system.pending with
      | none => simp [step, waiting] at stepped
      | some decision =>
          have finished : finish system decision = (next, returned) := by
            simpa [step, waiting] using stepped
          cases finished
          exact ⟨⟨ledger, paired_append steady.paired _ _ _⟩, .finished _ waiting rfl rfl⟩
  | call op =>
      cases waiting : system.pending with
      | some decision => simp [step, waiting] at stepped
      | none =>
          rcases call_cases waiting stepped with ⟨other, rfl, called, output, defined, rfl⟩
          rcases RiskEngine.step_spec ledger system.journal op with ⟨target, _, same, kept, _⟩
          rw [defined, Option.some.injEq, Prod.mk.injEq] at same
          have paired : Paired called.2 := by
            rcases call_journal ledger other defined with same | ⟨_, _, _, appended⟩
            · exact same ▸ steady.paired
            · exact appended ▸ paired_append steady.paired _ _ _
          exact ⟨⟨same.1 ▸ kept, paired⟩, .called op waiting waiting⟩

/-- A step from a state without a lost id returns no wrong decision. It loses an id exactly when
another component appends under a pending approval. -/
theorem step_fresh {system next : System} {event : Event} {returned : Option RiskDecision}
    (steady : Steady system) (fresh : Fresh system)
    (stepped : step system event = some (next, returned)) :
    OwnEnvelope system event returned next ∧
      (Undisturbed system event returned next → Fresh next) ∧
      (¬ Undisturbed system event returned next → Stale next) := by
  have silent : ∀ {event}, OwnEnvelope system event none next := by
    intro event decision returned
    cases returned
  cases (step_effect steady stepped).2 with
  | foreign type correlationId payload pending journal =>
      refine ⟨silent, ?_, ?_⟩
      · intro (idle : system.pending = none) decision waiting
        rw [pending, idle] at waiting
        cases waiting
      · intro (busy : ¬ system.pending = none)
        rcases Option.ne_none_iff_exists'.mp busy with ⟨decision, waiting⟩
        refine ⟨decision, pending.trans waiting, ?_⟩
        rw [journal, fresh decision waiting]
        exact Nat.lt_succ_self _
  | rejected intent nowNs decision payload idle pending own journal =>
      refine ⟨?_, ?_, fun disturbed => absurd trivial disturbed⟩
      · intro answer same
        cases same
        exact ⟨_, congrArg EventJournal.events journal, rfl, own⟩
      · intro _ decision waiting
        rw [pending] at waiting
        cases waiting
  | approved intent nowNs decision idle pending read journal =>
      refine ⟨silent, ?_, fun disturbed => absurd trivial disturbed⟩
      intro _ other waiting
      rw [pending, Option.some.injEq] at waiting
      rw [← waiting, read, journal]
      exact steady.paired
  | finished decision waiting pending journal =>
      refine ⟨?_, ?_, fun disturbed => absurd trivial disturbed⟩
      · intro answer same
        cases same
        exact ⟨_, congrArg EventJournal.events journal, rfl, fresh decision waiting⟩
      · intro _ decision waiting
        rw [pending] at waiting
        cases waiting
  | called op idle pending =>
      refine ⟨silent, ?_, fun disturbed => absurd trivial disturbed⟩
      intro _ decision waiting
      rw [pending] at waiting
      cases waiting

theorem step_stale {system next : System} {event : Event} {returned : Option RiskDecision}
    (steady : Steady system) (stale : Stale system)
    (stepped : step system event = some (next, returned)) :
    ¬ OwnEnvelope system event returned next ∨ Stale next := by
  rcases stale with ⟨decision, waiting, lost⟩
  cases (step_effect steady stepped).2 with
  | foreign type correlationId payload pending journal =>
      refine .inr ⟨decision, pending.trans waiting, ?_⟩
      rw [journal]
      exact Nat.lt_succ_of_lt lost
  | finished answer expected pending journal =>
      rw [waiting, Option.some.injEq] at expected
      apply Or.inl
      intro own
      rcases own answer rfl with ⟨envelope, appended, _, same⟩
      rw [journal] at appended
      have newest := List.append_cancel_left appended
      rw [List.singleton_inj] at newest
      rw [← newest, ← expected] at same
      exact absurd same lost.ne
  | rejected _ _ _ _ idle | approved _ _ _ idle | called _ idle =>
      rw [waiting] at idle
      cases idle

theorem stale_run {system last : System} {events : List Event}
    {log : List (Event × Option RiskDecision)} (steady : Steady system) (stale : Stale system)
    (ran : Machine.exec step system events = some (last, log)) (complete : last.pending = none) :
    ¬ Machine.Along step OwnEnvelope system events := by
  induction events generalizing system log with
  | nil =>
      rcases stale with ⟨decision, waiting, _⟩
      simp only [Machine.exec_nil, Option.some.injEq, Prod.mk.injEq] at ran
      rw [ran.1, complete] at waiting
      cases waiting
  | cons event events ih =>
      intro along
      rcases Machine.exec_cons_eq_some.mp ran with ⟨next, returned, rest, stepped, run, rfl⟩
      rcases along next returned stepped with ⟨own, later⟩
      rcases step_stale steady stale stepped with wrong | still
      · exact wrong own
      · exact ih (step_effect steady stepped).1 still run later

theorem fresh_run_iff {system last : System} {events : List Event}
    {log : List (Event × Option RiskDecision)} (steady : Steady system) (fresh : Fresh system)
    (ran : Machine.exec step system events = some (last, log)) (complete : last.pending = none) :
    Machine.Along step OwnEnvelope system events ↔
      Machine.Along step Undisturbed system events := by
  induction events generalizing system log with
  | nil => exact Iff.rfl
  | cons event events ih =>
      rcases Machine.exec_cons_eq_some.mp ran with ⟨next, returned, rest, stepped, run, rfl⟩
      have steady' := (step_effect steady stepped).1
      rcases step_fresh steady fresh stepped with ⟨own, kept, lost⟩
      rw [Machine.along_cons stepped, Machine.along_cons stepped]
      by_cases undisturbed : Undisturbed system event returned next
      · rw [and_iff_right own, and_iff_right undisturbed]
        exact ih steady' (kept undisturbed) run
      · apply iff_of_false
        · intro both
          exact stale_run steady' (lost undisturbed) run complete both.2
        · intro both
          exact undisturbed both.1

theorem initial_steady : Steady {} := ⟨initial_ledger, rfl⟩

/-- In every run the decisions of the completed calls all point at their own envelopes exactly when
no other component appends between the read and the append of an approval. -/
theorem decisions_own_envelope_iff {last : System} {events : List Event}
    {log : List (Event × Option RiskDecision)}
    (ran : Machine.exec step {} events = some (last, log)) (complete : last.pending = none) :
    Machine.Along step OwnEnvelope {} events ↔ Machine.Along step Undisturbed {} events := by
  have fresh : Fresh {} := by
    intro decision waiting
    cases waiting
  exact fresh_run_iff initial_steady fresh ran complete

def openLimits : LimitSnapshot := ⟨1, 1000, 100, 10000, 100, 1000, 10, true⟩

def smallOrder : OrderIntent :=
  { eventId := 1
    correlationId := 7
    strategyId := 1
    branchId := 1
    entityId := 1
    instrumentId := 1
    venueId := 1
    accountId := 1
    side := .buy
    orderType := .limit
    timeInForce := .day
    priceTicks := 10
    quantity := 5
    createdNs := 1 }

def quietRun : List Event :=
  [.call (.setLimits openLimits), .call (.setHealth .healthy), .append .fill 3 "5",
    .begin smallOrder 100, .finish, .append .fill 3 "6"]

def racingRun : List Event :=
  [.call (.setLimits openLimits), .call (.setHealth .healthy), .begin smallOrder 100,
    .append .fill 3 "5", .finish]

theorem quiet_run_owns :
    ∃ last log, Machine.exec step {} quietRun = some (last, log) ∧ last.pending = none ∧
      Machine.Along step OwnEnvelope {} quietRun := by
  have undisturbed : Machine.Along step Undisturbed {} quietRun := by decide
  exact ⟨_, _, rfl, rfl, (decisions_own_envelope_iff rfl rfl).mpr undisturbed⟩

/-- The decision carries 1, which is the id of the other component's envelope. -/
theorem racing_run_points_elsewhere :
    ¬ ∀ events : List Event, Machine.Along step OwnEnvelope {} events := by
  intro owns
  have first := (owns racingRun _ _ rfl).2
  have second := (first _ _ rfl).2
  have third := (second _ _ rfl).2
  have fourth := (third _ _ rfl).2
  rcases (fourth _ _ rfl).1 _ rfl with ⟨envelope, appended, _, same⟩
  have newest := List.append_cancel_left appended
  rw [List.singleton_inj] at newest
  rw [← newest] at same
  exact absurd same (by decide)

end Ito.SharedJournal
