import Ito.NetworkRuns

/-! Whether the network adapter is ready only after every order it sent was answered.
Any line that is taken for a report makes the session ready, and so does a connection
that opens, whatever was sent before. -/

namespace Ito.NetworkVenueAdapter

def Heard (clientOrderId : UInt64) (line : Bytes) : Prop :=
  reportedOrder line = some clientOrderId ∧
    (field 0 line = Bytes.ofText "ACK" ∨ field 0 line = Bytes.ofText "FILL")

instance (clientOrderId : UInt64) (line : Bytes) : Decidable (Heard clientOrderId line) :=
  inferInstanceAs (Decidable (_ ∧ _))

/-- The adapter, the orders sent and not acknowledged or filled since, and the orders sent
and not answered at all since. -/
structure Awaiting where
  adapter : NetworkVenueAdapter
  unheard : Finset UInt64
  unanswered : Finset UInt64

def Awaiting.note (state : Awaiting) (next : NetworkVenueAdapter) : Op → Awaiting
  | .submit network order nowNs =>
      if (state.adapter.submit network order nowNs).2.isSome then
        ⟨next, insert order.clientOrderId state.unheard, insert order.clientOrderId state.unanswered⟩
      else { state with adapter := next }
  | .poll network _ =>
      let lines := state.adapter.receivedLines network
      ⟨next, state.unheard.filter fun id => ¬ ∃ line ∈ lines, Heard id line,
        state.unanswered.filter fun id => ¬ ∃ line ∈ lines, reportedOrder line = some id⟩
  | _ => { state with adapter := next }

def awaitStep (state : Awaiting) (op : Op) : Option (Awaiting × Output) :=
  (step state.adapter op).map fun next => (state.note next.1 op, next.2)

def Awaiting.start (session : SessionConfig) (endpoint : EndpointConnectorConfig) : Awaiting :=
  ⟨create session endpoint, ∅, ∅⟩

/-- A ready session waits for no answer, and has heard of every order still in wait. -/
def ReadyAnswered (state : Awaiting) : Prop :=
  state.adapter.status = .ready → state.unanswered = ∅ ∧
    ∀ clientOrderId ∈ state.adapter.pending, clientOrderId ∉ state.unheard

def Opens (adapter : NetworkVenueAdapter) (network : Network) : Prop :=
  adapter.session.liveEnabled = true ∧ adapter.connector.config.liveEnabled = true ∧
    adapter.connector.config.tlsRequired = true ∧ adapter.connector.connected = false ∧
    network.establishes = true

/-- A connection opens with nothing unanswered, and a message with a report in it answers
every order. -/
def AnswersAll (before : Awaiting) (op : Op) (_ : Output) (_ : Awaiting) : Prop :=
  match op with
  | .connect network => Opens before.adapter network → before.unanswered = ∅
  | .poll network _ =>
      (∃ line ∈ before.adapter.receivedLines network, Touches line) →
        ∀ clientOrderId ∈ before.unanswered,
          ∃ line ∈ before.adapter.receivedLines network, reportedOrder line = some clientOrderId
  | _ => True

def Tracks (state : Awaiting) : Prop :=
  ∀ clientOrderId, clientOrderId ∈ state.unanswered ↔
    clientOrderId ∈ state.unheard ∧ clientOrderId ∈ state.adapter.pending

theorem reportedOrder_cases {clientOrderId : UInt64} {line : Bytes} :
    reportedOrder line = some clientOrderId ↔
      Heard clientOrderId line ∨ Acks clientOrderId line ∨ Finishes clientOrderId line := by
  constructor
  · intro found
    have kind := found
    rw [reportedOrder] at kind
    cases client : Bytes.stoull (field 1 line) with
    | none => simp [client] at kind
    | some reported =>
        by_cases ack : field 0 line = Bytes.ofText "ACK"
        · exact .inl ⟨found, .inl ack⟩
        by_cases fill : field 0 line = Bytes.ofText "FILL"
        · exact .inl ⟨found, .inr fill⟩
        by_cases reject : field 0 line = Bytes.ofText "REJECT"
        · exact .inr (.inr ⟨found, .inl reject⟩)
        · simp [client, ack, fill, reject] at kind
  · intro answered
    rcases answered with heard | acks | finishes
    · exact heard.1
    · exact acks.1
    · exact finishes.1

theorem connect_ready_iff (adapter : NetworkVenueAdapter) (network : Network) :
    (adapter.connect network).1.status = .ready ↔ Opens adapter network := by
  rw [Opens, connect]
  cases live : adapter.session.liveEnabled with
  | false => simp
  | true =>
      simp only [Bool.not_true, Bool.false_eq_true, if_false, true_and]
      rw [EndpointConnector.open]
      by_cases barred : (!adapter.connector.config.liveEnabled ||
          !adapter.connector.config.tlsRequired || adapter.connector.connected) = true
      · rw [if_pos barred]
        simp only [Bool.false_eq_true, if_false, reduceCtorEq, false_iff]
        intro opens
        simp [opens] at barred
      · rw [if_neg barred]
        simp only [Bool.or_eq_true, Bool.not_eq_true', not_or, Bool.not_eq_false,
          Bool.not_eq_true] at barred
        cases network.establishes <;> simp [barred]

theorem poll_tracks {state : Awaiting} (tracks : Tracks state) (network : Network)
    (nowNs : UInt64) :
    Tracks (state.note (state.adapter.poll network nowNs).1 (.poll network nowNs)) := by
  intro clientOrderId
  have pending : clientOrderId ∈ (state.adapter.poll network nowNs).1.pending ↔
      clientOrderId ∈ state.adapter.pending ∧
        ¬ ∃ line ∈ state.adapter.receivedLines network,
          Acks clientOrderId line ∨ Finishes clientOrderId line := by
    rw [(poll_frame nowNs state.adapter network).2.2.2, ← Finmap.lookup_isSome,
      decodeLines_pending, ← Finmap.lookup_isSome]
    split
    · rename_i ended
      simp [ended]
    · rename_i kept
      simp [kept]
  have answered : (∃ line ∈ state.adapter.receivedLines network,
        reportedOrder line = some clientOrderId) ↔
      (∃ line ∈ state.adapter.receivedLines network, Heard clientOrderId line) ∨
        ∃ line ∈ state.adapter.receivedLines network,
          Acks clientOrderId line ∨ Finishes clientOrderId line := by
    simp only [reportedOrder_cases, and_or_left, exists_or]
  simp only [Awaiting.note, Finset.mem_filter, pending, tracks clientOrderId, answered, not_or]
  exact and_and_and_comm

theorem step_tracks {before after : Awaiting} {op : Op} {output : Output} (tracks : Tracks before)
    (stepped : awaitStep before op = some (after, output)) : Tracks after := by
  cases op with
  | connect network =>
      simp only [awaitStep, step, Option.map_some, Option.some.injEq, Prod.mk.injEq] at stepped
      rw [← stepped.1]
      intro clientOrderId
      simp only [Awaiting.note, (connect_effect before.adapter network).pending]
      exact tracks clientOrderId
  | disconnect =>
      simp only [awaitStep, step, Option.map_some, Option.some.injEq, Prod.mk.injEq] at stepped
      rw [← stepped.1]
      exact tracks
  | submit network order nowNs =>
      simp only [awaitStep, step, Option.map_some, Option.some.injEq, Prod.mk.injEq] at stepped
      rw [← stepped.1]
      intro clientOrderId
      by_cases takes : before.adapter.Takes network order
      · simp only [Awaiting.note, submit_taken nowNs takes, Option.isSome_some, if_true,
          Finset.mem_insert, Finmap.mem_insert, tracks clientOrderId]
        exact or_and_left
      · rcases submit_refused nowNs takes with ⟨refused, returned, effect⟩
        simp only [Awaiting.note, returned, Option.isSome_none, Bool.false_eq_true, if_false,
          effect.pending]
        exact tracks clientOrderId
  | cancel network id nowNs =>
      simp only [awaitStep, step, Option.map_some, Option.some.injEq, Prod.mk.injEq] at stepped
      rw [← stepped.1]
      intro clientOrderId
      simp only [Awaiting.note, (cancel_effect before.adapter network id nowNs).pending]
      exact tracks clientOrderId
  | poll network nowNs =>
      simp only [awaitStep, step, Option.map_some, Option.some.injEq, Prod.mk.injEq] at stepped
      rw [← stepped.1]
      exact poll_tracks tracks network nowNs

theorem readyAnswered_iff {state : Awaiting} (tracks : Tracks state) :
    ReadyAnswered state ↔ (state.adapter.status = .ready → state.unanswered = ∅) := by
  constructor
  · intro answered ready
    exact (answered ready).1
  · intro answered ready
    apply And.intro (answered ready)
    intro clientOrderId waiting unheard
    have none := answered ready
    have member := (tracks clientOrderId).mpr ⟨unheard, waiting⟩
    simp [none] at member

theorem quiet_poll_answered {state : Awaiting} (tracks : Tracks state)
    (answered : ReadyAnswered state) {network : Network} (nowNs : UInt64)
    (quiet : ¬ ∃ line ∈ state.adapter.receivedLines network, Touches line)
    (ready : (state.adapter.poll network nowNs).1.status = .ready) :
    (state.note (state.adapter.poll network nowNs).1 (.poll network nowNs)).unanswered = ∅ := by
  rw [poll_status, if_neg quiet] at ready
  split at ready
  · rename_i drained
    apply Finset.eq_empty_of_forall_notMem
    intro clientOrderId member
    have waiting := ((poll_tracks tracks network nowNs clientOrderId).mp member).2
    simp only [Awaiting.note, drained.1] at waiting
    exact Finmap.notMem_empty waiting
  · simp [Awaiting.note, (answered ready).1]

theorem poll_ready_iff {state : Awaiting} (tracks : Tracks state) (answered : ReadyAnswered state)
    (network : Network) (nowNs : UInt64) (output : Output) (after : Awaiting) :
    ((state.adapter.poll network nowNs).1.status = .ready →
        (state.note (state.adapter.poll network nowNs).1 (.poll network nowNs)).unanswered = ∅) ↔
      AnswersAll state (.poll network nowNs) output after := by
  by_cases touched : ∃ line ∈ state.adapter.receivedLines network, Touches line
  · have ready : (state.adapter.poll network nowNs).1.status = .ready := by
      rw [poll_status, if_pos touched]
    simp only [ready, true_implies, AnswersAll, touched, Awaiting.note, Finset.filter_eq_empty_iff,
      not_not]
  · apply iff_of_true
    · exact quiet_poll_answered tracks answered nowNs touched
    · intro reported
      exact absurd reported touched

theorem step_ready_iff {before after : Awaiting} {op : Op} {output : Output}
    (tracks : Tracks before) (answered : ReadyAnswered before)
    (stepped : awaitStep before op = some (after, output)) :
    ReadyAnswered after ↔ AnswersAll before op output after := by
  rw [readyAnswered_iff (step_tracks tracks stepped)]
  cases op with
  | connect network =>
      simp only [awaitStep, step, Option.map_some, Option.some.injEq, Prod.mk.injEq] at stepped
      rw [← stepped.1]
      simp only [Awaiting.note, connect_ready_iff]
      exact Iff.rfl
  | disconnect =>
      simp only [awaitStep, step, Option.map_some, Option.some.injEq, Prod.mk.injEq] at stepped
      rw [← stepped.1]
      simp [Awaiting.note, disconnect, AnswersAll]
  | submit network order nowNs =>
      simp only [awaitStep, step, Option.map_some, Option.some.injEq, Prod.mk.injEq] at stepped
      rw [← stepped.1]
      by_cases takes : before.adapter.Takes network order
      · simp [Awaiting.note, submit_taken nowNs takes, AnswersAll]
      · rcases submit_refused nowNs takes with ⟨refused, returned, effect⟩
        simp only [Awaiting.note, returned, Option.isSome_none, Bool.false_eq_true, if_false,
          AnswersAll, iff_true]
        intro ready
        rcases effect.status with same | degraded
        · exact (answered (same.symm.trans ready)).1
        · rw [degraded] at ready
          simp at ready
  | cancel network clientOrderId nowNs =>
      simp only [awaitStep, step, Option.map_some, Option.some.injEq, Prod.mk.injEq] at stepped
      rw [← stepped.1]
      simp [Awaiting.note, (cancel_effect before.adapter network clientOrderId nowNs).status,
        AnswersAll]
  | poll network nowNs =>
      simp only [awaitStep, step, Option.map_some, Option.some.injEq, Prod.mk.injEq] at stepped
      rw [← stepped.1]
      exact poll_ready_iff tracks answered network nowNs output _

/-- Every ready state of a run is without unanswered orders exactly when every connection
opens with nothing unanswered and every message with a report answers all that is. -/
theorem ready_answered_iff_answers_all (session : SessionConfig)
    (endpoint : EndpointConnectorConfig) (ops : List Op) :
    Machine.Along awaitStep (fun _ _ _ after => ReadyAnswered after)
        (Awaiting.start session endpoint) ops ↔
      Machine.Along awaitStep AnswersAll (Awaiting.start session endpoint) ops := by
  have tracks : Tracks (Awaiting.start session endpoint) := by
    intro clientOrderId
    simp [Awaiting.start]
  have answered : ReadyAnswered (Awaiting.start session endpoint) := by
    intro ready
    simp [Awaiting.start, create] at ready
  apply Machine.along_iff (fun state => Tracks state ∧ ReadyAnswered state) (A := fun _ => True) _
    ⟨tracks, answered⟩ (fun _ _ => trivial)
  intro before op output after holds _ stepped
  have same := step_ready_iff holds.1 holds.2 stepped
  exact ⟨same, fun met => ⟨step_tracks holds.1 stepped, same.mpr met⟩⟩

/-- An acknowledgment of an order nobody sent makes the session ready while the order that
was sent is unanswered. -/
theorem stray_acknowledgment_ready :
    ¬ Machine.Along awaitStep (fun _ _ _ after => ReadyAnswered after)
      (Awaiting.start ⟨⟨1, 1, .exchange, .fix, "venue", "region"⟩, true⟩ ⟨true, true⟩)
      [.connect ⟨true, true, none⟩,
        .submit ⟨true, true, none⟩ ⟨5, 7, 1, 1, .buy, .limit, .day, 100, 10, 3⟩ 10,
        .poll ⟨true, true, some ⟨packFramedMessage (Bytes.ofText "ACK|9|1\n"), by decide,
          by decide⟩⟩ 20] := by
  intro kept
  have last := ((((kept _ _ rfl).2 _ _ rfl).2 _ _ rfl).1 (by decide +kernel)).1
  exact absurd last (by decide +kernel)

end Ito.NetworkVenueAdapter
