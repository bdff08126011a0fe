import Ito.NetworkEffects

/-! Runs of the network adapter, and what each of its calls may do. -/

namespace Ito.NetworkVenueAdapter

inductive Op where
  | connect (network : Network)
  | disconnect
  | submit (network : Network) (order : NormalizedOrder) (nowNs : UInt64)
  | cancel (network : Network) (clientOrderId nowNs : UInt64)
  | poll (network : Network) (nowNs : UInt64)

inductive Output where
  | connected (opened : Bool)
  | disconnected
  | returned (report : Option ExecutionReport)
  | polled (reports : List ExecutionReport)

def step (adapter : NetworkVenueAdapter) : Op → Option (NetworkVenueAdapter × Output)
  | .connect network =>
      let next := adapter.connect network
      some (next.1, .connected next.2)
  | .disconnect => some (adapter.disconnect, .disconnected)
  | .submit network order nowNs =>
      let next := adapter.submit network order nowNs
      some (next.1, .returned next.2)
  | .cancel network clientOrderId nowNs =>
      let next := adapter.cancel network clientOrderId nowNs
      some (next.1, .returned next.2)
  | .poll network nowNs =>
      let next := adapter.poll network nowNs
      some (next.1, .polled next.2)

/-- Between calls no report is left over, and a connected session is live and not disabled. -/
structure Sound (adapter : NetworkVenueAdapter) : Prop where
  drained : adapter.reports = []
  live : adapter.connector.connected = true →
    adapter.session.liveEnabled = true ∧ adapter.status ≠ .disabled

theorem create_sound (session : SessionConfig) (endpoint : EndpointConnectorConfig) :
    Sound (create session endpoint) := ⟨rfl, fun connected => absurd connected (by simp [create])⟩

theorem send_connected {connector : EndpointConnector} {network : Network} {message : Bytes}
    (connected : (connector.send network message).1.connected = true) :
    connector.connected = true := by
  rw [EndpointConnector.send] at connected
  split at connected
  · exact connected
  · split at connected
    · exact connected
    · exact absurd connected (by simp [EndpointConnector.close])

structure Refusal (adapter after : NetworkVenueAdapter) : Prop where
  session : after.session = adapter.session
  reports : after.reports = adapter.reports
  pending : after.pending = adapter.pending
  status : after.status = adapter.status ∨ after.status = .degraded
  connected : after.connector.connected = true → adapter.connector.connected = true

theorem submit_refused {adapter : NetworkVenueAdapter} {network : Network}
    {order : NormalizedOrder} (nowNs : UInt64) (refuses : ¬ adapter.Takes network order) :
    ∃ after, adapter.submit network order nowNs = (after, none) ∧ Refusal adapter after := by
  have unsent := (submit_not_taken nowNs refuses).1
  rw [submit] at unsent ⊢
  split at unsent
  · rename_i blocked
    rw [if_pos blocked]
    exact ⟨adapter, rfl, rfl, rfl, rfl, .inl rfl, id⟩
  · rename_i free
    rw [if_neg free]
    cases delivered :
        (adapter.connector.send network (packFramedMessage (encodeOrder order))).2 with
    | true => simp [delivered] at unsent
    | false =>
        simp only [delivered, Bool.not_false, if_true]
        exact ⟨_, rfl, rfl, rfl, rfl, .inr rfl, send_connected⟩

structure CancelEffect (adapter after : NetworkVenueAdapter) (clientOrderId : UInt64)
    (answer : Option ExecutionReport) : Prop where
  session : after.session = adapter.session
  reports : after.reports = adapter.reports
  pending : after.pending = adapter.pending
  status : after.status = .uncertain
  connected : after.connector.connected = true → adapter.connector.connected = true
  answer : ∀ report ∈ answer, report.clientOrderId = clientOrderId ∧
    report.correlationId = adapter.correlationOf clientOrderId

theorem cancel_effect (adapter : NetworkVenueAdapter) (network : Network)
    (clientOrderId nowNs : UInt64) :
    CancelEffect adapter (adapter.cancel network clientOrderId nowNs).1 clientOrderId
      (adapter.cancel network clientOrderId nowNs).2 := by
  by_cases blocked : clientOrderId = 0 ∨ adapter.status = .disabled ∨ adapter.status = .degraded
  · simp only [cancel, if_pos blocked]
    exact ⟨rfl, rfl, rfl, rfl, id, by simp⟩
  · cases waiting : adapter.pending.lookup clientOrderId with
    | none =>
        simp only [cancel, if_neg blocked, waiting]
        exact ⟨rfl, rfl, rfl, rfl, id, by simp⟩
    | some order =>
        cases delivered : (adapter.connector.send network
            (packFramedMessage (encodeCancel clientOrderId))).2 with
        | false =>
            simp only [cancel, if_neg blocked, waiting, delivered, Bool.not_false, if_true]
            exact ⟨rfl, rfl, rfl, rfl, send_connected, by simp⟩
        | true =>
            simp only [cancel, if_neg blocked, waiting, delivered, Bool.not_true,
              Bool.false_eq_true, if_false]
            exact ⟨rfl, rfl, rfl, rfl, send_connected, by simp [correlationOf, waiting]⟩

structure ConnectEffect (adapter after : NetworkVenueAdapter) (opened : Bool) : Prop where
  session : after.session = adapter.session
  reports : after.reports = adapter.reports
  pending : after.pending = adapter.pending
  live : opened = true → adapter.session.liveEnabled = true ∧ after.status = .ready
  connected : opened = false → after.connector.connected = true →
    adapter.connector.connected = true
  degraded : opened = false → adapter.session.liveEnabled = true → after.status = .degraded

theorem connect_effect (adapter : NetworkVenueAdapter) (network : Network) :
    ConnectEffect adapter (adapter.connect network).1 (adapter.connect network).2 := by
  cases live : adapter.session.liveEnabled with
  | false => constructor <;> simp [connect, live]
  | true =>
      cases opened : (adapter.connector.open network).2 with
      | false =>
          have kept : (adapter.connector.open network).1.connected = true →
              adapter.connector.connected = true := by
            intro connected
            rw [EndpointConnector.open] at connected opened
            split at connected
            · exact connected
            · rename_i free
              simp only [if_neg free] at opened
              exact absurd connected (by simp [opened])
          constructor <;> simp [connect, live, opened]
          exact kept
      | true => constructor <;> simp [connect, live, opened]

theorem step_sound {adapter next : NetworkVenueAdapter} {op : Op} {output : Output}
    (sound : Sound adapter) (stepped : step adapter op = some (next, output)) : Sound next := by
  cases op with
  | connect network =>
      simp only [step, Option.some.injEq, Prod.mk.injEq] at stepped
      have effect := connect_effect adapter network
      rw [← stepped.1]
      apply Sound.mk (effect.reports.trans sound.drained)
      intro connected
      rw [effect.session]
      cases opened : (adapter.connect network).2 with
      | true => exact ⟨(effect.live opened).1, by simp [(effect.live opened).2]⟩
      | false =>
          have live := (sound.live (effect.connected opened connected)).1
          exact ⟨live, by simp [effect.degraded opened live]⟩
  | disconnect =>
      simp only [step, Option.some.injEq, Prod.mk.injEq] at stepped
      rw [← stepped.1]
      exact ⟨sound.drained, fun connected => absurd connected (by
        simp [disconnect, EndpointConnector.close])⟩
  | submit network order nowNs =>
      simp only [step, Option.some.injEq, Prod.mk.injEq] at stepped
      rw [← stepped.1]
      by_cases takes : adapter.Takes network order
      · rw [submit_taken nowNs takes]
        exact ⟨sound.drained, fun connected => ⟨(sound.live connected).1, by simp⟩⟩
      · rcases submit_refused nowNs takes with ⟨after, refused, effect⟩
        rw [refused]
        apply Sound.mk (effect.reports.trans sound.drained)
        intro connected
        have before := sound.live (effect.connected connected)
        rw [effect.session]
        apply And.intro before.1
        rcases effect.status with same | degraded
        · rw [same]
          exact before.2
        · simp [degraded]
  | cancel network clientOrderId nowNs =>
      simp only [step, Option.some.injEq, Prod.mk.injEq] at stepped
      have effect := cancel_effect adapter network clientOrderId nowNs
      rw [← stepped.1]
      apply Sound.mk (effect.reports.trans sound.drained)
      intro connected
      rw [effect.session, effect.status]
      exact ⟨(sound.live (effect.connected connected)).1, by simp⟩
  | poll network nowNs =>
      simp only [step, Option.some.injEq, Prod.mk.injEq] at stepped
      rcases poll_frame nowNs adapter network with ⟨connector, session, reports, _⟩
      rw [← stepped.1]
      apply Sound.mk reports
      intro connected
      rw [connector] at connected
      rw [session, poll_status]
      apply And.intro (sound.live connected).1
      split
      · simp
      · split
        · simp
        · exact (sound.live connected).2

end Ito.NetworkVenueAdapter
