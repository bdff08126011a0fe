import Ito.Library.Machine
import Ito.NetworkAdapter

/-! What the calls of the network adapter do to the orders it is waiting for and to
the messages on its connection. -/

namespace Ito.NetworkVenueAdapter

def orderMessage (order : NormalizedOrder) : Bytes := packFramedMessage (encodeOrder order)

/-- The adapter is free to send the order and its connection delivers it. -/
structure Takes (adapter : NetworkVenueAdapter) (network : Network) (order : NormalizedOrder) :
    Prop where
  client : order.clientOrderId ≠ 0
  correlation : order.correlationId ≠ 0
  quantity : ¬ order.quantity ≤ 0
  ready : adapter.status = .ready
  fresh : order.clientOrderId ∉ adapter.pending
  connected : adapter.connector.connected = true
  writes : network.writes = true

theorem takes_iff {adapter : NetworkVenueAdapter} {network : Network} {order : NormalizedOrder} :
    adapter.Takes network order ↔
      ¬ (order.clientOrderId = 0 ∨ order.correlationId = 0 ∨ order.quantity ≤ 0 ∨
        adapter.status ≠ .ready ∨ order.clientOrderId ∈ adapter.pending) ∧
      adapter.connector.connected = true ∧ network.writes = true := by
  simp only [not_or, not_not]
  constructor
  · intro takes
    exact ⟨⟨takes.client, takes.correlation, takes.quantity, takes.ready, takes.fresh⟩,
      takes.connected, takes.writes⟩
  · intro free
    rcases free with ⟨⟨client, correlation, quantity, ready, fresh⟩, connected, writes⟩
    exact ⟨client, correlation, quantity, ready, fresh, connected, writes⟩

instance (adapter : NetworkVenueAdapter) (network : Network) (order : NormalizedOrder) :
    Decidable (adapter.Takes network order) :=
  decidable_of_iff' _ takes_iff

section Submit

variable {adapter : NetworkVenueAdapter} {network : Network} {order : NormalizedOrder}
  (nowNs : UInt64)

theorem submit_taken (takes : adapter.Takes network order) :
    adapter.submit network order nowNs =
      ({ adapter with
         connector :=
           { adapter.connector with sent := adapter.connector.sent ++ [orderMessage order] }
         pending := adapter.pending.insert order.clientOrderId order
         status := .uncertain },
       some ⟨order.correlationId, order.clientOrderId, 0, 0, .unknown, order.priceTicks, 0,
         order.quantity, nowNs, nowNs, 0⟩) := by
  rcases takes_iff.mp takes with ⟨free, connected, writes⟩
  simp only [submit, if_neg free, EndpointConnector.send, connected, writes, Bool.not_true,
    Bool.or_true, if_true, Bool.false_eq_true, if_false]
  rfl

theorem submit_not_taken (refuses : ¬ adapter.Takes network order) :
    (adapter.submit network order nowNs).2 = none ∧
      (adapter.submit network order nowNs).1.pending = adapter.pending ∧
      (adapter.submit network order nowNs).1.connector.sent = adapter.connector.sent ∧
      ¬ (adapter.submit network order nowNs).1.Takes network order := by
  by_cases blocked : order.clientOrderId = 0 ∨ order.correlationId = 0 ∨ order.quantity ≤ 0 ∨
      adapter.status ≠ .ready ∨ order.clientOrderId ∈ adapter.pending
  · simp only [submit, if_pos blocked]
    exact ⟨trivial, trivial, trivial, refuses⟩
  · have failed : (adapter.connector.send network (packFramedMessage (encodeOrder order))).2 = false ∧
        (adapter.connector.send network (packFramedMessage (encodeOrder order))).1.sent =
          adapter.connector.sent := by
      by_cases connected : adapter.connector.connected = true
      · have lost : network.writes = false := by
          apply Bool.eq_false_iff.mpr
          intro writes
          exact refuses (takes_iff.mpr ⟨blocked, connected, writes⟩)
        simp [EndpointConnector.send, connected, lost, packFramedMessage, EndpointConnector.close]
      · simp [EndpointConnector.send, connected]
    simp only [submit, if_neg blocked, failed.1, Bool.not_false, if_true]
    apply And.intro trivial
    apply And.intro trivial
    apply And.intro failed.2
    intro again
    exact absurd again.ready (by simp)

end Submit

def reportedOrder (line : Bytes) : Option UInt64 :=
  match Bytes.stoull (field 1 line) with
  | none => none
  | some clientOrderId =>
      if field 0 line = Bytes.ofText "ACK" then
        (Bytes.stoull (field 2 line)).map fun _ => clientOrderId
      else if field 0 line = Bytes.ofText "FILL" then
        match Bytes.stoll (field 5 line), Bytes.stoull (field 2 line), Bytes.stoll (field 3 line),
            Bytes.stoll (field 4 line) with
        | some _, some _, some _, some _ => some clientOrderId
        | _, _, _, _ => none
      else if field 0 line = Bytes.ofText "REJECT" then some clientOrderId
      else none

def Silent (network : Network) (clientOrderId : UInt64) : Prop :=
  ∀ (connector : EndpointConnector) (raw : Bytes), connector.receive network = some raw →
    ∀ line ∈ Bytes.pieces (Bytes.ofChar '\n') raw, reportedOrder line ≠ some clientOrderId

def receivedLines (adapter : NetworkVenueAdapter) (network : Network) : List Bytes :=
  match adapter.connector.receive network with
  | none => []
  | some raw => Bytes.pieces (Bytes.ofChar '\n') raw

theorem decodeReports_eq (adapter : NetworkVenueAdapter) (network : Network) (nowNs : UInt64) :
    adapter.decodeReports network nowNs =
      (adapter.receivedLines network).foldl (decodeLine nowNs) adapter := by
  rw [decodeReports, receivedLines]
  cases adapter.connector.receive network with
  | none => rfl
  | some raw => rfl

def Touches (line : Bytes) : Prop :=
  (Bytes.stoull (field 1 line)).isSome = true ∧
    (field 0 line = Bytes.ofText "ACK" ∨ field 0 line = Bytes.ofText "FILL" ∨
      field 0 line = Bytes.ofText "REJECT")

instance (line : Bytes) : Decidable (Touches line) := inferInstanceAs (Decidable (_ ∧ _))

def Acks (clientOrderId : UInt64) (line : Bytes) : Prop :=
  reportedOrder line = some clientOrderId ∧ field 0 line = Bytes.ofText "ACK"

instance (clientOrderId : UInt64) (line : Bytes) : Decidable (Acks clientOrderId line) :=
  inferInstanceAs (Decidable (_ ∧ _))

def Finishes (clientOrderId : UInt64) (line : Bytes) : Prop :=
  reportedOrder line = some clientOrderId ∧
    (field 0 line = Bytes.ofText "REJECT" ∨
      (field 0 line = Bytes.ofText "FILL" ∧ Bytes.stoll (field 5 line) = some 0))

instance (clientOrderId : UInt64) (line : Bytes) : Decidable (Finishes clientOrderId line) :=
  inferInstanceAs (Decidable (_ ∧ _))

def correlationOf (adapter : NetworkVenueAdapter) (clientOrderId : UInt64) : UInt64 :=
  ((adapter.pending.lookup clientOrderId).map NormalizedOrder.correlationId).getD 0

def Answers (adapter : NetworkVenueAdapter) (line : Bytes) (reports : List ExecutionReport) : Prop :=
  match reportedOrder line with
  | some clientOrderId => ∃ report, reports = [report] ∧ report.clientOrderId = clientOrderId ∧
      report.correlationId = adapter.correlationOf clientOrderId
  | none => ∀ report ∈ reports, report.clientOrderId = 0

structure LineEffect (adapter : NetworkVenueAdapter) (line : Bytes)
    (after : NetworkVenueAdapter) : Prop where
  connector : after.connector = adapter.connector
  session : after.session = adapter.session
  status : after.status = if Touches line then .ready else adapter.status
  pending : ∀ clientOrderId, after.pending.lookup clientOrderId =
    if Acks clientOrderId line ∨ Finishes clientOrderId line then none
    else adapter.pending.lookup clientOrderId
  reports : ∃ reports, after.reports = adapter.reports ++ reports ∧ adapter.Answers line reports

theorem lookup_erase_if (pending : Finmap fun _ : UInt64 => NormalizedOrder)
    (erased clientOrderId : UInt64) :
    (pending.erase erased).lookup clientOrderId =
      if erased = clientOrderId then none else pending.lookup clientOrderId := by
  by_cases same : erased = clientOrderId
  · rw [if_pos same, same, Finmap.lookup_erase]
  · rw [if_neg same, Finmap.lookup_erase_ne (Ne.symm same)]

theorem decodeLine_effect (nowNs : UInt64) (adapter : NetworkVenueAdapter) (line : Bytes) :
    LineEffect adapter line (decodeLine nowNs adapter line) := by
  have ackFill : Bytes.ofText "ACK" ≠ Bytes.ofText "FILL" := by decide
  have ackReject : Bytes.ofText "ACK" ≠ Bytes.ofText "REJECT" := by decide
  have fillReject : Bytes.ofText "FILL" ≠ Bytes.ofText "REJECT" := by decide
  cases client : Bytes.stoull (field 1 line) with
  | none =>
      have found : reportedOrder line = none := by simp only [reportedOrder, client]
      constructor <;>
        simp [decodeLine, client, unreadable, report, Touches, Acks, Finishes, Answers, found]
  | some reported =>
      by_cases ack : field 0 line = Bytes.ofText "ACK"
      · cases venue : Bytes.stoull (field 2 line) with
        | none =>
            have found : reportedOrder line = none := by
              simp only [reportedOrder, client, if_pos ack, venue, Option.map_none]
            constructor <;>
              simp [decodeLine, client, ack, venue, unreadable, report, Touches, Acks, Finishes,
                Answers, found]
        | some id =>
            have found : reportedOrder line = some reported := by
              simp only [reportedOrder, client, if_pos ack, venue, Option.map_some]
            constructor <;>
              simp [decodeLine, client, ack, venue, report, Touches, Acks, Finishes, Answers,
                found, ackFill, ackReject, lookup_erase_if, correlationOf]
      by_cases fill : field 0 line = Bytes.ofText "FILL"
      · cases leaves : Bytes.stoll (field 5 line) with
        | none =>
            have found : reportedOrder line = none := by
              simp only [reportedOrder, client, if_neg ack, if_pos fill, leaves]
            constructor <;>
              simp [decodeLine, client, fill, leaves, unreadable, report, Touches, Acks, Finishes,
                Answers, found, ackFill.symm]
        | some remaining =>
            cases execution : Bytes.stoull (field 2 line) <;>
              cases price : Bytes.stoll (field 3 line) <;>
                cases quantity : Bytes.stoll (field 4 line)
            case some.some.some =>
              have found : reportedOrder line = some reported := by
                simp only [reportedOrder, client, if_neg ack, if_pos fill, leaves, execution, price,
                  quantity]
              by_cases done : remaining = 0
              · constructor <;>
                  simp [decodeLine, client, fill, leaves, execution, price, quantity, report,
                    Touches, Acks, Finishes, Answers, found, ackFill.symm, done, lookup_erase_if,
                    correlationOf]
              · constructor <;>
                  simp [decodeLine, client, fill, leaves, execution, price, quantity, report,
                    Touches, Acks, Finishes, Answers, found, ackFill.symm, done, fillReject,
                    correlationOf]
            all_goals
              have found : reportedOrder line = none := by
                simp only [reportedOrder, client, if_neg ack, if_pos fill, leaves, execution, price,
                  quantity]
              constructor <;>
                simp [decodeLine, client, fill, leaves, execution, price, quantity, unreadable,
                  report, Touches, Acks, Finishes, Answers, found, ackFill.symm]
      by_cases reject : field 0 line = Bytes.ofText "REJECT"
      · have found : reportedOrder line = some reported := by
          simp only [reportedOrder, client, if_neg ack, if_neg fill, if_pos reject]
        constructor <;>
          simp [decodeLine, client, reject, report, Touches, Acks, Finishes, Answers,
            found, lookup_erase_if, correlationOf, ackReject.symm, fillReject.symm]
      · have found : reportedOrder line = none := by
          simp only [reportedOrder, client, if_neg ack, if_neg fill, if_neg reject]
        constructor <;>
          simp [decodeLine, client, ack, fill, reject, Touches, Acks, Finishes, Answers, found]

section Poll

variable (nowNs : UInt64)

theorem decodeLines_frame (lines : List Bytes) (adapter : NetworkVenueAdapter) :
    (lines.foldl (decodeLine nowNs) adapter).connector = adapter.connector ∧
      (lines.foldl (decodeLine nowNs) adapter).session = adapter.session := by
  induction lines generalizing adapter with
  | nil => exact ⟨rfl, rfl⟩
  | cons line lines ih =>
      have effect := decodeLine_effect nowNs adapter line
      have rest := ih (decodeLine nowNs adapter line)
      constructor
      · calc
          _ = (decodeLine nowNs adapter line).connector := rest.1
          _ = adapter.connector := effect.connector
      · calc
          _ = (decodeLine nowNs adapter line).session := rest.2
          _ = adapter.session := effect.session

theorem decodeLines_status (lines : List Bytes) (adapter : NetworkVenueAdapter) :
    (lines.foldl (decodeLine nowNs) adapter).status =
      if ∃ line ∈ lines, Touches line then .ready else adapter.status := by
  apply Machine.foldl_set NetworkVenueAdapter.status Touches
  intro adapter line
  exact (decodeLine_effect nowNs adapter line).status

theorem decodeLines_pending (lines : List Bytes) (adapter : NetworkVenueAdapter)
    (clientOrderId : UInt64) :
    (lines.foldl (decodeLine nowNs) adapter).pending.lookup clientOrderId =
      if ∃ line ∈ lines, Acks clientOrderId line ∨ Finishes clientOrderId line then none
      else adapter.pending.lookup clientOrderId := by
  apply Machine.foldl_set
    (fun adapter : NetworkVenueAdapter => adapter.pending.lookup clientOrderId)
    (fun line => Acks clientOrderId line ∨ Finishes clientOrderId line)
  intro adapter line
  exact (decodeLine_effect nowNs adapter line).pending clientOrderId

theorem poll_frame (adapter : NetworkVenueAdapter) (network : Network) :
    (adapter.poll network nowNs).1.connector = adapter.connector ∧
      (adapter.poll network nowNs).1.session = adapter.session ∧
      (adapter.poll network nowNs).1.reports = [] ∧
      (adapter.poll network nowNs).1.pending =
        ((adapter.receivedLines network).foldl (decodeLine nowNs) adapter).pending := by
  have frame := decodeLines_frame nowNs (adapter.receivedLines network) adapter
  simp only [poll, decodeReports_eq]
  exact ⟨frame.1, frame.2, trivial, trivial⟩

theorem poll_status (adapter : NetworkVenueAdapter) (network : Network) :
    (adapter.poll network nowNs).1.status =
      if ∃ line ∈ adapter.receivedLines network, Touches line then .ready
      else if (adapter.poll network nowNs).1.pending = ∅ ∧ adapter.status = .uncertain then .ready
      else adapter.status := by
  simp only [poll, decodeReports_eq, decodeLines_status]
  by_cases touched : ∃ line ∈ adapter.receivedLines network, Touches line
  · simp [if_pos touched]
  · simp only [if_neg touched]

end Poll

theorem poll_silent (nowNs : UInt64) {network : Network} {clientOrderId : UInt64}
    (adapter : NetworkVenueAdapter) (silent : Silent network clientOrderId) :
    (adapter.poll network nowNs).1.connector = adapter.connector ∧
      (clientOrderId ∈ (adapter.poll network nowNs).1.pending ↔
        clientOrderId ∈ adapter.pending) := by
  rcases poll_frame nowNs adapter network with ⟨connector, _, _, pending⟩
  have unreported : ¬ ∃ line ∈ adapter.receivedLines network,
      Acks clientOrderId line ∨ Finishes clientOrderId line := by
    intro reported
    rcases reported with ⟨line, member, ended⟩
    have found : reportedOrder line = some clientOrderId := ended.elim And.left And.left
    rw [receivedLines] at member
    cases received : adapter.connector.receive network with
    | none => simp [received] at member
    | some raw =>
        simp only [received] at member
        exact silent adapter.connector raw received line member found
  apply And.intro connector
  rw [← Finmap.lookup_isSome, pending, decodeLines_pending, if_neg unreported,
    Finmap.lookup_isSome]

end Ito.NetworkVenueAdapter
