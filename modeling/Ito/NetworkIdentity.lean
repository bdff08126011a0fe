import Ito.NetworkRuns

/-! What the network adapter knows about an order between its submission and the report
that finishes it. An acknowledgment ends the wait for the order, and with it the adapter
forgets the correlation id and can no longer cancel. -/

namespace Ito.NetworkVenueAdapter

/-- A report for the order carries the correlation id of the order. -/
def Carries (order : NormalizedOrder) (report : ExecutionReport) : Prop :=
  report.clientOrderId = order.clientOrderId → report.correlationId = order.correlationId

instance (order : NormalizedOrder) (report : ExecutionReport) : Decidable (Carries order report) :=
  inferInstanceAs (Decidable (_ → _))

def lineReports (nowNs : UInt64) (adapter : NetworkVenueAdapter) (line : Bytes) :
    List ExecutionReport :=
  (decodeLine nowNs adapter line).reports.drop adapter.reports.length

def LinesCarry (order : NormalizedOrder) (nowNs : UInt64) :
    NetworkVenueAdapter → List Bytes → Prop
  | _, [] => True
  | adapter, line :: lines =>
      (∀ report ∈ lineReports nowNs adapter line, Carries order report) ∧
        (¬ Finishes order.clientOrderId line →
          LinesCarry order nowNs (decodeLine nowNs adapter line) lines)

def AckFree (clientOrderId : UInt64) : List Bytes → Prop
  | [] => True
  | line :: lines =>
      ¬ Acks clientOrderId line ∧ (¬ Finishes clientOrderId line → AckFree clientOrderId lines)

instance decidableAckFree (clientOrderId : UInt64) : (lines : List Bytes) →
    Decidable (AckFree clientOrderId lines)
  | [] => isTrue trivial
  | line :: lines =>
      have := decidableAckFree clientOrderId lines
      inferInstanceAs (Decidable (¬ Acks clientOrderId line ∧
        (¬ Finishes clientOrderId line → AckFree clientOrderId lines)))

def allReports (nowNs : UInt64) : NetworkVenueAdapter → List Bytes → List ExecutionReport
  | _, [] => []
  | adapter, line :: lines =>
      lineReports nowNs adapter line ++ allReports nowNs (decodeLine nowNs adapter line) lines

/-- A cancellation on a connected session that is not degraded goes out. -/
def Cancels (clientOrderId : UInt64) (adapter : NetworkVenueAdapter) : Prop :=
  adapter.connector.connected = true → adapter.status ≠ .degraded →
    ∀ (network : Network) (nowNs : UInt64), network.writes = true →
      (adapter.cancel network clientOrderId nowNs).1.connector.sent =
        adapter.connector.sent ++ [packFramedMessage (encodeCancel clientOrderId)]

structure Tracked where
  adapter : NetworkVenueAdapter
  finished : Bool

def finishedBy (clientOrderId : UInt64) (adapter : NetworkVenueAdapter) : Op → Bool
  | .poll network _ => (adapter.receivedLines network).any fun line => Finishes clientOrderId line
  | _ => false

def trackStep (clientOrderId : UInt64) (state : Tracked) (op : Op) : Option (Tracked × Output) :=
  (step state.adapter op).map fun next =>
    (⟨next.1, state.finished || finishedBy clientOrderId state.adapter op⟩, next.2)

def OutputCarries (order : NormalizedOrder) (adapter : NetworkVenueAdapter) : Op → Output → Prop
  | .poll network nowNs, .polled reports =>
      reports = allReports nowNs adapter (adapter.receivedLines network) ∧
        LinesCarry order nowNs adapter (adapter.receivedLines network)
  | _, .returned (some report) => Carries order report
  | _, _ => True

def IdentityKept (order : NormalizedOrder) (before : Tracked) (op : Op) (output : Output)
    (after : Tracked) : Prop :=
  before.finished = false → OutputCarries order before.adapter op output ∧
    (after.finished = false → Cancels order.clientOrderId after.adapter)

/-- The call brings no acknowledgment of the order before it is finished. -/
def Unacknowledged (order : NormalizedOrder) (before : Tracked) (op : Op) (_ : Output)
    (_ : Tracked) : Prop :=
  before.finished = false →
    match op with
    | .poll network _ => AckFree order.clientOrderId (before.adapter.receivedLines network)
    | _ => True

instance (order : NormalizedOrder) (before : Tracked) (op : Op) (output : Output)
    (after : Tracked) : Decidable (Unacknowledged order before op output after) :=
  match op with
  | .poll network _ => inferInstanceAs (Decidable (before.finished = false →
      AckFree order.clientOrderId (before.adapter.receivedLines network)))
  | .connect _ => isTrue fun _ => trivial
  | .disconnect => isTrue fun _ => trivial
  | .submit _ _ _ => isTrue fun _ => trivial
  | .cancel _ _ _ => isTrue fun _ => trivial

theorem not_acks_finishes {clientOrderId : UInt64} {line : Bytes}
    (acks : Acks clientOrderId line) : ¬ Finishes clientOrderId line := by
  intro finishes
  rcases finishes.2 with reject | ⟨fill, _⟩
  · exact absurd (acks.2.symm.trans reject) (by decide)
  · exact absurd (acks.2.symm.trans fill) (by decide)

theorem acks_touches {clientOrderId : UInt64} {line : Bytes} (acks : Acks clientOrderId line) :
    Touches line := by
  have found := acks.1
  rw [reportedOrder] at found
  cases client : Bytes.stoull (field 1 line) with
  | none => simp [client] at found
  | some reported => exact ⟨by rw [client, Option.isSome_some], .inl acks.2⟩

theorem received_connected {adapter : NetworkVenueAdapter} {network : Network} {line : Bytes}
    (received : line ∈ adapter.receivedLines network) : adapter.connector.connected = true := by
  cases connected : adapter.connector.connected with
  | true => rfl
  | false => simp [receivedLines, EndpointConnector.receive, connected] at received

section Lines

variable {order : NormalizedOrder} (nowNs : UInt64) {adapter : NetworkVenueAdapter}

theorem lineReports_answer (adapter : NetworkVenueAdapter) (line : Bytes) :
    adapter.Answers line (lineReports nowNs adapter line) ∧
      (decodeLine nowNs adapter line).reports =
        adapter.reports ++ lineReports nowNs adapter line := by
  rcases (decodeLine_effect nowNs adapter line).reports with ⟨reports, grown, answered⟩
  have same : lineReports nowNs adapter line = reports := by
    rw [lineReports, grown, List.drop_left]
  rw [same]
  exact ⟨answered, grown⟩

theorem decodeLines_reports (lines : List Bytes) (adapter : NetworkVenueAdapter) :
    (lines.foldl (decodeLine nowNs) adapter).reports =
      adapter.reports ++ allReports nowNs adapter lines := by
  induction lines generalizing adapter with
  | nil => simp [allReports]
  | cons line lines ih =>
      calc
        _ = (decodeLine nowNs adapter line).reports ++
              allReports nowNs (decodeLine nowNs adapter line) lines := ih _
        _ = _ := by rw [(lineReports_answer nowNs adapter line).2, List.append_assoc, allReports]

theorem line_carries_iff (named : order.clientOrderId ≠ 0) (line : Bytes) :
    (∀ report ∈ lineReports nowNs adapter line, Carries order report) ↔
      (reportedOrder line = some order.clientOrderId →
        adapter.correlationOf order.clientOrderId = order.correlationId) := by
  have answered := (lineReports_answer nowNs adapter line).1
  rw [Answers] at answered
  cases found : reportedOrder line with
  | none =>
      simp only [found] at answered
      apply iff_of_true
      · intro report member same
        exact absurd (same.symm.trans (answered report member)) named
      · intro claimed
        simp at claimed
  | some reported =>
      simp only [found] at answered
      rcases answered with ⟨report, only, client, correlation⟩
      rw [only, List.forall_mem_singleton, Carries, client, correlation, Option.some.injEq]
      constructor
      · intro carries same
        rw [← same]
        exact carries same
      · intro carries same
        rw [same]
        exact carries same

theorem linesCarry_forgotten (named : order.clientOrderId ≠ 0)
    (identified : order.correlationId ≠ 0) {lines : List Bytes}
    (forgotten : adapter.pending.lookup order.clientOrderId = none)
    (carry : LinesCarry order nowNs adapter lines) :
    ∀ line ∈ lines, ¬ Finishes order.clientOrderId line := by
  induction lines generalizing adapter with
  | nil => simp
  | cons line lines ih =>
      rw [LinesCarry, line_carries_iff nowNs named] at carry
      have unfinished : ¬ Finishes order.clientOrderId line := by
        intro finishes
        have zero : adapter.correlationOf order.clientOrderId = 0 := by
          simp [correlationOf, forgotten]
        exact identified ((carry.1 finishes.1).symm.trans zero)
      have still : (decodeLine nowNs adapter line).pending.lookup order.clientOrderId = none := by
        rw [(decodeLine_effect nowNs adapter line).pending, forgotten, ite_self]
      exact List.forall_mem_cons.mpr ⟨unfinished, ih still (carry.2 unfinished)⟩

theorem linesCarry_iff (named : order.clientOrderId ≠ 0) (identified : order.correlationId ≠ 0)
    (lines : List Bytes) (waiting : adapter.pending.lookup order.clientOrderId = some order) :
    (LinesCarry order nowNs adapter lines ∧
      ((∀ line ∈ lines, ¬ Finishes order.clientOrderId line) →
        (lines.foldl (decodeLine nowNs) adapter).pending.lookup order.clientOrderId = some order)) ↔
      AckFree order.clientOrderId lines := by
  induction lines generalizing adapter with
  | nil => simp [LinesCarry, AckFree, waiting]
  | cons line lines ih =>
      have effect := (decodeLine_effect nowNs adapter line).pending order.clientOrderId
      have known : adapter.correlationOf order.clientOrderId = order.correlationId := by
        simp [correlationOf, waiting]
      simp only [LinesCarry, AckFree, line_carries_iff nowNs named, known, List.foldl_cons,
        List.forall_mem_cons, implies_true, true_and]
      by_cases finishes : Finishes order.clientOrderId line
      · have unacked : ¬ Acks order.clientOrderId line := fun acks => not_acks_finishes acks finishes
        simp [finishes, unacked]
      · by_cases acks : Acks order.clientOrderId line
        · have forgotten : (decodeLine nowNs adapter line).pending.lookup order.clientOrderId =
              none := by
            rw [effect, if_pos (.inl acks)]
          have lost : (lines.foldl (decodeLine nowNs) (decodeLine nowNs adapter line)).pending.lookup
              order.clientOrderId = none := by
            rw [decodeLines_pending, forgotten, ite_self]
          simp only [acks, finishes, lost, not_true_eq_false, not_false_eq_true, true_implies,
            true_and, false_and, iff_false, not_and]
          intro carry kept
          have unfinished := linesCarry_forgotten nowNs named identified forgotten carry
          exact absurd (kept unfinished) (by simp)
        · have still : (decodeLine nowNs adapter line).pending.lookup order.clientOrderId =
              some order := by
            rw [effect, if_neg (not_or.mpr ⟨acks, finishes⟩), waiting]
          simpa [acks, finishes] using ih still

end Lines

theorem cancels_iff {adapter : NetworkVenueAdapter} {clientOrderId : UInt64} (sound : Sound adapter)
    (named : clientOrderId ≠ 0) :
    Cancels clientOrderId adapter ↔
      (adapter.connector.connected = true → adapter.status ≠ .degraded →
        adapter.pending.lookup clientOrderId ≠ none) := by
  constructor
  · intro cancels connected healthy forgotten
    have grown := cancels connected healthy ⟨true, true, none⟩ 0 rfl
    have idle : (adapter.cancel ⟨true, true, none⟩ clientOrderId 0).1.connector =
        adapter.connector := by
      rw [cancel]
      split
      · rfl
      · simp only [forgotten]
    rw [idle] at grown
    exact absurd (congrArg List.length grown) (by simp)
  · intro waits connected healthy network nowNs writes
    have enabled := (sound.live connected).2
    cases waiting : adapter.pending.lookup clientOrderId with
    | none => exact absurd waiting (waits connected healthy)
    | some order =>
        have free : ¬ (clientOrderId = 0 ∨ adapter.status = .disabled ∨
            adapter.status = .degraded) := by
          simp only [not_or]
          exact ⟨named, enabled, healthy⟩
        simp [cancel, free, waiting, EndpointConnector.send, connected, writes]

structure Waiting (order : NormalizedOrder) (state : Tracked) : Prop where
  sound : Sound state.adapter
  waiting : state.finished = false →
    state.adapter.pending.lookup order.clientOrderId = some order

section Steps

variable {order : NormalizedOrder} {before after : Tracked} {output : Output}
  (named : order.clientOrderId ≠ 0) (identified : order.correlationId ≠ 0)

include named in
theorem cancels_of_waiting (waits : Waiting order after) :
    after.finished = false → Cancels order.clientOrderId after.adapter := by
  intro unfinished
  rw [cancels_iff waits.sound named]
  intro _ _ forgotten
  rw [waits.waiting unfinished] at forgotten
  simp at forgotten

include named in
theorem poll_cancels_iff {adapter : NetworkVenueAdapter} {network : Network} (nowNs : UInt64)
    (sound : Sound (adapter.poll network nowNs).1)
    (waiting : adapter.pending.lookup order.clientOrderId = some order)
    (unfinished : ∀ line ∈ adapter.receivedLines network, ¬ Finishes order.clientOrderId line) :
    Cancels order.clientOrderId (adapter.poll network nowNs).1 ↔
      ((adapter.receivedLines network).foldl (decodeLine nowNs) adapter).pending.lookup
        order.clientOrderId = some order := by
  rcases poll_frame nowNs adapter network with ⟨connector, _, _, pending⟩
  rw [cancels_iff sound named, connector, pending, decodeLines_pending, waiting]
  by_cases ended : ∃ line ∈ adapter.receivedLines network,
      Acks order.clientOrderId line ∨ Finishes order.clientOrderId line
  · rcases ended with ⟨line, member, acked⟩
    have acks : Acks order.clientOrderId line := acked.resolve_right (unfinished line member)
    have ready : (adapter.poll network nowNs).1.status = .ready := by
      rw [poll_status, if_pos ⟨line, member, acks_touches acks⟩]
    have ended : ∃ line ∈ adapter.receivedLines network,
        Acks order.clientOrderId line ∨ Finishes order.clientOrderId line := ⟨line, member, acked⟩
    simp [if_pos ended, received_connected member, ready]
  · simp [if_neg ended]

include named identified in
theorem poll_identity {network : Network} {nowNs : UInt64} (waits : Waiting order before)
    (stepped : trackStep order.clientOrderId before (.poll network nowNs) = some (after, output)) :
    (IdentityKept order before (.poll network nowNs) output after ↔
        Unacknowledged order before (.poll network nowNs) output after) ∧
      (Unacknowledged order before (.poll network nowNs) output after → Waiting order after) := by
  have polled : step before.adapter (.poll network nowNs) =
      some ((before.adapter.poll network nowNs).1, .polled (before.adapter.poll network nowNs).2) :=
    rfl
  have sound := step_sound waits.sound polled
  simp only [trackStep, step, Option.map_some, Option.some.injEq, Prod.mk.injEq] at stepped
  rw [← stepped.1, ← stepped.2]
  cases done : before.finished with
  | true => simp [IdentityKept, Unacknowledged, done, sound, Waiting.mk]
  | false =>
      have waiting := waits.waiting done
      have carry := linesCarry_iff nowNs named identified (before.adapter.receivedLines network)
        waiting
      have returned : (before.adapter.poll network nowNs).2 =
          allReports nowNs before.adapter (before.adapter.receivedLines network) := by
        simp only [poll, decodeReports_eq]
        rw [decodeLines_reports, waits.sound.drained, List.nil_append]
      have unfinished : (false || finishedBy order.clientOrderId before.adapter
          (.poll network nowNs)) = false ↔
          ∀ line ∈ before.adapter.receivedLines network, ¬ Finishes order.clientOrderId line := by
        simp [finishedBy]
      have cancels := poll_cancels_iff named nowNs sound waiting
      simp only [IdentityKept, Unacknowledged, OutputCarries, done, true_implies, returned,
        true_and, unfinished]
      constructor
      · rw [← carry]
        exact and_congr_right fun _ => forall_congr' cancels
      · intro ackFree
        apply Waiting.mk sound
        intro still
        rw [(poll_frame nowNs before.adapter network).2.2.2]
        exact (carry.mpr ackFree).2 (unfinished.mp still)

theorem call_waiting {op : Op} (waits : Waiting order before)
    (stepped : trackStep order.clientOrderId before op = some (after, output))
    (call : ∀ network nowNs, op ≠ .poll network nowNs) :
    Waiting order after ∧
      (before.finished = false → OutputCarries order before.adapter op output) := by
  cases found : step before.adapter op with
  | none => simp [trackStep, found] at stepped
  | some next =>
      have sound := step_sound waits.sound found
      simp only [trackStep, found, Option.map_some, Option.some.injEq, Prod.mk.injEq] at stepped
      rw [← stepped.1, ← stepped.2]
      suffices kept : before.finished = false →
          next.1.pending.lookup order.clientOrderId = some order ∧
            OutputCarries order before.adapter op next.2 by
        constructor
        · apply Waiting.mk sound
          intro unfinished
          exact (kept (Bool.or_eq_false_iff.mp unfinished).1).1
        · intro unfinished
          exact (kept unfinished).2
      intro unfinished
      have waiting := waits.waiting unfinished
      cases op with
      | poll network nowNs => exact absurd rfl (call network nowNs)
      | connect network =>
          simp only [step, Option.some.injEq] at found
          rw [← found, (connect_effect before.adapter network).pending]
          exact ⟨waiting, trivial⟩
      | disconnect =>
          simp only [step, Option.some.injEq] at found
          rw [← found]
          exact ⟨waiting, trivial⟩
      | submit network other nowNs =>
          simp only [step, Option.some.injEq] at found
          rw [← found]
          by_cases takes : before.adapter.Takes network other
          · have differ : order.clientOrderId ≠ other.clientOrderId := by
              intro same
              apply takes.fresh
              rw [← same]
              exact Finmap.mem_of_lookup_eq_some waiting
            rw [submit_taken nowNs takes]
            simp only [Finmap.lookup_insert_of_ne _ differ]
            exact ⟨waiting, fun same => absurd same.symm differ⟩
          · rcases submit_refused nowNs takes with ⟨refused, returned, effect⟩
            rw [returned, effect.pending]
            exact ⟨waiting, trivial⟩
      | cancel network clientOrderId nowNs =>
          simp only [step, Option.some.injEq] at found
          have effect := cancel_effect before.adapter network clientOrderId nowNs
          rw [← found, effect.pending]
          apply And.intro waiting
          cases answer : (before.adapter.cancel network clientOrderId nowNs).2 with
          | none => trivial
          | some report =>
              intro same
              rcases effect.answer report answer with ⟨client, correlation⟩
              rw [correlation, ← client, same, correlationOf, waiting]
              rfl

include named identified in
theorem step_identity {op : Op} (waits : Waiting order before)
    (stepped : trackStep order.clientOrderId before op = some (after, output)) :
    (IdentityKept order before op output after ↔ Unacknowledged order before op output after) ∧
      (Unacknowledged order before op output after → Waiting order after) := by
  by_cases polls : ∃ network nowNs, op = .poll network nowNs
  · rcases polls with ⟨network, nowNs, rfl⟩
    exact poll_identity named identified waits stepped
  · have call : ∀ network nowNs, op ≠ .poll network nowNs := by
      intro network nowNs same
      exact polls ⟨network, nowNs, same⟩
    rcases call_waiting waits stepped call with ⟨still, carries⟩
    have kept : IdentityKept order before op output after := by
      intro unfinished
      exact ⟨carries unfinished, cancels_of_waiting named still⟩
    have free : Unacknowledged order before op output after := by
      intro _
      cases op with
      | poll network nowNs => exact absurd rfl (call network nowNs)
      | _ => trivial
    exact ⟨iff_of_true kept free, fun _ => still⟩

end Steps

/-- An order is known under its identity until it is finished exactly when no
acknowledgment of it arrives before. -/
theorem identity_kept_iff_unacknowledged {session : SessionConfig}
    {endpoint : EndpointConnectorConfig} {past ops : List Op} {log : List (Op × Output)}
    {adapter after : NetworkVenueAdapter} {network : Network} {order : NormalizedOrder}
    {nowNs : UInt64} {report : ExecutionReport}
    (ran : Machine.exec step (create session endpoint) past = some (adapter, log))
    (sent : adapter.submit network order nowNs = (after, some report)) :
    (Carries order report ∧ Cancels order.clientOrderId after ∧
      Machine.Along (trackStep order.clientOrderId) (IdentityKept order) ⟨after, false⟩ ops) ↔
      Machine.Along (trackStep order.clientOrderId) (Unacknowledged order) ⟨after, false⟩ ops := by
  have sound : Sound adapter := Machine.exec_invariant (fun _ => Sound)
    (fun _ _ _ _ _ sound stepped => step_sound sound stepped) (create_sound session endpoint) ran
  have takes : adapter.Takes network order := by
    by_contra refuses
    have unsent := (submit_not_taken nowNs refuses).1
    rw [sent] at unsent
    simp at unsent
  have stepped : step adapter (.submit network order nowNs) =
      some (after, .returned (some report)) := by
    simp only [step, sent]
  have sound' := step_sound sound stepped
  rw [submit_taken nowNs takes, Prod.mk.injEq, Option.some.injEq] at sent
  have waits : Waiting order ⟨after, false⟩ := by
    apply Waiting.mk sound'
    intro _
    rw [← sent.1]
    exact Finmap.lookup_insert _
  have carries : Carries order report := by
    intro _
    rw [← sent.2]
  have cancels := cancels_of_waiting takes.client waits rfl
  have same : Machine.Along (trackStep order.clientOrderId) (IdentityKept order) ⟨after, false⟩ ops ↔
      Machine.Along (trackStep order.clientOrderId) (Unacknowledged order) ⟨after, false⟩ ops := by
    apply Machine.along_iff (Waiting order) (A := fun _ => True) _ waits (fun _ _ => trivial)
    intro before op output next holds _ stepped
    exact step_identity takes.client takes.correlation holds stepped
  rw [← same]
  exact ⟨fun kept => kept.2.2, fun kept => ⟨carries, cancels, kept⟩⟩

def liveSession : SessionConfig :=
  { venue := ⟨1, 1, .exchange, .fix, "venue", "region"⟩, liveEnabled := true }

def networkWith (text : String) (fits : (packFramedMessage (Bytes.ofText text)).length ≤ 4096) :
    Network :=
  ⟨true, true, some ⟨packFramedMessage (Bytes.ofText text), by simp [packFramedMessage], fits⟩⟩

def quietNetwork : Network := ⟨true, true, none⟩

def sampleOrder : NormalizedOrder := ⟨5, 7, 1, 1, .buy, .limit, .day, 100, 10, 3⟩

theorem identity_kept_fills :
    ∃ adapter log after report,
      Machine.exec step (create liveSession ⟨true, true⟩) [.connect quietNetwork] =
        some (adapter, log) ∧
      adapter.submit quietNetwork sampleOrder 10 = (after, some report) ∧
      Machine.Along (trackStep 7) (IdentityKept sampleOrder) ⟨after, false⟩
        [.poll (networkWith "FILL|7|1|100|4|6\n" (by decide)) 20, .cancel quietNetwork 7 30,
          .poll (networkWith "FILL|7|2|100|6|0\n" (by decide)) 40] := by
  have ran : Machine.exec step (create liveSession ⟨true, true⟩) [.connect quietNetwork] =
      some _ := rfl
  have sent : (create liveSession ⟨true, true⟩ |>.connect quietNetwork).1.submit quietNetwork
      sampleOrder 10 = (_, some _) := rfl
  apply Exists.intro _
  apply Exists.intro _
  apply Exists.intro _
  apply Exists.intro _
  apply And.intro ran
  apply And.intro sent
  apply ((identity_kept_iff_unacknowledged ran sent).mpr _).2.2
  decide +kernel

/-- After an acknowledgment the order is open at the venue, but it can no longer be
cancelled. -/
theorem acknowledged_order_forgotten :
    ∃ adapter log after report,
      Machine.exec step (create liveSession ⟨true, true⟩) [.connect quietNetwork] =
        some (adapter, log) ∧
      adapter.submit quietNetwork sampleOrder 10 = (after, some report) ∧
      ¬ Machine.Along (trackStep 7) (IdentityKept sampleOrder) ⟨after, false⟩
        [.poll (networkWith "ACK|7|1\n" (by decide)) 20] := by
  have ran : Machine.exec step (create liveSession ⟨true, true⟩) [.connect quietNetwork] =
      some _ := rfl
  have sent : (create liveSession ⟨true, true⟩ |>.connect quietNetwork).1.submit quietNetwork
      sampleOrder 10 = (_, some _) := rfl
  apply Exists.intro _
  apply Exists.intro _
  apply Exists.intro _
  apply Exists.intro _
  apply And.intro ran
  apply And.intro sent
  intro kept
  have cancels := ((kept _ _ rfl).1 rfl).2 (by decide +kernel)
  have message := cancels (by decide +kernel) (by decide +kernel) quietNetwork 30 rfl
  exact absurd message (by decide +kernel)

end Ito.NetworkVenueAdapter
