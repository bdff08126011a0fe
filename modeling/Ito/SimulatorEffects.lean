import Ito.SimulatorAdapter

/-! What a call of the simulator adapter does to its exchange and to its report.

Every call is defined, because the exchange keeps its book consistent and the parts that are
traded never add up to more than the order. -/

namespace Ito.ExchangeSimulator

/-- What the resting orders that an intent may trade with offer together. -/
def matchableQuantity (exchange : ExchangeSimulator) (intent : OrderIntent) : Int :=
  ((exchange.matchable intent).map size).sum

section Effect

variable {exchange after : ExchangeSimulator} {intent : OrderIntent} {timestampNs : UInt64}
  {result : SubmitResult}

theorem Consistent.positive_orders (consistent : exchange.Consistent) :
    ∀ order ∈ exchange.orders, 0 < size order := by
  intro order member
  exact CheckedInt.pos_iff.mp (consistent.bookInvariant.open' order member).1

theorem matchable_subset (exchange : ExchangeSimulator) (intent : OrderIntent) :
    exchange.matchable intent ⊆ exchange.orders := by
  intro order member
  have side := (List.mem_filter.mp member).1
  rw [orders, List.mem_append]
  unfold opposite at side
  split at side
  · exact Or.inr side
  · exact Or.inl side

theorem SubmitEffect.remaining_eq (consistent : exchange.Consistent) (entered : Entered intent)
    (effect : SubmitEffect exchange intent timestampNs after result) :
    result.remainingQuantity.toInt =
      max 0 (intent.quantity.toInt - exchange.matchableQuantity intent) := by
  have queue : ∀ order ∈ exchange.matchable intent, 0 < size order := fun order member =>
    consistent.positive_orders order (matchable_subset exchange intent member)
  have covered := Greedy.left_eq queue entered.positive.le
  cases effect with
  | refused cause => exact absurd entered cause
  | bought _ side traded =>
      rw [traded.remaining, ← consistent.matchable_buy side]
      exact covered
  | sold _ side traded =>
      rw [traded.remaining, ← consistent.matchable_sell side]
      exact covered

theorem SubmitEffect.leftover_iff (consistent : exchange.Consistent) (entered : Entered intent)
    (effect : SubmitEffect exchange intent timestampNs after result) :
    0 < result.remainingQuantity ↔
      exchange.matchableQuantity intent < intent.quantity.toInt := by
  rw [CheckedInt.pos_iff, effect.remaining_eq consistent entered]
  omega

end Effect

section Settled

variable {before beside : Int64 → Int64 → Prop} [DecidableRel beside]
  [IsStrictTotalOrder Int64 beside] {outside : Int64 → Bool} {intent : OrderIntent} {orderId : Nat}
  {timestampNs : UInt64} {book book' : PriceBook before} {own own' : PriceBook beside}
  {result : SubmitResult}

theorem mem_settleOwn_iff {remaining : Int64} {order : RestingOrder} :
    order ∈ (settleOwn own intent orderId remaining).flat ↔ order ∈ own.flat ∨
      (0 < remaining ∧ intent.timeInForce = .day) ∧ order = remainder intent orderId remaining := by
  rw [settleOwn]
  split
  case isTrue rests =>
    rw [(pushBack_perm own _).mem_iff, List.mem_cons]
    simp [rests, or_comm]
  case isFalse stays => simp [stays]

theorem Traded.mem_after (traded : Traded outside intent orderId timestampNs book book' own own'
    result) {order : RestingOrder} (member : order ∈ own'.flat ++ book'.flat) :
    ((0 < result.remainingQuantity ∧ intent.timeInForce = .day) ∧ order.venueOrderId = orderId) ∨
      ∃ old ∈ own.flat ++ book.flat, old.venueOrderId = order.venueOrderId := by
  rcases List.mem_append.mp member with mine | theirs
  · rw [traded.settled, mem_settleOwn_iff] at mine
    rcases mine with old | ⟨rests, rfl⟩
    · exact Or.inr ⟨order, List.mem_append_left _ old, rfl⟩
    · exact Or.inl ⟨rests, rfl⟩
  · rw [traded.served, List.mem_append] at theirs
    have inside : ∀ other, other ∈ accepted outside book ∨ other ∈ refused outside book →
        other ∈ own.flat ++ book.flat := by
      intro other either
      rw [← accepted_append_refused outside book]
      exact List.mem_append_right _ (List.mem_append.mpr either)
    apply Or.inr
    rcases theirs with rest | beyond
    · rcases Greedy.mem_rest rest with old | ⟨old, among, part, _, _, rfl⟩
      · exact ⟨order, inside order (Or.inl old), rfl⟩
      · exact ⟨old, inside old (Or.inl among), rfl⟩
    · exact ⟨order, inside order (Or.inr beyond), rfl⟩

theorem Traded.mem_after_leftover
    (traded : Traded outside intent orderId timestampNs book book' own own' result)
    (leftover : 0 < result.remainingQuantity) {order : RestingOrder} :
    order ∈ own'.flat ++ book'.flat ↔ order ∈ own.flat ++ refused outside book ∨
      intent.timeInForce = .day ∧ order = remainder intent orderId result.remainingQuantity := by
  have remains : 0 < Greedy.left size intent.quantity.toInt (accepted outside book) := by
    rw [← traded.remaining]
    exact CheckedInt.pos_iff.mp leftover
  rw [List.mem_append, traded.settled, mem_settleOwn_iff, traded.served,
    Greedy.rest_of_left remains, List.nil_append, List.mem_append]
  simp only [leftover, true_and]
  exact or_right_comm

end Settled

section Orders

variable {exchange after : ExchangeSimulator} {intent : OrderIntent} {timestampNs : UInt64}
  {result : SubmitResult}

theorem SubmitEffect.mem_orders (effect : SubmitEffect exchange intent timestampNs after result)
    {order : RestingOrder} (member : order ∈ after.orders) :
    (Entered intent ∧ 0 < result.remainingQuantity ∧ intent.timeInForce = .day ∧
        order.venueOrderId = exchange.nextOrderId) ∨
      ∃ old ∈ exchange.orders, old.venueOrderId = order.venueOrderId := by
  cases effect with
  | refused _ bids asks _ _ =>
      rw [orders, bids, asks] at member
      exact Or.inr ⟨order, member, rfl⟩
  | bought entered _ traded =>
      rcases traded.mem_after member with ⟨⟨left, day⟩, same⟩ | old
      · exact Or.inl ⟨entered, left, day, same⟩
      · exact Or.inr old
  | sold entered _ traded =>
      have swapped : order ∈ after.asks.flat ++ after.bids.flat :=
        List.perm_append_comm.mem_iff.mp member
      rcases traded.mem_after swapped with ⟨⟨left, day⟩, same⟩ | ⟨old, among, same⟩
      · exact Or.inl ⟨entered, left, day, same⟩
      · exact Or.inr ⟨old, List.perm_append_comm.mem_iff.mp among, same⟩

theorem SubmitEffect.mem_leftover (consistent : exchange.Consistent) (entered : Entered intent)
    (effect : SubmitEffect exchange intent timestampNs after result)
    (leftover : 0 < result.remainingQuantity) {order : RestingOrder} :
    order ∈ after.orders ↔ (order ∈ exchange.orders ∧ order ∉ exchange.matchable intent) ∨
      intent.timeInForce = .day ∧
        order = remainder intent exchange.nextOrderId result.remainingQuantity := by
  cases effect with
  | refused cause => exact absurd entered cause
  | bought _ side traded =>
      have cut := accepted_eq_filter consistent.served (aboveLimit_closed intent)
      rw [orders, traded.mem_after_leftover leftover, consistent.matchable_buy side, cut.1, cut.2,
        orders, List.mem_append, List.mem_append, List.mem_filter, List.mem_filter]
      have apart : order ∈ exchange.bids.flat → order ∉ exchange.asks.flat := fun bid ask =>
        (consistent.served.order ask).sided (consistent.resting.order bid).sided
      refine or_congr_left ?_
      cases aboveLimit intent order.priceTicks <;> simp
      tauto
  | sold _ side traded =>
      have cut := accepted_eq_filter consistent.resting (belowLimit_closed intent)
      have swap : order ∈ after.orders ↔ order ∈ after.asks.flat ++ after.bids.flat :=
        List.perm_append_comm.mem_iff
      rw [swap, traded.mem_after_leftover leftover, consistent.matchable_sell side, cut.1, cut.2,
        orders, List.mem_append, List.mem_append, List.mem_filter, List.mem_filter]
      have apart : order ∈ exchange.asks.flat → order ∉ exchange.bids.flat := fun ask bid =>
        (consistent.served.order ask).sided (consistent.resting.order bid).sided
      refine or_congr_left ?_
      cases belowLimit intent order.priceTicks <;> simp <;> tauto

end Orders

end Ito.ExchangeSimulator

namespace Ito.SimulatorAdapter

open ExchangeSimulator

def Open (adapter : SimulatorAdapter) : Prop :=
  adapter.status = .ready ∧ adapter.identity.venueId ≠ 0

instance (adapter : SimulatorAdapter) : Decidable adapter.Open :=
  inferInstanceAs (Decidable (_ ∧ _))

@[simp] theorem intentOf_correlationId (adapter : SimulatorAdapter) (order : NormalizedOrder)
    (nowNs : UInt64) : (adapter.intentOf order nowNs).correlationId = order.correlationId := rfl

@[simp] theorem intentOf_quantity (adapter : SimulatorAdapter) (order : NormalizedOrder)
    (nowNs : UInt64) : (adapter.intentOf order nowNs).quantity = order.quantity := rfl

@[simp] theorem intentOf_timeInForce (adapter : SimulatorAdapter) (order : NormalizedOrder)
    (nowNs : UInt64) : (adapter.intentOf order nowNs).timeInForce = order.timeInForce := rfl

def appendMatch (correlationId : UInt64) (journal : EventJournal) (event : MatchEvent) :
    EventJournal :=
  journal.append .fill correlationId
    (toString event.makerOrderId ++ ":" ++ toString event.quantity.toInt)

theorem noteMatch_fold (correlationId : UInt64) (journal : EventJournal) (filled : Int64)
    {events : List MatchEvent} (positive : ∀ event ∈ events, 0 < event.quantity.toInt)
    (fits : filled.toInt + (events.map (·.quantity.toInt)).sum < 2 ^ 63) :
    ∃ whole, events.foldlM (noteMatch correlationId) (journal, filled) =
        some (events.foldl (appendMatch correlationId) journal, whole) ∧
      whole.toInt = filled.toInt + (events.map (·.quantity.toInt)).sum := by
  induction events generalizing journal filled with
  | nil => exact ⟨filled, rfl, by simp⟩
  | cons event events ih =>
      obtain ⟨first, others⟩ := List.forall_mem_cons.mp positive
      have more : 0 ≤ (events.map (·.quantity.toInt)).sum := by
        apply List.sum_nonneg
        intro part member
        obtain ⟨other, among, rfl⟩ := List.mem_map.mp member
        exact (others other among).le
      have low := filled.le_toInt
      rw [List.map_cons, List.sum_cons] at fits
      obtain ⟨next, added, value⟩ :=
        CheckedInt.ofInt?_defined (x := filled.toInt + event.quantity.toInt) (by omega) (by omega)
      obtain ⟨whole, ran, total⟩ :=
        ih (appendMatch correlationId journal event) next others (by omega)
      refine ⟨whole, ?_, ?_⟩
      · have noted : noteMatch correlationId (journal, filled) event =
            some (appendMatch correlationId journal event, next) := by
          rw [noteMatch, CheckedInt.add?, added]
          rfl
        rw [List.foldlM_cons, noted]
        exact ran
      · rw [total, value, List.map_cons, List.sum_cons]
        omega

structure Accepted (adapter : SimulatorAdapter) (order : NormalizedOrder) (nowNs : UInt64)
    (after : SimulatorAdapter) (report : SimulatorReport) (exchange : ExchangeSimulator)
    (result : SubmitResult) : Prop where
  entered : Entered (adapter.intentOf order nowNs)
  ran : adapter.exchange.submit (adapter.intentOf order nowNs) nowNs = some (exchange, result)
  effect : SubmitEffect adapter.exchange (adapter.intentOf order nowNs) nowNs exchange result
  kept : exchange.Consistent
  next : exchange.nextOrderId = adapter.exchange.nextOrderId + 1
  journal : after.exchange = { exchange with
    journal := result.matchEvents.foldl (appendMatch order.correlationId) exchange.journal }
  mapping : after.clientToVenue = if 0 < result.remainingQuantity then
      adapter.clientToVenue.insert order.clientOrderId result.venueOrderId
    else adapter.clientToVenue
  identity : after.identity = adapter.identity
  status : after.status = adapter.status
  client : report.clientOrderId = order.clientOrderId
  venue : report.venueOrderId = result.venueOrderId
  taken : report.status ≠ .rejected
  quantity : report.quantity.toInt = (result.matchEvents.map (·.quantity.toInt)).sum
  leaves : report.leavesQuantity = result.remainingQuantity

structure Refused (adapter : SimulatorAdapter) (order : NormalizedOrder) (nowNs : UInt64)
    (after : SimulatorAdapter) (report : SimulatorReport) (exchange : ExchangeSimulator)
    (result : SubmitResult) : Prop where
  cause : ¬ Entered (adapter.intentOf order nowNs)
  ran : adapter.exchange.submit (adapter.intentOf order nowNs) nowNs = some (exchange, result)
  effect : SubmitEffect adapter.exchange (adapter.intentOf order nowNs) nowNs exchange result
  kept : exchange.Consistent
  next : exchange.nextOrderId = adapter.exchange.nextOrderId + 1
  same : after = { adapter with exchange }
  rejected : report.status = .rejected

inductive SubmitCase (adapter : SimulatorAdapter) (order : NormalizedOrder) (nowNs : UInt64)
    (after : SimulatorAdapter) : Option SimulatorReport → Prop
  | closed (shut : ¬ adapter.Open) (same : after = adapter) : SubmitCase adapter order nowNs after none
  | refused (open' : adapter.Open) {report : SimulatorReport} {exchange : ExchangeSimulator}
      {result : SubmitResult} (refused : Refused adapter order nowNs after report exchange result) :
      SubmitCase adapter order nowNs after (some report)
  | accepted (open' : adapter.Open) {report : SimulatorReport} {exchange : ExchangeSimulator}
      {result : SubmitResult} (accepted : Accepted adapter order nowNs after report exchange result) :
      SubmitCase adapter order nowNs after (some report)

section Submit

variable {adapter : SimulatorAdapter} (order : NormalizedOrder) (nowNs : UInt64)

theorem submit_cases (consistent : adapter.exchange.Consistent) :
    ∃ after report, adapter.submit order nowNs = some (after, report) ∧
      after.exchange.Consistent ∧ SubmitCase adapter order nowNs after report := by
  by_cases open' : adapter.Open
  case neg =>
    have shut : adapter.status ≠ .ready ∨ adapter.identity.venueId = 0 := by
      simpa [Open, imp_iff_not_or] using open'
    exact ⟨adapter, none, if_pos shut, consistent, .closed open' rfl⟩
  have ready : ¬ (adapter.status ≠ .ready ∨ adapter.identity.venueId = 0) := by
    simpa [Open] using open'
  obtain ⟨exchange, result, ran, kept, next, effect⟩ :=
    submit_spec consistent (adapter.intentOf order nowNs) nowNs
  by_cases entered : Entered (adapter.intentOf order nowNs)
  case neg =>
    have refusal : result.accepted = false := by
      cases effect with
      | refused _ _ _ _ same => rw [same]
      | bought entered' => exact absurd entered' entered
      | sold entered' => exact absurd entered' entered
    have submitted : adapter.submit order nowNs = some ({ adapter with exchange },
        some ⟨order.correlationId, order.clientOrderId, result.venueOrderId, 0, .rejected,
          order.priceTicks, 0, order.quantity, nowNs, nowNs, 300⟩) := by
      rw [submit, if_neg ready, ran]
      simp [refusal]
    exact ⟨_, _, submitted, kept, .refused open' ⟨entered, ran, effect, kept, next, rfl, rfl⟩⟩
  have matched := effect.priceTime consistent kept entered
  have total : _ = order.quantity.toInt := matched.consumes.total
  have bound := order.quantity.toInt_lt
  obtain ⟨remains, positive⟩ := effect.positive consistent
  have left := remains matched.accepted.1
  obtain ⟨filled, looped, sum⟩ := noteMatch_fold order.correlationId exchange.journal 0
    positive (by rw [Int64.toInt_zero]; omega)
  rw [Int64.toInt_zero, zero_add] at sum
  let journal := result.matchEvents.foldl (appendMatch order.correlationId) exchange.journal
  let status : ExecutionStatus := if filled = 0 then .accepted
    else if result.remainingQuantity = 0 then .filled else .partiallyFilled
  have submitted : adapter.submit order nowNs = some (
      { adapter with
        exchange := { exchange with journal }
        nextExecutionId := adapter.nextExecutionId + 1
        clientToVenue := if 0 < result.remainingQuantity then
            adapter.clientToVenue.insert order.clientOrderId result.venueOrderId
          else adapter.clientToVenue },
      some ⟨order.correlationId, order.clientOrderId, result.venueOrderId, adapter.nextExecutionId,
        status, order.priceTicks, filled, result.remainingQuantity, nowNs, nowNs, 0⟩) := by
    rw [submit, if_neg ready, ran]
    simp [matched.accepted.1, looped, journal, status]
  have taken : status ≠ .rejected := by
    simp only [status]
    split
    · simp
    · split <;> simp
  exact ⟨_, _, submitted, kept, .accepted open'
    ⟨entered, ran, effect, kept, next, rfl, rfl, rfl, rfl, rfl, rfl, taken, sum, rfl⟩⟩

end Submit

structure Cancelled (adapter : SimulatorAdapter) (clientOrderId : UInt64)
    (after : SimulatorAdapter) (report : SimulatorReport) (venueOrderId : Nat) : Prop where
  mapped : adapter.clientToVenue.lookup clientOrderId = some venueOrderId
  effect : CancelEffect adapter.exchange venueOrderId after.exchange true
  mapping : after.clientToVenue = adapter.clientToVenue.erase clientOrderId
  identity : after.identity = adapter.identity
  status : after.status = adapter.status
  cancelled : report.status = .cancelled ∧ report.venueOrderId = venueOrderId

inductive CancelCase (adapter : SimulatorAdapter) (clientOrderId : UInt64)
    (after : SimulatorAdapter) : Option SimulatorReport → Prop
  | closed (shut : adapter.status ≠ .ready) (same : after = adapter) :
      CancelCase adapter clientOrderId after none
  | unknown (ready : adapter.status = .ready) {report : SimulatorReport} (same : after = adapter)
      (missing : ∀ venueOrderId, adapter.clientToVenue.lookup clientOrderId = some venueOrderId →
        adapter.exchange.find venueOrderId = none)
      (unknown : report.status = .unknown) : CancelCase adapter clientOrderId after (some report)
  | cancelled (ready : adapter.status = .ready) {report : SimulatorReport} {venueOrderId : Nat}
      (cancelled : Cancelled adapter clientOrderId after report venueOrderId) :
      CancelCase adapter clientOrderId after (some report)

theorem cancel_cases {adapter : SimulatorAdapter} (consistent : adapter.exchange.Consistent)
    (clientOrderId nowNs : UInt64) :
    (adapter.cancel clientOrderId nowNs).1.exchange.Consistent ∧
      (adapter.cancel clientOrderId nowNs).1.exchange.nextOrderId = adapter.exchange.nextOrderId ∧
      CancelCase adapter clientOrderId (adapter.cancel clientOrderId nowNs).1
        (adapter.cancel clientOrderId nowNs).2 := by
  rw [cancel]
  by_cases ready : adapter.status = .ready
  case neg =>
    rw [if_pos ready]
    exact ⟨consistent, rfl, .closed ready rfl⟩
  rw [if_neg (not_not.mpr ready)]
  cases mapped : adapter.clientToVenue.lookup clientOrderId with
  | none => exact ⟨consistent, rfl, .unknown ready rfl (by simp [mapped]) rfl⟩
  | some venueOrderId =>
      obtain ⟨kept, next, effect⟩ := cancel_spec consistent venueOrderId nowNs
      rcases answer : adapter.exchange.cancel venueOrderId nowNs with ⟨exchange, found⟩
      rw [answer] at kept next effect
      simp only [answer]
      cases found with
      | false =>
          cases effect with
          | missing absent same =>
              simp only at same
              subst same
              refine ⟨kept, next, .unknown ready rfl ?_ rfl⟩
              intro other again
              rw [mapped, Option.some.injEq] at again
              rw [← again]
              exact absent
      | true => exact ⟨kept, next, .cancelled ready ⟨mapped, effect, rfl, rfl, rfl, rfl, rfl⟩⟩

theorem step_defined {adapter : SimulatorAdapter} (op : Op)
    (consistent : adapter.exchange.Consistent) :
    ∃ after reports, adapter.step op = some (after, reports) ∧ after.exchange.Consistent := by
  cases op with
  | connect nowNs => exact ⟨_, _, rfl, consistent⟩
  | disconnect nowNs => exact ⟨_, _, rfl, consistent⟩
  | poll nowNs => exact ⟨_, _, rfl, consistent⟩
  | cancel clientOrderId nowNs =>
      exact ⟨_, _, rfl, (cancel_cases consistent clientOrderId nowNs).1⟩
  | submit order nowNs =>
      obtain ⟨after, report, submitted, kept, _⟩ := submit_cases order nowNs consistent
      exact ⟨after, report.toList, by rw [step, submitted, Option.map_some], kept⟩

theorem exec_defined {adapter : SimulatorAdapter} (consistent : adapter.exchange.Consistent)
    (ops : List Op) :
    ∃ after log, Machine.exec step adapter ops = some (after, log) ∧ after.exchange.Consistent :=
  Machine.exec_defined (fun adapter : SimulatorAdapter => adapter.exchange.Consistent)
    (fun _ op held => step_defined op held) consistent ops

end Ito.SimulatorAdapter
