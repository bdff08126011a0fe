import Ito.SimulatorOrphans

/-! The report of a submission against the book of the venue.

The report gives back the quantity that was not traded as the quantity that is left, whether
or not the exchange rests it. -/

namespace Ito.ExchangeSimulator

theorem SubmitEffect.resting_eq {exchange after : ExchangeSimulator} {intent : OrderIntent}
    {timestampNs : UInt64} {result : SubmitResult} (consistent : exchange.Consistent)
    (kept : after.Consistent) (entered : Entered intent)
    (effect : SubmitEffect exchange intent timestampNs after result) :
    after.restingQuantity exchange.nextOrderId =
      if intent.timeInForce = .day then result.remainingQuantity.toInt else 0 := by
  have remaining := effect.remaining_eq consistent entered
  have absent : ¬ (0 < result.remainingQuantity ∧ intent.timeInForce = .day) →
      after.restingQuantity exchange.nextOrderId = 0 := by
    intro settled
    rw [kept.restingQuantity_eq]
    apply heldUnder_of_absent
    intro order member
    rcases effect.mem_orders member with ⟨_, left, day, _⟩ | ⟨old, among, same⟩
    · exact absurd ⟨left, day⟩ settled
    · rw [← same]
      exact (consistent.bookInvariant.open' old among).2.2.ne
  by_cases day : intent.timeInForce = .day
  · rw [if_pos day]
    by_cases left : 0 < result.remainingQuantity
    · have rests : remainder intent exchange.nextOrderId result.remainingQuantity ∈ after.orders :=
        (effect.mem_leftover consistent entered left).mpr (Or.inr ⟨day, rfl⟩)
      have found := (kept.index_of.lookup exchange.nextOrderId _).mpr ⟨rests, rfl⟩
      rw [restingQuantity, find, found]
      rfl
    · rw [absent fun both => left both.1]
      rw [CheckedInt.pos_iff] at left
      omega
  · rw [if_neg day]
    exact absent fun both => day both.2

end Ito.ExchangeSimulator

namespace Ito.SimulatorAdapter

open ExchangeSimulator

/-- The report accounts for the whole order, and what it says is left rests on the venue. -/
def MatchesBook (order : NormalizedOrder) (after : SimulatorAdapter) (report : SimulatorReport) :
    Prop :=
  report.quantity.toInt + report.leavesQuantity.toInt = order.quantity.toInt ∧
    report.leavesQuantity.toInt = after.exchange.restingQuantity report.venueOrderId

section Report

variable {adapter after : SimulatorAdapter} {order : NormalizedOrder} {nowNs : UInt64}
  {report : SimulatorReport} {exchange : ExchangeSimulator} {result : SubmitResult}

theorem Accepted.restingQuantity
    (accepted : Accepted adapter order nowNs after report exchange result) (venueOrderId : Nat) :
    after.exchange.restingQuantity venueOrderId = exchange.restingQuantity venueOrderId := by
  rw [accepted.journal]
  rfl

theorem Accepted.matchesBook_iff (consistent : adapter.exchange.Consistent)
    (accepted : Accepted adapter order nowNs after report exchange result) :
    MatchesBook order after report ↔ order.timeInForce = .day ∨
      order.quantity.toInt ≤ adapter.exchange.matchableQuantity (adapter.intentOf order nowNs) := by
  have matched := accepted.effect.priceTime consistent accepted.kept accepted.entered
  have total := matched.consumes.total
  have remaining := accepted.effect.remaining_eq consistent accepted.entered
  have resting := accepted.effect.resting_eq consistent accepted.kept accepted.entered
  rw [intentOf_quantity] at total remaining
  rw [intentOf_timeInForce] at resting
  rw [MatchesBook, accepted.quantity, accepted.leaves, accepted.venue, accepted.id,
    accepted.restingQuantity, resting]
  generalize adapter.exchange.matchableQuantity (adapter.intentOf order nowNs) = offered
    at remaining ⊢
  by_cases day : order.timeInForce = .day
  · simp [day, total]
  · simp only [day, if_false, total, true_and, false_or]
    omega

end Report

/-- In every reachable state, and for every order the exchange would enter, the report matches
the book exactly when the order may rest or the orders it trades with cover it. A session that
is not open answers with no report. -/
theorem report_matches_book_iff (journal : EventJournal) (identity : VenueIdentity)
    (ops : List Op) {adapter : SimulatorAdapter} {log : List Entry}
    (ran : Machine.exec step (create journal identity) ops = some (adapter, log))
    (order : NormalizedOrder) (nowNs : UInt64) (quantity : 0 < order.quantity)
    (price : 0 < order.priceTicks) (time : order.timeInForce ≠ .fok) :
    ∃ after answer, adapter.submit order nowNs = some (after, answer) ∧
      (answer.isSome ↔ adapter.Open) ∧
      ((∀ report, answer = some report → MatchesBook order after report) ↔
        (adapter.Open → order.timeInForce = .day ∨ order.quantity.toInt ≤
          adapter.exchange.matchableQuantity (adapter.intentOf order nowNs))) := by
  obtain ⟨_, _, again, consistent⟩ := exec_defined (create_owned journal identity).consistent ops
  rw [ran, Option.some.injEq, Prod.mk.injEq] at again
  rw [← again.1] at consistent
  obtain ⟨after, answer, submitted, _, outcome⟩ := submit_cases order nowNs consistent
  refine ⟨after, answer, submitted, ?_⟩
  cases outcome with
  | closed shut => simp [shut]
  | refused _ refused => exact absurd ⟨quantity, price, time⟩ refused.cause
  | accepted open' accepted =>
      simp only [Option.isSome_some, open', Option.some.injEq, forall_eq', true_and, true_implies]
      exact accepted.matchesBook_iff consistent

theorem day_order_report :
    ∃ adapter log, Machine.exec step (create {} exampleVenue)
        [.connect 1, .submit (orderOf 7 .buy .day 100 5) 2] = some (adapter, log) ∧
      ∃ after answer, adapter.submit (orderOf 8 .sell .day 100 10) 3 = some (after, answer) ∧
        (answer.isSome ↔ adapter.Open) ∧
        ((∀ report, answer = some report →
            MatchesBook (orderOf 8 .sell .day 100 10) after report) ↔
          (adapter.Open → TimeInForce.day = .day ∨ (10 : Int64).toInt ≤
            adapter.exchange.matchableQuantity
              (adapter.intentOf (orderOf 8 .sell .day 100 10) 3))) :=
  ⟨_, _, rfl, report_matches_book_iff {} exampleVenue
    [.connect 1, .submit (orderOf 7 .buy .day 100 5) 2] rfl (orderOf 8 .sell .day 100 10) 3
    (by decide) (by decide) (by decide)⟩

instance (order : NormalizedOrder) (after : SimulatorAdapter) (report : SimulatorReport) :
    Decidable (MatchesBook order after report) :=
  inferInstanceAs (Decidable (_ ∧ _))

/-- An immediate order into an empty book: ten are reported as left and nothing rests. -/
theorem ioc_remainder_reported :
    ∃ adapter log after report,
      Machine.exec step (create {} exampleVenue) [.connect 1] = some (adapter, log) ∧
      adapter.submit (orderOf 7 .buy .ioc 100 10) 2 = some (after, some report) ∧
      ¬ MatchesBook (orderOf 7 .buy .ioc 100 10) after report :=
  ⟨_, _, _, _, rfl, rfl, by decide +kernel⟩

end Ito.SimulatorAdapter
