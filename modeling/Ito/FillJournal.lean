import Ito.SimulatorOrphans

/-! The fills that the exchange and its adapter write to their journal.

Both go over the matches of an accepted order and append a fill for each of them, so that every
execution stands in the journal twice. -/

namespace Ito.ExchangeSimulator

theorem restRemainder_journal (exchange : ExchangeSimulator) (intent : OrderIntent) (orderId : Nat)
    (remaining : Int64) :
    (exchange.restRemainder intent orderId remaining).journal = exchange.journal := by
  unfold restRemainder rest
  split
  · simp only
    split <;> rfl
  · rfl

theorem submit_journal {exchange after : ExchangeSimulator} {intent : OrderIntent}
    {timestampNs : UInt64} {result : SubmitResult}
    (ran : exchange.submit intent timestampNs = some (after, result)) :
    ∃ payload, after.journal = result.matchEvents.foldl (appendFill intent.correlationId)
      (exchange.journal.append .acknowledgment intent.correlationId payload) := by
  rw [submit] at ran
  split at ran
  case isTrue =>
    cases ran
    exact ⟨_, rfl⟩
  split at ran
  case isTrue =>
    cases ran
    exact ⟨_, rfl⟩
  obtain ⟨⟨matched, found⟩, traded, same⟩ := Option.map_eq_some_iff.mp ran
  cases same
  have journal : matched.journal = exchange.journal := by
    split at traded
    · obtain ⟨done, _, same⟩ := Option.map_eq_some_iff.mp traded
      cases same
      exact restRemainder_journal ..
    · obtain ⟨done, _, same⟩ := Option.map_eq_some_iff.mp traded
      cases same
      exact restRemainder_journal ..
  refine ⟨toString exchange.nextOrderId, ?_⟩
  rw [← journal]
  rfl

theorem cancel_journal (exchange : ExchangeSimulator) (venueOrderId : Nat) (timestampNs : UInt64) :
    (exchange.cancel venueOrderId timestampNs).1.journal = exchange.journal ∨
      ∃ correlationId first second, (exchange.cancel venueOrderId timestampNs).1.journal =
        (exchange.journal.append .cancel correlationId first).append .acknowledgment correlationId
          second := by
  unfold cancel
  split
  · exact Or.inl rfl
  · next order _ =>
    refine Or.inr ⟨order.correlationId, toString venueOrderId ++ ":" ++ toString timestampNs.toNat,
      "cancel:" ++ toString venueOrderId, ?_⟩
    dsimp only
    split <;> rfl

end Ito.ExchangeSimulator

namespace Ito

namespace EventJournal

def fillCount (journal : EventJournal) : Nat :=
  journal.events.countP fun envelope => envelope.type = .fill

def recordedQuantity (envelope : EventEnvelope) : Int :=
  if envelope.type = .fill then
    Nat.ofDigitChars 10 ((envelope.payload.toList.splitOn ':').getD 2 []) 0
  else 0

def recordedTotal (journal : EventJournal) : Int := (journal.events.map recordedQuantity).sum

variable (journal : EventJournal)

theorem fillCount_append (type : EventType) (correlationId : UInt64) (payload : String) :
    (journal.append type correlationId payload).fillCount =
      journal.fillCount + if type = .fill then 1 else 0 := by
  simp [fillCount, append, List.countP_singleton]

theorem recordedTotal_other {type : EventType} (other : type ≠ .fill) (correlationId : UInt64)
    (payload : String) :
    (journal.append type correlationId payload).recordedTotal = journal.recordedTotal := by
  simp [recordedTotal, append, recordedQuantity, other]

theorem colon_not_mem_toDigits (n : Nat) : ':' ∉ Nat.toDigits 10 n := by
  intro member
  have digit := Nat.isDigit_of_mem_toDigits (by omega) (by omega) member
  exact absurd digit (by decide)

theorem recordedTotal_fill (correlationId : UInt64) (makerOrderId quantity : Nat) {rest : List Char}
    (ends : rest = [] ∨ ∃ price, rest = ':' :: price) {payload : String}
    (shape : payload.toList =
      Nat.toDigits 10 makerOrderId ++ ':' :: (Nat.toDigits 10 quantity ++ rest)) :
    (journal.append .fill correlationId payload).recordedTotal =
      journal.recordedTotal + quantity := by
  have fields : ((toString correlationId.toNat ++ ":" ++ payload).toList.splitOn ':').getD 2 [] =
      Nat.toDigits 10 quantity := by
    have whole : (toString correlationId.toNat ++ ":" ++ payload).toList =
        Nat.toDigits 10 correlationId.toNat ++ ':' :: (Nat.toDigits 10 makerOrderId ++ ':' ::
          (Nat.toDigits 10 quantity ++ rest)) := by
      rw [String.toList_append, String.toList_append, shape, Nat.toString_eq_ofList_toDigits,
        String.toList_ofList, List.append_assoc]
      rfl
    rw [whole, List.splitOn_append_cons_self_of_not_mem (colon_not_mem_toDigits _),
      List.splitOn_append_cons_self_of_not_mem (colon_not_mem_toDigits _)]
    rcases ends with rfl | ⟨price, rfl⟩
    · rw [List.append_nil, List.splitOn_eq_singleton (colon_not_mem_toDigits _)]
      rfl
    · rw [List.splitOn_append_cons_self_of_not_mem (colon_not_mem_toDigits _)]
      rfl
  have value := Nat.ofDigitChars_toDigits (b := 10) (n := quantity) (by omega) (by omega)
  simp only [recordedTotal, append, List.map_append, List.map_cons, List.map_nil, List.sum_append,
    List.sum_cons, List.sum_nil, recordedQuantity, if_true, fields, value, add_zero]

theorem toList_toString_natCast (n : Nat) : (toString (n : Int)).toList = Nat.toDigits 10 n := by
  have same : toString (n : Int) = toString n := rfl
  rw [same, Nat.toString_eq_ofList_toDigits, String.toList_ofList]

theorem recordedTotal_appendFill (correlationId : UInt64) {event : MatchEvent}
    (positive : 0 < event.quantity.toInt) :
    (ExchangeSimulator.appendFill correlationId journal event).recordedTotal =
      journal.recordedTotal + event.quantity.toInt := by
  obtain ⟨quantity, same⟩ := Int.eq_ofNat_of_zero_le positive.le
  rw [ExchangeSimulator.appendFill, same]
  apply recordedTotal_fill journal correlationId event.makerOrderId quantity
    (Or.inr ⟨(toString event.priceTicks.toInt).toList, rfl⟩)
  simp only [String.toList_append, toList_toString_natCast, Nat.toString_eq_ofList_toDigits,
    String.toList_ofList, List.append_assoc]
  rfl

theorem recordedTotal_appendMatch (correlationId : UInt64) {event : MatchEvent}
    (positive : 0 < event.quantity.toInt) :
    (SimulatorAdapter.appendMatch correlationId journal event).recordedTotal =
      journal.recordedTotal + event.quantity.toInt := by
  obtain ⟨quantity, same⟩ := Int.eq_ofNat_of_zero_le positive.le
  rw [SimulatorAdapter.appendMatch, same]
  apply recordedTotal_fill journal correlationId event.makerOrderId quantity (Or.inl rfl)
  simp only [String.toList_append, toList_toString_natCast, Nat.toString_eq_ofList_toDigits,
    String.toList_ofList, List.append_assoc, List.append_nil]
  rfl

theorem fold_fills {write : EventJournal → MatchEvent → EventJournal}
    (one : ∀ journal event, (write journal event).fillCount = journal.fillCount + 1)
    (each : ∀ journal event, 0 < event.quantity.toInt →
      (write journal event).recordedTotal = journal.recordedTotal + event.quantity.toInt)
    {events : List MatchEvent} (positive : ∀ event ∈ events, 0 < event.quantity.toInt) :
    (events.foldl write journal).fillCount = journal.fillCount + events.length ∧
      (events.foldl write journal).recordedTotal =
        journal.recordedTotal + (events.map (·.quantity.toInt)).sum := by
  induction events generalizing journal with
  | nil => simp
  | cons event events ih =>
      obtain ⟨first, others⟩ := List.forall_mem_cons.mp positive
      obtain ⟨count, total⟩ := ih (write journal event) others
      rw [List.foldl_cons, count, total, one, each journal event first, List.length_cons,
        List.map_cons, List.sum_cons]
      omega

end EventJournal

namespace SimulatorAdapter

open ExchangeSimulator EventJournal

def matchesOf (adapter : SimulatorAdapter) : Op → List MatchEvent
  | .submit order nowNs =>
      if adapter.Open then
        ((adapter.exchange.submit (adapter.intentOf order nowNs) nowNs).map fun next =>
          next.2.matchEvents).getD []
      else []
  | _ => []

def executedQuantity (events : List MatchEvent) : Int := (events.map (·.quantity.toInt)).sum

def audited (state : SimulatorAdapter × Int) (op : Op) :
    Option ((SimulatorAdapter × Int) × List SimulatorReport) :=
  (state.1.step op).map fun next =>
    ((next.1, state.2 + executedQuantity (state.1.matchesOf op)), next.2)

/-- The call appended one fill for each match, and the journal records what was executed. -/
structure JournaledOnce (before : SimulatorAdapter × Int) (op : Op)
    (after : SimulatorAdapter × Int) : Prop where
  appended : after.1.exchange.journal.fillCount =
    before.1.exchange.journal.fillCount + (before.1.matchesOf op).length
  recorded : after.1.exchange.journal.recordedTotal = after.2

/-- An order that the exchange would enter meets no order that it could trade with. -/
def Untraded (adapter : SimulatorAdapter) : Op → Prop
  | .submit order nowNs => adapter.Open → Entered (adapter.intentOf order nowNs) →
      adapter.exchange.matchable (adapter.intentOf order nowNs) = []
  | _ => True

theorem matches_nil_iff {exchange after : ExchangeSimulator} {intent : OrderIntent}
    {timestampNs : UInt64} {result : SubmitResult} (consistent : exchange.Consistent)
    (kept : after.Consistent) (entered : Entered intent)
    (effect : SubmitEffect exchange intent timestampNs after result) :
    result.matchEvents = [] ↔ exchange.matchable intent = [] := by
  have matched := effect.priceTime consistent kept entered
  rw [matched.consumes.reference, List.map_eq_nil_iff]
  exact Greedy.fills_eq_nil_iff entered.positive

structure Doubles (adapter after : SimulatorAdapter) (op : Op) : Prop where
  appended : after.exchange.journal.fillCount =
    adapter.exchange.journal.fillCount + 2 * (adapter.matchesOf op).length
  recorded : after.exchange.journal.recordedTotal =
    adapter.exchange.journal.recordedTotal + 2 * executedQuantity (adapter.matchesOf op)
  untraded : adapter.matchesOf op = [] ↔ Untraded adapter op

theorem doubles_of_silent {adapter after : SimulatorAdapter} {op : Op}
    (none : adapter.matchesOf op = []) (untraded : Untraded adapter op)
    (count : after.exchange.journal.fillCount = adapter.exchange.journal.fillCount)
    (total : after.exchange.journal.recordedTotal = adapter.exchange.journal.recordedTotal) :
    Doubles adapter after op where
  appended := by simp [none, count]
  recorded := by simp [none, total, executedQuantity]
  untraded := iff_of_true none untraded

theorem cancel_exchange (adapter : SimulatorAdapter) (clientOrderId nowNs : UInt64) :
    (adapter.cancel clientOrderId nowNs).1.exchange = adapter.exchange ∨
      ∃ venueOrderId, (adapter.cancel clientOrderId nowNs).1.exchange =
        (adapter.exchange.cancel venueOrderId nowNs).1 := by
  unfold cancel
  split
  · exact Or.inl rfl
  split
  · exact Or.inl rfl
  · next venueOrderId _ =>
    refine Or.inr ⟨venueOrderId, ?_⟩
    split <;> next answer => rw [answer]

theorem cancel_fills (adapter : SimulatorAdapter) (clientOrderId nowNs : UInt64) :
    (adapter.cancel clientOrderId nowNs).1.exchange.journal.fillCount =
        adapter.exchange.journal.fillCount ∧
      (adapter.cancel clientOrderId nowNs).1.exchange.journal.recordedTotal =
        adapter.exchange.journal.recordedTotal := by
  rcases cancel_exchange adapter clientOrderId nowNs with same | ⟨venueOrderId, same⟩
  · rw [same]
    exact ⟨rfl, rfl⟩
  · rw [same]
    rcases cancel_journal adapter.exchange venueOrderId nowNs with kept | ⟨_, _, _, written⟩
    · rw [kept]
      exact ⟨rfl, rfl⟩
    · rw [written, fillCount_append, fillCount_append, recordedTotal_other _ (by decide),
        recordedTotal_other _ (by decide)]
      exact ⟨rfl, rfl⟩

theorem step_doubles {adapter after : SimulatorAdapter} {op : Op} {reports : List SimulatorReport}
    (consistent : adapter.exchange.Consistent)
    (stepped : adapter.step op = some (after, reports)) : Doubles adapter after op := by
  cases op with
  | connect nowNs =>
      cases stepped
      exact doubles_of_silent rfl trivial rfl rfl
  | disconnect nowNs =>
      cases stepped
      exact doubles_of_silent rfl trivial rfl rfl
  | poll nowNs =>
      cases stepped
      exact doubles_of_silent rfl trivial rfl rfl
  | cancel clientOrderId nowNs =>
      simp only [step, Option.some.injEq, Prod.mk.injEq] at stepped
      obtain ⟨rfl, -⟩ := stepped
      have fills := cancel_fills adapter clientOrderId nowNs
      exact doubles_of_silent rfl trivial fills.1 fills.2
  | submit order nowNs =>
      obtain ⟨reached, report, submitted, kept, answer⟩ := submit_cases order nowNs consistent
      rw [step, submitted, Option.map_some, Option.some.injEq, Prod.mk.injEq] at stepped
      obtain ⟨rfl, -⟩ := stepped
      cases answer with
      | closed shut same =>
          rw [same]
          exact doubles_of_silent (if_neg shut) (fun open' => absurd open' shut) rfl rfl
      | @refused open' _ exchange result refused =>
          have made : adapter.matchesOf (.submit order nowNs) = result.matchEvents := by
            rw [matchesOf, if_pos open', refused.ran]
            rfl
          have none : result.matchEvents = [] := by
            cases refused.effect with
            | refused _ _ _ _ same => rw [same]
            | bought entered => exact absurd entered refused.cause
            | sold entered => exact absurd entered refused.cause
          obtain ⟨payload, journal⟩ := submit_journal refused.ran
          rw [none, List.foldl_nil] at journal
          rw [refused.same]
          apply doubles_of_silent (made.trans none) fun _ entered => absurd entered refused.cause
          · rw [journal, fillCount_append]
            rfl
          · rw [journal, recordedTotal_other _ (by decide)]
      | @accepted open' report exchange result accepted =>
          have made : adapter.matchesOf (.submit order nowNs) = result.matchEvents := by
            rw [matchesOf, if_pos open', accepted.ran]
            rfl
          have positive := (accepted.effect.positive consistent).2
          obtain ⟨payload, journal⟩ := submit_journal accepted.ran
          have exchangeFills := fold_fills
            (adapter.exchange.journal.append .acknowledgment order.correlationId payload)
            (fun journal event => fillCount_append journal _ _ _)
            (fun journal event => recordedTotal_appendFill journal order.correlationId) positive
          have adapterFills := fold_fills exchange.journal
            (fun journal event => fillCount_append journal _ _ _)
            (fun journal event => recordedTotal_appendMatch journal order.correlationId) positive
          have final : reached.exchange.journal =
              result.matchEvents.foldl (appendMatch order.correlationId) exchange.journal := by
            rw [accepted.journal]
          rw [fillCount_append, recordedTotal_other _ (by decide)] at exchangeFills
          rw [intentOf_correlationId] at journal
          constructor
          · rw [made, final, adapterFills.1, journal, exchangeFills.1]
            simp only [reduceCtorEq, if_false]
            omega
          · rw [made, final, adapterFills.2, journal, exchangeFills.2, executedQuantity]
            omega
          · rw [made, matches_nil_iff consistent accepted.kept accepted.entered accepted.effect]
            exact ⟨fun none _ _ => none, fun untraded => untraded open' accepted.entered⟩

theorem audited_defined {state : SimulatorAdapter × Int} (op : Op)
    (consistent : state.1.exchange.Consistent) :
    ∃ after reports, audited state op = some (after, reports) ∧ after.1.exchange.Consistent := by
  obtain ⟨after, reports, stepped, kept⟩ := step_defined op consistent
  exact ⟨_, reports, by rw [audited, stepped]; rfl, kept⟩

theorem audited_effect {state after : SimulatorAdapter × Int} {op : Op}
    {reports : List SimulatorReport} (consistent : state.1.exchange.Consistent)
    (stepped : audited state op = some (after, reports)) :
    after.1.exchange.Consistent ∧ after.2 = state.2 + executedQuantity (state.1.matchesOf op) ∧
      Doubles state.1 after.1 op := by
  obtain ⟨_, _, again, kept⟩ := audited_defined op consistent
  rw [stepped, Option.some.injEq, Prod.mk.injEq] at again
  rw [← again.1] at kept
  obtain ⟨next, first, same⟩ := Option.map_eq_some_iff.mp stepped
  cases same
  exact ⟨kept, rfl, step_doubles consistent first⟩

/-- Over a whole run the journal records twice what was executed. -/
theorem recorded_twice (journal : EventJournal) (identity : VenueIdentity) {ops : List Op}
    {adapter : SimulatorAdapter} {executed : Int} {log : List (Op × List SimulatorReport)}
    (ran : Machine.exec audited (create journal identity, 0) ops =
      some ((adapter, executed), log)) :
    adapter.exchange.journal.recordedTotal = journal.recordedTotal + 2 * executed := by
  have whole := Machine.exec_invariant (fun _ state => state.1.exchange.Consistent ∧
    state.1.exchange.journal.recordedTotal = journal.recordedTotal + 2 * state.2) ?_
    ⟨(create_owned journal identity).consistent, by simp [create, ExchangeSimulator.create]⟩ ran
  · exact whole.2
  · rintro _ state op after reports ⟨consistent, sofar⟩ stepped
    obtain ⟨kept, more, doubles⟩ := audited_effect consistent stepped
    refine ⟨kept, ?_⟩
    have recorded := doubles.recorded
    omega

/-- Every run goes through, and its journal holds every execution once exactly where no order
meets another one that it could trade with. -/
theorem journaled_once_iff (journal : EventJournal) (identity : VenueIdentity) (ops : List Op) :
    (∃ after log, Machine.exec audited (create journal identity, journal.recordedTotal) ops =
        some (after, log)) ∧
      (Machine.Along audited (fun before op _ after => JournaledOnce before op after)
          (create journal identity, journal.recordedTotal) ops ↔
        Machine.Along audited (fun before op _ _ => Untraded before.1 op)
          (create journal identity, journal.recordedTotal) ops) := by
  have start := (create_owned journal identity).consistent
  constructor
  · obtain ⟨after, log, ran, _⟩ := Machine.exec_defined
      (fun state : SimulatorAdapter × Int => state.1.exchange.Consistent)
      (fun _ op held => audited_defined op held)
      (s := (create journal identity, journal.recordedTotal)) start ops
    exact ⟨after, log, ran⟩
  · apply Machine.along_iff
      (fun state => state.1.exchange.Consistent ∧ state.1.exchange.journal.recordedTotal = state.2)
      (A := fun _ => True) _ ⟨start, rfl⟩ fun _ _ => trivial
    rintro state op reports after ⟨consistent, sofar⟩ _ stepped
    obtain ⟨kept, more, doubles⟩ := audited_effect consistent stepped
    have recorded := doubles.recorded
    have appended := doubles.appended
    refine ⟨Iff.trans ?_ doubles.untraded, ?_⟩
    · constructor
      · intro once
        have length := once.appended
        have none : (state.1.matchesOf op).length = 0 := by omega
        exact List.length_eq_zero_iff.mp none
      · intro none
        rw [none] at recorded appended more
        exact ⟨by simp [none, appended], by simp [more, recorded, executedQuantity, sofar]⟩
    · intro meets
      rw [doubles.untraded.mpr meets] at recorded more
      exact ⟨kept, by simp [more, recorded, executedQuantity, sofar]⟩

def tradedOps : List Op :=
  [.connect 1, .submit (orderOf 7 .sell .day 100 5) 2, .submit (orderOf 8 .buy .day 100 5) 3]

/-- One execution of five: two fills, and ten in the journal. -/
theorem execution_journaled_twice :
    ¬ Machine.Along audited (fun before op _ after => JournaledOnce before op after)
        (create {} exampleVenue, ({} : EventJournal).recordedTotal) tradedOps := by
  intro along
  have third := (((along _ _ rfl).2 _ _ rfl).2 _ _ rfl).1
  exact absurd third.appended (by decide +kernel)

end SimulatorAdapter

end Ito
