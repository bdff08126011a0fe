import Ito.SimulatorEffects

/-! Which resting orders the simulator adapter can still cancel.

The map from client order ids to venue order ids keeps one venue order for each client. An order
with quantity left over takes the entry of its client, and an order of the same client that
still rests is then out of reach. -/

namespace Ito.SimulatorAdapter

open ExchangeSimulator

abbrev Entry := Op × List SimulatorReport

def SubmittedWith (log : List Entry) (clientOrderId : UInt64) (venueOrderId : Nat) : Prop :=
  ∃ order nowNs report, (Op.submit order nowNs, [report]) ∈ log ∧ report.status ≠ .rejected ∧
    order.clientOrderId = clientOrderId ∧ report.venueOrderId = venueOrderId

/-- Every resting order is mapped under the client order id it was submitted with. -/
def NoOrphans (adapter : SimulatorAdapter) (log : List Entry) : Prop :=
  ∀ order ∈ adapter.exchange.orders,
    (∃ clientOrderId, SubmittedWith log clientOrderId order.venueOrderId) ∧
    ∀ clientOrderId, SubmittedWith log clientOrderId order.venueOrderId →
      adapter.clientToVenue.lookup clientOrderId = some order.venueOrderId

/-- A submission takes the map entry of an order that rests on: it has quantity left over, and
the mapped order is none of those it trades with. -/
def Replaces (adapter : SimulatorAdapter) (order : NormalizedOrder) (nowNs : UInt64) : Prop :=
  adapter.Open ∧ Entered (adapter.intentOf order nowNs) ∧
    adapter.exchange.matchableQuantity (adapter.intentOf order nowNs) < order.quantity.toInt ∧
    ∃ resting ∈ adapter.exchange.orders,
      adapter.clientToVenue.lookup order.clientOrderId = some resting.venueOrderId ∧
        resting ∉ adapter.exchange.matchable (adapter.intentOf order nowNs)

def KeepsMapping (adapter : SimulatorAdapter) : Op → Prop
  | .submit order nowNs => ¬ Replaces adapter order nowNs
  | _ => True

structure Owned (adapter : SimulatorAdapter) (log : List Entry) : Prop where
  consistent : adapter.exchange.Consistent
  known : ∀ clientOrderId venueOrderId, SubmittedWith log clientOrderId venueOrderId →
    venueOrderId < adapter.exchange.nextOrderId
  unique : ∀ first second venueOrderId, SubmittedWith log first venueOrderId →
    SubmittedWith log second venueOrderId → first = second
  owned : ∀ order ∈ adapter.exchange.orders,
    ∃ clientOrderId, SubmittedWith log clientOrderId order.venueOrderId
  mapped : ∀ clientOrderId venueOrderId,
    adapter.clientToVenue.lookup clientOrderId = some venueOrderId →
      SubmittedWith log clientOrderId venueOrderId

theorem submittedWith_append {front back : List Entry} {clientOrderId : UInt64}
    {venueOrderId : Nat} : SubmittedWith (front ++ back) clientOrderId venueOrderId ↔
      SubmittedWith front clientOrderId venueOrderId ∨
        SubmittedWith back clientOrderId venueOrderId := by
  constructor
  · rintro ⟨order, nowNs, report, member, facts⟩
    rcases List.mem_append.mp member with old | new
    · exact Or.inl ⟨order, nowNs, report, old, facts⟩
    · exact Or.inr ⟨order, nowNs, report, new, facts⟩
  · rintro (⟨order, nowNs, report, member, facts⟩ | ⟨order, nowNs, report, member, facts⟩)
    · exact ⟨order, nowNs, report, List.mem_append_left _ member, facts⟩
    · exact ⟨order, nowNs, report, List.mem_append_right _ member, facts⟩

def Idle (entry : Entry) : Prop := ∀ clientOrderId venueOrderId,
  ¬ SubmittedWith [entry] clientOrderId venueOrderId

theorem Idle.iff {entry : Entry} (idle : Idle entry) {log : List Entry} {clientOrderId : UInt64}
    {venueOrderId : Nat} : SubmittedWith (log ++ [entry]) clientOrderId venueOrderId ↔
      SubmittedWith log clientOrderId venueOrderId := by
  rw [submittedWith_append, or_iff_left (idle clientOrderId venueOrderId)]

theorem create_owned (journal : EventJournal) (identity : VenueIdentity) :
    Owned (create journal identity) [] where
  consistent := create_consistent journal
  known := by
    rintro _ _ ⟨_, _, _, member, _⟩
    cases member
  unique := by
    rintro _ _ _ ⟨_, _, _, member, _⟩
    cases member
  owned := by
    intro order member
    cases member
  mapped := by
    intro clientOrderId venueOrderId found
    cases found

structure Shrinks (adapter after : SimulatorAdapter) : Prop where
  consistent : after.exchange.Consistent
  next : adapter.exchange.nextOrderId ≤ after.exchange.nextOrderId
  fewer : after.exchange.orders ⊆ adapter.exchange.orders
  narrower : ∀ clientOrderId venueOrderId,
    after.clientToVenue.lookup clientOrderId = some venueOrderId →
      adapter.clientToVenue.lookup clientOrderId = some venueOrderId
  still : ∀ order ∈ after.exchange.orders, ∀ clientOrderId,
    adapter.clientToVenue.lookup clientOrderId = some order.venueOrderId →
      after.clientToVenue.lookup clientOrderId = some order.venueOrderId

section Idle

variable {adapter after : SimulatorAdapter} {log : List Entry} {entry : Entry}

theorem Shrinks.owned (shrinks : Shrinks adapter after) (idle : Idle entry)
    (held : Owned adapter log) : Owned after (log ++ [entry]) where
  consistent := shrinks.consistent
  known := by
    intro clientOrderId venueOrderId submitted
    exact (held.known _ _ (idle.iff.mp submitted)).trans_le shrinks.next
  unique := by
    intro first second venueOrderId submitted again
    exact held.unique _ _ _ (idle.iff.mp submitted) (idle.iff.mp again)
  owned := by
    intro order member
    obtain ⟨clientOrderId, submitted⟩ := held.owned order (shrinks.fewer member)
    exact ⟨clientOrderId, idle.iff.mpr submitted⟩
  mapped := by
    intro clientOrderId venueOrderId found
    exact idle.iff.mpr (held.mapped _ _ (shrinks.narrower _ _ found))

theorem Shrinks.noOrphans (shrinks : Shrinks adapter after) (idle : Idle entry)
    (reachable : NoOrphans adapter log) : NoOrphans after (log ++ [entry]) := by
  intro order member
  obtain ⟨⟨owner, submitted⟩, mapped⟩ := reachable order (shrinks.fewer member)
  refine ⟨⟨owner, idle.iff.mpr submitted⟩, ?_⟩
  intro clientOrderId again
  exact shrinks.still order member clientOrderId (mapped clientOrderId (idle.iff.mp again))

theorem shrinks_refl (consistent : adapter.exchange.Consistent) : Shrinks adapter adapter :=
  ⟨consistent, le_rfl, List.Subset.refl _, fun _ _ found => found, fun _ _ _ found => found⟩

theorem Refused.shrinks {order : NormalizedOrder} {nowNs : UInt64} {report : SimulatorReport}
    {exchange : ExchangeSimulator} {result : SubmitResult}
    (refused : Refused adapter order nowNs after report exchange result) :
    Shrinks adapter after := by
  rw [refused.same]
  have same : exchange.orders = adapter.exchange.orders := by
    cases refused.effect with
    | refused _ bids asks => rw [orders, orders, bids, asks]
    | bought entered => exact absurd entered refused.cause
    | sold entered => exact absurd entered refused.cause
  refine ⟨refused.kept, ?_, ?_, fun _ _ found => found, fun _ _ _ found => found⟩
  · rw [refused.next]
    exact Nat.le_succ _
  · rw [same]
    exact List.Subset.refl _

theorem Cancelled.shrinks {clientOrderId : UInt64} {report : SimulatorReport} {venueOrderId : Nat}
    (held : adapter.exchange.Consistent) (kept : after.exchange.Consistent)
    (next : after.exchange.nextOrderId = adapter.exchange.nextOrderId)
    (cancelled : Cancelled adapter clientOrderId after report venueOrderId) :
    Shrinks adapter after := by
  rcases cancelled.effect with _ | ⟨gone, present, split⟩
  obtain ⟨_, rfl⟩ := (held.index_of.lookup _ _).mp present
  have once := (Index.of_perm split held.index_of).nodup
  rw [List.map_cons, List.nodup_cons] at once
  refine ⟨kept, next.ge, fun order member => split.mem_iff.mpr (List.mem_cons_of_mem _ member), ?_, ?_⟩
  · intro client venue found
    rw [cancelled.mapping] at found
    by_cases same : client = clientOrderId
    · rw [same, Finmap.lookup_erase] at found
      cases found
    · rwa [Finmap.lookup_erase_ne same] at found
  · intro order member client found
    rw [cancelled.mapping, Finmap.lookup_erase_ne]
    · exact found
    · rintro rfl
      rw [cancelled.mapped, Option.some.injEq] at found
      apply once.1
      rw [found]
      exact List.mem_map_of_mem member

end Idle

section Accepted

variable {adapter after : SimulatorAdapter} {log : List Entry} {order : NormalizedOrder}
  {nowNs : UInt64} {report : SimulatorReport} {exchange : ExchangeSimulator} {result : SubmitResult}

theorem Accepted.orders (accepted : Accepted adapter order nowNs after report exchange result) :
    after.exchange.orders = exchange.orders := by
  rw [accepted.journal]
  rfl

theorem Accepted.id (accepted : Accepted adapter order nowNs after report exchange result) :
    result.venueOrderId = adapter.exchange.nextOrderId := accepted.effect.id

theorem Accepted.submitted_iff
    (accepted : Accepted adapter order nowNs after report exchange result)
    {clientOrderId : UInt64} {venueOrderId : Nat} :
    SubmittedWith (log ++ [(.submit order nowNs, [report])]) clientOrderId venueOrderId ↔
      SubmittedWith log clientOrderId venueOrderId ∨
        (order.clientOrderId = clientOrderId ∧ adapter.exchange.nextOrderId = venueOrderId) := by
  have single : SubmittedWith [(.submit order nowNs, [report])] clientOrderId venueOrderId ↔
      order.clientOrderId = clientOrderId ∧ adapter.exchange.nextOrderId = venueOrderId := by
    rw [← accepted.id, ← accepted.venue]
    constructor
    · rintro ⟨_, _, _, member, _, client, venue⟩
      cases List.mem_singleton.mp member
      exact ⟨client, venue⟩
    · rintro ⟨client, venue⟩
      exact ⟨order, nowNs, report, List.mem_singleton_self _, accepted.taken, client, venue⟩
  rw [submittedWith_append, single]

theorem Accepted.lookup (accepted : Accepted adapter order nowNs after report exchange result)
    (clientOrderId : UInt64) :
    after.clientToVenue.lookup clientOrderId =
      if 0 < result.remainingQuantity ∧ clientOrderId = order.clientOrderId then
        some adapter.exchange.nextOrderId
      else adapter.clientToVenue.lookup clientOrderId := by
  rw [accepted.mapping]
  by_cases left : 0 < result.remainingQuantity
  · rw [if_pos left]
    by_cases same : clientOrderId = order.clientOrderId
    · rw [same, accepted.id, Finmap.lookup_insert, if_pos ⟨left, rfl⟩]
    · rw [Finmap.lookup_insert_of_ne _ same, if_neg fun both => same both.2]
  · rw [if_neg left, if_neg fun both => left both.1]

theorem Accepted.owned (accepted : Accepted adapter order nowNs after report exchange result)
    (held : Owned adapter log) : Owned after (log ++ [(.submit order nowNs, [report])]) where
  consistent := by
    rw [accepted.journal]
    exact accepted.kept
  known := by
    intro clientOrderId venueOrderId submitted
    have next : after.exchange.nextOrderId = adapter.exchange.nextOrderId + 1 := by
      rw [accepted.journal]
      exact accepted.next
    rw [next]
    rcases accepted.submitted_iff.mp submitted with old | ⟨_, rfl⟩
    · exact (held.known _ _ old).trans (Nat.lt_succ_self _)
    · exact Nat.lt_succ_self _
  unique := by
    intro first second venueOrderId submitted again
    rcases accepted.submitted_iff.mp submitted with old | ⟨rfl, new⟩ <;>
      rcases accepted.submitted_iff.mp again with old' | ⟨rfl, new'⟩
    · exact held.unique _ _ _ old old'
    · exact absurd new' (held.known _ _ old).ne'
    · exact absurd new (held.known _ _ old').ne'
    · rfl
  owned := by
    intro resting member
    rw [accepted.orders] at member
    rcases accepted.effect.mem_orders member with ⟨_, _, _, new⟩ | ⟨old, among, same⟩
    · exact ⟨order.clientOrderId, accepted.submitted_iff.mpr (Or.inr ⟨rfl, new.symm⟩)⟩
    · obtain ⟨clientOrderId, submitted⟩ := held.owned old among
      rw [same] at submitted
      exact ⟨clientOrderId, accepted.submitted_iff.mpr (Or.inl submitted)⟩
  mapped := by
    intro clientOrderId venueOrderId found
    rw [accepted.lookup] at found
    split at found
    case isTrue both => exact accepted.submitted_iff.mpr (Or.inr ⟨both.2.symm, Option.some.inj found⟩)
    case isFalse => exact accepted.submitted_iff.mpr (Or.inl (held.mapped _ _ found))

theorem Accepted.noOrphans_iff (open' : adapter.Open)
    (accepted : Accepted adapter order nowNs after report exchange result)
    (held : Owned adapter log) (reachable : NoOrphans adapter log) :
    NoOrphans after (log ++ [(.submit order nowNs, [report])]) ↔ ¬ Replaces adapter order nowNs := by
  have leftover := accepted.effect.leftover_iff held.consistent accepted.entered
  have fresh : ∀ resting ∈ adapter.exchange.orders,
      resting.venueOrderId < adapter.exchange.nextOrderId := fun resting member =>
    (held.consistent.bookInvariant.open' resting member).2.2
  constructor
  · rintro holds ⟨_, _, short, resting, member, mapped, stays⟩
    have left := leftover.mpr short
    have present : resting ∈ after.exchange.orders := by
      rw [accepted.orders, accepted.effect.mem_leftover held.consistent accepted.entered left]
      exact Or.inl ⟨member, stays⟩
    have submitted := accepted.submitted_iff.mpr (Or.inl (held.mapped _ _ mapped))
    have still := (holds resting present).2 order.clientOrderId submitted
    rw [accepted.lookup, if_pos ⟨left, rfl⟩, Option.some.injEq] at still
    exact absurd still (fresh resting member).ne'
  · intro keeps resting member
    rw [accepted.orders] at member
    rcases accepted.effect.mem_orders member with ⟨_, left, _, new⟩ | ⟨old, among, same⟩
    · refine ⟨⟨order.clientOrderId, accepted.submitted_iff.mpr (Or.inr ⟨rfl, new.symm⟩)⟩, ?_⟩
      intro clientOrderId submitted
      rcases accepted.submitted_iff.mp submitted with before | ⟨client, _⟩
      · exact absurd new (held.known _ _ before).ne
      · rw [accepted.lookup, if_pos ⟨left, client.symm⟩, new]
    · obtain ⟨⟨owner, submitted⟩, mapped⟩ := reachable old among
      rw [same] at submitted mapped
      refine ⟨⟨owner, accepted.submitted_iff.mpr (Or.inl submitted)⟩, ?_⟩
      intro clientOrderId again
      have known := fresh old among
      rw [same] at known
      rcases accepted.submitted_iff.mp again with before | ⟨_, new⟩
      · rw [accepted.lookup, if_neg, mapped clientOrderId before]
        rintro ⟨left, rfl⟩
        apply keeps
        refine ⟨open', accepted.entered, leftover.mp left, resting, ?_⟩
        rw [accepted.effect.mem_leftover held.consistent accepted.entered left] at member
        rcases member with ⟨inside, stays⟩ | ⟨_, rest⟩
        · exact ⟨inside, mapped _ before, stays⟩
        · rw [rest] at known
          exact absurd known (lt_irrefl _)
      · exact absurd new known.ne'

end Accepted

section Steps

variable {adapter after : SimulatorAdapter} {log : List Entry} {reports : List SimulatorReport}

theorem idle_of_rejected {op : Op} (quiet : ∀ order nowNs report, op = .submit order nowNs →
    reports = [report] → report.status = .rejected) : Idle (op, reports) := by
  rintro _ _ ⟨order, nowNs, report, member, taken, _⟩
  cases List.mem_singleton.mp member
  exact taken (quiet order nowNs report rfl rfl)

theorem step_cases (op : Op) (consistent : adapter.exchange.Consistent)
    (stepped : adapter.step op = some (after, reports)) :
    (Shrinks adapter after ∧ Idle (op, reports) ∧ KeepsMapping adapter op) ∨
      ∃ order nowNs report exchange result, op = .submit order nowNs ∧ reports = [report] ∧
        adapter.Open ∧ Accepted adapter order nowNs after report exchange result := by
  cases op with
  | connect nowNs =>
      cases stepped
      exact Or.inl ⟨{ shrinks_refl consistent with }, idle_of_rejected (by simp), trivial⟩
  | disconnect nowNs =>
      cases stepped
      exact Or.inl ⟨{ shrinks_refl consistent with }, idle_of_rejected (by simp), trivial⟩
  | poll nowNs =>
      cases stepped
      exact Or.inl ⟨shrinks_refl consistent, idle_of_rejected (by simp), trivial⟩
  | cancel clientOrderId nowNs =>
      obtain ⟨kept, next, answer⟩ := cancel_cases consistent clientOrderId nowNs
      simp only [step, Option.some.injEq, Prod.mk.injEq] at stepped
      obtain ⟨rfl, -⟩ := stepped
      refine Or.inl ⟨?_, idle_of_rejected (by simp), trivial⟩
      generalize (adapter.cancel clientOrderId nowNs).1 = after at kept next answer ⊢
      generalize (adapter.cancel clientOrderId nowNs).2 = report at answer
      cases answer with
      | closed _ same =>
          rw [same]
          exact shrinks_refl consistent
      | unknown _ same =>
          rw [same]
          exact shrinks_refl consistent
      | cancelled _ cancelled => exact cancelled.shrinks consistent kept next
  | submit order nowNs =>
      obtain ⟨next, report, submitted, kept, answer⟩ := submit_cases order nowNs consistent
      rw [step, submitted, Option.map_some, Option.some.injEq, Prod.mk.injEq] at stepped
      obtain ⟨rfl, rfl⟩ := stepped
      cases answer with
      | closed shut same =>
          refine Or.inl ⟨?_, idle_of_rejected (by simp), fun replaces => shut replaces.1⟩
          rw [same]
          exact shrinks_refl consistent
      | @refused _ report _ _ refused =>
          refine Or.inl ⟨refused.shrinks, ?_, fun replaces => refused.cause replaces.2.1⟩
          apply idle_of_rejected
          intro _ _ other _ only
          rw [Option.toList_some, List.singleton_inj] at only
          rw [← only]
          exact refused.rejected
      | accepted open' accepted =>
          exact Or.inr ⟨order, nowNs, _, _, _, rfl, rfl, open', accepted⟩

/-- One call keeps track of the owners, and leaves an order out of reach exactly where it
takes the map entry of one that rests on. -/
theorem step_owned (op : Op) (held : Owned adapter log) (reachable : NoOrphans adapter log)
    (stepped : adapter.step op = some (after, reports)) :
    Owned after (log ++ [(op, reports)]) ∧
      (NoOrphans after (log ++ [(op, reports)]) ↔ KeepsMapping adapter op) := by
  rcases step_cases op held.consistent stepped with ⟨shrinks, idle, keeps⟩ |
    ⟨order, nowNs, report, exchange, result, rfl, rfl, open', accepted⟩
  · exact ⟨shrinks.owned idle held, iff_of_true (shrinks.noOrphans idle reachable) keeps⟩
  · exact ⟨accepted.owned held, accepted.noOrphans_iff open' held reachable⟩

/-- A mapped order that rests is cancelled under its client order id, on any open session. -/
theorem cancel_mapped {clientOrderId : UInt64} {venueOrderId : Nat}
    (consistent : adapter.exchange.Consistent) (ready : adapter.status = .ready)
    (mapped : adapter.clientToVenue.lookup clientOrderId = some venueOrderId)
    (rests : ∃ order ∈ adapter.exchange.orders, order.venueOrderId = venueOrderId) (nowNs : UInt64) :
    ∃ report, (adapter.cancel clientOrderId nowNs).2 = some report ∧ report.status = .cancelled ∧
      report.venueOrderId = venueOrderId := by
  obtain ⟨_, _, answer⟩ := cancel_cases consistent clientOrderId nowNs
  obtain ⟨order, member, same⟩ := rests
  have present := (consistent.index_of.lookup venueOrderId order).mpr ⟨member, same⟩
  generalize (adapter.cancel clientOrderId nowNs).2 = report at answer ⊢
  cases answer with
  | closed shut => exact absurd ready shut
  | unknown _ _ missing =>
      have absent := missing venueOrderId mapped
      rw [find, present] at absent
      cases absent
  | cancelled _ cancelled =>
      have again := cancelled.mapped
      rw [mapped, Option.some.injEq] at again
      rw [again]
      exact ⟨_, rfl, cancelled.cancelled⟩

end Steps

/-- Every run goes through, and it keeps every resting order within reach of its client exactly
where no submission with quantity left over takes the map entry of an order that rests on. -/
theorem no_orphans_iff (journal : EventJournal) (identity : VenueIdentity) (ops : List Op) :
    (∃ after log, Machine.exec step (create journal identity) ops = some (after, log)) ∧
      (Machine.Along (Machine.logged step) (fun _ _ _ after => NoOrphans after.1 after.2)
          (create journal identity, []) ops ↔
        Machine.Along (Machine.logged step) (fun before op _ _ => KeepsMapping before.1 op)
          (create journal identity, []) ops) := by
  constructor
  · obtain ⟨after, log, ran, _⟩ := exec_defined (create_owned journal identity).consistent ops
    exact ⟨after, log, ran⟩
  · apply Machine.along_iff (fun state => Owned state.1 state.2 ∧ NoOrphans state.1 state.2)
      (A := fun _ => True)
    · rintro ⟨adapter, past⟩ op reports ⟨after, log⟩ ⟨held, reachable⟩ _ stepped
      obtain ⟨first, rfl⟩ := Machine.logged_eq_some.mp stepped
      obtain ⟨kept, same⟩ := step_owned op held reachable first
      exact ⟨same, fun keeps => ⟨kept, same.mpr keeps⟩⟩
    · refine ⟨create_owned journal identity, ?_⟩
      intro order member
      cases member
    · exact fun _ _ => trivial

def exampleVenue : VenueIdentity := ⟨5, 8, .exchange, .simulator, "exchange-a", "us"⟩

def orderOf (clientOrderId : UInt64) (side : Side) (timeInForce : TimeInForce)
    (priceTicks quantity : Int64) : NormalizedOrder :=
  ⟨clientOrderId, clientOrderId, 101, 201, side, .limit, timeInForce, priceTicks, quantity, 7⟩

def reuseOps : List Op :=
  [.connect 1, .submit (orderOf 7 .buy .day 100 10) 2, .submit (orderOf 7 .buy .day 99 10) 3]

theorem reused_client_id_orphans :
    ¬ Machine.Along (Machine.logged step) (fun _ _ _ after => NoOrphans after.1 after.2)
        (create {} exampleVenue, []) reuseOps := by
  intro along
  have third := (((along _ _ rfl).2 _ _ rfl).2 _ _ rfl).1
  have mapped := (third ⟨1, 7, .buy, 100, 10, 1⟩ (by decide +kernel)).2 7
    ⟨orderOf 7 .buy .day 100 10, 2, ⟨7, 7, 1, 1, .accepted, 100, 0, 10, 2, 2, 0⟩,
      List.mem_cons_of_mem _ List.mem_cons_self, by decide, rfl, rfl⟩
  exact absurd mapped (by decide +kernel)

end Ito.SimulatorAdapter
