import Ito.ExchangeInvariant

/-! What a cancellation leaves of the book, level by level.

An order is found in the index, and taken out of the level that its entry there names. -/

namespace Ito.ExchangeSimulator

def kept (level : BookLevel) : Option BookLevel := if level = [] then none else some level

/-- The book after the order between `front` and `back` was taken out, and nothing else. -/
structure Without (exchange after : ExchangeSimulator) (order : RestingOrder)
    (front back : BookLevel) : Prop where
  level : exchange.level order.side order.priceTicks = front ++ order :: back
  bids : ∀ price, after.bids.find? price =
    if order.side = .buy ∧ price = order.priceTicks then kept (front ++ back)
    else exchange.bids.find? price
  asks : ∀ price, after.asks.find? price =
    if order.side ≠ .buy ∧ price = order.priceTicks then kept (front ++ back)
    else exchange.asks.find? price
  index : ∀ venueOrderId, after.find venueOrderId =
    if venueOrderId = order.venueOrderId then none else exchange.find venueOrderId
  nextOrderId : after.nextOrderId = exchange.nextOrderId

section Side

variable {before : Int64 → Int64 → Prop} [DecidableRel before] [IsStrictTotalOrder Int64 before]
  {mine : Side → Prop} {next : Nat} {book : PriceBook before} {order : RestingOrder}

theorem find?_storeLevel (book : PriceBook before) (price other : Int64) (level : BookLevel) :
    (storeLevel book price level).find? other =
      if other = price then kept level else book.find? other := by
  rw [storeLevel, kept]
  split
  case isTrue empty =>
    rw [SortedMap.find?_erase, if_pos (List.isEmpty_iff.mp empty)]
  case isFalse filled =>
    have nonempty : level ≠ [] := by simpa using filled
    rw [SortedMap.find?_set, if_neg nonempty]

theorem filter_without {front back : BookLevel}
    (fifo : (front ++ order :: back).Pairwise fun a b => a.venueOrderId < b.venueOrderId) :
    (front ++ order :: back).filter (fun value => value.venueOrderId ≠ order.venueOrderId) =
      front ++ back := by
  obtain ⟨_, later, earlier⟩ := List.pairwise_append.mp fifo
  have head : ∀ value ∈ front, value.venueOrderId ≠ order.venueOrderId := fun value member =>
    (earlier value member order List.mem_cons_self).ne
  have tail : ∀ value ∈ back, value.venueOrderId ≠ order.venueOrderId := fun value member =>
    ((List.pairwise_cons.mp later).1 value member).ne'
  rw [List.filter_append, List.filter_cons_of_neg (by simp),
    List.filter_eq_self.mpr fun value member => decide_eq_true (head value member),
    List.filter_eq_self.mpr fun value member => decide_eq_true (tail value member)]

theorem find?_removeOrder (stocked : Stocked mine next book) (member : order ∈ book.flat) :
    ∃ front back, (book.find? order.priceTicks).getD [] = front ++ order :: back ∧
      ∀ price, (removeOrder book order.priceTicks order.venueOrderId).find? price =
        if price = order.priceTicks then kept (front ++ back) else book.find? price := by
  obtain ⟨level, entry, among, _⟩ := stocked.mem_flat member
  have found := (SortedMap.find?_eq_some book).mpr entry
  have fifo := (stocked order.priceTicks level entry).fifo
  obtain ⟨front, back, rfl⟩ := List.mem_iff_append.mp among
  refine ⟨front, back, by rw [found]; rfl, ?_⟩
  intro price
  rw [removeOrder, found]
  change (storeLevel _ _ _).find? price = _
  rw [find?_storeLevel, filter_without fifo]

omit [DecidableRel before] in
theorem mem_flat_of_level {price : Int64} (member : order ∈ (book.find? price).getD []) :
    order ∈ book.flat := by
  cases found : book.find? price with
  | none => simp [found] at member
  | some level =>
      rw [found, Option.getD_some] at member
      exact SortedMap.mem_flat.mpr ⟨price, level, (SortedMap.find?_eq_some book).mp found, member⟩

theorem removeOrder_pushBack (stocked : Stocked mine next book)
    (fresh : order.venueOrderId = next) :
    removeOrder (pushBack book order) order.priceTicks order.venueOrderId = book := by
  have level : (pushBack book order).find? order.priceTicks =
      some ((book.find? order.priceTicks).getD [] ++ [order]) := by
    rw [pushBack, SortedMap.find?_set_self]
  have others : ((book.find? order.priceTicks).getD [] ++ [order]).filter
      (fun value => value.venueOrderId ≠ order.venueOrderId) =
        (book.find? order.priceTicks).getD [] := by
    rw [List.filter_append, List.filter_cons_of_neg (by simp), List.filter_nil, List.append_nil,
      List.filter_eq_self]
    intro value member
    have known := (stocked.order (mem_flat_of_level member)).known
    rw [decide_eq_true_eq, fresh]
    exact known.ne
  apply SortedMap.ext_find?
  intro price
  rw [removeOrder, level]
  change (storeLevel _ _ _).find? price = _
  rw [others, find?_storeLevel, kept]
  by_cases same : price = order.priceTicks
  · rw [if_pos same, same]
    cases found : book.find? order.priceTicks with
    | none => simp
    | some level =>
        have filled := (stocked _ level ((SortedMap.find?_eq_some book).mp found)).nonempty
        rw [Option.getD_some, if_neg filled]
  · rw [if_neg same, pushBack, SortedMap.find?_set_ne _ same]

end Side

theorem cancel_cases {exchange : ExchangeSimulator} (consistent : exchange.Consistent)
    (venueOrderId : Nat) (timestampNs : UInt64) :
    (∃ order front back, order ∈ exchange.orders ∧ order.venueOrderId = venueOrderId ∧
      (exchange.cancel venueOrderId timestampNs).2 = true ∧
      Without exchange (exchange.cancel venueOrderId timestampNs).1 order front back) ∨
    ((∀ order ∈ exchange.orders, order.venueOrderId ≠ venueOrderId) ∧
      exchange.cancel venueOrderId timestampNs = (exchange, false)) := by
  rw [cancel]
  cases found : exchange.index.lookup venueOrderId with
  | none =>
      refine Or.inr ⟨?_, rfl⟩
      rintro order member rfl
      rw [(consistent.index_of.lookup _ order).mpr ⟨member, rfl⟩] at found
      cases found
  | some order =>
      obtain ⟨member, rfl⟩ := (consistent.index_of.lookup venueOrderId order).mp found
      have unindexed : ∀ venueOrderId,
          (removeFromIndex exchange.index order.venueOrderId).lookup venueOrderId =
            if venueOrderId = order.venueOrderId then none else exchange.find venueOrderId := by
        intro venueOrderId
        split
        case isTrue same =>
          rw [same]
          exact Finmap.lookup_erase _ _
        case isFalse differ => exact Finmap.lookup_erase_ne differ
      left
      by_cases side : order.side = .buy
      · have resting : order ∈ exchange.bids.flat := by
          rcases List.mem_append.mp member with bid | ask
          · exact bid
          · exact absurd side (consistent.served.order ask).sided
        obtain ⟨front, back, split, removed⟩ := find?_removeOrder consistent.resting resting
        refine ⟨order, front, back, member, rfl, rfl, ?_⟩
        simp only [if_pos side]
        refine ⟨by rw [level, if_pos side, split], ?_, ?_, unindexed, rfl⟩
        · intro price
          simp only [side, true_and]
          exact removed price
        · intro price
          rw [if_neg fun both => both.1 side]
      · have resting : order ∈ exchange.asks.flat := by
          rcases List.mem_append.mp member with bid | ask
          · exact absurd (consistent.resting.order bid).sided side
          · exact ask
        obtain ⟨front, back, split, removed⟩ := find?_removeOrder consistent.served resting
        refine ⟨order, front, back, member, rfl, rfl, ?_⟩
        simp only [if_neg side]
        refine ⟨by rw [level, if_neg side, split], ?_, ?_, unindexed, rfl⟩
        · intro price
          rw [if_neg fun both => side both.1]
        · intro price
          simp only [ne_eq, side, not_false_eq_true, true_and]
          exact removed price

/-! A submission that trades nothing -/

section Loop

variable {before : Int64 → Int64 → Prop} [DecidableRel before] [IsStrictTotalOrder Int64 before]
  {outside : Int64 → Bool} {orderId : Nat} {timestampNs : UInt64} {now done : Matching before}

theorem matchLoop_events {fuel : Nat}
    (ran : matchLoop outside orderId timestampNs fuel now = some done) :
    now.matchEvents.length ≤ done.matchEvents.length ∧
      (done.matchEvents.length ≤ now.matchEvents.length → done = now) := by
  induction fuel generalizing now with
  | zero => cases ran
  | succ fuel ih =>
      have idle : some now = some done → now.matchEvents.length ≤ done.matchEvents.length ∧
          (done.matchEvents.length ≤ now.matchEvents.length → done = now) := by
        intro same
        rw [Option.some.inj same]
        exact ⟨Nat.le_refl _, fun _ => rfl⟩
      rw [matchLoop] at ran
      split at ran
      case isFalse => exact idle ran
      case isTrue =>
        split at ran
        case h_1 => exact idle ran
        case h_2 price level later first =>
          split at ran
          case isTrue => exact idle ran
          case isFalse =>
            obtain ⟨next, turned, rest⟩ := Option.bind_eq_some_iff.mp ran
            have more : next.matchEvents.length = now.matchEvents.length + 1 := by
              cases level with
              | nil => cases turned
              | cons maker others =>
                  simp only [matchFront, Option.bind_eq_bind, Option.bind_eq_some_iff] at turned
                  obtain ⟨remaining, _, makerRemaining, _, same⟩ := turned
                  rw [← Option.some.inj same, List.length_append, List.length_singleton]
            obtain ⟨grown, _⟩ := ih rest
            exact ⟨by omega, fun fewer => by omega⟩

theorem matched_idle {fuel : Nat} {finish : Matching before → ExchangeSimulator × SubmitResult}
    {matched : ExchangeSimulator} {result : SubmitResult}
    (ran : (matchLoop outside orderId timestampNs fuel now).map finish = some (matched, result))
    (fresh : now.matchEvents = [])
    (reported : ∀ done, (finish done).2.matchEvents = done.matchEvents)
    (idle : result.matchEvents = []) : finish now = (matched, result) := by
  rcases Option.map_eq_some_iff.mp ran with ⟨done, looped, same⟩
  have fewer : done.matchEvents.length ≤ now.matchEvents.length := by
    rw [← reported done, same, idle, fresh]
  rw [← (matchLoop_events looped).2 fewer, same]

end Loop

/-- The same book, in which the two journals and the next ids may differ. -/
structure SameBook (exchange other : ExchangeSimulator) : Prop where
  bids : other.bids = exchange.bids
  asks : other.asks = exchange.asks
  index : other.index = exchange.index

theorem unused_id {exchange : ExchangeSimulator} (consistent : exchange.Consistent) :
    exchange.index.lookup exchange.nextOrderId = none := by
  cases found : exchange.index.lookup exchange.nextOrderId with
  | none => rfl
  | some order =>
      obtain ⟨member, same⟩ := (consistent.index_of.lookup _ order).mp found
      have known := (consistent.bookInvariant.open' order member).2.2
      exact absurd same known.ne

theorem cancel_rested {exchange entered : ExchangeSimulator} (consistent : exchange.Consistent)
    {order : RestingOrder} (fresh : order.venueOrderId = exchange.nextOrderId)
    (rested : SameBook (exchange.rest order) entered) (timestampNs : UInt64) :
    SameBook exchange (entered.cancel order.venueOrderId timestampNs).1 := by
  obtain ⟨bids, asks, index⟩ := rested
  have found : entered.index.lookup order.venueOrderId = some order := by
    rw [index]
    exact Finmap.lookup_insert _
  have inserted : (exchange.rest order).index = exchange.index.insert order.venueOrderId order := by
    rw [rest]
    split <;> rfl
  have erased : removeFromIndex entered.index order.venueOrderId = exchange.index := by
    apply Finmap.ext_lookup
    intro venueOrderId
    rw [index, inserted, removeFromIndex]
    by_cases same : venueOrderId = order.venueOrderId
    · rw [same, Finmap.lookup_erase, fresh, unused_id consistent]
    · rw [Finmap.lookup_erase_ne same]
      exact Finmap.lookup_insert_of_ne _ same
  rw [cancel, found]
  by_cases side : order.side = .buy
  · simp only [rest, if_pos side] at bids asks
    simp only [if_pos side]
    refine ⟨?_, asks, erased⟩
    rw [bids]
    exact removeOrder_pushBack consistent.resting fresh
  · simp only [rest, if_neg side] at bids asks
    simp only [if_neg side]
    refine ⟨bids, ?_, erased⟩
    rw [asks]
    exact removeOrder_pushBack consistent.served fresh

theorem matchBuy_idle {exchange matched : ExchangeSimulator} {intent : OrderIntent} {orderId : Nat}
    {timestampNs : UInt64} {result : SubmitResult}
    (ran : exchange.matchBuy intent orderId timestampNs = some (matched, result))
    (idle : result.matchEvents = []) :
    result.venueOrderId = orderId ∧
      matched = exchange.restRemainder intent orderId intent.quantity := by
  rcases Prod.mk.inj (matched_idle ran rfl (fun _ => rfl) idle) with ⟨rfl, rfl⟩
  exact ⟨rfl, rfl⟩

theorem matchSell_idle {exchange matched : ExchangeSimulator} {intent : OrderIntent} {orderId : Nat}
    {timestampNs : UInt64} {result : SubmitResult}
    (ran : exchange.matchSell intent orderId timestampNs = some (matched, result))
    (idle : result.matchEvents = []) :
    result.venueOrderId = orderId ∧
      matched = exchange.restRemainder intent orderId intent.quantity := by
  rcases Prod.mk.inj (matched_idle ran rfl (fun _ => rfl) idle) with ⟨rfl, rfl⟩
  exact ⟨rfl, rfl⟩

theorem SameBook.rest {exchange other : ExchangeSimulator} (same : SameBook exchange other)
    (order : RestingOrder) : SameBook (exchange.rest order) (other.rest order) := by
  obtain ⟨bids, asks, index⟩ := same
  rw [ExchangeSimulator.rest, ExchangeSimulator.rest, bids, asks, index]
  split <;> exact ⟨rfl, rfl, rfl⟩

theorem submit_idle {exchange entered : ExchangeSimulator} {intent : OrderIntent}
    {timestampNs : UInt64} {result : SubmitResult}
    (submitted : exchange.submit intent timestampNs = some (entered, result))
    (day : intent.timeInForce = .day) (idle : result.matchEvents = []) :
    result.venueOrderId = exchange.nextOrderId ∧
      (SameBook exchange entered ∨
        SameBook (exchange.rest (remainder intent exchange.nextOrderId intent.quantity)) entered) := by
  rw [submit] at submitted
  by_cases invalid : intent.quantity ≤ 0 ∨ intent.priceTicks ≤ 0
  · simp only [if_pos invalid, Option.some.injEq, Prod.mk.injEq] at submitted
    obtain ⟨rfl, rfl⟩ := submitted
    exact ⟨rfl, Or.inl ⟨rfl, rfl, rfl⟩⟩
  · have notFok : ¬ intent.timeInForce = .fok := by
      rw [day]
      decide
    have rests : 0 < intent.quantity ∧ intent.timeInForce = .day := by
      rw [not_or, Int64.not_le] at invalid
      exact ⟨invalid.1, day⟩
    simp only [if_neg invalid, if_neg notFok, Option.map_eq_some_iff] at submitted
    obtain ⟨⟨matched, outcome⟩, ran, same⟩ := submitted
    obtain ⟨rfl, rfl⟩ := Prod.mk.inj same
    have both : outcome.venueOrderId = exchange.nextOrderId ∧
        matched = { exchange with nextOrderId := exchange.nextOrderId + 1 }.restRemainder intent
          exchange.nextOrderId intent.quantity := by
      split at ran
      · exact matchBuy_idle ran idle
      · exact matchSell_idle ran idle
    obtain ⟨own, rfl⟩ := both
    refine ⟨own, Or.inr ?_⟩
    rw [restRemainder, if_pos rests]
    have started : SameBook exchange { exchange with nextOrderId := exchange.nextOrderId + 1 } :=
      ⟨rfl, rfl, rfl⟩
    obtain ⟨bids, asks, index⟩ :=
      started.rest (remainder intent exchange.nextOrderId intent.quantity)
    exact ⟨bids, asks, index⟩

theorem submit_cancel {exchange entered : ExchangeSimulator} (consistent : exchange.Consistent)
    {intent : OrderIntent} {timestampNs : UInt64} {result : SubmitResult}
    (submitted : exchange.submit intent timestampNs = some (entered, result))
    (day : intent.timeInForce = .day) (idle : result.matchEvents = []) (cancelNs : UInt64) :
    SameBook exchange (entered.cancel result.venueOrderId cancelNs).1 := by
  obtain ⟨own, same | rested⟩ := submit_idle submitted day idle
  · have unknown : entered.index.lookup exchange.nextOrderId = none := by
      rw [same.index]
      exact unused_id consistent
    rw [cancel, own, unknown]
    exact same
  · rw [own]
    exact cancel_rested consistent rfl rested cancelNs

/-- In every book that calls reach, a cancellation succeeds exactly for a resting order, takes out
that order and nothing else, and undoes a submission that matched nothing. -/
theorem cancel_exact (journal : EventJournal) (ops : List Op) :
    ∃ exchange log, Machine.exec step (create journal) ops = some (exchange, log) ∧
      (∀ venueOrderId timestampNs,
        ((exchange.cancel venueOrderId timestampNs).2 = true ↔
          ∃ order ∈ exchange.orders, order.venueOrderId = venueOrderId) ∧
        ((exchange.cancel venueOrderId timestampNs).2 = true →
          ∃ order front back, order.venueOrderId = venueOrderId ∧
            Without exchange (exchange.cancel venueOrderId timestampNs).1 order front back) ∧
        ((exchange.cancel venueOrderId timestampNs).2 = false →
          (exchange.cancel venueOrderId timestampNs).1 = exchange)) ∧
      ∀ intent timestampNs, intent.timeInForce = .day →
        ∃ entered result, exchange.submit intent timestampNs = some (entered, result) ∧
          (result.matchEvents = [] → ∀ cancelNs,
            SameBook exchange (entered.cancel result.venueOrderId cancelNs).1) := by
  obtain ⟨exchange, log, ran, consistent⟩ := exec_consistent (create_consistent journal) ops
  refine ⟨exchange, log, ran, ?_, ?_⟩
  · intro venueOrderId timestampNs
    obtain ⟨order, front, back, member, same, found, without⟩ | ⟨absent, missed⟩ :=
      cancel_cases consistent venueOrderId timestampNs
    · refine ⟨iff_of_true found ⟨order, member, same⟩, fun _ => ⟨order, front, back, same, without⟩,
        ?_⟩
      intro missed
      rw [found] at missed
      cases missed
    · rw [missed]
      refine ⟨iff_of_false Bool.false_ne_true ?_, fun found => absurd found Bool.false_ne_true,
        fun _ => rfl⟩
      rintro ⟨order, member, same⟩
      exact absent order member same
  · intro intent timestampNs day
    obtain ⟨entered, result, submitted, _⟩ := submit_spec consistent intent timestampNs
    exact ⟨entered, result, submitted, submit_cancel consistent submitted day⟩

end Ito.ExchangeSimulator
