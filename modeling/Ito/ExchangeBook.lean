import Ito.ExchangeMatching

/-! What a submission and a cancellation do to the book.

The two sides are handled alike: an order trades with one side and may rest on
the other, and every call keeps both sides and the index consistent. -/

namespace Ito.ExchangeSimulator

section Side

variable {before : Int64 → Int64 → Prop} {mine : Side → Prop} {next : Nat}
  {book : PriceBook before}

theorem Stocked.mem_flat (stocked : Stocked mine next book) {order : RestingOrder}
    (member : order ∈ book.flat) : ∃ level, (order.priceTicks, level) ∈ book.entries ∧
      order ∈ level ∧ OrderOk mine next order.priceTicks order := by
  rcases SortedMap.mem_flat.mp member with ⟨price, level, entry, among⟩
  have each := (stocked price level entry).each order among
  have priced := each.priced
  subst priced
  exact ⟨level, entry, among, each⟩

theorem Stocked.order (stocked : Stocked mine next book) {order : RestingOrder}
    (member : order ∈ book.flat) : OrderOk mine next order.priceTicks order := by
  rcases stocked.mem_flat member with ⟨level, _, _, each⟩
  exact each

variable [DecidableRel before] [IsStrictTotalOrder Int64 before]

theorem pushBack_perm (book : PriceBook before) (order : RestingOrder) :
    (pushBack book order).flat.Perm (order :: book.flat) := by
  have whole := (SortedMap.flat_perm_getD book order.priceTicks).cons order
  have placed : (pushBack book order).flat.Perm _ := SortedMap.flat_set_perm book
  rw [List.append_assoc, List.singleton_append] at placed
  exact placed.trans (List.perm_middle.trans whole.symm)

/-- A new order goes to the back of its level, behind every older one. -/
theorem LevelOk.append {price : Int64} {level : BookLevel} {order : RestingOrder}
    (old : level ≠ [] → LevelOk mine next price level)
    (new : OrderOk mine (next + 1) price order) (fresh : order.venueOrderId = next) :
    LevelOk mine (next + 1) price (level ++ [order]) := by
  have each : ∀ other ∈ level, OrderOk mine next price other := fun other member =>
    (old (List.ne_nil_of_mem member)).each other member
  constructor
  · simp
  · rw [List.pairwise_append]
    refine ⟨?_, List.pairwise_singleton _ _, ?_⟩
    · by_cases empty : level = []
      · rw [empty]
        exact List.Pairwise.nil
      · exact (old empty).fifo
    · intro other member last single
      rw [List.mem_singleton.mp single, fresh]
      exact (each other member).known
  · intro other member
    rcases List.mem_append.mp member with among | last
    · have ok := each other among
      exact { ok with known := ok.known.trans (Nat.lt_succ_self next) }
    · rw [List.mem_singleton.mp last]
      exact new

theorem pushBack_stocked {order : RestingOrder} (stocked : Stocked mine next book)
    (new : OrderOk mine (next + 1) order.priceTicks order) (fresh : order.venueOrderId = next) :
    Stocked mine (next + 1) (pushBack book order) := by
  intro price level member
  rw [pushBack, SortedMap.mem_set] at member
  rcases member with ⟨rfl, rfl⟩ | ⟨_, old⟩
  · apply LevelOk.append ?_ new fresh
    intro filled
    cases found : book.find? order.priceTicks with
    | none => simp [found] at filled
    | some level =>
        exact stocked order.priceTicks level ((SortedMap.find?_eq_some book).mp found)
  · exact stocked.mono (Nat.le_succ next) price level old

theorem storeLevel_perm (book : PriceBook before) (price : Int64) (level : BookLevel) :
    (storeLevel book price level).flat.Perm (level ++ (book.erase price).flat) := by
  rw [storeLevel]
  split
  case isTrue empty => rw [List.isEmpty_iff.mp empty, List.nil_append]
  case isFalse => exact SortedMap.flat_set_perm book

theorem removeOrder_spec (stocked : Stocked mine next book) {order : RestingOrder}
    (member : order ∈ book.flat) :
    Stocked mine next (removeOrder book order.priceTicks order.venueOrderId) ∧
      book.flat.Perm
        (order :: (removeOrder book order.priceTicks order.venueOrderId).flat) := by
  rcases stocked.mem_flat member with ⟨level, entry, among, _⟩
  have found := (SortedMap.find?_eq_some book).mpr entry
  have ok := stocked order.priceTicks level entry
  have nodup : (level.map RestingOrder.venueOrderId).Nodup :=
    List.pairwise_map.mpr (ok.fifo.imp fun earlier => earlier.ne)
  simp only [removeOrder, found]
  constructor
  · apply stocked_storeLevel stocked
    intro filled
    exact ok.sublist List.filter_sublist filled
  · have whole := SortedMap.flat_perm_erase book entry
    have split := (Index.perm_cons_filter nodup among).append_right
      (book.erase order.priceTicks).flat
    exact whole.trans (split.trans ((storeLevel_perm book _ _).symm.cons order))

end Side

/-- Two sides of a book and their index; `book` is the side an order trades
with and `own` the side it may rest on. -/
structure Paired {before beside : Int64 → Int64 → Prop} (theirs mine : Side → Prop)
    (apart : Int64 → Int64 → Prop) (next : Nat) (book : PriceBook before)
    (own : PriceBook beside) (index : OrderIndex) : Prop where
  served : Stocked theirs next book
  resting : Stocked mine next own
  indexed : Index.Of RestingOrder.venueOrderId index (book.flat ++ own.flat)
  clear : ∀ order ∈ own.flat, ∀ other ∈ book.flat, apart order.priceTicks other.priceTicks

section Paired

variable {before beside : Int64 → Int64 → Prop} {theirs mine : Side → Prop}
  {apart : Int64 → Int64 → Prop} {next : Nat} {book : PriceBook before} {own : PriceBook beside}
  {index : OrderIndex}

theorem Paired.mono (paired : Paired theirs mine apart next book own index) {later : Nat}
    (after : next ≤ later) : Paired theirs mine apart later book own index :=
  { paired with served := paired.served.mono after, resting := paired.resting.mono after }

theorem Paired.symm (paired : Paired theirs mine apart next book own index) :
    Paired mine theirs (fun a b => apart b a) next own book index where
  served := paired.resting
  resting := paired.served
  indexed := Index.of_perm List.perm_append_comm paired.indexed
  clear order member other among := paired.clear other among order member

section Own

variable [DecidableRel beside] [IsStrictTotalOrder Int64 beside]

/-- A new order rests on its own side. -/
theorem Paired.rest (paired : Paired theirs mine apart next book own index) {order : RestingOrder}
    (new : OrderOk mine (next + 1) order.priceTicks order) (fresh : order.venueOrderId = next)
    (clear : ∀ other ∈ book.flat, apart order.priceTicks other.priceTicks) :
    Paired theirs mine apart (next + 1) book (pushBack own order)
      (index.insert order.venueOrderId order) where
  served := paired.served.mono (Nat.le_succ next)
  resting := pushBack_stocked paired.resting new fresh
  indexed := by
    have unused : order.venueOrderId ∉ (book.flat ++ own.flat).map RestingOrder.venueOrderId := by
      rw [fresh, List.mem_map]
      intro present
      rcases present with ⟨old, member, same⟩
      rcases List.mem_append.mp member with left | right
      · exact (paired.served.order left).known.ne same
      · exact (paired.resting.order right).known.ne same
    have inserted := Index.of_insert paired.indexed unused
    have moved := List.perm_middle.symm.trans ((pushBack_perm own order).symm.append_left book.flat)
    exact Index.of_perm moved inserted
  clear := by
    intro placed member other among
    rcases List.mem_cons.mp ((pushBack_perm own order).mem_iff.mp member) with rfl | old
    · exact clear other among
    · exact paired.clear placed old other among

/-- A resting order leaves its own side. -/
theorem Paired.remove (paired : Paired theirs mine apart next book own index)
    {order : RestingOrder} (member : order ∈ own.flat) :
    Paired theirs mine apart next book
      (removeOrder own order.priceTicks order.venueOrderId)
      (removeFromIndex index order.venueOrderId) := by
  rcases removeOrder_spec paired.resting member with ⟨stocked, split⟩
  constructor
  · exact paired.served
  · exact stocked
  · have moved := (split.append_left book.flat).trans List.perm_middle
    exact Index.of_erase (Index.of_perm moved paired.indexed)
  · intro other among
    exact paired.clear other (split.mem_iff.mpr (List.mem_cons_of_mem _ among))

def settleOwn (own : PriceBook beside) (intent : OrderIntent) (orderId : Nat)
    (remaining : Int64) : PriceBook beside :=
  if 0 < remaining ∧ intent.timeInForce = .day then
    pushBack own (remainder intent orderId remaining)
  else own

def settleIndex (index : OrderIndex) (intent : OrderIntent) (orderId : Nat)
    (remaining : Int64) : OrderIndex :=
  if 0 < remaining ∧ intent.timeInForce = .day then
    index.insert orderId (remainder intent orderId remaining)
  else index

theorem Paired.settle (paired : Paired theirs mine apart next book own index)
    {intent : OrderIntent} {remaining : Int64} (sided : mine intent.side)
    (positive : 0 < intent.priceTicks)
    (clear : 0 < remaining → ∀ other ∈ book.flat, apart intent.priceTicks other.priceTicks) :
    Paired theirs mine apart (next + 1) book (settleOwn own intent next remaining)
      (settleIndex index intent next remaining) := by
  rw [settleOwn, settleIndex]
  split
  case isTrue rests =>
    have size : 0 < remaining.toInt := by
      have := Int64.lt_iff_toInt_lt.mp rests.1
      rwa [Int64.toInt_zero] at this
    exact paired.rest ⟨rfl, sided, positive, size, Nat.lt_succ_self next⟩ rfl (clear rests.1)
  case isFalse => exact paired.mono (Nat.le_succ next)

end Own

variable [DecidableRel before] [IsStrictTotalOrder Int64 before]

/-- The loop of a taker ends and keeps the two sides and the index paired. -/
theorem Paired.serve (paired : Paired theirs mine apart next book own index)
    (outside : Int64 → Bool) (orderId : Nat) (timestampNs : UInt64) {quantity : Int64}
    (positive : 0 < quantity.toInt) :
    ∃ done, matchLoop outside orderId timestampNs (loopFuel book)
        ⟨book, index, quantity, []⟩ = some done ∧
      Served outside orderId timestampNs ⟨book, index, quantity, []⟩ done ∧
      Paired theirs mine apart next done.book own done.index := by
  have held : InStep theirs next own.flat ⟨book, index, quantity, []⟩ :=
    ⟨paired.served, paired.indexed⟩
  rcases matchLoop_spec outside orderId timestampNs held positive.le (Nat.lt_succ_self _) with
    ⟨done, ran, kept, served⟩
  refine ⟨done, ran, served, kept.stocked, paired.resting, kept.indexed, ?_⟩
  intro order member other among
  rcases served.prices among with ⟨old, present, same⟩
  rw [← same]
  exact paired.clear order member old present

end Paired

/-- Both sides are stocked, the index agrees with them, and every bid is below
every ask. -/
def Consistent (exchange : ExchangeSimulator) : Prop :=
  Paired (· ≠ .buy) (· = .buy) (fun bid ask => bid < ask) exchange.nextOrderId exchange.asks
    exchange.bids exchange.index

theorem create_consistent (journal : EventJournal) : (create journal).Consistent where
  served := stocked_empty
  resting := stocked_empty
  indexed := Index.of_empty
  clear order member := by cases member

structure Traded {before beside : Int64 → Int64 → Prop} [DecidableRel beside]
    [IsStrictTotalOrder Int64 beside] (outside : Int64 → Bool) (intent : OrderIntent) (orderId : Nat)
    (timestampNs : UInt64) (book book' : PriceBook before) (own own' : PriceBook beside)
    (result : SubmitResult) : Prop where
  id : result.venueOrderId = orderId
  taken : result.accepted = true
  remaining : result.remainingQuantity.toInt =
    Greedy.left size intent.quantity.toInt (accepted outside book)
  events : result.matchEvents = (Greedy.fills size intent.quantity.toInt
    (accepted outside book)).map (matchEvent orderId timestampNs)
  served : book'.flat =
    Greedy.rest size trim intent.quantity.toInt (accepted outside book) ++
      refused outside book
  settled : own' = settleOwn own intent orderId result.remainingQuantity

structure Entered (intent : OrderIntent) : Prop where
  quantity : 0 < intent.quantity
  price : 0 < intent.priceTicks
  timeInForce : intent.timeInForce ≠ .fok

inductive SubmitEffect (exchange : ExchangeSimulator) (intent : OrderIntent)
    (timestampNs : UInt64) (after : ExchangeSimulator) (result : SubmitResult) : Prop
  | refused (cause : ¬ Entered intent) (bids : after.bids = exchange.bids)
      (asks : after.asks = exchange.asks) (index : after.index = exchange.index)
      (same : result = ⟨exchange.nextOrderId, intent.quantity, [], false⟩)
  | bought (entered : Entered intent) (side : intent.side = .buy)
      (traded : Traded (aboveLimit intent) intent exchange.nextOrderId timestampNs exchange.asks
        after.asks exchange.bids after.bids result)
  | sold (entered : Entered intent) (side : intent.side ≠ .buy)
      (traded : Traded (belowLimit intent) intent exchange.nextOrderId timestampNs exchange.bids
        after.bids exchange.asks after.asks result)

theorem aboveLimit_iff {intent : OrderIntent} {price : Int64} :
    aboveLimit intent price = true ↔ intent.orderType = .limit ∧ intent.priceTicks < price :=
  decide_eq_true_iff

theorem belowLimit_iff {intent : OrderIntent} {price : Int64} :
    belowLimit intent price = true ↔ intent.orderType = .limit ∧ price < intent.priceTicks :=
  decide_eq_true_iff

theorem aboveLimit_closed (intent : OrderIntent) (a b : Int64) (order : Ascending a b)
    (above : aboveLimit intent a = true) : aboveLimit intent b = true := by
  rw [aboveLimit_iff] at above ⊢
  exact ⟨above.1, Int64.lt_trans above.2 order⟩

theorem belowLimit_closed (intent : OrderIntent) (a b : Int64) (order : Descending a b)
    (below : belowLimit intent a = true) : belowLimit intent b = true := by
  rw [belowLimit_iff] at below ⊢
  exact ⟨below.1, Int64.lt_trans order below.2⟩

theorem entered_iff {intent : OrderIntent} : Entered intent ↔
    ¬ (intent.quantity ≤ 0 ∨ intent.priceTicks ≤ 0) ∧ intent.timeInForce ≠ .fok := by
  rw [not_or, Int64.not_le, Int64.not_le]
  constructor
  · intro parts
    rcases parts with ⟨quantity, price, time⟩
    exact ⟨⟨quantity, price⟩, time⟩
  · intro parts
    rcases parts with ⟨⟨quantity, price⟩, time⟩
    exact ⟨quantity, price, time⟩

theorem restRemainder_buy (exchange : ExchangeSimulator) {intent : OrderIntent} (orderId : Nat)
    (remaining : Int64) (side : intent.side = .buy) :
    (exchange.restRemainder intent orderId remaining).nextOrderId = exchange.nextOrderId ∧
      (exchange.restRemainder intent orderId remaining).asks = exchange.asks ∧
      (exchange.restRemainder intent orderId remaining).bids =
        settleOwn exchange.bids intent orderId remaining ∧
      (exchange.restRemainder intent orderId remaining).index =
        settleIndex exchange.index intent orderId remaining := by
  rw [restRemainder, settleOwn, settleIndex]
  split
  case isTrue =>
    have buys : (remainder intent orderId remaining).side = .buy := side
    simp only [rest, if_pos buys]
    exact ⟨trivial, trivial, trivial, rfl⟩
  case isFalse => exact ⟨rfl, rfl, rfl, rfl⟩

theorem restRemainder_sell (exchange : ExchangeSimulator) {intent : OrderIntent} (orderId : Nat)
    (remaining : Int64) (side : intent.side ≠ .buy) :
    (exchange.restRemainder intent orderId remaining).nextOrderId = exchange.nextOrderId ∧
      (exchange.restRemainder intent orderId remaining).bids = exchange.bids ∧
      (exchange.restRemainder intent orderId remaining).asks =
        settleOwn exchange.asks intent orderId remaining ∧
      (exchange.restRemainder intent orderId remaining).index =
        settleIndex exchange.index intent orderId remaining := by
  rw [restRemainder, settleOwn, settleIndex]
  split
  case isTrue =>
    have sells : (remainder intent orderId remaining).side ≠ .buy := side
    simp only [rest, if_neg sells]
    exact ⟨trivial, trivial, trivial, rfl⟩
  case isFalse => exact ⟨rfl, rfl, rfl, rfl⟩

theorem Entered.positive {intent : OrderIntent} (entered : Entered intent) :
    0 < intent.quantity.toInt := by
  have := Int64.lt_iff_toInt_lt.mp entered.quantity
  rwa [Int64.toInt_zero] at this

theorem matchBuy_spec {exchange : ExchangeSimulator} {intent : OrderIntent} {orderId : Nat}
    (timestampNs : UInt64) (paired : Paired (· ≠ .buy) (· = .buy) (fun bid ask => bid < ask)
      orderId exchange.asks exchange.bids exchange.index)
    (entered : Entered intent) (side : intent.side = .buy) :
    ∃ after result, exchange.matchBuy intent orderId timestampNs = some (after, result) ∧
      after.nextOrderId = exchange.nextOrderId ∧
      Paired (· ≠ .buy) (· = .buy) (fun bid ask => bid < ask) (orderId + 1) after.asks after.bids
        after.index ∧
      Traded (aboveLimit intent) intent orderId timestampNs exchange.asks after.asks
        exchange.bids after.bids result := by
  rcases paired.serve (aboveLimit intent) orderId timestampNs entered.positive with
    ⟨done, ran, served, kept⟩
  have above : 0 < done.remainingQuantity → ∀ ask ∈ done.book.flat,
      intent.priceTicks < ask.priceTicks := by
    intro remains ask member
    rw [CheckedInt.pos_iff] at remains
    have outside := served.outside_of_left paired.served (aboveLimit_closed intent) remains ask member
    exact (aboveLimit_iff.mp outside).2
  rcases restRemainder_buy { exchange with asks := done.book, index := done.index } orderId
    done.remainingQuantity side with ⟨next, asks, bids, index⟩
  generalize final : restRemainder { exchange with asks := done.book, index := done.index } intent
    orderId done.remainingQuantity = after at next asks bids index
  refine ⟨after, ⟨orderId, done.remainingQuantity, done.matchEvents, true⟩, ?_, next, ?_, ?_⟩
  · rw [matchBuy, ran, Option.map_some, final]
  · rw [asks, bids, index]
    exact kept.settle side entered.price above
  · exact ⟨rfl, rfl, served.remaining, served.events, by rw [asks]; exact served.flat, bids⟩

theorem matchSell_spec {exchange : ExchangeSimulator} {intent : OrderIntent} {orderId : Nat}
    (timestampNs : UInt64) (paired : Paired (· = .buy) (· ≠ .buy) (fun ask bid => bid < ask)
      orderId exchange.bids exchange.asks exchange.index)
    (entered : Entered intent) (side : intent.side ≠ .buy) :
    ∃ after result, exchange.matchSell intent orderId timestampNs = some (after, result) ∧
      after.nextOrderId = exchange.nextOrderId ∧
      Paired (· = .buy) (· ≠ .buy) (fun ask bid => bid < ask) (orderId + 1) after.bids after.asks
        after.index ∧
      Traded (belowLimit intent) intent orderId timestampNs exchange.bids after.bids
        exchange.asks after.asks result := by
  rcases paired.serve (belowLimit intent) orderId timestampNs entered.positive with
    ⟨done, ran, served, kept⟩
  have below : 0 < done.remainingQuantity → ∀ bid ∈ done.book.flat,
      bid.priceTicks < intent.priceTicks := by
    intro remains bid member
    rw [CheckedInt.pos_iff] at remains
    have outside := served.outside_of_left paired.served (belowLimit_closed intent) remains bid member
    exact (belowLimit_iff.mp outside).2
  rcases restRemainder_sell { exchange with bids := done.book, index := done.index } orderId
    done.remainingQuantity side with ⟨next, bids, asks, index⟩
  generalize final : restRemainder { exchange with bids := done.book, index := done.index } intent
    orderId done.remainingQuantity = after at next asks bids index
  refine ⟨after, ⟨orderId, done.remainingQuantity, done.matchEvents, true⟩, ?_, next, ?_, ?_⟩
  · rw [matchSell, ran, Option.map_some, final]
  · rw [asks, bids, index]
    exact kept.settle side entered.price below
  · exact ⟨rfl, rfl, served.remaining, served.events, by rw [bids]; exact served.flat, asks⟩

theorem Traded.note {before beside : Int64 → Int64 → Prop} [DecidableRel beside]
    [IsStrictTotalOrder Int64 beside] {outside : Int64 → Bool} {intent : OrderIntent}
    {orderId : Nat} {timestampNs : UInt64} {book book' : PriceBook before}
    {own own' : PriceBook beside} {result : SubmitResult}
    (traded : Traded outside intent orderId timestampNs book book' own own' result) :
    Traded outside intent orderId timestampNs book book' own own'
      { result with accepted := true } :=
  ⟨traded.id, rfl, traded.remaining, traded.events, traded.served, traded.settled⟩

theorem submit_spec {exchange : ExchangeSimulator} (consistent : exchange.Consistent)
    (intent : OrderIntent) (timestampNs : UInt64) :
    ∃ after result, exchange.submit intent timestampNs = some (after, result) ∧
      after.Consistent ∧ after.nextOrderId = exchange.nextOrderId + 1 ∧
      SubmitEffect exchange intent timestampNs after result := by
  have entered : Entered intent ↔ _ := entered_iff
  let started := { exchange with nextOrderId := exchange.nextOrderId + 1 }
  rw [submit]
  by_cases invalid : intent.quantity ≤ 0 ∨ intent.priceTicks ≤ 0
  · simp only [if_pos invalid]
    refine ⟨started.acknowledge intent.correlationId (toString kInvalidOrder),
      ⟨exchange.nextOrderId, intent.quantity, [], false⟩, rfl, consistent.mono (Nat.le_succ _),
      rfl, .refused ?_ rfl rfl rfl rfl⟩
    exact fun passes => (entered.mp passes).1 invalid
  · by_cases fok : intent.timeInForce = .fok
    · simp only [if_neg invalid, if_pos fok]
      refine ⟨started.acknowledge intent.correlationId (toString kUnsupportedFok),
        ⟨exchange.nextOrderId, intent.quantity, [], false⟩, rfl, consistent.mono (Nat.le_succ _),
        rfl, .refused ?_ rfl rfl rfl rfl⟩
      exact fun passes => (entered.mp passes).2 fok
    · have passes := entered.mpr ⟨invalid, fok⟩
      simp only [if_neg invalid, if_neg fok]
      by_cases side : intent.side = .buy
      · have paired : Paired (· ≠ .buy) (· = .buy) (fun bid ask => bid < ask)
            exchange.nextOrderId started.asks started.bids started.index := consistent
        rcases matchBuy_spec timestampNs paired passes side with
          ⟨mid, result, ran, next, kept, traded⟩
        rw [if_pos side, ran, Option.map_some]
        rw [← show mid.nextOrderId = exchange.nextOrderId + 1 from next] at kept
        exact ⟨mid.report intent.correlationId exchange.nextOrderId result.matchEvents,
          { result with accepted := true }, rfl, kept, next, .bought passes side traded.note⟩
      · have paired : Paired (· = .buy) (· ≠ .buy) (fun ask bid => bid < ask)
            exchange.nextOrderId started.bids started.asks started.index := consistent.symm
        rcases matchSell_spec timestampNs paired passes side with
          ⟨mid, result, ran, next, kept, traded⟩
        rw [if_neg side, ran, Option.map_some]
        rw [← show mid.nextOrderId = exchange.nextOrderId + 1 from next] at kept
        exact ⟨mid.report intent.correlationId exchange.nextOrderId result.matchEvents,
          { result with accepted := true }, rfl, kept.symm, next, .sold passes side traded.note⟩

def orders (exchange : ExchangeSimulator) : List RestingOrder :=
  exchange.bids.flat ++ exchange.asks.flat

theorem Consistent.index_of {exchange : ExchangeSimulator} (consistent : exchange.Consistent) :
    Index.Of RestingOrder.venueOrderId exchange.index exchange.orders :=
  consistent.symm.indexed

inductive CancelEffect (exchange : ExchangeSimulator) (venueOrderId : Nat)
    (after : ExchangeSimulator) : Bool → Prop
  | missing (absent : exchange.find venueOrderId = none) (same : after = exchange) :
      CancelEffect exchange venueOrderId after false
  | removed (order : RestingOrder) (present : exchange.find venueOrderId = some order)
      (split : exchange.orders.Perm (order :: after.orders)) :
      CancelEffect exchange venueOrderId after true

theorem cancel_spec {exchange : ExchangeSimulator} (consistent : exchange.Consistent)
    (venueOrderId : Nat) (timestampNs : UInt64) :
    (exchange.cancel venueOrderId timestampNs).1.Consistent ∧
      (exchange.cancel venueOrderId timestampNs).1.nextOrderId = exchange.nextOrderId ∧
      CancelEffect exchange venueOrderId (exchange.cancel venueOrderId timestampNs).1
        (exchange.cancel venueOrderId timestampNs).2 := by
  rw [cancel]
  cases found : exchange.index.lookup venueOrderId with
  | none => exact ⟨consistent, rfl, .missing found rfl⟩
  | some order =>
      rcases (consistent.index_of.lookup venueOrderId order).mp found with ⟨member, rfl⟩
      by_cases side : order.side = .buy
      · have resting : order ∈ exchange.bids.flat := by
          rcases List.mem_append.mp member with bid | ask
          · exact bid
          · exact absurd side (consistent.served.order ask).sided
        simp only [if_pos side]
        refine ⟨consistent.remove resting, trivial, .removed order found ?_⟩
        exact (removeOrder_spec consistent.resting resting).2.append_right exchange.asks.flat
      · have resting : order ∈ exchange.asks.flat := by
          rcases List.mem_append.mp member with bid | ask
          · exact absurd (consistent.resting.order bid).sided side
          · exact ask
        simp only [if_neg side]
        have split := (removeOrder_spec consistent.served resting).2
        refine ⟨(consistent.symm.remove resting).symm, trivial, .removed order found ?_⟩
        exact (split.append_left exchange.bids.flat).trans List.perm_middle

theorem step_spec {exchange : ExchangeSimulator} (consistent : exchange.Consistent) (op : Op) :
    ∃ after output, exchange.step op = some (after, output) ∧ after.Consistent := by
  cases op with
  | submit intent timestampNs =>
      rcases submit_spec consistent intent timestampNs with ⟨after, result, ran, kept, _⟩
      exact ⟨after, .submitted result, by rw [step, ran]; rfl, kept⟩
  | cancel venueOrderId timestampNs =>
      exact ⟨_, _, rfl, (cancel_spec consistent venueOrderId timestampNs).1⟩

end Ito.ExchangeSimulator
