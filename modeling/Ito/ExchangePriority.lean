import Ito.ExchangeInvariant

/-! Price-time priority: a submission against the reference matching.

The opposite side, flattened, is a queue by price and age. An accepted order is
served greedily from the part of the queue its limit accepts. -/

namespace Ito.ExchangeSimulator

/-- The side an order of `side` trades with, in the order it is served. -/
def opposite (exchange : ExchangeSimulator) (side : Side) : List RestingOrder :=
  if side = .buy then exchange.asks.flat else exchange.bids.flat

/-- Better price first for an order of `side`, then the lower venue order id. -/
def Ahead (side : Side) (a b : RestingOrder) : Prop :=
  (if side = .buy then a.priceTicks < b.priceTicks else b.priceTicks < a.priceTicks) ∨
    (a.priceTicks = b.priceTicks ∧ a.venueOrderId < b.venueOrderId)

/-- The prices an order accepts: a market order any, a limit order its limit or better. -/
def accepts (intent : OrderIntent) (order : RestingOrder) : Bool :=
  intent.orderType = .market ∨
    if intent.side = .buy then order.priceTicks ≤ intent.priceTicks
    else intent.priceTicks ≤ order.priceTicks

def matchable (exchange : ExchangeSimulator) (intent : OrderIntent) : List RestingOrder :=
  (exchange.opposite intent.side).filter (accepts intent)

structure Consumes (orderId : Nat) (timestampNs : UInt64) (quantity : Int64)
    (queue : List RestingOrder) (result : SubmitResult) : Prop where
  reference : result.matchEvents =
    (Greedy.fills size quantity.toInt queue).map (matchEvent orderId timestampNs)
  makers : result.matchEvents.map (fun event => (event.makerOrderId, event.priceTicks)) =
    (queue.take result.matchEvents.length).map fun maker => (maker.venueOrderId, maker.priceTicks)
  parts : List.Forall₂ (fun event maker => 0 < event.quantity ∧
    event.quantity ≤ maker.remainingQuantity) result.matchEvents
      (queue.take result.matchEvents.length)
  exhausted : result.matchEvents.dropLast.map (·.quantity) =
    (queue.take (result.matchEvents.length - 1)).map (·.remainingQuantity)
  total : (result.matchEvents.map (·.quantity.toInt)).sum + result.remainingQuantity.toInt =
    quantity.toInt
  through : 0 < result.remainingQuantity →
    result.matchEvents.map (·.quantity) = queue.map (·.remainingQuantity)

section Fills

variable {orderId : Nat} {timestampNs : UInt64} {amount : Int} {queue : List RestingOrder}

theorem fill_fits (open' : ∀ order ∈ queue, 0 < size order) {fill : RestingOrder × Int}
    (member : fill ∈ Greedy.fills size amount queue) :
    (Int64.ofInt fill.2).toInt = fill.2 ∧ 0 < fill.2 ∧ fill.2 ≤ size fill.1 := by
  have bounds := Greedy.fill_bounds open' fill member
  have high := fill.1.remainingQuantity.toInt_lt
  have fits : fill.2 < 2 ^ 63 := lt_of_le_of_lt bounds.2 high
  exact ⟨Int64.toInt_ofInt_of_le (by omega) fits, bounds⟩

theorem fill_quantity (fill : RestingOrder × Int) (full : fill.2 = size fill.1) :
    (matchEvent orderId timestampNs fill).quantity = fill.1.remainingQuantity := by
  rw [matchEvent, full]
  exact Int64.ofInt_toInt _

theorem fills_dropLast (amount : Int) (queue : List RestingOrder) :
    (Greedy.fills size amount queue).dropLast.map Prod.fst =
      queue.take ((Greedy.fills size amount queue).length - 1) := by
  rw [List.map_dropLast, Greedy.fills_eq_take, List.dropLast_eq_take, List.take_take,
    ← Greedy.fills_eq_take, List.length_map]
  congr 1
  omega

theorem consumes_of_fills {quantity : Int64} {result : SubmitResult}
    (open' : ∀ order ∈ queue, 0 < size order)
    (events : result.matchEvents =
      (Greedy.fills size quantity.toInt queue).map (matchEvent orderId timestampNs))
    (remaining : result.remainingQuantity.toInt = Greedy.left size quantity.toInt queue) :
    Consumes orderId timestampNs quantity queue result := by
  have taken : (Greedy.fills size quantity.toInt queue).map Prod.fst = _ :=
    Greedy.fills_eq_take quantity.toInt queue
  constructor
  · exact events
  · rw [events, List.length_map, ← taken]
    simp [matchEvent, Function.comp_def]
  · rw [events, List.length_map, ← taken, List.forall₂_map_left_iff, List.forall₂_map_right_iff,
      List.forall₂_same]
    intro fill member
    rcases fill_fits open' member with ⟨fits, positive, within⟩
    simp only [matchEvent, Int64.lt_iff_toInt_lt, Int64.le_iff_toInt_le, fits, Int64.toInt_zero]
    exact ⟨positive, within⟩
  · rw [events, List.length_map, ← fills_dropLast, ← List.map_dropLast, List.map_map, List.map_map]
    apply List.map_congr_left
    intro fill member
    exact fill_quantity fill (Greedy.exhausted_of_mem_dropLast member)
  · have same : (Greedy.fills size quantity.toInt queue).map
        (fun fill => (matchEvent orderId timestampNs fill).quantity.toInt) =
          (Greedy.fills size quantity.toInt queue).map Prod.snd := by
      apply List.map_congr_left
      intro fill member
      exact (fill_fits open' member).1
    rw [remaining, events, List.map_map, Function.comp_def, same]
    exact Greedy.sum_fills_add_left quantity.toInt queue
  · intro remains
    rw [CheckedInt.pos_iff, remaining] at remains
    rw [events, Greedy.fills_of_left remains, List.map_map, List.map_map]
    apply List.map_congr_left
    intro order _
    exact fill_quantity (order, size order) rfl

end Fills

/-- Reference price-time-priority matching, as a statement about one submission. -/
structure PriceTimeMatch (exchange : ExchangeSimulator) (intent : OrderIntent)
    (timestampNs : UInt64) (after : ExchangeSimulator) (result : SubmitResult) : Prop where
  accepted : result.accepted = true ∧ result.venueOrderId = exchange.nextOrderId
  queue : (exchange.opposite intent.side).Pairwise (Ahead intent.side)
  consumes : Consumes exchange.nextOrderId timestampNs intent.quantity
    (exchange.matchable intent) result
  left : after.opposite intent.side =
    Greedy.rest size trim intent.quantity.toInt (exchange.matchable intent) ++
      (exchange.opposite intent.side).filter fun order => !accepts intent order
  rests : after.level intent.side intent.priceTicks =
    exchange.level intent.side intent.priceTicks ++
      if 0 < result.remainingQuantity ∧ intent.timeInForce = .day then
        [remainder intent exchange.nextOrderId result.remainingQuantity]
      else []
  elsewhere : ∀ price, price ≠ intent.priceTicks →
    after.level intent.side price = exchange.level intent.side price
  unchanged : ∀ order ∈ exchange.orders,
    order.venueOrderId ∉ result.matchEvents.map (·.makerOrderId) →
      after.find order.venueOrderId = some order

theorem accepts_buy {intent : OrderIntent} (side : intent.side = .buy) :
    accepts intent = fun order => !aboveLimit intent order.priceTicks := by
  funext order
  rw [Bool.eq_iff_iff, Bool.not_eq_true', ← Bool.not_eq_true, aboveLimit_iff]
  simp only [accepts, if_pos side, decide_eq_true_eq]
  cases intent.orderType <;> simp [Int64.not_lt]

theorem accepts_sell {intent : OrderIntent} (side : intent.side ≠ .buy) :
    accepts intent = fun order => !belowLimit intent order.priceTicks := by
  funext order
  rw [Bool.eq_iff_iff, Bool.not_eq_true', ← Bool.not_eq_true, belowLimit_iff]
  simp only [accepts, if_neg side, decide_eq_true_eq]
  cases intent.orderType <;> simp [Int64.not_lt]

theorem ahead_buy {side : Side} (buys : side = .buy) : Ahead side = Priority Ascending := by
  funext a b
  rw [Ahead, if_pos buys, Priority]

theorem ahead_sell {side : Side} (sells : side ≠ .buy) : Ahead side = Priority Descending := by
  funext a b
  rw [Ahead, if_neg sells, Priority]

section Own

variable {beside : Int64 → Int64 → Prop} [DecidableRel beside] [IsStrictTotalOrder Int64 beside]

theorem settleOwn_level (own : PriceBook beside) (intent : OrderIntent) (orderId : Nat)
    (remaining : Int64) :
    ((settleOwn own intent orderId remaining).find? intent.priceTicks).getD [] =
      (own.find? intent.priceTicks).getD [] ++
        if 0 < remaining ∧ intent.timeInForce = .day then [remainder intent orderId remaining]
        else [] := by
  rw [settleOwn]
  split
  case isTrue =>
    have placed : (pushBack own (remainder intent orderId remaining)).find? intent.priceTicks =
        some ((own.find? intent.priceTicks).getD [] ++ [remainder intent orderId remaining]) :=
      SortedMap.find?_set_self own
    rw [placed, Option.getD_some]
  case isFalse => rw [List.append_nil]

theorem settleOwn_elsewhere (own : PriceBook beside) {intent : OrderIntent} (orderId : Nat)
    (remaining : Int64) {price : Int64} (differ : price ≠ intent.priceTicks) :
    (settleOwn own intent orderId remaining).find? price = own.find? price := by
  rw [settleOwn]
  split
  case isTrue => exact SortedMap.find?_set_ne own differ
  case isFalse => rfl

theorem mem_settleOwn {own : PriceBook beside} {intent : OrderIntent} {orderId : Nat}
    {remaining : Int64} {order : RestingOrder} (member : order ∈ own.flat) :
    order ∈ (settleOwn own intent orderId remaining).flat := by
  rw [settleOwn]
  split
  case isTrue => exact (pushBack_perm own _).mem_iff.mpr (List.mem_cons_of_mem _ member)
  case isFalse => exact member

end Own

section Traded

variable {before beside : Int64 → Int64 → Prop} [DecidableRel beside]
  [IsStrictTotalOrder Int64 beside] {theirs : Side → Prop} {next orderId : Nat}
  {outside : Int64 → Bool} {intent : OrderIntent} {timestampNs : UInt64}
  {book book' : PriceBook before} {own own' : PriceBook beside} {result : SubmitResult}

theorem Traded.consumes (stocked : Stocked theirs next book)
    (traded : Traded outside intent orderId timestampNs book book' own own' result) :
    Consumes orderId timestampNs intent.quantity (accepted outside book) result := by
  apply consumes_of_fills ?_ traded.events traded.remaining
  intro order member
  apply OrderOk.open' (stocked.order _)
  rw [← accepted_append_refused outside book]
  exact List.mem_append_left _ member

theorem Traded.mem_served (traded : Traded outside intent orderId timestampNs book book' own own'
    result) {order : RestingOrder} (member : order ∈ book.flat)
    (unnamed : order.venueOrderId ∉ result.matchEvents.map (·.makerOrderId)) :
    order ∈ book'.flat := by
  rw [traded.served, List.mem_append]
  rw [← accepted_append_refused outside book, List.mem_append] at member
  rcases member with inside | beyond
  · apply Or.inl
    apply Greedy.mem_rest_of_not_served inside
    intro part taken
    apply unnamed
    rw [traded.events, List.map_map]
    exact List.mem_map.mpr ⟨(order, part), taken, rfl⟩
  · exact Or.inr beyond

end Traded

section Queue

variable {exchange : ExchangeSimulator} {intent : OrderIntent}

theorem Consistent.matchable_buy (consistent : exchange.Consistent) (side : intent.side = .buy) :
    exchange.matchable intent = accepted (aboveLimit intent) exchange.asks := by
  have cut := accepted_eq_filter consistent.served (aboveLimit_closed intent)
  simp only [matchable, opposite, if_pos side, accepts_buy side, cut.1]

theorem Consistent.matchable_sell (consistent : exchange.Consistent) (side : intent.side ≠ .buy) :
    exchange.matchable intent = accepted (belowLimit intent) exchange.bids := by
  have cut := accepted_eq_filter consistent.resting (belowLimit_closed intent)
  simp only [matchable, opposite, if_neg side, accepts_sell side, cut.1]

end Queue

theorem SubmitEffect.priceTime {exchange after : ExchangeSimulator} {intent : OrderIntent}
    {timestampNs : UInt64} {result : SubmitResult} (consistent : exchange.Consistent)
    (kept : after.Consistent) (entered : Entered intent)
    (effect : SubmitEffect exchange intent timestampNs after result) :
    PriceTimeMatch exchange intent timestampNs after result := by
  have findable : ∀ order ∈ after.orders, after.find order.venueOrderId = some order :=
    fun order member => (kept.index_of.lookup _ _).mpr ⟨member, rfl⟩
  cases effect with
  | refused cause => exact absurd entered cause
  | bought _ side traded =>
      have cut := accepted_eq_filter consistent.served (aboveLimit_closed intent)
      have queue := consistent.matchable_buy side
      constructor
      · exact ⟨traded.taken, traded.id⟩
      · simp only [opposite, if_pos side, ahead_buy side]
        exact consistent.served.priority
      · rw [queue]
        exact traded.consumes consistent.served
      · rw [queue]
        simp only [opposite, if_pos side, accepts_buy side, Bool.not_not, ← cut.2]
        exact traded.served
      · simp only [level, if_pos side, traded.settled]
        exact settleOwn_level exchange.bids intent exchange.nextOrderId result.remainingQuantity
      · intro price differ
        simp only [level, if_pos side, traded.settled]
        rw [settleOwn_elsewhere exchange.bids exchange.nextOrderId result.remainingQuantity differ]
      · intro order member unnamed
        apply findable
        apply List.mem_append.mpr
        rcases List.mem_append.mp member with bid | ask
        · rw [traded.settled]
          exact Or.inl (mem_settleOwn bid)
        · exact Or.inr (traded.mem_served ask unnamed)
  | sold _ side traded =>
      have cut := accepted_eq_filter consistent.resting (belowLimit_closed intent)
      have queue := consistent.matchable_sell side
      constructor
      · exact ⟨traded.taken, traded.id⟩
      · simp only [opposite, if_neg side, ahead_sell side]
        exact consistent.resting.priority
      · rw [queue]
        exact traded.consumes consistent.resting
      · rw [queue]
        simp only [opposite, if_neg side, accepts_sell side, Bool.not_not, ← cut.2]
        exact traded.served
      · simp only [level, if_neg side, traded.settled]
        exact settleOwn_level exchange.asks intent exchange.nextOrderId result.remainingQuantity
      · intro price differ
        simp only [level, if_neg side, traded.settled]
        rw [settleOwn_elsewhere exchange.asks exchange.nextOrderId result.remainingQuantity differ]
      · intro order member unnamed
        apply findable
        apply List.mem_append.mpr
        rcases List.mem_append.mp member with bid | ask
        · exact Or.inl (traded.mem_served bid unnamed)
        · rw [traded.settled]
          exact Or.inr (mem_settleOwn ask)

/-- In every reachable book a submission ends and equals the reference matching;
an intent that is not matched leaves the book and the index as they were. -/
theorem submit_price_time (journal : EventJournal) (ops : List Op) :
    ∃ exchange log, Machine.exec step (create journal) ops = some (exchange, log) ∧
      ∀ (intent : OrderIntent) (timestampNs : UInt64),
        ∃ after result, exchange.submit intent timestampNs = some (after, result) ∧
          if 0 < intent.quantity ∧ 0 < intent.priceTicks ∧ intent.timeInForce ≠ .fok then
            PriceTimeMatch exchange intent timestampNs after result
          else after.bids = exchange.bids ∧ after.asks = exchange.asks ∧
            after.index = exchange.index := by
  rcases exec_consistent (create_consistent journal) ops with ⟨exchange, log, ran, consistent⟩
  refine ⟨exchange, log, ran, ?_⟩
  intro intent timestampNs
  rcases submit_spec consistent intent timestampNs with ⟨after, result, submitted, kept, _, effect⟩
  refine ⟨after, result, submitted, ?_⟩
  split
  case isTrue passes =>
    exact effect.priceTime consistent kept ⟨passes.1, passes.2.1, passes.2.2⟩
  case isFalse fails =>
    cases effect with
    | refused _ bids asks index => exact ⟨bids, asks, index⟩
    | bought entered => exact absurd ⟨entered.quantity, entered.price, entered.timeInForce⟩ fails
    | sold entered => exact absurd ⟨entered.quantity, entered.price, entered.timeInForce⟩ fails

end Ito.ExchangeSimulator
