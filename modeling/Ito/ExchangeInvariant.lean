import Ito.ExchangeBook
import Ito.Library.Machine

/-! The book invariant of the exchange simulator, over every run.

Levels and index hold the same orders, and the two sides never touch. -/

namespace Ito.ExchangeSimulator

def level (exchange : ExchangeSimulator) (side : Side) (price : Int64) : BookLevel :=
  if side = .buy then (exchange.bids.find? price).getD [] else (exchange.asks.find? price).getD []

/-- The book invariant: the index and the levels hold the same orders, every
resting order is open, levels are queues by age, and the book is not crossed. -/
structure BookInvariant (exchange : ExchangeSimulator) : Prop where
  indexed : ∀ venueOrderId order, exchange.find venueOrderId = some order ↔
    order.venueOrderId = venueOrderId ∧ order ∈ exchange.level order.side order.priceTicks
  once : ∀ venueOrderId, (exchange.orders.map RestingOrder.venueOrderId).count venueOrderId =
    if venueOrderId ∈ exchange.index then 1 else 0
  open' : ∀ order ∈ exchange.orders, 0 < order.remainingQuantity ∧ 0 < order.priceTicks ∧
    order.venueOrderId < exchange.nextOrderId
  bidLevels : ∀ price level, (price, level) ∈ exchange.bids.entries →
    level ≠ [] ∧ level.Pairwise fun a b => a.venueOrderId < b.venueOrderId
  askLevels : ∀ price level, (price, level) ∈ exchange.asks.entries →
    level ≠ [] ∧ level.Pairwise fun a b => a.venueOrderId < b.venueOrderId
  uncrossed : exchange.bids.entries ≠ [] → exchange.asks.entries ≠ [] →
    exchange.bestBid < exchange.bestAsk

section Level

variable {before : Int64 → Int64 → Prop} {mine : Side → Prop} {next : Nat}
  {book : PriceBook before}

theorem Stocked.first_price (stocked : Stocked mine next book) {price : Int64} {level : BookLevel}
    {later : List (Int64 × BookLevel)} (first : book.entries = (price, level) :: later) :
    ∃ order ∈ book.flat, order.priceTicks = price := by
  have entry : (price, level) ∈ book.entries := by
    rw [first]
    exact List.mem_cons_self
  have ok := stocked price level entry
  rcases List.exists_mem_of_ne_nil level ok.nonempty with ⟨order, member⟩
  exact ⟨order, SortedMap.mem_flat.mpr ⟨price, level, entry, member⟩, (ok.each order member).priced⟩

theorem Stocked.mem_level [IsStrictTotalOrder Int64 before] (stocked : Stocked mine next book)
    {order : RestingOrder} :
    order ∈ (book.find? order.priceTicks).getD [] ↔ order ∈ book.flat := by
  constructor
  · intro member
    cases found : book.find? order.priceTicks with
    | none => simp [found] at member
    | some level =>
        rw [found, Option.getD_some] at member
        exact SortedMap.mem_flat.mpr ⟨_, level, (SortedMap.find?_eq_some book).mp found, member⟩
  · intro member
    rcases stocked.mem_flat member with ⟨level, entry, among, _⟩
    rw [(SortedMap.find?_eq_some book).mpr entry]
    exact among

end Level

theorem Consistent.mem_level {exchange : ExchangeSimulator} (consistent : exchange.Consistent)
    {order : RestingOrder} :
    order ∈ exchange.level order.side order.priceTicks ↔ order ∈ exchange.orders := by
  rw [level, orders]
  rw [List.mem_append]
  by_cases side : order.side = .buy
  · rw [if_pos side, consistent.resting.mem_level]
    have elsewhere : order ∉ exchange.asks.flat := fun ask =>
      (consistent.served.order ask).sided side
    simp [elsewhere]
  · rw [if_neg side, consistent.served.mem_level]
    have elsewhere : order ∉ exchange.bids.flat := fun bid =>
      side (consistent.resting.order bid).sided
    simp [elsewhere]

theorem Consistent.bookInvariant {exchange : ExchangeSimulator}
    (consistent : exchange.Consistent) : exchange.BookInvariant := by
  have index := consistent.index_of
  constructor
  · intro venueOrderId order
    rw [find, index.lookup, consistent.mem_level, and_comm]
  · intro venueOrderId
    rw [index.nodup.count]
    simp only [Index.mem_iff index]
  · intro order member
    have ok : order.remainingQuantity.toInt > 0 ∧ 0 < order.priceTicks ∧
        order.venueOrderId < exchange.nextOrderId := by
      rcases List.mem_append.mp member with bid | ask
      · have ok := consistent.resting.order bid
        exact ⟨ok.open', ok.positive, ok.known⟩
      · have ok := consistent.served.order ask
        exact ⟨ok.open', ok.positive, ok.known⟩
    rw [CheckedInt.pos_iff]
    exact ok
  · intro price level entry
    have ok := consistent.resting price level entry
    exact ⟨ok.nonempty, ok.fifo⟩
  · intro price level entry
    have ok := consistent.served price level entry
    exact ⟨ok.nonempty, ok.fifo⟩
  · intro bids asks
    rcases List.exists_cons_of_ne_nil bids with ⟨⟨bid, bidLevel⟩, laterBids, bidFirst⟩
    rcases List.exists_cons_of_ne_nil asks with ⟨⟨ask, askLevel⟩, laterAsks, askFirst⟩
    rcases consistent.resting.first_price bidFirst with ⟨order, member, rfl⟩
    rcases consistent.served.first_price askFirst with ⟨other, among, rfl⟩
    simp only [bestBid, bestAsk, bidFirst, askFirst]
    exact consistent.clear order member other among

theorem exec_consistent {exchange : ExchangeSimulator} (consistent : exchange.Consistent)
    (ops : List Op) :
    ∃ after log, Machine.exec step exchange ops = some (after, log) ∧ after.Consistent :=
  Machine.exec_defined Consistent (fun _ op held => step_spec held op) consistent ops

/-- Every sequence of submissions and cancellations runs to its end and leaves a
book that meets the invariant. -/
theorem book_invariant (journal : EventJournal) (ops : List Op) :
    ∃ exchange log, Machine.exec step (create journal) ops = some (exchange, log) ∧
      exchange.BookInvariant := by
  rcases exec_consistent (create_consistent journal) ops with ⟨exchange, log, ran, consistent⟩
  exact ⟨exchange, log, ran, consistent.bookInvariant⟩

theorem Consistent.restingCount {exchange : ExchangeSimulator}
    (consistent : exchange.Consistent) : exchange.restingCount = exchange.orders.length :=
  Index.card_keys consistent.index_of

end Ito.ExchangeSimulator
