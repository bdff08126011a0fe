import Ito.Library.CheckedInt
import Ito.Library.QueueFlow

/-! The native model of a passive order in its queue.

Source: `cpp/ito_execution/queue_tracker.hpp`. A result is `none` where the arithmetic of the
source overflows. -/

namespace Ito

open CheckedInt

structure RestingQueueOrder where
  orderId : UInt64 := 0
  priceTicks : Int64 := 0
  remainingQuantity : Int64 := 0
  queueAhead : Int64 := 0
  isBuy : Bool := true
  deriving DecidableEq, Repr

namespace QueueTracker

def createOrder (id : UInt64) (isBuy : Bool) (price quantity depthAhead : Int64) :
    RestingQueueOrder :=
  { orderId := id
    priceTicks := price
    remainingQuantity := quantity
    queueAhead := max 0 depthAhead
    isBuy }

def Matches (order : RestingQueueOrder) (tradePrice : Int64) : Prop :=
  (order.isBuy = true ∧ tradePrice ≤ order.priceTicks) ∨
    (order.isBuy = false ∧ tradePrice ≥ order.priceTicks)

instance (order : RestingQueueOrder) (tradePrice : Int64) :
    Decidable (Matches order tradePrice) := inferInstanceAs (Decidable (_ ∨ _))

def decayedQueue (order : RestingQueueOrder) (cancellationDecayBps : UInt32) : Option Int64 := do
  let scaled ← mul? order.queueAhead (.ofNat cancellationDecayBps.toNat)
  let decayAmount ← div? scaled 10000
  sub? order.queueAhead decayAmount

def processTrade (order : RestingQueueOrder) (tradePrice tradeQuantity : Int64)
    (cancellationDecayBps : UInt32 := 1000) : Option (RestingQueueOrder × Int64) :=
  if ¬ Matches order tradePrice ∨ tradeQuantity ≤ 0 then some (order, 0)
  else do
    let decayedQueue ← decayedQueue order cancellationDecayBps
    if tradeQuantity > decayedQueue then
      let fillable ← sub? tradeQuantity decayedQueue
      let filled := min order.remainingQuantity fillable
      let remainingQuantity ← sub? order.remainingQuantity filled
      return ({ order with remainingQuantity, queueAhead := 0 }, filled)
    else
      let queueAhead ← sub? decayedQueue tradeQuantity
      return ({ order with queueAhead }, 0)

def processTrades (cancellationDecayBps : UInt32) :
    RestingQueueOrder → List (Int64 × Int64) → Option (List Int64)
  | _, [] => some []
  | order, trade :: trades => do
      let (order, filled) ← processTrade order trade.1 trade.2 cancellationDecayBps
      let rest ← processTrades cancellationDecayBps order trades
      return filled :: rest

/-- What `create_order` and `process_trade` keep of the two counters. -/
structure Waiting (order : RestingQueueOrder) : Prop where
  remaining : 0 ≤ order.remainingQuantity.toInt
  queue : 0 ≤ order.queueAhead.toInt

theorem decayedQueue_zero (order : RestingQueueOrder) :
    decayedQueue order 0 = some order.queueAhead := by
  have scaled : mul? order.queueAhead (.ofNat (0 : UInt32).toNat) = some 0 := by
    rw [mul?, ofInt?_eq_some]
    exact (Int.mul_zero _).symm
  have amount : div? 0 10000 = some 0 := by decide
  have whole : sub? order.queueAhead 0 = some order.queueAhead := by
    rw [sub?, ofInt?_eq_some]
    exact (Int.sub_zero _).symm
  simp only [decayedQueue, scaled, amount, whole, Option.bind_eq_bind, Option.bind_some]

/-- What a trade does to an order when nothing decays: it gives the order what it leaves
behind the queue, and shortens the queue by what it takes there. -/
structure Served (order : RestingQueueOrder) (quantity : Int) (next : RestingQueueOrder)
    (filled : Int64) : Prop where
  gives : filled.toInt =
    QueueFlow.given order.remainingQuantity.toInt order.queueAhead.toInt quantity
  remaining : next.remainingQuantity.toInt = order.remainingQuantity.toInt - filled.toInt
  queue : next.queueAhead.toInt = QueueFlow.shortened order.queueAhead.toInt quantity
  price : next.priceTicks = order.priceTicks
  side : next.isBuy = order.isBuy

theorem processTrade_zero {order : RestingQueueOrder} {price quantity : Int64}
    (waiting : Waiting order) (matched : Matches order price) (positive : 0 < quantity.toInt) :
    ∃ next filled, processTrade order price quantity 0 = some (next, filled) ∧
      Served order quantity.toInt next filled := by
  have taken : ¬ (¬ Matches order price ∨ quantity ≤ 0) := by
    rw [not_or, not_not, Int64.not_le]
    exact ⟨matched, pos_iff.mpr positive⟩
  have remaining := waiting.remaining
  have queue := waiting.queue
  have quantityHigh := quantity.toInt_lt
  have queueHigh := order.queueAhead.toInt_lt
  have remainingHigh := order.remainingQuantity.toInt_lt
  simp only [processTrade, if_neg taken, decayedQueue_zero, Option.bind_eq_bind,
    Option.bind_some]
  by_cases through : quantity > order.queueAhead
  · have past : order.queueAhead.toInt < quantity.toInt := Int64.lt_iff_toInt_lt.mp through
    rcases sub?_defined (a := quantity) (b := order.queueAhead) (by omega) (by omega) with
      ⟨fillable, behind, fillableEq⟩
    have filledEq := toInt_min order.remainingQuantity fillable
    rcases sub?_defined (a := order.remainingQuantity)
      (b := min order.remainingQuantity fillable) (by omega) (by omega) with
      ⟨left, taking, leftEq⟩
    simp only [if_pos through, behind, taking, Option.bind_some]
    apply Exists.intro _
    apply Exists.intro _
    apply And.intro rfl
    constructor
    · rw [filledEq, fillableEq, QueueFlow.given]
      omega
    · exact leftEq
    · rw [QueueFlow.shortened]
      change (0 : Int) = _
      omega
    · rfl
    · rfl
  · have short : quantity.toInt ≤ order.queueAhead.toInt :=
      Int64.le_iff_toInt_le.mp (Int64.not_lt.mp through)
    rcases sub?_defined (a := order.queueAhead) (b := quantity) (by omega) (by omega) with
      ⟨ahead, taking, aheadEq⟩
    simp only [if_neg through, taking, Option.bind_some]
    apply Exists.intro _
    apply Exists.intro _
    apply And.intro rfl
    constructor
    · rw [QueueFlow.given]
      change (0 : Int) = _
      omega
    · exact (Int.sub_zero _).symm
    · rw [QueueFlow.shortened]
      change ahead.toInt = _
      omega
    · rfl
    · rfl

theorem Served.waiting {order next : RestingQueueOrder} {quantity : Int} {filled : Int64}
    (served : Served order quantity next filled) (waiting : Waiting order) : Waiting next := by
  have bounds := QueueFlow.given_bounds waiting.remaining order.queueAhead.toInt quantity
  constructor
  · rw [served.remaining, served.gives]
    omega
  · rw [served.queue, QueueFlow.shortened]
    exact le_max_left _ _

theorem processTrades_zero {order : RestingQueueOrder} (waiting : Waiting order)
    (trades : List (Int64 × Int64)) (matched : ∀ trade ∈ trades, Matches order trade.1)
    (positive : ∀ trade ∈ trades, 0 < trade.2.toInt) :
    ∃ filled, processTrades 0 order trades = some filled ∧
      filled.map Int64.toInt = QueueFlow.gifts QueueFlow.shortened
        order.remainingQuantity.toInt order.queueAhead.toInt
        (trades.map fun trade => trade.2.toInt) := by
  induction trades generalizing order with
  | nil => exact ⟨[], rfl, rfl⟩
  | cons trade trades ih =>
      rcases List.forall_mem_cons.mp matched with ⟨here, matchedLater⟩
      rcases List.forall_mem_cons.mp positive with ⟨more, positiveLater⟩
      rcases processTrade_zero waiting here more with ⟨next, filled, processed, served⟩
      have still : ∀ trade ∈ trades, Matches next trade.1 := by
        intro later member
        rw [Matches, served.price, served.side]
        exact matchedLater later member
      rcases ih (served.waiting waiting) still positiveLater with ⟨rest, run, gifts⟩
      apply Exists.intro (filled :: rest)
      constructor
      · simp only [processTrades, processed, run, Option.bind_eq_bind, Option.bind_some,
          Option.pure_def]
      · rw [List.map_cons, gifts, served.remaining, served.queue, served.gives]
        rfl

end QueueTracker

end Ito
