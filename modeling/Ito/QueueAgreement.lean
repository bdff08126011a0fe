import Ito.EngineQueue
import Ito.QueueTracker
import Mathlib.Algebra.Order.BigOperators.Group.List

/-! The queue of the backtest engine against the queue of the native tracker. A trade that goes
through the queue empties it in the tracker. The engine leaves the queue as it was, so the next
trade has to pass it again. -/

namespace Ito.Backtest.MicrostructureEngine

open QueueFlow

/-- The trade that goes through a queue completes the order, or it is the last one, or the next
one alone covers that queue once more and what the order still waits for. -/
def QueueCovered (quantity queue : Int) (volumes : List Int) : Prop :=
  ∀ front through next back, volumes = front ++ through :: next :: back →
    front.sum < queue → queue < front.sum + through →
      front.sum + through < queue + quantity →
        (queue - front.sum) + (queue + quantity - (front.sum + through)) ≤ next

section Queue

variable {quantity queue volume : Int} {volumes : List Int}

theorem queueCovered_through (through : queue < volume)
    (positive : ∀ later ∈ volumes, 0 < later) :
    QueueCovered quantity queue (volume :: volumes) ↔
      ∀ next back, volumes = next :: back → 0 < queue → volume < queue + quantity →
        queue + (queue + quantity - volume) ≤ next := by
  constructor
  · intro covered next back split waits short
    have here := covered [] volume next back (by rw [split]; rfl)
    simp only [List.sum_nil, Int.zero_add, Int.sub_zero] at here
    exact here waits through short
  · intro covered front passing next back split before after short
    cases front with
    | nil =>
        rcases List.cons.inj split with ⟨first, rest⟩
        simp only [List.sum_nil, Int.zero_add, Int.sub_zero] at before short ⊢
        rw [← first] at short ⊢
        exact covered next back rest before short
    | cons first front =>
        -- the first volume alone is already more than the queue
        rcases List.cons.inj split with ⟨same, rest⟩
        have nonneg : 0 ≤ front.sum := by
          apply List.sum_nonneg
          intro later member
          apply (positive later _).le
          rw [rest]
          exact List.mem_append_left _ member
        rw [List.sum_cons, ← same] at before
        omega

theorem queueCovered_short (short : volume ≤ queue) :
    QueueCovered quantity queue (volume :: volumes) ↔
      QueueCovered quantity (queue - volume) volumes := by
  constructor
  · intro covered front through next back split
    have here := covered (volume :: front) through next back (by rw [split]; rfl)
    rw [List.sum_cons] at here
    omega
  · intro covered front through next back split before after
    cases front with
    | nil =>
        rcases List.cons.inj split with ⟨first, _⟩
        rw [List.sum_nil] at after
        omega
    | cons first front =>
        rcases List.cons.inj split with ⟨same, rest⟩
        have later := covered front through next back rest
        rw [List.sum_cons, ← same] at before after ⊢
        omega

theorem gifts_kept_empty (quantity : Int) (positive : ∀ volume ∈ volumes, 0 < volume) :
    gifts keptQueue quantity 0 volumes = gifts shortened quantity 0 volumes := by
  induction volumes generalizing quantity with
  | nil => rfl
  | cons volume volumes ih =>
      rcases List.forall_mem_cons.mp positive with ⟨more, later⟩
      have kept : keptQueue 0 volume = 0 := if_pos more
      have empty : shortened 0 volume = 0 := by
        rw [shortened]
        omega
      rw [gifts, gifts, kept, empty, ih _ later]

/-- After the order is filled in part, the engine has the queue before it and the tracker has
none: they go on alike only if the next volume passes that queue and completes the order. -/
theorem gifts_stale_iff (waits : 0 < quantity) (stale : 0 < queue)
    (positive : ∀ volume ∈ volumes, 0 < volume) :
    gifts keptQueue quantity queue volumes = gifts shortened quantity 0 volumes ↔
      ∀ next back, volumes = next :: back → queue + quantity ≤ next := by
  cases volumes with
  | nil => simp [gifts]
  | cons volume volumes =>
      have more : 0 < volume := positive volume List.mem_cons_self
      rw [gifts, gifts]
      constructor
      · intro same next back split
        have first : given quantity queue volume = given quantity 0 volume :=
          (List.cons.inj same).1
        rw [← (List.cons.inj split).1]
        rw [given, given] at first
        omega
      · intro enough
        have large : queue + quantity ≤ volume := enough volume volumes rfl
        have here : given quantity queue volume = quantity := by
          rw [given]
          omega
        have there : given quantity 0 volume = quantity := by
          rw [given]
          omega
        rw [here, there, Int.sub_self, gifts_nothing, gifts_nothing]

theorem gifts_kept_iff (waits : 0 < quantity) (nonneg : 0 ≤ queue)
    (positive : ∀ volume ∈ volumes, 0 < volume) :
    gifts keptQueue quantity queue volumes = gifts shortened quantity queue volumes ↔
      QueueCovered quantity queue volumes := by
  induction volumes generalizing queue with
  | nil =>
      apply iff_of_true rfl
      intro front through next back split
      simp at split
  | cons volume volumes ih =>
      rcases List.forall_mem_cons.mp positive with ⟨more, later⟩
      rw [gifts, gifts, List.cons.injEq, eq_self, true_and]
      by_cases through : queue < volume
      · have kept : keptQueue queue volume = queue := if_pos through
        have empty : shortened queue volume = 0 := by
          rw [shortened]
          omega
        rw [queueCovered_through through later, kept, empty]
        by_cases completes : queue + quantity ≤ volume
        · have all : given quantity queue volume = quantity := by
            rw [given]
            omega
          rw [all, Int.sub_self, gifts_nothing, gifts_nothing]
          apply iff_of_true rfl
          intro next back _ _ short
          omega
        · have part : quantity - given quantity queue volume = queue + quantity - volume := by
            rw [given]
            omega
          rw [part]
          by_cases none : queue = 0
          · rw [none]
            apply iff_of_true (gifts_kept_empty _ later)
            intro next back _ waits
            omega
          · rw [gifts_stale_iff (by omega) (by omega) later]
            constructor
            · intro enough next back split _ _
              exact enough next back split
            · intro enough next back split
              exact enough next back split (by omega) (by omega)
      · have kept : keptQueue queue volume = queue - volume := if_neg through
        have shorter : shortened queue volume = queue - volume := by
          rw [shortened]
          omega
        have nothing : given quantity queue volume = 0 := by
          rw [given]
          omega
        rw [queueCovered_short (by omega), kept, shorter, nothing, Int.sub_zero]
        exact ih (by omega) later

end Queue

variable {F : Type} [PythonFloat F]

def FitsInt64 (value : Int) : Prop := -2 ^ 63 ≤ value ∧ value < 2 ^ 63

instance (value : Int) : Decidable (FitsInt64 value) := inferInstanceAs (Decidable (_ ∧ _))

def native (order : RestingOrder) : RestingQueueOrder :=
  QueueTracker.createOrder (.ofNat order.orderId.toNat) (order.side > 0)
    (.ofInt order.priceTicks) (.ofInt order.remainingQuantity) (.ofInt order.queueAhead)

def nativeTrade (trade : MarketTrade) : Int64 × Int64 :=
  (.ofInt trade.priceTicks, .ofInt trade.quantity)

/-- An order that waits in its queue, in numbers that the tracker has. -/
structure Passive (order : RestingOrder) : Prop where
  waits : 0 < order.remainingQuantity
  queue : 0 ≤ order.queueAhead
  quantityFits : FitsInt64 order.remainingQuantity
  queueFits : FitsInt64 order.queueAhead
  priceFits : FitsInt64 order.priceTicks

structure NativeHits (trade : MarketTrade) (order : RestingOrder) : Prop extends
    Hits trade order where
  quantityFits : FitsInt64 trade.quantity
  priceFits : FitsInt64 trade.priceTicks

theorem toInt_ofInt {value : Int} (fits : FitsInt64 value) : (Int64.ofInt value).toInt = value :=
  Int64.toInt_ofInt_of_le fits.1 fits.2

theorem native_queue {order : RestingOrder} (passive : Passive order) :
    (native order).queueAhead.toInt = order.queueAhead := by
  have nonneg := passive.queue
  rw [native, QueueTracker.createOrder]
  dsimp only
  rw [CheckedInt.toInt_max, toInt_ofInt passive.queueFits, Int64.toInt_zero]
  omega

theorem native_matches {trade : MarketTrade} {order : RestingOrder} (passive : Passive order)
    (hits : NativeHits trade order) :
    QueueTracker.Matches (native order) (nativeTrade trade).1 := by
  have tradePrice := toInt_ofInt hits.priceFits
  have orderPrice := toInt_ofInt passive.priceFits
  have matched := hits.matched
  rw [Matches] at matched
  rw [QueueTracker.Matches, ge_iff_le, Int64.le_iff_toInt_le, Int64.le_iff_toInt_le]
  simp only [native, nativeTrade, QueueTracker.createOrder, tradePrice, orderPrice,
    decide_eq_true_eq, decide_eq_false_iff_not]
  omega

theorem tracker_gifts {order : RestingOrder} {trades : List MarketTrade}
    (passive : Passive order) (hits : ∀ trade ∈ trades, NativeHits trade order) :
    ∃ filled, QueueTracker.processTrades 0 (native order) (trades.map nativeTrade) = some filled ∧
      filled.map Int64.toInt = gifts shortened order.remainingQuantity order.queueAhead
        (trades.map MarketTrade.quantity) := by
  have remaining : (native order).remainingQuantity.toInt = order.remainingQuantity :=
    toInt_ofInt passive.quantityFits
  have queue := native_queue passive
  have waiting : QueueTracker.Waiting (native order) := by
    have waits := passive.waits
    have nonneg := passive.queue
    constructor <;> omega
  have quantities : (trades.map nativeTrade).map (fun trade => trade.2.toInt) =
      trades.map MarketTrade.quantity := by
    rw [List.map_map]
    apply List.map_congr_left
    intro trade member
    exact toInt_ofInt (hits trade member).quantityFits
  rcases QueueTracker.processTrades_zero waiting (trades.map nativeTrade)
    (by
      intro trade member
      rcases List.mem_map.mp member with ⟨source, inside, rfl⟩
      exact native_matches passive (hits source inside))
    (by
      intro trade member
      rcases List.mem_map.mp member with ⟨source, inside, rfl⟩
      rw [nativeTrade, toInt_ofInt (hits source inside).quantityFits]
      exact (hits source inside).positive) with ⟨filled, run, gifts⟩
  rw [remaining, queue, quantities] at gifts
  exact ⟨filled, run, gifts⟩

/-- The engine and the tracker fill the same of the order on every trade, and that is what the
running total of the trades adds behind the queue. -/
def QueuesAgree (engine : MicrostructureEngine F) (order : RestingOrder) (trades : List MarketTrade) :
    Prop :=
  ∃ filled, QueueTracker.processTrades 0 (native order) (trades.map nativeTrade) = some filled ∧
    fillsOf order.orderId engine trades = filled.map Int64.toInt ∧
    filled.map Int64.toInt = increments order.remainingQuantity order.queueAhead 0
      (trades.map MarketTrade.quantity)

/-- With a rate that keeps the queue lengths met and without a position limit that binds, the two
queue models agree on an order exactly when no trade after a partial fill meets the queue
again. -/
theorem queue_models_agree_iff {engine : MicrostructureEngine F} {order : RestingOrder}
    {trades : List MarketTrade} (numbered : Numbered engine)
    (rests : order ∈ engine.restingOrders) (passive : Passive order)
    (keeps : KeepsLengths engine.config order.queueAhead (trades.map MarketTrade.quantity))
    (unbound : NeverBinds order.orderId engine trades)
    (hits : ∀ trade ∈ trades, NativeHits trade order) :
    QueuesAgree engine order trades ↔
      QueueCovered order.remainingQuantity order.queueAhead
        (trades.map MarketTrade.quantity) := by
  have positive : ∀ volume ∈ trades.map MarketTrade.quantity, 0 < volume := by
    intro volume member
    rcases List.mem_map.mp member with ⟨trade, inside, rfl⟩
    exact (hits trade inside).positive
  have total := gifts_eq_increments passive.waits.le passive.queue positive
  have engineFills := fillsOf_undecayed (own_of_numbered numbered rests) keeps passive.waits
    (fun trade member => (hits trade member).toHits) unbound
  rcases tracker_gifts passive hits with ⟨filled, run, trackerFills⟩
  rw [← gifts_kept_iff passive.waits passive.queue positive, QueuesAgree]
  constructor
  · intro agree
    rcases agree with ⟨other, same, agrees, _⟩
    rw [run, Option.some.injEq] at same
    rw [← engineFills, agrees, ← same, trackerFills]
  · intro agrees
    apply Exists.intro filled
    apply And.intro run
    constructor
    · rw [engineFills, agrees, trackerFills]
    · rw [trackerFills, total]

/-- No cancellations, in numbers that do not round. -/
def noCancellations : MicrostructureConfig Rat := { queueCancellationRate := 0.0 }

theorem noCancellations_keeps (queue : Int) (volumes : List Int) :
    KeepsLengths noCancellations queue volumes := by
  induction volumes generalizing queue with
  | nil => trivial
  | cons volume volumes ih =>
      have rate : (1.0 - noCancellations.queueCancellationRate : Rat) = 1 := by decide +kernel
      constructor
      · rw [rate]
        change ((queue : Rat) * 1).num.tdiv ((queue : Rat) * 1).den = queue
        rw [Rat.mul_one, Rat.num_intCast, Rat.den_intCast]
        exact Int.tdiv_one queue
      · exact ih _

def newEngine : MicrostructureEngine Rat := { maxPosition := 500, config := noCancellations }

def queuedEvents : List Event :=
  [.quote { timestampNs := 1000, bidTicks := 100, askTicks := 102, bidSize := 5 },
    .signal { timestampNs := 1100, side := 1, quantity := 10, orderType := .limit,
              limitPriceTicks := some 100 }]

def queuedOrder : RestingOrder :=
  { orderId := 1, placedTimeNs := 1100, arrivalTimeNs := 1850, side := 1, priceTicks := 100,
    remainingQuantity := 10, queueAhead := 5 }

def queuedEngine : MicrostructureEngine Rat :=
  { newEngine with
    book := ⟨[⟨100, 5⟩], [⟨102, 100⟩]⟩
    restingOrders := [queuedOrder]
    nextOrderId := 2
    currentTimeNs := 1850 }

theorem queuedEngine_numbered : Numbered queuedEngine := by
  have created : create 500 (some noCancellations) = .ok newEngine := rfl
  have ran : Machine.exec step newEngine queuedEvents = some (queuedEngine, _) := rfl
  exact exec_numbered created ran

theorem queuedOrder_passive : Passive queuedOrder :=
  ⟨by decide, by decide, by decide, by decide, by decide⟩

def throughAndNext (next : Int) : List MarketTrade :=
  [⟨5000, 100, 8, -1⟩, ⟨6000, 100, next, -1⟩]

theorem throughAndNext_hits {next : Int} (positive : 0 < next) (fits : FitsInt64 next) :
    ∀ trade ∈ throughAndNext next, NativeHits trade queuedOrder := by
  intro trade member
  rcases List.mem_pair.mp member with rfl | rfl
  · exact ⟨⟨by decide, by decide, by decide⟩, by decide, by decide⟩
  · have arrived : queuedOrder.arrivalTimeNs ≤ 6000 := by decide
    have sells : (0 : Int) < 1 ∧ (-1 : Int) < 0 ∧ (100 : Int) ≤ 100 := by decide
    have price : FitsInt64 100 := by decide
    exact ⟨⟨arrived, .inl sells, positive⟩, fits, price⟩

theorem queue_models_agree_large :
    queuedOrder ∈ queuedEngine.restingOrders ∧
      QueuesAgree queuedEngine queuedOrder (throughAndNext 12) := by
  have rests : queuedOrder ∈ queuedEngine.restingOrders := List.mem_singleton_self _
  apply And.intro rests
  apply (queue_models_agree_iff queuedEngine_numbered rests queuedOrder_passive
    (noCancellations_keeps _ _) (by decide +kernel)
    (throughAndNext_hits (by decide) (by decide))).mpr
  have split : QueueCovered 10 5 [8, 12] ↔ _ := queueCovered_through (by decide) (by decide)
  apply split.mpr
  intro next back same _ _
  rw [← (List.cons.inj same).1]
  decide

/-- The tracker fills 3 and 5 of the order. The engine fills 3, keeps the queue of 5, and gives
the second trade to it. -/
theorem queue_met_again :
    Machine.exec step newEngine queuedEvents = some (queuedEngine,
        [(queuedEvents.head (by decide), []), (queuedEvents.getLast (by decide), [])]) ∧
      queuedOrder ∈ queuedEngine.restingOrders ∧ Passive queuedOrder ∧
      KeepsLengths queuedEngine.config queuedOrder.queueAhead
        ((throughAndNext 5).map MarketTrade.quantity) ∧
      NeverBinds queuedOrder.orderId queuedEngine (throughAndNext 5) ∧
      (∀ trade ∈ throughAndNext 5, NativeHits trade queuedOrder) ∧
      QueueTracker.processTrades 0 (native queuedOrder) ((throughAndNext 5).map nativeTrade) =
        some [3, 5] ∧
      fillsOf queuedOrder.orderId queuedEngine (throughAndNext 5) = [3, 0] ∧
      ¬ QueuesAgree queuedEngine queuedOrder (throughAndNext 5) := by
  have tracker : QueueTracker.processTrades 0 (native queuedOrder)
      ((throughAndNext 5).map nativeTrade) = some [3, 5] := by
    decide +kernel
  have engine : fillsOf queuedOrder.orderId queuedEngine (throughAndNext 5) = [3, 0] := by
    decide +kernel
  apply And.intro rfl
  apply And.intro (List.mem_singleton_self _)
  apply And.intro queuedOrder_passive
  apply And.intro (noCancellations_keeps _ _)
  apply And.intro (by decide +kernel)
  apply And.intro (throughAndNext_hits (by decide) (by decide))
  apply And.intro tracker
  apply And.intro engine
  intro agree
  rcases agree with ⟨filled, run, same, _⟩
  rw [tracker, Option.some.injEq] at run
  rw [engine, ← run] at same
  exact absurd same (by decide)

end Ito.Backtest.MicrostructureEngine
