import Ito.MicrostructureRuns
import Ito.Library.QueueFlow

/-! What a series of market trades fills of one resting order of the backtest engine, when no
cancellations shorten its queue and the position limit never binds. -/

namespace Ito.Backtest.MicrostructureEngine

open QueueFlow

def keptQueue (queue volume : Int) : Int := if volume > queue then queue else queue - volume

variable {F : Type} [PythonFloat F]

/-- Cancellations take nothing from the lengths that the volumes find the queue at. With a rate of
`0.0` these are the lengths that a float keeps exactly, such as all up to `2 ^ 53`. -/
def KeepsLengths (config : MicrostructureConfig F) : Int → List Int → Prop
  | _, [] => True
  | queue, volume :: volumes =>
      PythonFloat.trunc (PythonFloat.ofInt queue * (1.0 - config.queueCancellationRate)) = queue ∧
        KeepsLengths config (keptQueue queue volume) volumes

/-- The position when a round comes to the order with this id. -/
def positionAt (turn : Int → RestingOrder → Turn F) (orderId : Int) :
    Int → List RestingOrder → Int
  | position, [] => position
  | position, order :: orders =>
      if order.orderId = orderId then position
      else positionAt turn orderId (turn position order).position orders

/-- What the round of a trade fills of the order with this id. -/
def filledOf (orderId : Int) (engine : MicrostructureEngine F) (trade : MarketTrade) : Int :=
  (((engine.tradeRound trade).filled.filter fun entry => entry.1.orderId = orderId).map
    fun entry => entry.2.quantity).sum

def fillsOf (orderId : Int) : MicrostructureEngine F → List MarketTrade → List Int
  | _, [] => []
  | engine, trade :: trades =>
      filledOf orderId engine trade :: fillsOf orderId (engine.onMarketTrade trade).1 trades

/-- The position limit refuses no fill of the order with this id. -/
def NeverBinds (orderId : Int) : MicrostructureEngine F → List MarketTrade → Prop
  | _, [] => True
  | engine, trade :: trades =>
      (∀ order ∈ engine.restingOrders, order.orderId = orderId → engine.Reached trade order →
        |positionAt (engine.tradeTurn trade) orderId engine.position engine.restingOrders +
          signed order.side (engine.tradeFill trade order)| ≤ engine.maxPosition) ∧
        NeverBinds orderId (engine.onMarketTrade trade).1 trades

instance decidableNeverBinds (orderId : Int) : (engine : MicrostructureEngine F) →
    (trades : List MarketTrade) → Decidable (NeverBinds orderId engine trades)
  | _, [] => isTrue trivial
  | engine, trade :: trades =>
      have := decidableNeverBinds orderId (engine.onMarketTrade trade).1 trades
      inferInstanceAs (Decidable (_ ∧ _))

section Own

variable {turn : Int → RestingOrder → Turn F} {orderId : Int}

def own (orderId : Int) (orders : List RestingOrder) : List RestingOrder :=
  orders.filter fun order => order.orderId = orderId

def ownFilled (orderId : Int) (filled : List (RestingOrder × Fill F)) :
    List (RestingOrder × Fill F) :=
  filled.filter fun entry => entry.1.orderId = orderId

theorem round_other (keeps : KeepsId turn) {order : RestingOrder}
    (other : order.orderId ≠ orderId) (position : Int) (orders : List RestingOrder) :
    own orderId (round turn position (order :: orders)).surviving =
        own orderId (round turn (turn position order).position orders).surviving ∧
      ownFilled orderId (round turn position (order :: orders)).filled =
        ownFilled orderId (round turn (turn position order).position orders).filled := by
  rw [round]
  constructor
  · cases survives : (turn position order).surviving with
    | none => rfl
    | some next =>
        have same := keeps position order next survives
        simp [own, same, other]
  · cases (turn position order).fill with
    | none => rfl
    | some fill => simp [ownFilled, other]

theorem round_absent (keeps : KeepsId turn) (position : Int) {orders : List RestingOrder}
    (absent : own orderId orders = []) :
    own orderId (round turn position orders).surviving = [] ∧
      ownFilled orderId (round turn position orders).filled = [] := by
  induction orders generalizing position with
  | nil => exact ⟨rfl, rfl⟩
  | cons order orders ih =>
      have other : order.orderId ≠ orderId := by
        intro same
        simp [own, same] at absent
      rw [(round_other keeps other position orders).1, (round_other keeps other position orders).2]
      apply ih
      simpa [own, other] using absent

theorem round_own (keeps : KeepsId turn) (position : Int) {orders : List RestingOrder}
    {order : RestingOrder} (alone : own orderId orders = [order]) :
    own orderId (round turn position orders).surviving =
        (turn (positionAt turn orderId position orders) order).surviving.toList ∧
      ownFilled orderId (round turn position orders).filled =
        ((turn (positionAt turn orderId position orders) order).fill.map
          fun fill => (order, fill)).toList := by
  induction orders generalizing position with
  | nil => simp [own] at alone
  | cons first orders ih =>
      by_cases same : first.orderId = orderId
      · have here : first = order ∧ own orderId orders = [] := by
          simpa [own, same] using alone
        rcases round_absent keeps (turn position first).position here.2 with ⟨survivors, fills⟩
        rw [positionAt, if_pos same, ← here.1, round]
        constructor
        · rw [own, List.filter_append]
          change own _ _ ++ own _ _ = _
          rw [survivors, List.append_nil]
          cases survives : (turn position first).surviving with
          | none => rfl
          | some next => simp [own, keeps position first next survives, same]
        · rw [ownFilled, List.filter_append]
          change ownFilled _ _ ++ ownFilled _ _ = _
          rw [fills, List.append_nil]
          cases (turn position first).fill with
          | none => rfl
          | some fill => simp [ownFilled, same]
      · have later : own orderId orders = [order] := by
          simpa [own, same] using alone
        rw [(round_other keeps same position orders).1, (round_other keeps same position orders).2,
          positionAt, if_neg same]
        exact ih _ later

end Own

theorem own_of_numbered {engine : MicrostructureEngine F} {order : RestingOrder}
    (numbered : Numbered engine) (rests : order ∈ engine.restingOrders) :
    own order.orderId engine.restingOrders = [order] := by
  rcases List.append_of_mem rests with ⟨front, back, split⟩
  have rising := numbered.rising
  rw [split, List.map_append, List.map_cons, List.pairwise_append, List.pairwise_cons] at rising
  have before : own order.orderId front = [] := by
    rw [own, List.filter_eq_nil_iff]
    intro other member same
    have below := rising.2.2 other.orderId (List.mem_map_of_mem member) order.orderId
      List.mem_cons_self
    exact absurd (of_decide_eq_true same) below.ne
  have after : own order.orderId back = [] := by
    rw [own, List.filter_eq_nil_iff]
    intro other member same
    have above := rising.2.1.1 other.orderId (List.mem_map_of_mem member)
    exact absurd (of_decide_eq_true same) above.ne'
  calc
    _ = own order.orderId front ++ own order.orderId [order] ++ own order.orderId back := by
      rw [split]
      simp [own]
    _ = [order] := by
      rw [before, after]
      simp [own]

structure Hits (trade : MarketTrade) (order : RestingOrder) : Prop where
  arrived : order.arrivalTimeNs ≤ trade.timestampNs
  matched : Matches trade order
  positive : 0 < trade.quantity

def advanced (order : RestingOrder) (volume : Int) : RestingOrder :=
  { order with
    remainingQuantity := order.remainingQuantity -
      given order.remainingQuantity order.queueAhead volume
    queueAhead := keptQueue order.queueAhead volume }

section Turn

variable {engine : MicrostructureEngine F} {trade : MarketTrade} {position : Int}
  {order : RestingOrder}

theorem tradeTurn_undecayed (hits : Hits trade order)
    (whole : engine.decayedQueue order = order.queueAhead)
    (waits : 0 < order.remainingQuantity)
    (admitted : engine.Reached trade order →
      |position + signed order.side (engine.tradeFill trade order)| ≤ engine.maxPosition) :
    ((engine.tradeTurn trade position order).fill.map Fill.quantity).getD 0 =
        given order.remainingQuantity order.queueAhead trade.quantity ∧
      (engine.tradeTurn trade position order).surviving =
        if (advanced order trade.quantity).remainingQuantity > 0 then
          some (advanced order trade.quantity) else none := by
  have arrived : ¬ order.arrivalTimeNs > trade.timestampNs := not_lt.mpr hits.arrived
  by_cases through : trade.quantity > order.queueAhead
  · have reached : engine.Reached trade order := ⟨hits.arrived, hits.matched, by omega⟩
    have fills : engine.tradeFill trade order =
        given order.remainingQuantity order.queueAhead trade.quantity := by
      rw [tradeFill, whole, given]
      omega
    have positive : given order.remainingQuantity order.queueAhead trade.quantity > 0 := by
      rw [given]
      omega
    have room := admitted reached
    rw [fills] at room
    simp only [tradeTurn, if_neg arrived, matchTrade, if_pos hits.matched, whole,
      if_pos through, fills, if_pos (And.intro room positive), advanced, keptQueue]
    exact ⟨rfl, trivial⟩
  · have nothing : given order.remainingQuantity order.queueAhead trade.quantity = 0 := by
      rw [given]
      omega
    have shorter : max 0 (order.queueAhead - trade.quantity) =
        order.queueAhead - trade.quantity := by
      omega
    simp only [tradeTurn, if_neg arrived, matchTrade, if_pos hits.matched, whole,
      if_neg through, nothing, shorter, advanced, keptQueue, Int.sub_zero]
    exact ⟨rfl, trivial⟩

end Turn

theorem filledOf_eq (orderId : Int) (engine : MicrostructureEngine F) (trade : MarketTrade) :
    filledOf orderId engine trade =
      ((ownFilled orderId (engine.tradeRound trade).filled).map
        fun entry => entry.2.quantity).sum := rfl

theorem fillsOf_absent {orderId : Int} {engine : MicrostructureEngine F}
    (absent : own orderId engine.restingOrders = []) (trades : List MarketTrade) :
    fillsOf orderId engine trades = trades.map fun _ => 0 := by
  induction trades generalizing engine with
  | nil => rfl
  | cons trade trades ih =>
      have keeps := keepsId_of_effect (tradeTurn_effect engine trade)
      rcases round_absent keeps engine.position absent with ⟨survivors, fills⟩
      have none : filledOf orderId engine trade = 0 := by
        rw [filledOf_eq, tradeRound, fills]
        rfl
      rw [fillsOf, none, ih survivors]
      rfl

theorem fillsOf_undecayed {engine : MicrostructureEngine F} {order : RestingOrder}
    {trades : List MarketTrade} (alone : own order.orderId engine.restingOrders = [order])
    (keeps : KeepsLengths engine.config order.queueAhead (trades.map MarketTrade.quantity))
    (waits : 0 < order.remainingQuantity) (hits : ∀ trade ∈ trades, Hits trade order)
    (unbound : NeverBinds order.orderId engine trades) :
    fillsOf order.orderId engine trades =
      gifts keptQueue order.remainingQuantity order.queueAhead
        (trades.map MarketTrade.quantity) := by
  induction trades generalizing engine order with
  | nil => rfl
  | cons trade trades ih =>
      rcases List.forall_mem_cons.mp hits with ⟨here, later⟩
      have whole : engine.decayedQueue order = order.queueAhead := keeps.1
      have rests : order ∈ engine.restingOrders := by
        apply List.mem_of_mem_filter
        exact alone ▸ List.mem_singleton_self order
      have sameIds := keepsId_of_effect (tradeTurn_effect engine trade)
      rcases round_own sameIds engine.position alone with ⟨survivors, fills⟩
      rcases tradeTurn_undecayed here whole waits (unbound.1 order rests rfl) with
        ⟨gift, survives⟩
      have filled : filledOf order.orderId engine trade =
          given order.remainingQuantity order.queueAhead trade.quantity := by
        rw [filledOf_eq, tradeRound, fills, ← gift]
        cases (engine.tradeTurn trade _ order).fill with
        | none => rfl
        | some fill => simp
      rw [survives] at survivors
      rw [fillsOf, filled, List.map_cons, gifts]
      congr 1
      by_cases goes : (advanced order trade.quantity).remainingQuantity > 0
      · rw [if_pos goes] at survivors
        have still : ∀ next ∈ trades, Hits next (advanced order trade.quantity) := by
          intro next member
          exact ⟨(later next member).arrived, (later next member).matched,
            (later next member).positive⟩
        have rest : own (advanced order trade.quantity).orderId
            (engine.onMarketTrade trade).1.restingOrders = [advanced order trade.quantity] :=
          survivors
        exact ih rest keeps.2 goes still unbound.2
      · rw [if_neg goes] at survivors
        have done : order.remainingQuantity -
            given order.remainingQuantity order.queueAhead trade.quantity = 0 := by
          have bounds := given_bounds waits.le order.queueAhead trade.quantity
          rw [advanced] at goes
          dsimp only at goes
          omega
        rw [fillsOf_absent survivors, done, gifts_nothing, List.map_map]
        rfl

end Ito.Backtest.MicrostructureEngine
