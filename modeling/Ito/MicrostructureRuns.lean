import Ito.MicrostructureEngine
import Ito.Library.Machine
import Mathlib.Algebra.Order.Ring.Int
import Mathlib.Tactic.Common

/-! Runs of the backtest engine, what each kind of event does to its state, and what
every reachable state keeps: the position limit, the order of the two ladders and the
shape of the resting orders. -/

namespace Ito.Backtest.MicrostructureEngine

variable {F : Type} [PythonFloat F]

inductive Event where
  | quote (quote : Quote)
  | trade (trade : MarketTrade)
  | signal (signal : Signal)

def step (engine : MicrostructureEngine F) : Event →
    Option (MicrostructureEngine F × List (Fill F))
  | .quote quote => some (engine.onQuote quote)
  | .trade trade => some (engine.onMarketTrade trade)
  | .signal signal => some (engine.submitOrder signal)

theorem signed_add (side position quantity : Int) :
    signed side (position + signed side quantity) = signed side position + quantity := by
  by_cases buys : side > 0
  · simp only [signed, if_pos buys]
  · simp only [signed, if_neg buys]
    omega

theorem abs_add_signed (side position quantity : Int) :
    |position + signed side quantity| = |signed side position + quantity| := by
  by_cases buys : side > 0
  · simp only [signed, if_pos buys]
  · simp only [signed, if_neg buys]
    rw [← abs_neg]
    congr 1
    omega

theorem room_of_refused {maxPosition position quantity : Int} (side : Int)
    (limit : |position| ≤ maxPosition) (positive : 0 ≤ quantity) :
    maxPosition < |position + signed side quantity| ↔
      maxPosition < signed side position + quantity := by
  rw [abs_add_signed, lt_abs]
  have lower : -maxPosition ≤ signed side position := by
    rw [abs_le'] at limit
    rw [signed]
    split <;> omega
  omega

/-- A fill for an order of this side is not worse than the price. -/
def Within (side price : Int) (fill : Fill F) : Prop :=
  (0 < side → fill.priceTicks ≤ price) ∧ (side < 0 → price ≤ fill.priceTicks)

instance (side price : Int) (fill : Fill F) : Decidable (Within side price fill) :=
  inferInstanceAs (Decidable (_ ∧ _))

structure Same (order next : RestingOrder) : Prop where
  orderId : next.orderId = order.orderId
  side : next.side = order.side
  priceTicks : next.priceTicks = order.priceTicks
  remaining : 0 < order.remainingQuantity → 0 < next.remainingQuantity

theorem Same.refl (order : RestingOrder) : Same order order := ⟨rfl, rfl, rfl, id⟩

structure TurnEffect (engine : MicrostructureEngine F) (position : Int) (order : RestingOrder)
    (turn : Turn F) : Prop where
  limit : |position| ≤ engine.maxPosition → |turn.position| ≤ engine.maxPosition
  surviving : ∀ next ∈ turn.surviving, Same order next
  fill : ∀ fill ∈ turn.fill, Within order.side order.priceTicks fill

/-- A turn that leaves everything as it is. -/
theorem TurnEffect.idle (engine : MicrostructureEngine F) (position : Int) (order : RestingOrder) :
    TurnEffect engine position order ⟨position, some order, none⟩ := by
  constructor
  · exact id
  · intro next same
    rw [← Option.some.inj same]
    exact Same.refl order
  · intro fill member
    simp at member

structure Reached (engine : MicrostructureEngine F) (trade : MarketTrade) (order : RestingOrder) :
    Prop where
  arrived : order.arrivalTimeNs ≤ trade.timestampNs
  matched : Matches trade order
  queue : engine.decayedQueue order < trade.quantity

theorem reached_iff {engine : MicrostructureEngine F} {trade : MarketTrade}
    {order : RestingOrder} :
    engine.Reached trade order ↔ order.arrivalTimeNs ≤ trade.timestampNs ∧ Matches trade order ∧
      engine.decayedQueue order < trade.quantity := by
  constructor
  · intro reached
    exact ⟨reached.arrived, reached.matched, reached.queue⟩
  · intro parts
    exact ⟨parts.1, parts.2.1, parts.2.2⟩

instance (engine : MicrostructureEngine F) (trade : MarketTrade) (order : RestingOrder) :
    Decidable (engine.Reached trade order) := decidable_of_iff' _ reached_iff

def Admits (engine : MicrostructureEngine F) (trade : MarketTrade) (position : Int)
    (order : RestingOrder) : Prop :=
  |position + signed order.side (engine.tradeFill trade order)| ≤ engine.maxPosition ∧
    0 < engine.tradeFill trade order

section TradeTurn

variable {engine : MicrostructureEngine F} {trade : MarketTrade} {position : Int}
  {order : RestingOrder}

theorem tradeTurn_filled (reached : engine.Reached trade order)
    (admits : engine.Admits trade position order) :
    (engine.tradeTurn trade position order).position =
        position + signed order.side (engine.tradeFill trade order) ∧
      (∀ next ∈ (engine.tradeTurn trade position order).surviving, Same order next) ∧
      ∃ fill, (engine.tradeTurn trade position order).fill = some fill ∧
        fill.priceTicks = order.priceTicks ∧ fill.quantity = engine.tradeFill trade order := by
  have arrived : ¬ order.arrivalTimeNs > trade.timestampNs := not_lt.mpr reached.arrived
  rw [Admits] at admits
  simp only [tradeTurn, if_neg arrived, matchTrade, if_pos reached.matched,
    if_pos (show trade.quantity > engine.decayedQueue order from reached.queue), gt_iff_lt,
    if_pos admits]
  apply And.intro trivial
  constructor
  · intro next member
    split at member
    · rename_i positive
      rw [← Option.some.inj member]
      exact ⟨rfl, rfl, rfl, fun _ => positive⟩
    · simp at member
  · exact ⟨_, rfl, rfl, rfl⟩

theorem tradeTurn_unfilled
    (unfilled : ¬ (engine.Reached trade order ∧ engine.Admits trade position order)) :
    (engine.tradeTurn trade position order).position = position ∧
      (∀ next ∈ (engine.tradeTurn trade position order).surviving, Same order next) ∧
      (engine.tradeTurn trade position order).fill = none := by
  have survives : ∀ moved : RestingOrder, Same order moved →
      ∀ next ∈ (if moved.remainingQuantity > 0 then some moved else none), Same order next := by
    intro moved same next member
    split at member
    · rw [← Option.some.inj member]
      exact same
    · simp at member
  rw [tradeTurn]
  split
  · have idle := TurnEffect.idle engine position order
    exact ⟨rfl, idle.surviving, rfl⟩
  · rename_i arrived
    simp only [matchTrade]
    split
    · rename_i matched
      split
      · rename_i queue
        have refused : ¬ (|position + signed order.side (engine.tradeFill trade order)| ≤
            engine.maxPosition ∧ engine.tradeFill trade order > 0) := by
          intro admits
          exact unfilled ⟨⟨not_lt.mp arrived, matched, queue⟩, admits⟩
        simp only [if_neg refused]
        exact ⟨trivial, survives order (Same.refl order), trivial⟩
      · exact ⟨rfl, survives _ ⟨rfl, rfl, rfl, id⟩, rfl⟩
    · exact ⟨rfl, survives order (Same.refl order), rfl⟩

theorem tradeTurn_effect (engine : MicrostructureEngine F) (trade : MarketTrade) (position : Int)
    (order : RestingOrder) :
    TurnEffect engine position order (engine.tradeTurn trade position order) := by
  by_cases filled : engine.Reached trade order ∧ engine.Admits trade position order
  · rcases tradeTurn_filled filled.1 filled.2 with ⟨moved, surviving, fill, made, price, _⟩
    constructor
    · intro _
      rw [moved]
      exact filled.2.1
    · exact surviving
    · intro other member
      rw [made] at member
      rw [← Option.some.inj member, Within, price]
      exact ⟨fun _ => le_rfl, fun _ => le_rfl⟩
  · rcases tradeTurn_unfilled filled with ⟨kept, surviving, none⟩
    constructor
    · intro limit
      rw [kept]
      exact limit
    · exact surviving
    · intro fill member
      rw [none] at member
      simp at member

end TradeTurn

theorem quotedPrice_within {quote : Quote} {order : RestingOrder} {price : Int}
    (quoted : quotedPrice quote order = some price) :
    (0 < order.side → price ≤ order.priceTicks) ∧
      (order.side < 0 → order.priceTicks ≤ price) := by
  rw [quotedPrice] at quoted
  split at quoted
  · rename_i buys
    rw [← Option.some.inj quoted]
    exact ⟨fun _ => buys.2, fun sells => absurd sells (not_lt.mpr buys.1.le)⟩
  · split at quoted
    · rename_i sells
      rw [← Option.some.inj quoted]
      exact ⟨fun buys => absurd buys (not_lt.mpr sells.1.le), fun _ => sells.2⟩
    · simp at quoted

theorem quoteTurn_effect (engine : MicrostructureEngine F) (quote : Quote) (position : Int)
    (order : RestingOrder) :
    TurnEffect engine position order (engine.quoteTurn quote position order) := by
  rw [quoteTurn]
  split
  · exact TurnEffect.idle engine position order
  · split
    · exact TurnEffect.idle engine position order
    · rename_i price quoted
      dsimp only
      split
      · rename_i room
        constructor
        · intro _
          exact room
        · intro next member
          simp at member
        · intro fill member
          rw [← Option.some.inj member]
          exact quotedPrice_within quoted
      · exact TurnEffect.idle engine position order

theorem round_effect {engine : MicrostructureEngine F} {turn : Int → RestingOrder → Turn F}
    (turns : ∀ position order, TurnEffect engine position order (turn position order))
    (orders : List RestingOrder) {position : Int} (limit : |position| ≤ engine.maxPosition) :
    |(round turn position orders).position| ≤ engine.maxPosition ∧
      (∀ next ∈ (round turn position orders).surviving, ∃ order ∈ orders, Same order next) ∧
      ∀ entry ∈ (round turn position orders).filled, entry.1 ∈ orders ∧
        Within entry.1.side entry.1.priceTicks entry.2 := by
  induction orders generalizing position with
  | nil => exact ⟨limit, by simp [round], by simp [round]⟩
  | cons order orders ih =>
      have here := turns position order
      rcases ih (here.limit limit) with ⟨kept, surviving, filled⟩
      apply And.intro kept
      constructor
      · intro next member
        rcases List.mem_append.mp member with now | later
        · exact ⟨order, List.mem_cons_self, here.surviving next (Option.mem_toList.mp now)⟩
        · rcases surviving next later with ⟨old, member, same⟩
          exact ⟨old, List.mem_cons_of_mem _ member, same⟩
      · intro entry member
        rcases List.mem_append.mp member with now | later
        · rcases Option.map_eq_some_iff.mp (Option.mem_toList.mp now) with ⟨fill, made, rfl⟩
          exact ⟨List.mem_cons_self, here.fill fill made⟩
        · exact ⟨List.mem_cons_of_mem _ (filled entry later).1, (filled entry later).2⟩

theorem walk_effect (engine : MicrostructureEngine F) (signal : Signal)
    (arrivalTime latency : Int) (ladder : List BookLevel) {position : Int} (remaining : Int)
    (limit : |position| ≤ engine.maxPosition) :
    |(engine.walk signal arrivalTime latency position remaining ladder).1| ≤ engine.maxPosition ∧
      (engine.walk signal arrivalTime latency position remaining ladder).2.1.map
        BookLevel.priceTicks = ladder.map BookLevel.priceTicks := by
  induction ladder generalizing position remaining with
  | nil => exact ⟨limit, rfl⟩
  | cons level ladder ih =>
      rw [walk]
      split
      · exact ⟨limit, rfl⟩
      · split
        · rcases ih remaining limit with ⟨kept, prices⟩
          exact ⟨kept, congrArg (level.priceTicks :: ·) prices⟩
        · dsimp only
          split
          · exact ⟨limit, rfl⟩
          · rename_i room
            rcases ih (remaining - min remaining level.size) (not_lt.mp room) with ⟨kept, prices⟩
            exact ⟨kept, congrArg (level.priceTicks :: ·) prices⟩

def Aggressive (engine : MicrostructureEngine F) (signal : Signal) : Prop :=
  Submittable signal ∧ (signal.orderType = .market ∨
    (signal.orderType = .limit ∧ engine.Crosses signal.side (engine.limitPrice signal)))

structure Placed (engine : MicrostructureEngine F) (signal : Signal) (order : RestingOrder) :
    Prop where
  orderId : order.orderId = engine.nextOrderId
  side : order.side = signal.side
  priceTicks : order.priceTicks = engine.limitPrice signal
  remaining : order.remainingQuantity = signal.quantity

theorem Placed.unclocked {engine : MicrostructureEngine F} {signal : Signal}
    {order : RestingOrder} {time : Int}
    (placed : Placed { engine with currentTimeNs := time } signal order) :
    Placed engine signal order :=
  ⟨placed.orderId, placed.side, placed.priceTicks, placed.remaining⟩

theorem placeLimit_cases (engine : MicrostructureEngine F) (signal : Signal)
    (arrivalTime latency : Int) (isPostOnly : Bool) :
    (engine.Crosses signal.side (engine.limitPrice signal) →
      engine.placeLimit signal arrivalTime latency isPostOnly =
        if isPostOnly then (engine, []) else engine.executeAggressive signal arrivalTime latency) ∧
      (¬ engine.Crosses signal.side (engine.limitPrice signal) →
        ∃ order, Placed engine signal order ∧
          engine.placeLimit signal arrivalTime latency isPostOnly =
            ({ engine with
               nextOrderId := engine.nextOrderId + 1
               restingOrders := engine.restingOrders ++ [order] }, [])) := by
  constructor
  · intro crosses
    simp only [placeLimit, if_pos crosses]
  · intro rests
    simp only [placeLimit, if_neg rests]
    exact ⟨_, ⟨rfl, rfl, rfl, rfl⟩, rfl⟩

theorem submitOrder_cases (engine : MicrostructureEngine F) (signal : Signal) :
    ∃ time, (¬ engine.Aggressive signal ∧
        engine.submitOrder signal = ({ engine with currentTimeNs := time }, [])) ∨
      (engine.Aggressive signal ∧ ∃ arrivalTime latency, engine.submitOrder signal =
        { engine with currentTimeNs := time }.executeAggressive signal arrivalTime latency) ∨
      (¬ engine.Aggressive signal ∧ Submittable signal ∧ ∃ order, Placed engine signal order ∧
        engine.submitOrder signal =
          ({ engine with
             currentTimeNs := time
             nextOrderId := engine.nextOrderId + 1
             restingOrders := engine.restingOrders ++ [order] }, [])) := by
  by_cases submittable : Submittable signal
  · rw [submitOrder, if_pos submittable]
    dsimp only
    generalize (if signal.latencyNs ≠ 0 then signal.latencyNs
      else engine.config.wireLatencyNs + engine.config.engineLatencyNs) = latency
    apply Exists.intro (max engine.currentTimeNs (signal.timestampNs + latency))
    have placing := placeLimit_cases
      { engine with currentTimeNs := max engine.currentTimeNs (signal.timestampNs + latency) }
      signal (signal.timestampNs + latency) latency
    cases type : signal.orderType with
    | market => exact .inr (.inl ⟨⟨submittable, .inl type⟩, _, _, rfl⟩)
    | other =>
        apply Or.inl
        exact ⟨by simp [Aggressive, type], rfl⟩
    | limit =>
        by_cases crosses : engine.Crosses signal.side (engine.limitPrice signal)
        · exact .inr (.inl ⟨⟨submittable, .inr ⟨type, crosses⟩⟩, _, _, (placing false).1 crosses⟩)
        · right
          right
          rcases (placing false).2 crosses with ⟨order, placed, left⟩
          exact ⟨by simp [Aggressive, type, crosses], submittable, order, placed.unclocked, left⟩
    | postOnly =>
        by_cases crosses : engine.Crosses signal.side (engine.limitPrice signal)
        · exact .inl ⟨by simp [Aggressive, type], (placing true).1 crosses⟩
        · right
          right
          rcases (placing true).2 crosses with ⟨order, placed, left⟩
          exact ⟨by simp [Aggressive, type], submittable, order, placed.unclocked, left⟩
  · exact ⟨engine.currentTimeNs, .inl ⟨fun sends => submittable sends.1, if_neg submittable⟩⟩

structure Sane (engine : MicrostructureEngine F) : Prop where
  limit : |engine.position| ≤ engine.maxPosition
  bids : (engine.book.bids.map BookLevel.priceTicks).Pairwise (· ≥ ·)
  asks : (engine.book.asks.map BookLevel.priceTicks).Pairwise (· ≤ ·)
  sides : ∀ order ∈ engine.restingOrders, order.side = -1 ∨ order.side = 1
  remaining : ∀ order ∈ engine.restingOrders, 0 < order.remainingQuantity

theorem create_sane {maxPosition : Int} {config : Option (MicrostructureConfig F)}
    {engine : MicrostructureEngine F} (created : create maxPosition config = .ok engine) :
    Sane engine := by
  rw [create] at created
  split at created
  · simp at created
  · rename_i positive
    rw [← Except.ok.inj created]
    exact ⟨by simp; omega, .nil, .nil, by simp, by simp⟩

theorem levels_sorted (given : Option (List (Int × Int))) {before : Int → Int → Prop}
    [DecidableRel before] (total : ∀ a b, before a b ∨ before b a)
    (trans : ∀ a b c, before a b → before b c → before a c) (price size : Int) :
    ((L2OrderBook.levels given before price size).map BookLevel.priceTicks).Pairwise before := by
  have : Std.Total fun a b : Int × Int => before a.1 b.1 := ⟨fun a b => total a.1 b.1⟩
  have : IsTrans (Int × Int) fun a b => before a.1 b.1 := ⟨fun a b c => trans a.1 b.1 c.1⟩
  rw [L2OrderBook.levels.eq_def]
  split
  · rw [List.map_map, List.pairwise_map]
    exact List.pairwise_insertionSort (fun a b : Int × Int => before a.1 b.1) _
  · exact List.pairwise_singleton _ _

theorem updateFromQuote_sorted (quote : Quote) :
    ((L2OrderBook.updateFromQuote quote).bids.map BookLevel.priceTicks).Pairwise (· ≥ ·) ∧
      ((L2OrderBook.updateFromQuote quote).asks.map BookLevel.priceTicks).Pairwise (· ≤ ·) := by
  constructor
  · exact levels_sorted quote.bids (fun a b => le_total b a) (fun _ _ _ ab bc => ge_trans ab bc) _ _
  · exact levels_sorted quote.asks le_total (fun _ _ _ ab bc => le_trans ab bc) _ _

theorem settle_sane {engine : MicrostructureEngine F} {turn : Int → RestingOrder → Turn F}
    (turns : ∀ position order, TurnEffect engine position order (turn position order))
    (sane : Sane engine) :
    Sane (engine.settle (round turn engine.position engine.restingOrders)) := by
  rcases round_effect turns engine.restingOrders sane.limit with ⟨limit, surviving, _⟩
  constructor
  · exact limit
  · exact sane.bids
  · exact sane.asks
  · intro next member
    rcases surviving next member with ⟨order, old, same⟩
    rw [same.side]
    exact sane.sides order old
  · intro next member
    rcases surviving next member with ⟨order, old, same⟩
    exact same.remaining (sane.remaining order old)

theorem executeAggressive_sane {engine : MicrostructureEngine F} (sane : Sane engine)
    (signal : Signal) (arrivalTime latency : Int) :
    Sane (engine.executeAggressive signal arrivalTime latency).1 := by
  rcases walk_effect engine signal arrivalTime latency (engine.ladder signal.side) signal.quantity
    sane.limit with ⟨limit, prices⟩
  rw [executeAggressive]
  by_cases buys : signal.side > 0
  · simp only [ladder, if_pos buys] at limit prices ⊢
    exact ⟨limit, sane.bids, by rw [prices]; exact sane.asks, sane.sides, sane.remaining⟩
  · simp only [ladder, if_neg buys] at limit prices ⊢
    exact ⟨limit, by rw [prices]; exact sane.bids, sane.asks, sane.sides, sane.remaining⟩

theorem Sane.clocked {engine : MicrostructureEngine F} (sane : Sane engine) (time : Int) :
    Sane { engine with currentTimeNs := time } :=
  ⟨sane.limit, sane.bids, sane.asks, sane.sides, sane.remaining⟩

theorem submitOrder_sane {engine : MicrostructureEngine F} (sane : Sane engine)
    (signal : Signal) : Sane (engine.submitOrder signal).1 := by
  rcases submitOrder_cases engine signal with
    ⟨time, ⟨_, idle⟩ | ⟨_, arrivalTime, latency, walks⟩ | ⟨_, submittable, order, placed, rests⟩⟩
  · rw [idle]
    exact sane.clocked time
  · rw [walks]
    exact executeAggressive_sane (sane.clocked time) signal arrivalTime latency
  · rw [rests]
    rw [Submittable] at submittable
    constructor
    · exact sane.limit
    · exact sane.bids
    · exact sane.asks
    · intro other member
      rcases List.mem_append.mp member with old | new
      · exact sane.sides other old
      · rw [List.mem_singleton.mp new, placed.side]
        omega
    · intro other member
      rcases List.mem_append.mp member with old | new
      · exact sane.remaining other old
      · rw [List.mem_singleton.mp new, placed.remaining]
        omega

theorem step_sane {engine next : MicrostructureEngine F} {event : Event}
    {fills : List (Fill F)} (sane : Sane engine) (stepped : engine.step event = some (next, fills)) :
    Sane next := by
  cases event with
  | quote quote =>
      simp only [step, Option.some.injEq] at stepped
      rw [onQuote] at stepped
      split at stepped
      · rw [← (Prod.mk.inj stepped).1]
        apply settle_sane (quoteTurn_effect _ quote)
        exact ⟨sane.limit, (updateFromQuote_sorted quote).1, (updateFromQuote_sorted quote).2,
          sane.sides, sane.remaining⟩
      · rw [← (Prod.mk.inj stepped).1]
        exact sane
  | trade trade =>
      simp only [step, Option.some.injEq] at stepped
      rw [← (Prod.mk.inj stepped).1]
      exact (settle_sane (tradeTurn_effect engine trade) sane).clocked _
  | signal signal =>
      simp only [step, Option.some.injEq] at stepped
      have kept := submitOrder_sane sane signal
      rw [stepped] at kept
      exact kept

/-- The resting orders have their ids in the order in which they were placed. -/
structure Numbered (engine : MicrostructureEngine F) : Prop where
  rising : (engine.restingOrders.map RestingOrder.orderId).Pairwise (· < ·)
  next : ∀ orderId ∈ engine.restingOrders.map RestingOrder.orderId, orderId < engine.nextOrderId

theorem create_numbered {maxPosition : Int} {config : Option (MicrostructureConfig F)}
    {engine : MicrostructureEngine F} (created : create maxPosition config = .ok engine) :
    Numbered engine := by
  rw [create] at created
  split at created
  · simp at created
  · rw [← Except.ok.inj created]
    exact ⟨.nil, by simp⟩

def KeepsId (turn : Int → RestingOrder → Turn F) : Prop :=
  ∀ position order, ∀ next ∈ (turn position order).surviving, next.orderId = order.orderId

theorem keepsId_of_effect {engine : MicrostructureEngine F} {turn : Int → RestingOrder → Turn F}
    (turns : ∀ position order, TurnEffect engine position order (turn position order)) :
    KeepsId turn := by
  intro position order next member
  exact ((turns position order).surviving next member).orderId

theorem round_ids {turn : Int → RestingOrder → Turn F} (keeps : KeepsId turn) (position : Int)
    (orders : List RestingOrder) :
    ((round turn position orders).surviving.map RestingOrder.orderId).Sublist
      (orders.map RestingOrder.orderId) := by
  induction orders generalizing position with
  | nil => exact List.Sublist.refl _
  | cons order orders ih =>
      have rest := ih (turn position order).position
      rw [round, List.map_append]
      cases survives : (turn position order).surviving with
      | none => exact rest.cons _
      | some next =>
          have same := keeps position order next survives
          simp only [Option.toList_some, List.map_cons, List.map_nil, List.singleton_append, same]
          exact rest.cons_cons _

theorem settle_numbered {engine : MicrostructureEngine F} {turn : Int → RestingOrder → Turn F}
    (keeps : KeepsId turn) (numbered : Numbered engine) :
    Numbered (engine.settle (round turn engine.position engine.restingOrders)) := by
  have ids := round_ids keeps engine.position engine.restingOrders
  constructor
  · exact numbered.rising.sublist ids
  · intro orderId member
    exact numbered.next orderId (ids.subset member)

theorem onMarketTrade_numbered {engine : MicrostructureEngine F} (numbered : Numbered engine)
    (trade : MarketTrade) : Numbered (engine.onMarketTrade trade).1 := by
  have settled := settle_numbered (keepsId_of_effect (tradeTurn_effect engine trade)) numbered
  exact ⟨settled.rising, settled.next⟩

theorem onQuote_numbered {engine : MicrostructureEngine F} (numbered : Numbered engine)
    (quote : Quote) : Numbered (engine.onQuote quote).1 := by
  rw [onQuote]
  split
  · exact settle_numbered (keepsId_of_effect (quoteTurn_effect _ quote))
      ⟨numbered.rising, numbered.next⟩
  · exact numbered

theorem submitOrder_numbered {engine : MicrostructureEngine F} (numbered : Numbered engine)
    (signal : Signal) : Numbered (engine.submitOrder signal).1 := by
  rcases submitOrder_cases engine signal with
    ⟨time, ⟨_, idle⟩ | ⟨_, arrivalTime, latency, walks⟩ | ⟨_, _, order, placed, rests⟩⟩
  · rw [idle]
    exact ⟨numbered.rising, numbered.next⟩
  · rw [walks]
    exact ⟨numbered.rising, numbered.next⟩
  · rw [rests]
    constructor
    · simp only [List.map_append, List.map_cons, List.map_nil]
      rw [List.pairwise_append]
      apply And.intro numbered.rising
      apply And.intro (List.pairwise_singleton _ _)
      intro old member new last
      rw [List.mem_singleton.mp last, placed.orderId]
      exact numbered.next old member
    · simp only [List.map_append, List.map_cons, List.map_nil]
      intro orderId member
      rcases List.mem_append.mp member with old | new
      · have below := numbered.next orderId old
        omega
      · rw [List.mem_singleton.mp new, placed.orderId]
        omega

theorem step_numbered {engine next : MicrostructureEngine F} {event : Event}
    {fills : List (Fill F)} (numbered : Numbered engine)
    (stepped : engine.step event = some (next, fills)) : Numbered next := by
  have after : next = (match event with
      | .quote quote => (engine.onQuote quote).1
      | .trade trade => (engine.onMarketTrade trade).1
      | .signal signal => (engine.submitOrder signal).1) := by
    cases event <;> exact (congrArg Prod.fst (Option.some.inj stepped)).symm
  rw [after]
  cases event with
  | quote quote => exact onQuote_numbered numbered quote
  | trade trade => exact onMarketTrade_numbered numbered trade
  | signal signal => exact submitOrder_numbered numbered signal

theorem exec_numbered {maxPosition : Int} {config : Option (MicrostructureConfig F)}
    {start engine : MicrostructureEngine F} {events : List Event}
    {log : List (Event × List (Fill F))} (created : create maxPosition config = .ok start)
    (ran : Machine.exec step start events = some (engine, log)) : Numbered engine := by
  apply Machine.exec_invariant (fun _ => Numbered) _ (create_numbered created) ran
  intro _ before event after fills numbered stepped
  exact step_numbered numbered stepped

end Ito.Backtest.MicrostructureEngine
