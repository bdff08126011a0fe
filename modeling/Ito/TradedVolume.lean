import Ito.MicrostructureRuns
import Mathlib.Algebra.Order.BigOperators.Group.List

/-! How much of one market trade the backtest engine gives to its own resting orders. Every
order that the trade reaches is offered the whole of it, behind that order's own queue. -/

namespace Ito.Backtest.MicrostructureEngine

variable {F : Type} [PythonFloat F]

def offered (engine : MicrostructureEngine F) (trade : MarketTrade)
    (orders : List RestingOrder) : List Int :=
  (orders.filter fun order => engine.Reached trade order).map (engine.tradeFill trade)

/-- The quantity that the position limit allows on the passive side of the trade. -/
def room (engine : MicrostructureEngine F) (trade : MarketTrade) (position : Int) : Int :=
  engine.maxPosition - signed (-trade.aggressorSide) position

def volume (fills : List (Fill F)) : Int := (fills.map Fill.quantity).sum

def NotOverAllocated (_ : MicrostructureEngine F) (event : Event) (fills : List (Fill F))
    (_ : MicrostructureEngine F) : Prop :=
  match event with
  | .trade trade => 0 ≤ trade.quantity → volume fills ≤ trade.quantity
  | _ => True

/-- The orders that a trade reaches are offered no more than its quantity in all, or the
position limit allows no more. -/
def Shares (before : MicrostructureEngine F) (event : Event) (_ : List (Fill F))
    (_ : MicrostructureEngine F) : Prop :=
  match event with
  | .trade trade => 0 ≤ trade.quantity →
      (before.offered trade before.restingOrders).sum ≤ trade.quantity ∨
        before.room trade before.position ≤ trade.quantity
  | _ => True

instance (before : MicrostructureEngine F) (event : Event) (fills : List (Fill F))
    (after : MicrostructureEngine F) : Decidable (Shares before event fills after) :=
  match event with
  | .trade trade => inferInstanceAs (Decidable (0 ≤ trade.quantity →
      (before.offered trade before.restingOrders).sum ≤ trade.quantity ∨
        before.room trade before.position ≤ trade.quantity))
  | .quote _ => isTrue trivial
  | .signal _ => isTrue trivial

def Unbound (before : MicrostructureEngine F) (event : Event) : Prop :=
  match event with
  | .trade trade => (before.offered trade before.restingOrders).sum ≤
      before.room trade before.position
  | _ => True

section Trade

variable {engine : MicrostructureEngine F} {trade : MarketTrade}

theorem signed_of_reached {order : RestingOrder} (reached : engine.Reached trade order)
    (quantity : Int) : signed order.side quantity = signed (-trade.aggressorSide) quantity := by
  have matched := reached.matched
  rw [Matches] at matched
  rcases matched with ⟨buys, sold, _⟩ | ⟨sells, bought, _⟩
  · rw [signed, signed, if_pos buys, if_pos (by omega)]
  · rw [signed, signed, if_neg (by omega), if_neg (by omega)]

theorem offered_cons (order : RestingOrder) (orders : List RestingOrder) :
    (engine.offered trade (order :: orders)).sum =
      (if engine.Reached trade order then engine.tradeFill trade order else 0) +
        (engine.offered trade orders).sum := by
  by_cases reached : engine.Reached trade order
  · simp [offered, reached]
  · simp [offered, reached]

theorem tradeFill_pos {order : RestingOrder} (reached : engine.Reached trade order)
    (remaining : 0 < order.remainingQuantity) : 0 < engine.tradeFill trade order := by
  have queue := reached.queue
  rw [tradeFill]
  omega

theorem offered_nonneg (engine : MicrostructureEngine F) (trade : MarketTrade)
    {orders : List RestingOrder}
    (remaining : ∀ order ∈ orders, 0 < order.remainingQuantity) :
    0 ≤ (engine.offered trade orders).sum := by
  apply List.sum_nonneg
  intro quantity member
  rcases List.mem_map.mp member with ⟨order, inside, rfl⟩
  rcases List.mem_filter.mp inside with ⟨resting, reached⟩
  exact (tradeFill_pos (of_decide_eq_true reached) (remaining order resting)).le

/-- What the round of a trade gives is what it moves the position by. It is no more than
what it offers, and all of it where the position limit leaves room. -/
structure Gives (engine : MicrostructureEngine F) (trade : MarketTrade) (position : Int)
    (orders : List RestingOrder) (given : Round F) : Prop where
  moves : signed (-trade.aggressorSide) given.position =
    signed (-trade.aggressorSide) position + volume (given.filled.map Prod.snd)
  offers : volume (given.filled.map Prod.snd) ≤ (engine.offered trade orders).sum
  all : (engine.offered trade orders).sum ≤ engine.room trade position →
    volume (given.filled.map Prod.snd) = (engine.offered trade orders).sum

section Turn

variable {position : Int} {order : RestingOrder} {orders : List RestingOrder}

theorem Gives.filled (reached : engine.Reached trade order)
    (admits : engine.Admits trade position order)
    (rest : Gives engine trade (engine.tradeTurn trade position order).position orders
      (round (engine.tradeTurn trade) (engine.tradeTurn trade position order).position orders)) :
    Gives engine trade position (order :: orders)
      (round (engine.tradeTurn trade) position (order :: orders)) := by
  rcases tradeTurn_filled reached admits with ⟨moved, _, fill, made, _, quantity⟩
  have total : volume ((round (engine.tradeTurn trade) position (order :: orders)).filled.map
      Prod.snd) = engine.tradeFill trade order + volume ((round (engine.tradeTurn trade)
        (engine.tradeTurn trade position order).position orders).filled.map Prod.snd) := by
    simp [round, made, volume, quantity]
  have offers : (engine.offered trade (order :: orders)).sum =
      engine.tradeFill trade order + (engine.offered trade orders).sum := by
    rw [offered_cons, if_pos reached]
  have ahead : signed (-trade.aggressorSide) (engine.tradeTurn trade position order).position =
      signed (-trade.aggressorSide) position + engine.tradeFill trade order := by
    rw [moved, signed_of_reached reached, signed_add]
  constructor
  · calc
      _ = signed (-trade.aggressorSide) (engine.tradeTurn trade position order).position +
            volume ((round (engine.tradeTurn trade)
              (engine.tradeTurn trade position order).position orders).filled.map Prod.snd) :=
          rest.moves
      _ = _ := by rw [ahead, total, add_assoc]
  · rw [total, offers]
    exact Int.add_le_add_left rest.offers _
  · rw [total, offers]
    intro fits
    have left : (engine.offered trade orders).sum ≤
        engine.room trade (engine.tradeTurn trade position order).position := by
      rw [room] at fits ⊢
      omega
    rw [rest.all left]

theorem Gives.unfilled
    (unfilled : ¬ (engine.Reached trade order ∧ engine.Admits trade position order))
    (rest : Gives engine trade position orders (round (engine.tradeTurn trade) position orders))
    (more : (engine.offered trade orders).sum ≤ (engine.offered trade (order :: orders)).sum)
    (all : (engine.offered trade (order :: orders)).sum ≤ engine.room trade position →
      (engine.offered trade (order :: orders)).sum = (engine.offered trade orders).sum) :
    Gives engine trade position (order :: orders)
      (round (engine.tradeTurn trade) position (order :: orders)) := by
  rcases tradeTurn_unfilled unfilled with ⟨kept, _, none⟩
  have total : volume ((round (engine.tradeTurn trade) position (order :: orders)).filled.map
      Prod.snd) = volume ((round (engine.tradeTurn trade) position orders).filled.map
        Prod.snd) := by
    simp [round, none, kept]
  constructor
  · rw [total]
    simpa [round, kept] using rest.moves
  · calc
      _ = volume ((round (engine.tradeTurn trade) position orders).filled.map Prod.snd) := total
      _ ≤ (engine.offered trade orders).sum := rest.offers
      _ ≤ (engine.offered trade (order :: orders)).sum := more
  · intro fits
    rw [total, all fits]
    apply rest.all
    rw [← all fits]
    exact fits

theorem offered_refused (reached : engine.Reached trade order)
    (refused : ¬ engine.Admits trade position order) (limit : |position| ≤ engine.maxPosition)
    (here : 0 < order.remainingQuantity)
    (remaining : ∀ order ∈ orders, 0 < order.remainingQuantity) :
    engine.room trade position < (engine.offered trade (order :: orders)).sum := by
  have positive := tradeFill_pos reached here
  have more := offered_nonneg engine trade remaining
  have full : ¬ |position + signed order.side (engine.tradeFill trade order)| ≤
      engine.maxPosition := fun admitted => refused ⟨admitted, positive⟩
  rw [signed_of_reached reached, not_le, room_of_refused _ limit positive.le] at full
  rw [offered_cons, if_pos reached, room]
  omega

end Turn

theorem round_gives (trade : MarketTrade) (orders : List RestingOrder) {position : Int}
    (remaining : ∀ order ∈ orders, 0 < order.remainingQuantity)
    (limit : |position| ≤ engine.maxPosition) :
    Gives engine trade position orders (round (engine.tradeTurn trade) position orders) := by
  induction orders generalizing position with
  | nil => constructor <;> simp [round, volume, offered]
  | cons order orders ih =>
      rcases List.forall_mem_cons.mp remaining with ⟨here, later⟩
      by_cases reached : engine.Reached trade order
      · by_cases admits : engine.Admits trade position order
        · apply Gives.filled reached admits
          exact ih later ((tradeTurn_effect engine trade position order).limit limit)
        · have positive := tradeFill_pos reached here
          apply Gives.unfilled (fun filled => admits filled.2) (ih later limit)
          · rw [offered_cons, if_pos reached]
            omega
          · intro fits
            exact absurd (offered_refused reached admits limit here later) (not_lt.mpr fits)
      · have same : (engine.offered trade (order :: orders)).sum =
            (engine.offered trade orders).sum := by
          rw [offered_cons, if_neg reached, zero_add]
        exact Gives.unfilled (fun filled => reached filled.1) (ih later limit) same.ge
          (fun _ => same)

theorem volume_le_room (trade : MarketTrade) (sane : Sane engine) :
    volume (engine.onMarketTrade trade).2 ≤ engine.room trade engine.position := by
  have gives := round_gives trade engine.restingOrders sane.remaining sane.limit
  have limit := (round_effect (tradeTurn_effect engine trade) engine.restingOrders sane.limit).1
  have inside : signed (-trade.aggressorSide)
      (round (engine.tradeTurn trade) engine.position engine.restingOrders).position ≤
        engine.maxPosition := by
    rw [abs_le'] at limit
    rw [signed]
    split <;> omega
  have moves := gives.moves
  have returned : (engine.onMarketTrade trade).2 =
      (round (engine.tradeTurn trade) engine.position engine.restingOrders).filled.map Prod.snd :=
    rfl
  rw [returned, room]
  omega

end Trade

theorem step_shares {before after : MicrostructureEngine F} {event : Event}
    {fills : List (Fill F)} (sane : Sane before)
    (stepped : before.step event = some (after, fills)) :
    (Shares before event fills after → NotOverAllocated before event fills after) ∧
      (Unbound before event → (NotOverAllocated before event fills after ↔
        Shares before event fills after)) := by
  cases event with
  | quote quote => exact ⟨fun _ => trivial, fun _ => Iff.rfl⟩
  | signal signal => exact ⟨fun _ => trivial, fun _ => Iff.rfl⟩
  | trade trade =>
      simp only [step, Option.some.injEq] at stepped
      have returned : fills = (before.onMarketTrade trade).2 := by rw [stepped]
      have gives := round_gives trade before.restingOrders sane.remaining sane.limit
      have fits := volume_le_room trade sane
      have offers : volume fills ≤ (before.offered trade before.restingOrders).sum := by
        rw [returned]
        exact gives.offers
      rw [← returned] at fits
      have enough : Shares before (.trade trade) fills after →
          NotOverAllocated before (.trade trade) fills after := by
        intro shares nonneg
        rcases shares nonneg with few | bounded
        · calc
            volume fills ≤ (before.offered trade before.restingOrders).sum := offers
            _ ≤ trade.quantity := few
        · calc
            volume fills ≤ before.room trade before.position := fits
            _ ≤ trade.quantity := bounded
      apply And.intro enough
      intro unbound
      apply Iff.intro _ enough
      intro kept nonneg
      have all : volume fills = (before.offered trade before.restingOrders).sum := by
        rw [returned]
        exact gives.all unbound
      exact .inl (all ▸ kept nonneg)

/-- In every run of a new engine whose trades are shared, no trade is given to more than its
quantity; and a trade from which the position limit refuses nothing has to be shared. -/
theorem traded_volume_shared {maxPosition : Int} {config : Option (MicrostructureConfig F)}
    {engine : MicrostructureEngine F} (created : create maxPosition config = .ok engine)
    (events : List Event) :
    (Machine.Along step Shares engine events →
      Machine.Along step NotOverAllocated engine events) ∧
      Machine.Along step (fun before event fills after => Unbound before event →
        (NotOverAllocated before event fills after ↔ Shares before event fills after))
        engine events := by
  have sane := create_sane created
  constructor
  · apply Machine.along_of_keep Sane (A := fun _ => True) _ sane (fun _ _ => trivial)
    intro before event fills after holds _ stepped shares
    exact ⟨(step_shares holds stepped).1 shares, step_sane holds stepped⟩
  · apply Machine.along_of_invariant Sane _ sane
    intro before event fills after holds stepped
    exact ⟨(step_shares holds stepped).2, step_sane holds stepped⟩

def twoOrders (quantity : Int) : List Event :=
  [.quote { timestampNs := 1000, bidTicks := 99, askTicks := 102 },
    .signal { timestampNs := 1100, side := 1, quantity := 10, orderType := .limit,
              limitPriceTicks := some 100 },
    .signal { timestampNs := 1200, side := 1, quantity := 10, orderType := .limit,
              limitPriceTicks := some 100 },
    .trade ⟨5000, 100, quantity, -1⟩]

theorem traded_volume_shared_large :
    ∃ engine : MicrostructureEngine Rat, create 500 none = .ok engine ∧
      Machine.Along step NotOverAllocated engine (twoOrders 30) := by
  have created : create 500 (none : Option (MicrostructureConfig Rat)) = .ok _ := rfl
  apply Exists.intro _
  apply And.intro created
  apply (traded_volume_shared created _).1
  decide +kernel

/-- A trade of 10 fills both orders of 10. -/
theorem trade_filled_twice :
    ∃ engine : MicrostructureEngine Rat, create 500 none = .ok engine ∧
      ¬ Machine.Along step NotOverAllocated engine (twoOrders 10) := by
  have created : create 500 (none : Option (MicrostructureConfig Rat)) = .ok _ := rfl
  apply Exists.intro _
  apply And.intro created
  intro kept
  have last := ((((kept _ _ rfl).2 _ _ rfl).2 _ _ rfl).2 _ _ rfl).1 (by decide)
  exact absurd last (by decide +kernel)

end Ito.Backtest.MicrostructureEngine
