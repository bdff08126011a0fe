import Ito.MicrostructureRuns

/-! The backtest engine where a number is too large for a float.

Source: `python/backtest/engine.py`. Python raises an exception where it has to make a float of
an integer that is too large for one, or an integer of a float that is not finite. The engine
catches none, so that a call that raises leaves behind whatever it had changed by then. -/

namespace Ito.Backtest

/-- Floats with what Python raises for them: not every integer is `convertible`, and `int` is
for a `finite` float only. -/
class CheckedFloat (F : Type) extends PythonFloat F where
  convertible : Int → Bool
  finite : F → Bool

/-- Numbers that do not round, for the integers that Python makes floats of. -/
instance : CheckedFloat Rat where
  convertible number := |number| < 2 ^ 1024 - 2 ^ 970
  finite _ := true

open CheckedFloat

variable {F : Type} [CheckedFloat F]

namespace MicrostructureEngine

/-- What a turn comes to, the order as the turn leaves it, and whether the turn raises before
its fill is recorded. -/
structure Attempt (F : Type) [CheckedFloat F] where
  turn : Turn F
  order : RestingOrder
  raised : Bool

/-- A round as far as it gets, with the orders as it leaves them. -/
structure Tried (F : Type) [CheckedFloat F] where
  round : Round F
  orders : List RestingOrder
  raised : Bool

def attemptRound (attempt : Int → RestingOrder → Attempt F) : Int → List RestingOrder → Tried F
  | position, [] => ⟨⟨position, [], []⟩, [], false⟩
  | position, order :: orders =>
      let now := attempt position order
      if now.raised then ⟨⟨now.turn.position, [], []⟩, now.order :: orders, true⟩
      else
        let rest := attemptRound attempt now.turn.position orders
        ⟨⟨rest.round.position, now.turn.surviving.toList ++ rest.round.surviving,
          (now.turn.fill.map fun fill => (order, fill)).toList ++ rest.round.filled⟩,
          now.order :: rest.orders, rest.raised⟩

/-- The state after a round. Where it raised, the orders are those that it began with, each as
the round left it. -/
def settleTried (engine : MicrostructureEngine F) (tried : Tried F) :
    MicrostructureEngine F × Option (List (Fill F)) :=
  if tried.raised then
    ({ engine with
       position := tried.round.position
       restingOrders := tried.orders
       fills := engine.fills ++ tried.round.filled.map Prod.snd }, none)
  else (engine.settle tried.round, some (tried.round.filled.map Prod.snd))

def queueConverts (engine : MicrostructureEngine F) (order : RestingOrder) : Bool :=
  convertible F order.queueAhead && finite
    (PythonFloat.ofInt order.queueAhead * (1.0 - engine.config.queueCancellationRate) : F)

def costsConvert (spread : Int) (fill : Fill F) : Bool :=
  convertible F spread && convertible F (fill.quantity * fill.priceTicks)

def attemptTrade (engine : MicrostructureEngine F) (trade : MarketTrade) (position : Int)
    (order : RestingOrder) : Attempt F :=
  if order.arrivalTimeNs > trade.timestampNs then ⟨⟨position, some order, none⟩, order, false⟩
  else if Matches trade order ∧ ¬ engine.queueConverts order then
    ⟨⟨position, none, none⟩, order, true⟩
  else
    let turn := engine.tradeTurn trade position order
    -- The order is reduced in place before the costs of its fill are computed.
    ⟨turn, (engine.matchTrade trade position order).2.1,
      turn.fill.any fun fill => !costsConvert engine.book.spread fill⟩

def onMarketTradeChecked (engine : MicrostructureEngine F) (trade : MarketTrade) :
    MicrostructureEngine F × Option (List (Fill F)) :=
  let engine := { engine with currentTimeNs := max engine.currentTimeNs trade.timestampNs }
  engine.settleTried (attemptRound (engine.attemptTrade trade) engine.position engine.restingOrders)

def attemptQuote (engine : MicrostructureEngine F) (quote : Quote) (position : Int)
    (order : RestingOrder) : Attempt F :=
  let turn := engine.quoteTurn quote position order
  ⟨turn, order,
    turn.fill.any fun fill => !costsConvert (max 1 (quote.askTicks - quote.bidTicks)) fill⟩

def onQuoteChecked (engine : MicrostructureEngine F) (quote : Quote) :
    MicrostructureEngine F × Option (List (Fill F)) :=
  if Quotable quote then
    let engine := engine.quoted quote
    engine.settleTried
      (attemptRound (engine.attemptQuote quote) engine.position engine.restingOrders)
  else (engine, some [])

def midConverts (F : Type) [CheckedFloat F] (book : L2OrderBook) : Bool :=
  if book.bestBid > 0 ∧ book.bestAsk > 0 then convertible F (book.bestBid + book.bestAsk)
  else convertible F (if book.bestBid ≠ 0 then book.bestBid else book.bestAsk)

def takerConverts (engine : MicrostructureEngine F) (matchQty priceTicks : Int) : Bool :=
  finite (engine.book.midPrice : F) && convertible F (matchQty * priceTicks)

/-- The loop of `_execute_aggressive`: the position, the ladder and the fills after it, and
whether it raises. -/
def walkChecked (engine : MicrostructureEngine F) (signal : Signal) (arrivalTime latency : Int) :
    Int → Int → List BookLevel → Int × List BookLevel × List (Fill F) × Bool
  | position, _, [] => (position, [], [], false)
  | position, remaining, level :: ladder =>
      if remaining ≤ 0 then (position, level :: ladder, [], false)
      else if level.size ≤ 0 then
        let rest := walkChecked engine signal arrivalTime latency position remaining ladder
        (rest.1, level :: rest.2.1, rest.2.2)
      else
        let matchQty := min remaining level.size
        let signedQty := signed signal.side matchQty
        if |position + signedQty| > engine.maxPosition then (position, level :: ladder, [], false)
        -- Position and level are changed before the slippage and the fee are computed.
        else if ¬ engine.takerConverts matchQty level.priceTicks then
          (position + signedQty, { level with size := level.size - matchQty } :: ladder, [], true)
        else
          let rest := walkChecked engine signal arrivalTime latency (position + signedQty)
            (remaining - matchQty) ladder
          (rest.1, { level with size := level.size - matchQty } :: rest.2.1,
            { timestampNs := arrivalTime
              priceTicks := level.priceTicks
              quantity := matchQty
              side := signal.side
              isMaker := false
              feeTicks := PythonFloat.ofInt (matchQty * level.priceTicks) *
                (engine.config.takerFeeBps / 10000.0)
              slippageTicks :=
                |level.priceTicks - PythonFloat.trunc (engine.book.midPrice (F := F))|
              latencyNs := latency
              adverseSelectionCostTicks := 0.0 } :: rest.2.2.1,
            rest.2.2.2)

def executeAggressiveChecked (engine : MicrostructureEngine F) (signal : Signal)
    (arrivalTime latency : Int) : MicrostructureEngine F × Option (List (Fill F)) :=
  if engine.ladder signal.side = [] then (engine, some [])
  else if ¬ midConverts F engine.book then (engine, none)
  else
    let walked := engine.walkChecked signal arrivalTime latency engine.position signal.quantity
      (engine.ladder signal.side)
    ({ engine with
       position := walked.1
       book :=
         if signal.side > 0 then { engine.book with asks := walked.2.1 }
         else { engine.book with bids := walked.2.1 }
       fills := engine.fills ++ walked.2.2.1 },
      if walked.2.2.2 then none else some walked.2.2.1)

def placeLimitChecked (engine : MicrostructureEngine F) (signal : Signal)
    (arrivalTime latency : Int) (isPostOnly : Bool) :
    MicrostructureEngine F × Option (List (Fill F)) :=
  if engine.Crosses signal.side (engine.limitPrice signal) ∧ ¬ isPostOnly then
    engine.executeAggressiveChecked signal arrivalTime latency
  else
    let placed := engine.placeLimit signal arrivalTime latency isPostOnly
    (placed.1, some placed.2)

def submitOrderChecked (engine : MicrostructureEngine F) (signal : Signal) :
    MicrostructureEngine F × Option (List (Fill F)) :=
  if Submittable signal then
    let latency :=
      if signal.latencyNs ≠ 0 then signal.latencyNs
      else engine.config.wireLatencyNs + engine.config.engineLatencyNs
    let arrivalTime := signal.timestampNs + latency
    let engine := { engine with currentTimeNs := max engine.currentTimeNs arrivalTime }
    match signal.orderType with
    | .market => engine.executeAggressiveChecked signal arrivalTime latency
    | .limit => engine.placeLimitChecked signal arrivalTime latency false
    | .postOnly => engine.placeLimitChecked signal arrivalTime latency true
    | .other => (engine, some [])
  else (engine, some [])

/-- A call with what it returns, which is nothing where it raises. -/
def stepChecked (engine : MicrostructureEngine F) : Event →
    Option (MicrostructureEngine F × Option (List (Fill F)))
  | .quote quote => some (engine.onQuoteChecked quote)
  | .trade trade => some (engine.onMarketTradeChecked trade)
  | .signal signal => some (engine.submitOrderChecked signal)

/-! Where nothing raises -/

section Agree

variable {engine : MicrostructureEngine F} {attempt : Int → RestingOrder → Attempt F}
  {turn : Int → RestingOrder → Turn F}

theorem attemptRound_eq
    (agrees : ∀ position order, (attempt position order).raised = false →
      (attempt position order).turn = turn position order)
    {position : Int} {orders : List RestingOrder}
    (quiet : (attemptRound attempt position orders).raised = false) :
    (attemptRound attempt position orders).round = round turn position orders := by
  induction orders generalizing position with
  | nil => rfl
  | cons order orders ih =>
      rw [attemptRound] at quiet ⊢
      by_cases raises : (attempt position order).raised = true
      · rw [if_pos raises] at quiet
        simp at quiet
      · rw [if_neg raises] at quiet ⊢
        have same := agrees position order (Bool.eq_false_iff.mpr raises)
        rw [round, ← same, ← ih quiet]

theorem settleTried_eq
    (agrees : ∀ position order, (attempt position order).raised = false →
      (attempt position order).turn = turn position order)
    {next : MicrostructureEngine F} {fills : List (Fill F)}
    (settled : engine.settleTried (attemptRound attempt engine.position engine.restingOrders) =
      (next, some fills)) :
    next = engine.settle (round turn engine.position engine.restingOrders) ∧
      fills = (round turn engine.position engine.restingOrders).filled.map Prod.snd := by
  rw [settleTried] at settled
  split at settled
  · simp at settled
  · rename_i quiet
    have same := attemptRound_eq agrees (Bool.eq_false_iff.mpr quiet)
    rw [Prod.mk.injEq, Option.some.injEq, same] at settled
    exact ⟨settled.1.symm, settled.2.symm⟩

theorem attemptTrade_eq (trade : MarketTrade) (position : Int) (order : RestingOrder)
    (quiet : (engine.attemptTrade trade position order).raised = false) :
    (engine.attemptTrade trade position order).turn = engine.tradeTurn trade position order := by
  rw [attemptTrade] at quiet ⊢
  split at quiet
  · rename_i early
    rw [if_pos early, tradeTurn, if_pos early]
  · rename_i arrived
    rw [if_neg arrived]
    split at quiet
    · simp at quiet
    · rename_i converts
      rw [if_neg converts]

theorem attemptQuote_eq (quote : Quote) (position : Int) (order : RestingOrder)
    (_ : (engine.attemptQuote quote position order).raised = false) :
    (engine.attemptQuote quote position order).turn = engine.quoteTurn quote position order := rfl

theorem walkChecked_eq (signal : Signal) (arrivalTime latency : Int) (ladder : List BookLevel)
    {position remaining : Int}
    (quiet : (engine.walkChecked signal arrivalTime latency position remaining
      ladder).2.2.2 = false) :
    engine.walk signal arrivalTime latency position remaining ladder =
      ((engine.walkChecked signal arrivalTime latency position remaining ladder).1,
        (engine.walkChecked signal arrivalTime latency position remaining ladder).2.1,
        (engine.walkChecked signal arrivalTime latency position remaining ladder).2.2.1) := by
  induction ladder generalizing position remaining with
  | nil => rfl
  | cons level ladder ih =>
      rw [walkChecked] at quiet ⊢
      rw [walk]
      by_cases done : remaining ≤ 0
      · simp only [if_pos done]
      · by_cases empty : level.size ≤ 0
        · simp only [if_neg done, if_pos empty] at quiet ⊢
          rw [ih quiet]
        · by_cases beyond : |position + signed signal.side (min remaining level.size)| >
            engine.maxPosition
          · simp only [if_neg done, if_neg empty, if_pos beyond]
          · by_cases converts : engine.takerConverts (min remaining level.size) level.priceTicks
            · simp only [if_neg done, if_neg empty, if_neg beyond, converts, not_true_eq_false,
                if_false] at quiet ⊢
              rw [ih quiet]
            · simp [done, empty, beyond, converts] at quiet

theorem executeAggressive_empty {signal : Signal} (empty : engine.ladder signal.side = [])
    (arrivalTime latency : Int) :
    engine.executeAggressive signal arrivalTime latency = (engine, []) := by
  simp only [executeAggressive, empty, walk, List.append_nil]
  rw [ladder] at empty
  split at empty <;> rename_i side <;> simp [side, ← empty]

theorem executeAggressiveChecked_eq {signal : Signal} {arrivalTime latency : Int}
    {next : MicrostructureEngine F} {fills : List (Fill F)}
    (executed : engine.executeAggressiveChecked signal arrivalTime latency = (next, some fills)) :
    engine.executeAggressive signal arrivalTime latency = (next, fills) := by
  rw [executeAggressiveChecked] at executed
  split at executed
  · rename_i empty
    rw [Prod.mk.injEq, Option.some.injEq] at executed
    rw [executeAggressive_empty empty, executed.1, executed.2]
  · split at executed
    · simp at executed
    · rw [Prod.mk.injEq] at executed
      rcases executed with ⟨same, returned⟩
      split at returned
      · simp at returned
      · rename_i quiet
        have walked := walkChecked_eq signal arrivalTime latency (engine.ladder signal.side)
          (Bool.eq_false_iff.mpr quiet)
        rw [executeAggressive, walked, ← same, ← Option.some.inj returned]

theorem placeLimitChecked_eq {signal : Signal} {arrivalTime latency : Int} {isPostOnly : Bool}
    {next : MicrostructureEngine F} {fills : List (Fill F)}
    (placed : engine.placeLimitChecked signal arrivalTime latency isPostOnly = (next, some fills)) :
    engine.placeLimit signal arrivalTime latency isPostOnly = (next, fills) := by
  rw [placeLimitChecked] at placed
  split at placed
  · rename_i crosses
    have walks := (placeLimit_cases engine signal arrivalTime latency isPostOnly).1 crosses.1
    rw [walks, if_neg crosses.2]
    exact executeAggressiveChecked_eq placed
  · rw [Prod.mk.injEq, Option.some.injEq] at placed
    rw [← placed.1, ← placed.2]

theorem submitOrderChecked_eq {signal : Signal} {next : MicrostructureEngine F}
    {fills : List (Fill F)} (submitted : engine.submitOrderChecked signal = (next, some fills)) :
    engine.submitOrder signal = (next, fills) := by
  rw [submitOrderChecked] at submitted
  rw [submitOrder]
  split at submitted
  · rename_i submittable
    rw [if_pos submittable]
    dsimp only at submitted ⊢
    cases type : signal.orderType with
    | market =>
        rw [type] at submitted
        exact executeAggressiveChecked_eq submitted
    | limit | postOnly =>
        rw [type] at submitted
        exact placeLimitChecked_eq submitted
    | other =>
        rw [type] at submitted
        rw [Prod.mk.injEq, Option.some.injEq] at submitted
        rw [← submitted.1, ← submitted.2]
  · rename_i refused
    rw [Prod.mk.injEq, Option.some.injEq] at submitted
    rw [if_neg refused, submitted.1, submitted.2]

theorem step_of_stepChecked {event : Event} {next : MicrostructureEngine F} {fills : List (Fill F)}
    (stepped : engine.stepChecked event = some (next, some fills)) :
    engine.step event = some (next, fills) := by
  cases event with
  | quote quote =>
      have call : engine.onQuoteChecked quote = (next, some fills) := Option.some.inj stepped
      rw [onQuoteChecked] at call
      rw [step, onQuote]
      split at call
      · rename_i quotable
        rcases settleTried_eq (attemptQuote_eq quote) call with ⟨settled, filled⟩
        rw [if_pos quotable, settled, filled]
        rfl
      · rename_i refused
        rw [Prod.mk.injEq, Option.some.injEq] at call
        rw [if_neg refused, call.1, call.2]
  | trade trade =>
      have call : engine.onMarketTradeChecked trade = (next, some fills) := Option.some.inj stepped
      rcases settleTried_eq (attemptTrade_eq trade) call with ⟨settled, filled⟩
      rw [step, settled, filled]
      rfl
  | signal signal =>
      rw [step, submitOrderChecked_eq (Option.some.inj stepped)]

end Agree

/-! The position limit, whether a call raises or not -/

structure Limited (maxPosition : Int) (engine : MicrostructureEngine F) : Prop where
  same : engine.maxPosition = maxPosition
  limit : |engine.position| ≤ maxPosition

section Limit

variable {engine : MicrostructureEngine F} {maxPosition : Int}

theorem create_limited {config : Option (MicrostructureConfig F)}
    (created : create maxPosition config = .ok engine) : Limited maxPosition engine := by
  rw [create] at created
  split at created
  · simp at created
  · rename_i positive
    rw [← Except.ok.inj created]
    exact ⟨rfl, by simp; omega⟩

theorem attemptRound_limit {attempt : Int → RestingOrder → Attempt F}
    (turns : ∀ position order, |position| ≤ maxPosition →
      |(attempt position order).turn.position| ≤ maxPosition)
    (orders : List RestingOrder) {position : Int} (limit : |position| ≤ maxPosition) :
    |(attemptRound attempt position orders).round.position| ≤ maxPosition := by
  induction orders generalizing position with
  | nil => exact limit
  | cons order orders ih =>
      have here := turns position order limit
      rw [attemptRound]
      split
      · exact here
      · exact ih here

theorem settleTried_limited {attempt : Int → RestingOrder → Attempt F}
    (turns : ∀ position order, |position| ≤ maxPosition →
      |(attempt position order).turn.position| ≤ maxPosition)
    (limited : Limited maxPosition engine) :
    Limited maxPosition
      (engine.settleTried (attemptRound attempt engine.position engine.restingOrders)).1 := by
  have kept := attemptRound_limit turns engine.restingOrders limited.limit
  rw [settleTried]
  split <;> exact ⟨limited.same, kept⟩

theorem attemptTrade_limit (limited : Limited maxPosition engine) (trade : MarketTrade)
    (position : Int) (order : RestingOrder) (limit : |position| ≤ maxPosition) :
    |(engine.attemptTrade trade position order).turn.position| ≤ maxPosition := by
  have effect := tradeTurn_effect engine trade position order
  rw [← limited.same] at limit ⊢
  rw [attemptTrade]
  split
  · exact limit
  · split
    · exact limit
    · exact effect.limit limit

theorem attemptQuote_limit (limited : Limited maxPosition engine) (quote : Quote)
    (position : Int) (order : RestingOrder) (limit : |position| ≤ maxPosition) :
    |(engine.attemptQuote quote position order).turn.position| ≤ maxPosition := by
  have effect := quoteTurn_effect engine quote position order
  rw [← limited.same] at limit ⊢
  exact effect.limit limit

theorem walkChecked_limit (limited : Limited maxPosition engine) (signal : Signal)
    (arrivalTime latency : Int) (ladder : List BookLevel) {position : Int} (remaining : Int)
    (limit : |position| ≤ maxPosition) :
    |(engine.walkChecked signal arrivalTime latency position remaining ladder).1| ≤
      maxPosition := by
  induction ladder generalizing position remaining with
  | nil => exact limit
  | cons level ladder ih =>
      rw [walkChecked]
      split
      · exact limit
      · split
        · exact ih remaining limit
        · dsimp only
          rw [limited.same]
          split
          · exact limit
          · rename_i room
            split
            · exact not_lt.mp room
            · exact ih _ (not_lt.mp room)

theorem executeAggressiveChecked_limited (limited : Limited maxPosition engine) (signal : Signal)
    (arrivalTime latency : Int) :
    Limited maxPosition (engine.executeAggressiveChecked signal arrivalTime latency).1 := by
  rw [executeAggressiveChecked]
  split
  · exact limited
  · split
    · exact limited
    · exact ⟨limited.same, walkChecked_limit limited signal _ _ _ _ limited.limit⟩

theorem placeLimitChecked_limited (limited : Limited maxPosition engine) (signal : Signal)
    (arrivalTime latency : Int) (isPostOnly : Bool) :
    Limited maxPosition (engine.placeLimitChecked signal arrivalTime latency isPostOnly).1 := by
  rw [placeLimitChecked]
  split
  · exact executeAggressiveChecked_limited limited signal arrivalTime latency
  · rename_i stays
    have placing := placeLimit_cases engine signal arrivalTime latency isPostOnly
    by_cases crosses : engine.Crosses signal.side (engine.limitPrice signal)
    · have postOnly : isPostOnly = true := by
        by_contra other
        exact stays ⟨crosses, other⟩
      rw [placing.1 crosses, if_pos postOnly]
      exact limited
    · rcases placing.2 crosses with ⟨order, _, placed⟩
      rw [placed]
      exact ⟨limited.same, limited.limit⟩

theorem submitOrderChecked_limited (limited : Limited maxPosition engine) (signal : Signal) :
    Limited maxPosition (engine.submitOrderChecked signal).1 := by
  rw [submitOrderChecked]
  split
  · dsimp only
    have clocked : ∀ time, Limited maxPosition { engine with currentTimeNs := time } :=
      fun _ => ⟨limited.same, limited.limit⟩
    split
    · exact executeAggressiveChecked_limited (clocked _) signal _ _
    · exact placeLimitChecked_limited (clocked _) signal _ _ _
    · exact placeLimitChecked_limited (clocked _) signal _ _ _
    · exact clocked _
  · exact limited

theorem stepChecked_limited {event : Event} {next : MicrostructureEngine F}
    {returned : Option (List (Fill F))} (limited : Limited maxPosition engine)
    (stepped : engine.stepChecked event = some (next, returned)) : Limited maxPosition next := by
  cases event with
  | quote quote =>
      have after : (engine.onQuoteChecked quote).1 = next :=
        congrArg Prod.fst (Option.some.inj stepped)
      rw [← after, onQuoteChecked]
      have quoted : Limited maxPosition (engine.quoted quote) := ⟨limited.same, limited.limit⟩
      split
      · exact settleTried_limited (attemptQuote_limit quoted quote) quoted
      · exact limited
  | trade trade =>
      have after : (engine.onMarketTradeChecked trade).1 = next :=
        congrArg Prod.fst (Option.some.inj stepped)
      rw [← after, onMarketTradeChecked]
      have clocked : Limited maxPosition
          { engine with currentTimeNs := max engine.currentTimeNs trade.timestampNs } :=
        ⟨limited.same, limited.limit⟩
      exact settleTried_limited (attemptTrade_limit clocked trade) clocked
  | signal signal =>
      have after : (engine.submitOrderChecked signal).1 = next :=
        congrArg Prod.fst (Option.some.inj stepped)
      rw [← after]
      exact submitOrderChecked_limited limited signal

end Limit

end MicrostructureEngine

end Ito.Backtest
