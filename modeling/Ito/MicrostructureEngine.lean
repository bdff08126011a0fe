import Mathlib.Data.List.Sort
import Mathlib.Data.Rat.Defs
import Mathlib.Algebra.Order.Group.Unbundled.Int

/-! The backtest engine: a quoted book, aggressive orders that walk it, and passive
orders that wait in its queues.

Source: `python/backtest/engine.py`, without the replay of `ReplayBacktest`. -/

namespace Ito

/-- The operations on Python floats that the engine uses. Nothing is assumed of their
rounding. `trunc` is `int(x)` of a finite float. -/
class PythonFloat (F : Type) extends Neg F, Sub F, Mul F, Div F, OfScientific F where
  ofInt : Int → F
  trunc : F → Int

/-- Floats that do not round. -/
instance : PythonFloat Rat where
  ofInt number := number
  trunc value := value.num.tdiv value.den

namespace Backtest

structure Quote where
  timestampNs : Int
  bidTicks : Int
  askTicks : Int
  bidSize : Int := 100
  askSize : Int := 100
  bids : Option (List (Int × Int)) := none
  asks : Option (List (Int × Int)) := none
  deriving DecidableEq, Repr

/-- The order types that `submit_order` tells apart, whatever their case. -/
inductive OrderType where
  | market
  | limit
  | postOnly
  | other
  deriving DecidableEq, Repr

structure Signal where
  timestampNs : Int
  side : Int
  quantity : Int
  orderType : OrderType := .market
  limitPriceTicks : Option Int := none
  latencyNs : Int := 0
  deriving DecidableEq, Repr

structure MarketTrade where
  timestampNs : Int
  priceTicks : Int
  quantity : Int
  aggressorSide : Int
  deriving DecidableEq, Repr

structure BookLevel where
  priceTicks : Int
  size : Int
  deriving DecidableEq, Repr

structure L2OrderBook where
  bids : List BookLevel := []
  asks : List BookLevel := []
  deriving DecidableEq, Repr

structure RestingOrder where
  orderId : Int
  placedTimeNs : Int
  arrivalTimeNs : Int
  side : Int
  priceTicks : Int
  remainingQuantity : Int
  queueAhead : Int
  isPostOnly : Bool := false
  deriving DecidableEq, Repr

variable {F : Type} [PythonFloat F]

structure Fill (F : Type) [PythonFloat F] where
  timestampNs : Int
  priceTicks : Int
  quantity : Int
  side : Int
  isMaker : Bool := false
  feeTicks : F := 0.0
  slippageTicks : Int := 0
  latencyNs : Int := 0
  adverseSelectionCostTicks : F := 0.0

structure MicrostructureConfig (F : Type) [PythonFloat F] where
  wireLatencyNs : Int := 500
  engineLatencyNs : Int := 250
  makerFeeBps : F := -0.1
  takerFeeBps : F := 0.3
  queueCancellationRate : F := 0.2
  adverseSelectionAlpha : F := 0.4

structure MicrostructureEngine (F : Type) [PythonFloat F] where
  maxPosition : Int
  config : MicrostructureConfig F
  book : L2OrderBook := {}
  position : Int := 0
  fills : List (Fill F) := []
  restingOrders : List RestingOrder := []
  nextOrderId : Int := 1
  currentTimeNs : Int := 0

namespace L2OrderBook

/-- A list of levels that is given and not empty is sorted; else the quoted level stands
alone. -/
def levels (given : Option (List (Int × Int))) (before : Int → Int → Prop)
    [DecidableRel before] (price size : Int) : List BookLevel :=
  match given with
  | some (first :: rest) =>
      ((first :: rest).insertionSort fun a b => before a.1 b.1).map fun level =>
        ⟨level.1, level.2⟩
  | _ => [⟨price, size⟩]

def updateFromQuote (quote : Quote) : L2OrderBook where
  bids := levels quote.bids (· ≥ ·) quote.bidTicks quote.bidSize
  asks := levels quote.asks (· ≤ ·) quote.askTicks quote.askSize

def bestBid (book : L2OrderBook) : Int := (book.bids.head?.map BookLevel.priceTicks).getD 0

def bestAsk (book : L2OrderBook) : Int := (book.asks.head?.map BookLevel.priceTicks).getD 0

def midPrice (book : L2OrderBook) : F :=
  if book.bestBid > 0 ∧ book.bestAsk > 0 then
    PythonFloat.ofInt (book.bestBid + book.bestAsk) / 2.0
  else PythonFloat.ofInt (if book.bestBid ≠ 0 then book.bestBid else book.bestAsk)

def spread (book : L2OrderBook) : Int := max 0 (book.bestAsk - book.bestBid)

end L2OrderBook

def signed (side quantity : Int) : Int := if side > 0 then quantity else -quantity

namespace MicrostructureEngine

def create (maxPosition : Int) (config : Option (MicrostructureConfig F)) :
    Except String (MicrostructureEngine F) :=
  if maxPosition ≤ 0 then .error "max_position_invalid"
  else .ok { maxPosition, config := config.getD {} }

/-- What one resting order comes to: the position, the order if it goes on resting, and
its fill. -/
structure Turn (F : Type) [PythonFloat F] where
  position : Int
  surviving : Option RestingOrder
  fill : Option (Fill F) := none

/-- What a round over the resting orders comes to. The source returns the fills alone. -/
structure Round (F : Type) [PythonFloat F] where
  position : Int
  surviving : List RestingOrder
  filled : List (RestingOrder × Fill F)

def round (turn : Int → RestingOrder → Turn F) : Int → List RestingOrder → Round F
  | position, [] => ⟨position, [], []⟩
  | position, order :: orders =>
      let now := turn position order
      let rest := round turn now.position orders
      ⟨rest.position, now.surviving.toList ++ rest.surviving,
        (now.fill.map fun fill => (order, fill)).toList ++ rest.filled⟩

/-- The state after a round. -/
def settle (engine : MicrostructureEngine F) (round : Round F) : MicrostructureEngine F :=
  { engine with
    position := round.position
    restingOrders := round.surviving
    fills := engine.fills ++ round.filled.map Prod.snd }

def decayedQueue (engine : MicrostructureEngine F) (order : RestingOrder) : Int :=
  PythonFloat.trunc (PythonFloat.ofInt order.queueAhead * (1.0 - engine.config.queueCancellationRate))

def Matches (trade : MarketTrade) (order : RestingOrder) : Prop :=
  (order.side > 0 ∧ trade.aggressorSide < 0 ∧ trade.priceTicks ≤ order.priceTicks) ∨
    (order.side < 0 ∧ trade.aggressorSide > 0 ∧ trade.priceTicks ≥ order.priceTicks)

instance (trade : MarketTrade) (order : RestingOrder) : Decidable (Matches trade order) :=
  inferInstanceAs (Decidable (_ ∨ _))

def tradeFill (engine : MicrostructureEngine F) (trade : MarketTrade) (order : RestingOrder) :
    Int :=
  min order.remainingQuantity (trade.quantity - engine.decayedQueue order)

/-- One turn of the loop of `on_market_trade` for an order that has arrived. -/
def matchTrade (engine : MicrostructureEngine F) (trade : MarketTrade) (position : Int)
    (order : RestingOrder) : Int × RestingOrder × Option (Fill F) :=
  if Matches trade order then
    if trade.quantity > engine.decayedQueue order then
      let fillQty := engine.tradeFill trade order
      let signedFill := signed order.side fillQty
      if |position + signedFill| ≤ engine.maxPosition ∧ fillQty > 0 then
        (position + signedFill,
          { order with remainingQuantity := order.remainingQuantity - fillQty },
          some
            { timestampNs := trade.timestampNs
              priceTicks := order.priceTicks
              quantity := fillQty
              side := order.side
              isMaker := true
              feeTicks := PythonFloat.ofInt (fillQty * order.priceTicks) *
                (engine.config.makerFeeBps / 10000.0)
              slippageTicks := 0
              latencyNs := trade.timestampNs - order.placedTimeNs
              adverseSelectionCostTicks :=
                engine.config.adverseSelectionAlpha * PythonFloat.ofInt engine.book.spread })
      else (position, order, none)
    else
      (position,
        { order with queueAhead := max 0 (engine.decayedQueue order - trade.quantity) }, none)
  else (position, order, none)

def tradeTurn (engine : MicrostructureEngine F) (trade : MarketTrade) (position : Int)
    (order : RestingOrder) : Turn F :=
  if order.arrivalTimeNs > trade.timestampNs then ⟨position, some order, none⟩
  else
    let (position, order, fill) := engine.matchTrade trade position order
    ⟨position, if order.remainingQuantity > 0 then some order else none, fill⟩

def tradeRound (engine : MicrostructureEngine F) (trade : MarketTrade) : Round F :=
  round (engine.tradeTurn trade) engine.position engine.restingOrders

def onMarketTrade (engine : MicrostructureEngine F) (trade : MarketTrade) :
    MicrostructureEngine F × List (Fill F) :=
  let filled := engine.tradeRound trade
  ({ engine.settle filled with currentTimeNs := max engine.currentTimeNs trade.timestampNs },
    filled.filled.map Prod.snd)

def quotedPrice (quote : Quote) (order : RestingOrder) : Option Int :=
  if order.side > 0 ∧ quote.askTicks ≤ order.priceTicks then some quote.askTicks
  else if order.side < 0 ∧ quote.bidTicks ≥ order.priceTicks then some quote.bidTicks
  else none

/-- One turn of the loop of `_evaluate_resting_orders`. -/
def quoteTurn (engine : MicrostructureEngine F) (quote : Quote) (position : Int)
    (order : RestingOrder) : Turn F :=
  if order.arrivalTimeNs > quote.timestampNs then ⟨position, some order, none⟩
  else
    match quotedPrice quote order with
    | none => ⟨position, some order, none⟩
    | some fillPrice =>
        let signedFill := signed order.side order.remainingQuantity
        if |position + signedFill| ≤ engine.maxPosition then
          ⟨position + signedFill, none,
            some
              { timestampNs := quote.timestampNs
                priceTicks := fillPrice
                quantity := order.remainingQuantity
                side := order.side
                isMaker := true
                feeTicks := PythonFloat.ofInt (order.remainingQuantity * fillPrice) *
                  (engine.config.makerFeeBps / 10000.0)
                slippageTicks := 0
                latencyNs := quote.timestampNs - order.placedTimeNs
                adverseSelectionCostTicks := engine.config.adverseSelectionAlpha *
                  PythonFloat.ofInt (max 1 (quote.askTicks - quote.bidTicks)) }⟩
        else ⟨position, some order, none⟩

/-- `_evaluate_resting_orders` before its state is stored. -/
def quoteRound (engine : MicrostructureEngine F) (quote : Quote) : Round F :=
  round (engine.quoteTurn quote) engine.position engine.restingOrders

def Quotable (quote : Quote) : Prop :=
  ¬ (quote.timestampNs ≤ 0 ∨ quote.bidTicks ≤ 0 ∨ quote.askTicks < quote.bidTicks)

instance (quote : Quote) : Decidable (Quotable quote) := inferInstanceAs (Decidable (¬ _))

def quoted (engine : MicrostructureEngine F) (quote : Quote) : MicrostructureEngine F :=
  { engine with
    currentTimeNs := max engine.currentTimeNs quote.timestampNs
    book := .updateFromQuote quote }

def onQuote (engine : MicrostructureEngine F) (quote : Quote) :
    MicrostructureEngine F × List (Fill F) :=
  if Quotable quote then
    let filled := (engine.quoted quote).quoteRound quote
    ((engine.quoted quote).settle filled, filled.filled.map Prod.snd)
  else (engine, [])

/-- The loop of `_execute_aggressive`: the position, the ladder and the fills after it. -/
def walk (engine : MicrostructureEngine F) (signal : Signal) (arrivalTime latency : Int) :
    Int → Int → List BookLevel → Int × List BookLevel × List (Fill F)
  | position, _, [] => (position, [], [])
  | position, remaining, level :: ladder =>
      if remaining ≤ 0 then (position, level :: ladder, [])
      else if level.size ≤ 0 then
        let rest := walk engine signal arrivalTime latency position remaining ladder
        (rest.1, level :: rest.2.1, rest.2.2)
      else
        let matchQty := min remaining level.size
        let signedQty := signed signal.side matchQty
        if |position + signedQty| > engine.maxPosition then (position, level :: ladder, [])
        else
          let rest := walk engine signal arrivalTime latency (position + signedQty)
            (remaining - matchQty) ladder
          (rest.1, { level with size := level.size - matchQty } :: rest.2.1,
            { timestampNs := arrivalTime
              priceTicks := level.priceTicks
              quantity := matchQty
              side := signal.side
              isMaker := false
              feeTicks := PythonFloat.ofInt (matchQty * level.priceTicks) *
                (engine.config.takerFeeBps / 10000.0)
              slippageTicks :=
                |level.priceTicks - PythonFloat.trunc (engine.book.midPrice (F := F))|
              latencyNs := latency
              adverseSelectionCostTicks := 0.0 } :: rest.2.2)

def ladder (engine : MicrostructureEngine F) (side : Int) : List BookLevel :=
  if side > 0 then engine.book.asks else engine.book.bids

def executeAggressive (engine : MicrostructureEngine F) (signal : Signal)
    (arrivalTime latency : Int) : MicrostructureEngine F × List (Fill F) :=
  let walked := engine.walk signal arrivalTime latency engine.position signal.quantity
    (engine.ladder signal.side)
  ({ engine with
     position := walked.1
     book :=
       if signal.side > 0 then { engine.book with asks := walked.2.1 }
       else { engine.book with bids := walked.2.1 }
     fills := engine.fills ++ walked.2.2 },
    walked.2.2)

def limitPrice (engine : MicrostructureEngine F) (signal : Signal) : Int :=
  match signal.limitPriceTicks with
  | some price => price
  | none => if signal.side > 0 then engine.book.bestBid else engine.book.bestAsk

def Crosses (engine : MicrostructureEngine F) (side price : Int) : Prop :=
  (side > 0 ∧ price ≥ engine.book.bestAsk ∧ engine.book.bestAsk > 0) ∨
    (side < 0 ∧ price ≤ engine.book.bestBid ∧ engine.book.bestBid > 0)

instance (engine : MicrostructureEngine F) (side price : Int) :
    Decidable (engine.Crosses side price) := inferInstanceAs (Decidable (_ ∨ _))

/-- The size of the first level of the order's own side at its price. -/
def queueAhead (engine : MicrostructureEngine F) (side price : Int) : Int :=
  let own := if side > 0 then engine.book.bids else engine.book.asks
  ((own.find? fun level => level.priceTicks = price).map BookLevel.size).getD 0

def placeLimit (engine : MicrostructureEngine F) (signal : Signal) (arrivalTime latency : Int)
    (isPostOnly : Bool) : MicrostructureEngine F × List (Fill F) :=
  let price := engine.limitPrice signal
  if engine.Crosses signal.side price then
    if isPostOnly then (engine, [])
    else engine.executeAggressive signal arrivalTime latency
  else
    ({ engine with
       nextOrderId := engine.nextOrderId + 1
       restingOrders := engine.restingOrders ++
         [{ orderId := engine.nextOrderId
            placedTimeNs := signal.timestampNs
            arrivalTimeNs := arrivalTime
            side := signal.side
            priceTicks := price
            remainingQuantity := signal.quantity
            queueAhead := engine.queueAhead signal.side price
            isPostOnly }] },
      [])

def Submittable (signal : Signal) : Prop :=
  ¬ ((signal.side ≠ -1 ∧ signal.side ≠ 1) ∨ signal.quantity ≤ 0)

instance (signal : Signal) : Decidable (Submittable signal) := inferInstanceAs (Decidable (¬ _))

def submitOrder (engine : MicrostructureEngine F) (signal : Signal) :
    MicrostructureEngine F × List (Fill F) :=
  if Submittable signal then
    let latency :=
      if signal.latencyNs ≠ 0 then signal.latencyNs
      else engine.config.wireLatencyNs + engine.config.engineLatencyNs
    let arrivalTime := signal.timestampNs + latency
    let engine := { engine with currentTimeNs := max engine.currentTimeNs arrivalTime }
    match signal.orderType with
    | .market => engine.executeAggressive signal arrivalTime latency
    | .limit => engine.placeLimit signal arrivalTime latency false
    | .postOnly => engine.placeLimit signal arrivalTime latency true
    | .other => (engine, [])
  else (engine, [])

end MicrostructureEngine

end Backtest

end Ito
