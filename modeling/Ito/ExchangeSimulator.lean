import Ito.Protocol
import Ito.Library.CheckedInt
import Ito.Library.SortedMap
import Mathlib.Data.Finmap

/-! The exchange simulator: a limit order book with price-time priority.

Source: `cpp/ito_exchange/exchange_simulator.cpp`. Every resting order lives in
the level of its price and, a second time, in the index by venue order id. -/

namespace Ito

structure RestingOrder where
  venueOrderId : Nat
  correlationId : UInt64
  side : Side
  priceTicks : Int64
  remainingQuantity : Int64
  sequence : Nat
  deriving DecidableEq, Repr

/-- The value-initialised order that `index_[id]` makes for an unknown id. -/
instance : Inhabited RestingOrder := ⟨⟨0, 0, .buy, 0, 0, 0⟩⟩

structure MatchEvent where
  takerOrderId : Nat
  makerOrderId : Nat
  priceTicks : Int64
  quantity : Int64
  timestampNs : UInt64
  deriving DecidableEq, Repr

structure SubmitResult where
  venueOrderId : Nat
  remainingQuantity : Int64
  matchEvents : List MatchEvent
  accepted : Bool
  deriving DecidableEq, Repr

abbrev Ascending (a b : Int64) : Prop := a < b

abbrev Descending (a b : Int64) : Prop := b < a

instance : IsStrictTotalOrder Int64 Ascending where
  irrefl _ := Int64.lt_irrefl
  trans _ _ _ := Int64.lt_trans
  trichotomous _ _ notBelow notAbove :=
    Int64.le_antisymm (Int64.not_lt.mp notAbove) (Int64.not_lt.mp notBelow)

instance : IsStrictTotalOrder Int64 Descending where
  irrefl _ := Int64.lt_irrefl
  trans _ _ _ first second := Int64.lt_trans second first
  trichotomous _ _ notAbove notBelow :=
    Int64.le_antisymm (Int64.not_lt.mp notAbove) (Int64.not_lt.mp notBelow)

abbrev BookLevel := List RestingOrder
abbrev PriceBook (before : Int64 → Int64 → Prop) := SortedMap before BookLevel
abbrev BidBook := PriceBook Descending
abbrev AskBook := PriceBook Ascending
abbrev OrderIndex := Finmap fun _ : Nat => RestingOrder

structure ExchangeSimulator where
  nextOrderId : Nat := 1
  journal : EventJournal
  bids : BidBook := SortedMap.empty
  asks : AskBook := SortedMap.empty
  index : OrderIndex := ∅

namespace ExchangeSimulator

def kInvalidOrder : Nat := 300
def kUnsupportedFok : Nat := 301

def create (journal : EventJournal) : ExchangeSimulator := { journal }

def pushBack {before : Int64 → Int64 → Prop} [DecidableRel before] [IsTrans Int64 before]
    (book : PriceBook before) (order : RestingOrder) : PriceBook before :=
  book.set order.priceTicks ((book.find? order.priceTicks).getD [] ++ [order])

def rest (exchange : ExchangeSimulator) (order : RestingOrder) : ExchangeSimulator :=
  let placed :=
    if order.side = .buy then { exchange with bids := pushBack exchange.bids order }
    else { exchange with asks := pushBack exchange.asks order }
  { placed with index := placed.index.insert order.venueOrderId order }

def removeFromIndex (index : OrderIndex) (venueOrderId : Nat) : OrderIndex :=
  index.erase venueOrderId

section Loop

variable {before : Int64 → Int64 → Prop} [DecidableRel before] [IsTrans Int64 before]

/-- What the two matching loops work on: one side of the book, the index, and the
result so far. -/
structure Matching (before : Int64 → Int64 → Prop) where
  book : PriceBook before
  index : OrderIndex
  remainingQuantity : Int64
  matchEvents : List MatchEvent

/-- A level that a loop or a cancellation has changed: empty levels are erased. -/
def storeLevel (book : PriceBook before) (price : Int64) (level : BookLevel) : PriceBook before :=
  if level.isEmpty then book.erase price else book.set price level

/-- The body of both loops at the first level. Taking the front of an empty level
is undefined. -/
def matchFront (orderId : Nat) (timestampNs : UInt64) (now : Matching before) (price : Int64) :
    BookLevel → Option (Matching before)
  | [] => none
  | maker :: others => do
      let traded := min now.remainingQuantity maker.remainingQuantity
      let remaining ← CheckedInt.sub? now.remainingQuantity traded
      let makerRemaining ← CheckedInt.sub? maker.remainingQuantity traded
      let maker := { maker with remainingQuantity := makerRemaining }
      let indexed := (now.index.lookup maker.venueOrderId).getD default
      let index := now.index.insert maker.venueOrderId
        { indexed with remainingQuantity := makerRemaining }
      some
        { book := storeLevel now.book price
            (if makerRemaining = 0 then others else maker :: others)
          index := if makerRemaining = 0 then removeFromIndex index maker.venueOrderId else index
          remainingQuantity := remaining
          matchEvents := now.matchEvents ++
            [{ takerOrderId := orderId
               makerOrderId := maker.venueOrderId
               priceTicks := maker.priceTicks
               quantity := traded
               timestampNs }] }

/-- The loop of `match_buy` and `match_sell`; `outside` is the limit test that
breaks it. Running out of fuel is `none`, like every undefined operation. -/
def matchLoop (outside : Int64 → Bool) (orderId : Nat) (timestampNs : UInt64) :
    Nat → Matching before → Option (Matching before)
  | 0, _ => none
  | fuel + 1, now =>
      if 0 < now.remainingQuantity then
        match now.book.entries with
        | [] => some now
        | (price, level) :: _ =>
            if outside price then some now
            else (matchFront orderId timestampNs now price level).bind
              (matchLoop outside orderId timestampNs fuel)
      else some now

/-- One iteration for each resting order, and the test that ends the loop. -/
def loopFuel (book : PriceBook before) : Nat := book.flat.length + 1

end Loop

def remainder (intent : OrderIntent) (orderId : Nat) (remaining : Int64) : RestingOrder :=
  { venueOrderId := orderId
    correlationId := intent.correlationId
    side := intent.side
    priceTicks := intent.priceTicks
    remainingQuantity := remaining
    sequence := orderId }

/-- The end of both matching functions: a day order rests its remainder. -/
def restRemainder (exchange : ExchangeSimulator) (intent : OrderIntent) (orderId : Nat)
    (remaining : Int64) : ExchangeSimulator :=
  if 0 < remaining ∧ intent.timeInForce = .day then
    exchange.rest (remainder intent orderId remaining)
  else exchange

/-- The limit test of `match_buy`. -/
def aboveLimit (intent : OrderIntent) (price : Int64) : Bool :=
  intent.orderType = .limit ∧ intent.priceTicks < price

/-- The limit test of `match_sell`. -/
def belowLimit (intent : OrderIntent) (price : Int64) : Bool :=
  intent.orderType = .limit ∧ price < intent.priceTicks

def matchBuy (exchange : ExchangeSimulator) (intent : OrderIntent) (orderId : Nat)
    (timestampNs : UInt64) : Option (ExchangeSimulator × SubmitResult) :=
  (matchLoop (aboveLimit intent) orderId timestampNs (loopFuel exchange.asks)
      ⟨exchange.asks, exchange.index, intent.quantity, []⟩).map
    fun done =>
      (restRemainder { exchange with asks := done.book, index := done.index } intent orderId
        done.remainingQuantity,
        ⟨orderId, done.remainingQuantity, done.matchEvents, true⟩)

def matchSell (exchange : ExchangeSimulator) (intent : OrderIntent) (orderId : Nat)
    (timestampNs : UInt64) : Option (ExchangeSimulator × SubmitResult) :=
  (matchLoop (belowLimit intent) orderId timestampNs (loopFuel exchange.bids)
      ⟨exchange.bids, exchange.index, intent.quantity, []⟩).map
    fun done =>
      (restRemainder { exchange with bids := done.book, index := done.index } intent orderId
        done.remainingQuantity,
        ⟨orderId, done.remainingQuantity, done.matchEvents, true⟩)

def acknowledge (exchange : ExchangeSimulator) (correlationId : UInt64) (payload : String) :
    ExchangeSimulator :=
  { exchange with journal := exchange.journal.append .acknowledgment correlationId payload }

def appendFill (correlationId : UInt64) (journal : EventJournal) (event : MatchEvent) :
    EventJournal :=
  journal.append .fill correlationId
    (toString event.makerOrderId ++ ":" ++ toString event.quantity.toInt ++ ":" ++
      toString event.priceTicks.toInt)

/-- The journal entries of an accepted order: the acknowledgment, then its matches. -/
def report (exchange : ExchangeSimulator) (correlationId : UInt64) (orderId : Nat)
    (events : List MatchEvent) : ExchangeSimulator :=
  let noted := exchange.acknowledge correlationId (toString orderId)
  { noted with journal := events.foldl (appendFill correlationId) noted.journal }

def submit (exchange : ExchangeSimulator) (intent : OrderIntent) (timestampNs : UInt64) :
    Option (ExchangeSimulator × SubmitResult) :=
  let orderId := exchange.nextOrderId
  let exchange := { exchange with nextOrderId := orderId + 1 }
  let refused : SubmitResult := ⟨orderId, intent.quantity, [], false⟩
  if intent.quantity ≤ 0 ∨ intent.priceTicks ≤ 0 then
    some (exchange.acknowledge intent.correlationId (toString kInvalidOrder), refused)
  else if intent.timeInForce = .fok then
    some (exchange.acknowledge intent.correlationId (toString kUnsupportedFok), refused)
  else
    (if intent.side = .buy then exchange.matchBuy intent orderId timestampNs
      else exchange.matchSell intent orderId timestampNs).map fun matched =>
        (matched.1.report intent.correlationId orderId matched.2.matchEvents,
          { matched.2 with accepted := true })

def removeOrder {before : Int64 → Int64 → Prop} [DecidableRel before] [IsTrans Int64 before]
    (book : PriceBook before) (price : Int64) (venueOrderId : Nat) : PriceBook before :=
  match book.find? price with
  | none => book
  | some level =>
      storeLevel book price (level.filter fun value => value.venueOrderId ≠ venueOrderId)

def cancel (exchange : ExchangeSimulator) (venueOrderId : Nat) (timestampNs : UInt64) :
    ExchangeSimulator × Bool :=
  match exchange.index.lookup venueOrderId with
  | none => (exchange, false)
  | some order =>
      let removed :=
        if order.side = .buy then
          { exchange with bids := removeOrder exchange.bids order.priceTicks venueOrderId }
        else { exchange with asks := removeOrder exchange.asks order.priceTicks venueOrderId }
      let journal := removed.journal.append .cancel order.correlationId
        (toString venueOrderId ++ ":" ++ toString timestampNs.toNat)
      ({ removed with
          index := removeFromIndex removed.index venueOrderId
          journal := journal.append .acknowledgment order.correlationId
            ("cancel:" ++ toString venueOrderId) }, true)

def find (exchange : ExchangeSimulator) (venueOrderId : Nat) : Option RestingOrder :=
  exchange.index.lookup venueOrderId

def bestBid (exchange : ExchangeSimulator) : Int64 :=
  match exchange.bids.entries with
  | [] => 0
  | (price, _) :: _ => price

def bestAsk (exchange : ExchangeSimulator) : Int64 :=
  match exchange.asks.entries with
  | [] => 0
  | (price, _) :: _ => price

def restingCount (exchange : ExchangeSimulator) : Nat := exchange.index.keys.card

inductive Op where
  | submit (intent : OrderIntent) (timestampNs : UInt64)
  | cancel (venueOrderId : Nat) (timestampNs : UInt64)

inductive Output where
  | submitted (result : SubmitResult)
  | cancelled (found : Bool)
  deriving DecidableEq

def step (exchange : ExchangeSimulator) : Op → Option (ExchangeSimulator × Output)
  | .submit intent timestampNs =>
      (exchange.submit intent timestampNs).map fun next => (next.1, .submitted next.2)
  | .cancel venueOrderId timestampNs =>
      let next := exchange.cancel venueOrderId timestampNs
      some (next.1, .cancelled next.2)

end ExchangeSimulator

end Ito
