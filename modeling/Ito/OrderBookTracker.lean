import Ito.ItchHandler
import Ito.Library.GroupedTotals
import Ito.Library.Machine
import Mathlib.Order.Bounds.Basic

/-! The order book that a market-data feed builds up.

Source: `python/connectivity/itch_handler.py`, `ItchOrderBookTracker`. -/

namespace Ito.OrderBookTracker

open ItchHandler

/-- A Python `dict` with integer keys. No function reads the order of its items. -/
abbrev Dict := SortedMap fun a b : Int => a < b

instance dictTrans : IsTrans Int fun a b => a < b := inferInstance

structure Tracker where
  targetStock : List Char
  orders : Dict ItchAddOrder
  bids : Dict Int
  asks : Dict Int

def create (targetStock : List Char) : Tracker :=
  ⟨PythonText.strip targetStock, .empty, .empty, .empty⟩

def isBid (order : ItchAddOrder) : Bool := order.side == ['B']

def Tracker.ladder (tracker : Tracker) (bid : Bool) : Dict Int :=
  if bid then tracker.bids else tracker.asks

def Tracker.withLadder (tracker : Tracker) (bid : Bool) (ladder : Dict Int) : Tracker :=
  if bid then { tracker with bids := ladder } else { tracker with asks := ladder }

def quantity (ladder : Dict Int) (price : Int) : Int := (ladder.find? price).getD 0

/-- The body of the branches for executed and cancelled shares: quantity off the ladder, and
a level that is left at zero removed. -/
def takeOff (ladder : Dict Int) (price shares : Int) : Dict Int :=
  let ladder := ladder.set price (max 0 (quantity ladder price - shares))
  if ladder.find? price = some 0 then ladder.erase price else ladder

/-- The branches for executed and for cancelled shares, which differ in a field's name only. -/
def reduce (tracker : Tracker) (orderRef shares : Int) : Tracker :=
  match tracker.orders.find? orderRef with
  | none => tracker
  | some order =>
      let tracker := tracker.withLadder (isBid order)
        (takeOff (tracker.ladder (isBid order)) order.priceTicks shares)
      let rem := order.shares - shares
      if rem ≤ 0 then { tracker with orders := tracker.orders.erase orderRef }
      else { tracker with orders := tracker.orders.set orderRef { order with shares := rem } }

def processAdd (tracker : Tracker) (msg : ItchAddOrder) : Tracker :=
  if msg.stock = tracker.targetStock then
    let tracker := { tracker with orders := tracker.orders.set msg.orderRef msg }
    let ladder := tracker.ladder (isBid msg)
    tracker.withLadder (isBid msg)
      (ladder.set msg.priceTicks (quantity ladder msg.priceTicks + msg.shares))
  else tracker

def processExecuted (tracker : Tracker) (msg : ItchOrderExecuted) : Tracker :=
  reduce tracker msg.orderRef msg.executedShares

def processCancel (tracker : Tracker) (msg : ItchOrderCancel) : Tracker :=
  reduce tracker msg.orderRef msg.canceledShares

def processDelete (tracker : Tracker) (msg : ItchOrderDelete) : Tracker :=
  match tracker.orders.find? msg.orderRef with
  | none => tracker
  | some order =>
      let tracker := { tracker with orders := tracker.orders.erase msg.orderRef }
      let ladder := tracker.ladder (isBid order)
      let ladder := ladder.set order.priceTicks
        (max 0 (quantity ladder order.priceTicks - order.shares))
      tracker.withLadder (isBid order)
        (if quantity ladder order.priceTicks = 0 ∧ (ladder.find? order.priceTicks).isSome then
          ladder.erase order.priceTicks
        else ladder)

/-- `none` stands for every object that is none of the four messages. -/
def process (tracker : Tracker) : Option ItchMessage → Tracker
  | none => tracker
  | some (.addOrder msg) => processAdd tracker msg
  | some (.orderExecuted msg) => processExecuted tracker msg
  | some (.orderCancel msg) => processCancel tracker msg
  | some (.orderDelete msg) => processDelete tracker msg

def bestBid (tracker : Tracker) : Int := ((tracker.bids.entries.map Prod.fst).max?).getD 0

def bestAsk (tracker : Tracker) : Int := ((tracker.asks.entries.map Prod.fst).min?).getD 0

/-- The bids from the highest price downwards and the asks from the lowest upwards. -/
def depthLadders (tracker : Tracker) : List (Int × Int) × List (Int × Int) :=
  (tracker.bids.entries.reverse, tracker.asks.entries)

def step (tracker : Tracker) (msg : Option ItchMessage) : Option (Tracker × Unit) :=
  some (process tracker msg, ())

end Ito.OrderBookTracker
