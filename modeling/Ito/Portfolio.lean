import Ito.Library.SortedMap
import Mathlib.Algebra.Order.Field.Rat
import Mathlib.Algebra.Order.Ring.Int

/-! The portfolio of the Python tools: positions by instrument, booked fill by fill.

Source: `python/portfolio/portfolio.py`. Its floating point numbers are rational
numbers here, and its exceptions are the errors of a result. A call that raises
still returns the portfolio it leaves behind. -/

namespace Ito

structure InstrumentSpec where
  tickSize : ℚ := 1
  multiplier : ℚ := 1
  makerFeeBps : ℚ := 0
  takerFeeBps : ℚ := 0
  clearingFeePerUnit : ℚ := 0
  locateRequired : Bool := false
  deriving DecidableEq, Repr

structure Position where
  quantity : Int := 0
  averagePriceTicks : ℚ := 0
  realizedPnlTicks : ℚ := 0
  lastPriceTicks : Int := 0
  feesPaidTicks : ℚ := 0
  feesPaidCash : ℚ := 0
  realizedPnlCash : ℚ := 0
  borrowedQuantity : Int := 0
  deriving DecidableEq, Repr

structure PortfolioLimits where
  maxNetPosition : Int
  maxGrossPosition : Int
  maxGrossNotionalTicks : Int
  maxConcentrationTicks : Int
  maxLossTicks : Int
  allowShort : Bool := false
  requireLocates : Bool := false
  deriving DecidableEq, Repr

abbrev ByInstrument (a b : Int) : Prop := a < b

instance : IsTrans Int ByInstrument := inferInstance

structure Portfolio where
  limits : PortfolioLimits
  specs : SortedMap ByInstrument InstrumentSpec := SortedMap.empty
  locates : SortedMap ByInstrument Int := SortedMap.empty
  positions : SortedMap ByInstrument Position := SortedMap.empty

namespace Position

/-- The update of quantity, average and realized profit in `apply_fill`. -/
def move (position : Position) (spec : InstrumentSpec) (side quantity priceTicks : Int) :
    Position :=
  let signedQuantity := side * quantity
  let oldQuantity := position.quantity
  let oldAverage := position.averagePriceTicks
  let newQuantity := oldQuantity + signedQuantity
  if oldQuantity = 0 ∨ (0 < oldQuantity ∧ 0 < signedQuantity) ∨
      (oldQuantity < 0 ∧ signedQuantity < 0) then
    let totalQuantity := |oldQuantity| + quantity
    { position with
      averagePriceTicks :=
        (|oldQuantity| * oldAverage + quantity * priceTicks) / totalQuantity
      quantity := newQuantity }
  else
    let closingQuantity := min |oldQuantity| quantity
    let pnlTicks : ℚ :=
      if 0 < oldQuantity then closingQuantity * (priceTicks - oldAverage)
      else closingQuantity * (oldAverage - priceTicks)
    { position with
      realizedPnlTicks := position.realizedPnlTicks + pnlTicks
      realizedPnlCash := position.realizedPnlCash + pnlTicks * spec.tickSize * spec.multiplier
      quantity := newQuantity
      averagePriceTicks :=
        if newQuantity = 0 then 0
        else if |oldQuantity| < |signedQuantity| then priceTicks
        else oldAverage }

def charge (position : Position) (spec : InstrumentSpec) (quantity priceTicks : Int)
    (isTaker : Bool) : Position :=
  let unitValue := spec.tickSize * spec.multiplier
  let feeBps := if isTaker then spec.takerFeeBps else spec.makerFeeBps
  let feeCash := quantity * priceTicks * spec.tickSize * spec.multiplier * (feeBps / 10000) +
    quantity * spec.clearingFeePerUnit
  let feeTicks := if 0 < unitValue then feeCash / unitValue else 0
  { position with
    feesPaidTicks := position.feesPaidTicks + feeTicks
    feesPaidCash := position.feesPaidCash + feeCash }

/-- The part of `snapshot` that marks one position. -/
def unrealizedPnlTicks (position : Position) (mark : ℚ) : ℚ :=
  if 0 < position.quantity then position.quantity * (mark - position.averagePriceTicks)
  else if position.quantity < 0 then |position.quantity| * (position.averagePriceTicks - mark)
  else 0

end Position

namespace Portfolio

def create (limits : PortfolioLimits)
    (specs : SortedMap ByInstrument InstrumentSpec := SortedMap.empty)
    (locates : SortedMap ByInstrument Int := SortedMap.empty) : Except String Portfolio :=
  if min (min limits.maxNetPosition limits.maxGrossPosition)
      (min limits.maxGrossNotionalTicks limits.maxConcentrationTicks) ≤ 0 ∨
      limits.maxLossTicks < 0 then
    .error "limits_invalid"
  else .ok { limits, specs, locates }

def spec (portfolio : Portfolio) (instrumentId : Int) : InstrumentSpec :=
  (portfolio.specs.find? instrumentId).getD {}

def registerLocate (portfolio : Portfolio) (instrumentId quantity : Int) :
    Portfolio × Except String Unit :=
  if instrumentId ≤ 0 ∨ quantity ≤ 0 then (portfolio, .error "locate_invalid")
  else
    let held := (portfolio.locates.find? instrumentId).getD 0
    ({ portfolio with locates := portfolio.locates.set instrumentId (held + quantity) }, .ok ())

/-- `positions.setdefault`: the position of an instrument, created when it is asked
for the first time. -/
def position (portfolio : Portfolio) (instrumentId : Int) : Position :=
  (portfolio.positions.find? instrumentId).getD {}

def store (portfolio : Portfolio) (instrumentId : Int) (position : Position) : Portfolio :=
  { portfolio with positions := portfolio.positions.set instrumentId position }

def locateShort (portfolio : Portfolio) (instrumentId side quantity : Int) :
    Except String (SortedMap ByInstrument Int) :=
  let old := (portfolio.position instrumentId).quantity
  if side < 0 ∧ old - quantity < 0 then
    if !portfolio.limits.allowShort then .error "short_sale_disabled"
    else if portfolio.limits.requireLocates || (portfolio.spec instrumentId).locateRequired then
      let currentShort := max 0 (-old)
      let newShort := |min 0 (old - quantity)|
      let shortIncrease := newShort - currentShort
      let availableLocates := (portfolio.locates.find? instrumentId).getD 0
      if availableLocates < shortIncrease then .error "short_locate_insufficient"
      else .ok (portfolio.locates.set instrumentId (availableLocates - shortIncrease))
    else .ok portfolio.locates
  else .ok portfolio.locates

def applyFill (portfolio : Portfolio) (instrumentId side quantity priceTicks : Int)
    (isTaker : Bool := true) : Portfolio × Except String Position :=
  if (side ≠ -1 ∧ side ≠ 1) ∨ quantity ≤ 0 ∨ priceTicks ≤ 0 then
    (portfolio, .error "fill_invalid")
  else if instrumentId ≤ 0 then (portfolio, .error "instrument_invalid")
  else
    let position := portfolio.position instrumentId
    let spec := portfolio.spec instrumentId
    match portfolio.locateShort instrumentId side quantity with
    | .error reason => (portfolio.store instrumentId position, .error reason)
    | .ok locates =>
        let moved := position.move spec side quantity priceTicks
        let booked :=
          { moved with lastPriceTicks := priceTicks }.charge spec quantity priceTicks isTaker
        ({ portfolio.store instrumentId booked with locates }, .ok booked)

inductive Op where
  | applyFill (instrumentId side quantity priceTicks : Int) (isTaker : Bool)
  | registerLocate (instrumentId quantity : Int)

inductive Output where
  | booked (result : Except String Position)
  | located (result : Except String Unit)

def step (portfolio : Portfolio) : Op → Option (Portfolio × Output)
  | .applyFill instrumentId side quantity priceTicks isTaker =>
      let next := portfolio.applyFill instrumentId side quantity priceTicks isTaker
      some (next.1, .booked next.2)
  | .registerLocate instrumentId quantity =>
      let next := portfolio.registerLocate instrumentId quantity
      some (next.1, .located next.2)

end Portfolio

end Ito
