import Ito.Portfolio
import Mathlib.Algebra.BigOperators.Group.List.Basic

/-! The limits of the portfolio: what `validate_order` checks before a fill and what
`snapshot` reports afterwards.

Source: `python/portfolio/portfolio.py`. The limits in cash and the factor model
stand beside the portfolio that the fills are booked into. `math.sqrt` is a
parameter. -/

namespace Ito

structure FactorModel where
  factors : List String
  loadings : Int → Option (String → Option ℚ)
  covarianceMatrix : String → Option (String → Option ℚ)
  specificVariance : Int → Option ℚ := fun _ => none

namespace FactorModel

variable (model : FactorModel)

def loading (instrumentId : Int) (factor : String) : ℚ :=
  ((model.loadings instrumentId).bind fun row => row factor).getD 0

def covariance (factor other : String) : ℚ :=
  ((model.covarianceMatrix factor).bind fun row => row other).getD 0

/-- `factor_exposures[factor]` after both loops. -/
def factorExposure (notionals : List (Int × ℚ)) (factor : String) : ℚ :=
  (notionals.map fun entry => (model.factors.map fun named =>
    if named = factor then entry.2 * model.loading entry.1 named else 0).sum).sum

def calculateVariance (notionals : List (Int × ℚ)) : ℚ :=
  let exposure := model.factorExposure notionals
  let factorVar := (model.factors.map fun first =>
    if exposure first = 0 then 0
    else (model.factors.map fun second =>
      if exposure second = 0 then 0
      else exposure first * exposure second * model.covariance first second).sum).sum
  let specVar := (notionals.map fun entry =>
    let varEps := (model.specificVariance entry.1).getD 0
    if 0 < varEps ∧ entry.2 ≠ 0 then entry.2 ^ 2 * varEps else 0).sum
  max 0 (factorVar + specVar)

def parametricVar (sqrt : ℚ → ℚ) (notionals : List (Int × ℚ)) (confidence : ℚ := 99 / 100) : ℚ :=
  let z : ℚ := if 99 / 100 ≤ confidence then 23263 / 10000
    else if 95 / 100 ≤ confidence then 16449 / 10000 else 12816 / 10000
  z * sqrt (model.calculateVariance notionals)

def expectedShortfall (sqrt : ℚ → ℚ) (notionals : List (Int × ℚ)) (confidence : ℚ := 99 / 100) :
    ℚ :=
  let esFactor : ℚ := if 99 / 100 ≤ confidence then 2665 / 1000
    else if 95 / 100 ≤ confidence then 2063 / 1000 else 1755 / 1000
  esFactor * sqrt (model.calculateVariance notionals)

end FactorModel

/-- The optional fields of `PortfolioLimits`, in cash. -/
structure CashLimits where
  maxGrossNotionalCash : Option ℚ := none
  maxNetNotionalCash : Option ℚ := none
  maxConcentrationCash : Option ℚ := none
  maxLossCash : Option ℚ := none
  maxExpectedShortfallCash : Option ℚ := none
  maxParametricVarCash : Option ℚ := none
  deriving DecidableEq, Repr

structure RiskPortfolio extends Portfolio where
  cash : CashLimits := {}
  factorModel : Option FactorModel := none

def exceeds (value : ℚ) (limit : Option ℚ) : Bool := limit.any fun bound => bound < value

namespace Position

def grossQuantity (position : Position) : Int := |position.quantity|

end Position

namespace Portfolio

def netPosition (portfolio : Portfolio) : Int :=
  (portfolio.positions.entries.map fun entry => entry.2.quantity).sum

def grossPosition (portfolio : Portfolio) : Int :=
  (portfolio.positions.entries.map fun entry => entry.2.grossQuantity).sum

def grossNotional (portfolio : Portfolio) : Int :=
  (portfolio.positions.entries.map fun entry =>
    entry.2.grossQuantity * entry.2.lastPriceTicks).sum

end Portfolio

namespace RiskPortfolio

def create (limits : PortfolioLimits) (cash : CashLimits)
    (specs : SortedMap ByInstrument InstrumentSpec) (locates : SortedMap ByInstrument Int)
    (factorModel : Option FactorModel) : Except String RiskPortfolio :=
  (Portfolio.create limits specs locates).map fun portfolio =>
    { toPortfolio := portfolio, cash, factorModel }

/-- `projected_notionals_cash`: the order at its price, the other positions at their last one. -/
def projectedNotionalsCash (portfolio : RiskPortfolio) (instrumentId side quantity priceTicks : Int) :
    List (Int × ℚ) :=
  portfolio.positions.entries.map fun entry =>
    let spec := portfolio.spec entry.1
    let price := if entry.1 = instrumentId then priceTicks else entry.2.lastPriceTicks
    let qty := if entry.1 = instrumentId then entry.2.quantity + side * quantity
      else entry.2.quantity
    (entry.1, qty * price * spec.tickSize * spec.multiplier)

section

variable (sqrt : ℚ → ℚ)

/-- The checks of `validate_order`, on a portfolio that holds a position of the instrument. -/
def verdict (portfolio : RiskPortfolio) (instrumentId side quantity priceTicks : Int) :
    Bool × String :=
  let spec := portfolio.spec instrumentId
  let current := portfolio.position instrumentId
  let after := |current.quantity + side * quantity|
  let projectedNet := portfolio.netPosition + side * quantity
  let projectedGross := portfolio.grossPosition - current.grossQuantity + after
  let projectedNotional :=
    portfolio.grossNotional - current.grossQuantity * current.lastPriceTicks + after * priceTicks
  let projectedConcentration := after * priceTicks
  let currentShort := max 0 (-current.quantity)
  let newShort := |min 0 (current.quantity - quantity)|
  let shortIncrease := newShort - currentShort
  let opensShort := side < 0 ∧ current.quantity - quantity < 0
  let notionals := portfolio.projectedNotionalsCash instrumentId side quantity priceTicks
  let cashGross := (notionals.map fun entry => |entry.2|).sum
  if portfolio.limits.maxNetPosition < |projectedNet| then (false, "net_position_limit")
  else if portfolio.limits.maxGrossPosition < projectedGross then (false, "gross_position_limit")
  else if portfolio.limits.maxGrossNotionalTicks < projectedNotional then
    (false, "gross_notional_limit")
  else if portfolio.limits.maxConcentrationTicks < projectedConcentration then
    (false, "concentration_limit")
  else if opensShort ∧ !portfolio.limits.allowShort then (false, "short_sale_disabled")
  else if opensShort ∧ (portfolio.limits.requireLocates || spec.locateRequired) ∧
      (portfolio.locates.find? instrumentId).getD 0 < shortIncrease then
    (false, "short_locate_insufficient")
  else if exceeds cashGross portfolio.cash.maxGrossNotionalCash then
    (false, "gross_notional_cash_limit")
  else if portfolio.factorModel.any fun model =>
      exceeds (model.expectedShortfall sqrt notionals) portfolio.cash.maxExpectedShortfallCash then
    (false, "expected_shortfall_limit")
  else if portfolio.factorModel.any fun model =>
      exceeds (model.parametricVar sqrt notionals) portfolio.cash.maxParametricVarCash then
    (false, "parametric_var_limit")
  else (true, "approved")

/-- `_position` creates the position it does not find, also for an order that is refused. -/
def validateOrder (portfolio : RiskPortfolio) (instrumentId side quantity priceTicks : Int) :
    RiskPortfolio × Except String (Bool × String) :=
  if (side ≠ -1 ∧ side ≠ 1) ∨ quantity ≤ 0 ∨ priceTicks ≤ 0 then
    (portfolio, .ok (false, "order_invalid"))
  else if instrumentId ≤ 0 then (portfolio, .error "instrument_invalid")
  else
    let held := { portfolio with
      toPortfolio := portfolio.store instrumentId (portfolio.position instrumentId) }
    (held, .ok (held.verdict sqrt instrumentId side quantity priceTicks))

end

end RiskPortfolio

/-- A price in the `prices` of `snapshot`: ticks, or a quote. -/
inductive Mark where
  | ticks (price : Int)
  | quote (bidTicks askTicks : Int) (timestampNs : Int)
  deriving DecidableEq, Repr

inductive MarkMethod where
  | last
  | mid
  | liquidation
  deriving DecidableEq, Repr

/-- The integer that becomes the float of one position's mark, before a middle is halved. -/
def Position.markTicks (position : Position) (method : MarkMethod) : Mark → Int
  | .ticks price => price
  | .quote bidTicks askTicks _ =>
      match method with
      | .mid => bidTicks + askTicks
      | .liquidation => if 0 ≤ position.quantity then bidTicks else askTicks
      | .last => if 0 < position.quantity then askTicks else bidTicks

def Position.markValue (position : Position) (method : MarkMethod) : Mark → ℚ
  | .ticks price => price
  | .quote bidTicks askTicks _ =>
      match method with
      | .mid => (bidTicks + askTicks) / 2
      | .liquidation => if 0 ≤ position.quantity then bidTicks else askTicks
      | .last => if 0 < position.quantity then askTicks else bidTicks

/-- `int` of a number: towards zero. -/
def truncate (value : ℚ) : Int := if 0 ≤ value then value.floor else value.ceil

/-- `round` of a number: to the nearest integer, and to the even one in the middle. -/
def roundHalfEven (value : ℚ) : Int :=
  let low := value.floor
  if value - low < 1 / 2 then low
  else if 1 / 2 < value - low then low + 1
  else if low % 2 = 0 then low else low + 1

/-- `limits_breached`; the last two entries exist with a factor model and their limit only. -/
structure LimitsBreached where
  netPosition : Bool
  grossPosition : Bool
  grossNotional : Bool
  concentration : Bool
  loss : Bool
  expectedShortfall : Option Bool
  parametricVar : Option Bool
  deriving DecidableEq, Repr

structure FactorMetrics where
  portfolioVariance : ℚ
  parametricVarCash : ℚ
  expectedShortfallCash : ℚ
  deriving DecidableEq, Repr

structure PortfolioSnapshot where
  netPosition : Int
  grossPosition : Int
  grossNotionalTicks : Int
  realizedPnlTicks : Int
  unrealizedPnlTicks : Int
  lossTicks : Int
  grossNotionalCash : ℚ
  netNotionalCash : ℚ
  realizedPnlCash : ℚ
  unrealizedPnlCash : ℚ
  totalFeesPaidCash : ℚ
  netPnlCash : ℚ
  stalePositions : List Int
  limitsBreached : LimitsBreached
  positions : List (Int × Position)
  factorMetrics : Option FactorMetrics
  deriving DecidableEq, Repr

/-- One turn of the loop of `snapshot`: the position with its mark. -/
structure MarkedPosition where
  instrumentId : Int
  position : Position
  mark : ℚ
  unitValue : ℚ
  stale : Bool

namespace MarkedPosition

variable (marked : MarkedPosition)

def notionalTicks : Int := truncate (marked.position.grossQuantity * marked.mark)

def cashNotional : ℚ := marked.position.quantity * marked.mark * marked.unitValue

def unrealizedTicks : ℚ := marked.position.unrealizedPnlTicks marked.mark

/-- The floats of the turn, and the quantity that it multiplies with floats. -/
def floats : List ℚ :=
  [marked.position.grossQuantity, marked.position.grossQuantity * marked.mark, marked.unitValue,
    marked.cashNotional, marked.unrealizedTicks, marked.unrealizedTicks * marked.unitValue,
    marked.position.realizedPnlTicks, marked.position.realizedPnlCash,
    marked.position.feesPaidCash]

end MarkedPosition

def PortfolioSnapshot.floats (report : PortfolioSnapshot) : List ℚ :=
  [(report.realizedPnlTicks : ℚ), (report.unrealizedPnlTicks : ℚ), report.grossNotionalCash,
    report.netNotionalCash, report.realizedPnlCash, report.unrealizedPnlCash,
    report.totalFeesPaidCash, report.netPnlCash] ++
  report.factorMetrics.toList.flatMap fun metrics =>
    [metrics.portfolioVariance, metrics.parametricVarCash, metrics.expectedShortfallCash]

/-- The values that round to a finite double. -/
def InFloatRange (value : ℚ) : Prop := |value| < 2 ^ 1024 - 2 ^ 970

instance (value : ℚ) : Decidable (InFloatRange value) := inferInstanceAs (Decidable (_ < _))

namespace RiskPortfolio

/-- The positions under `marks`, and under their last price where there is no mark. -/
def marked (portfolio : RiskPortfolio) (marks : SortedMap ByInstrument Mark) (method : MarkMethod)
    (currentTimeNs maxStaleNs : Option Int) : List MarkedPosition :=
  portfolio.positions.entries.map fun entry =>
    let spec := portfolio.spec entry.1
    let price := (marks.find? entry.1).getD (.ticks entry.2.lastPriceTicks)
    let stale :=
      match price, currentTimeNs, maxStaleNs with
      | .quote _ _ timestampNs, some now, some most => decide (most < now - timestampNs)
      | _, _, _ => false
    { instrumentId := entry.1
      position := entry.2
      mark := entry.2.markValue method price
      unitValue := spec.tickSize * spec.multiplier
      stale }

def snapshot (sqrt : ℚ → ℚ) (portfolio : RiskPortfolio) (marks : SortedMap ByInstrument Mark)
    (method : MarkMethod) (currentTimeNs maxStaleNs : Option Int) :
    Except String PortfolioSnapshot :=
  let marked := portfolio.marked marks method currentTimeNs maxStaleNs
  if marked.any fun turn => turn.mark ≤ 0 ∧ turn.position.quantity ≠ 0 then .error "mark_invalid"
  else
    let grossNotional := (marked.map MarkedPosition.notionalTicks).sum
    let realizedPnl := (marked.map fun turn => turn.position.realizedPnlTicks).sum
    let unrealizedPnl := (marked.map MarkedPosition.unrealizedTicks).sum
    let realizedTicks := roundHalfEven realizedPnl
    let unrealizedTicks := roundHalfEven unrealizedPnl
    let lossTicks := -(realizedTicks + unrealizedTicks)
    let topConcentration := ((marked.map MarkedPosition.notionalTicks).max?).getD 0
    let realizedPnlCash := (marked.map fun turn => turn.position.realizedPnlCash).sum
    let unrealizedPnlCash := (marked.map fun turn => turn.unrealizedTicks * turn.unitValue).sum
    let totalFeesPaidCash := (marked.map fun turn => turn.position.feesPaidCash).sum
    let notionals := marked.map fun turn => (turn.instrumentId, turn.cashNotional)
    let metrics := portfolio.factorModel.map fun model =>
      ({ portfolioVariance := model.calculateVariance notionals
         parametricVarCash := model.parametricVar sqrt notionals
         expectedShortfallCash := model.expectedShortfall sqrt notionals } : FactorMetrics)
    let breached : LimitsBreached :=
      { netPosition := portfolio.limits.maxNetPosition < |portfolio.netPosition|
        grossPosition := portfolio.limits.maxGrossPosition < portfolio.grossPosition
        grossNotional := portfolio.limits.maxGrossNotionalTicks < grossNotional
        concentration := portfolio.limits.maxConcentrationTicks < topConcentration
        loss := portfolio.limits.maxLossTicks < lossTicks
        expectedShortfall := metrics.bind fun metrics =>
          portfolio.cash.maxExpectedShortfallCash.map fun limit =>
            decide (limit < metrics.expectedShortfallCash)
        parametricVar := metrics.bind fun metrics =>
          portfolio.cash.maxParametricVarCash.map fun limit =>
            decide (limit < metrics.parametricVarCash) }
    .ok
      { netPosition := portfolio.netPosition
        grossPosition := portfolio.grossPosition
        grossNotionalTicks := grossNotional
        realizedPnlTicks := realizedTicks
        unrealizedPnlTicks := unrealizedTicks
        lossTicks
        grossNotionalCash := (marked.map fun turn =>
          (turn.position.grossQuantity : ℚ) * turn.mark * turn.unitValue).sum
        netNotionalCash := (marked.map MarkedPosition.cashNotional).sum
        realizedPnlCash
        unrealizedPnlCash
        totalFeesPaidCash
        netPnlCash := realizedPnlCash + unrealizedPnlCash - totalFeesPaidCash
        stalePositions := (marked.filter MarkedPosition.stale).map MarkedPosition.instrumentId
        limitsBreached := breached
        positions := portfolio.positions.entries
        factorMetrics := metrics }

/-- The integers that `snapshot` makes floats of. -/
def markedTicks (portfolio : RiskPortfolio) (marks : SortedMap ByInstrument Mark)
    (method : MarkMethod) : List Int :=
  portfolio.positions.entries.map fun entry =>
    entry.2.markTicks method ((marks.find? entry.1).getD (.ticks entry.2.lastPriceTicks))

/-- What `snapshot` answers where all its floats are finite. Elsewhere it raises an
`OverflowError`, or infinities and NaN get into the report, which is not modelled. -/
def finiteSnapshot (sqrt : ℚ → ℚ) (portfolio : RiskPortfolio) (marks : SortedMap ByInstrument Mark)
    (method : MarkMethod) (currentTimeNs maxStaleNs : Option Int) :
    Option (Except String PortfolioSnapshot) :=
  let answer := portfolio.snapshot sqrt marks method currentTimeNs maxStaleNs
  if (∀ ticks ∈ portfolio.markedTicks marks method, InFloatRange ticks) ∧
      (∀ turn ∈ portfolio.marked marks method currentTimeNs maxStaleNs,
        ∀ value ∈ turn.floats, InFloatRange value) ∧
      ∀ report ∈ answer.toOption.toList, ∀ value ∈ report.floats, InFloatRange value then
    some answer
  else none

inductive Op where
  | validateOrder (instrumentId side quantity priceTicks : Int)
  | applyFill (instrumentId side quantity priceTicks : Int) (isTaker : Bool)
  | registerLocate (instrumentId quantity : Int)
  | snapshot (marks : SortedMap ByInstrument Mark) (method : MarkMethod)
      (currentTimeNs maxStaleNs : Option Int)

inductive Output where
  | validated (result : Except String (Bool × String))
  | booked (result : Except String Position)
  | located (result : Except String Unit)
  | reported (result : Except String PortfolioSnapshot)

def step (sqrt : ℚ → ℚ) (portfolio : RiskPortfolio) : Op → Option (RiskPortfolio × Output)
  | .validateOrder instrumentId side quantity priceTicks =>
      let next := portfolio.validateOrder sqrt instrumentId side quantity priceTicks
      some (next.1, .validated next.2)
  | .applyFill instrumentId side quantity priceTicks isTaker =>
      let next := portfolio.applyFill instrumentId side quantity priceTicks isTaker
      some ({ portfolio with toPortfolio := next.1 }, .booked next.2)
  | .registerLocate instrumentId quantity =>
      let next := portfolio.registerLocate instrumentId quantity
      some ({ portfolio with toPortfolio := next.1 }, .located next.2)
  | .snapshot marks method currentTimeNs maxStaleNs =>
      some (portfolio, .reported (portfolio.snapshot sqrt marks method currentTimeNs maxStaleNs))

end RiskPortfolio

end Ito
