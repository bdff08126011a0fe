import Ito.PortfolioValidation

/-! Which of its limits a portfolio enforces on an approved order.

`validate_order` consults the limits in ticks on positions and notionals, the gross
notional in cash and the two factor limits. The other fields are accepted in the
configuration and not read there. -/

namespace Ito.RiskPortfolio

def notionalsCash (portfolio : RiskPortfolio) : List (Int × ℚ) :=
  portfolio.positions.entries.map fun entry =>
    let spec := portfolio.spec entry.1
    (entry.1, entry.2.quantity * entry.2.lastPriceTicks * spec.tickSize * spec.multiplier)

def cashNotional (portfolio : RiskPortfolio) (instrumentId quantity priceTicks : Int) : ℚ :=
  let spec := portfolio.spec instrumentId
  quantity * priceTicks * spec.tickSize * spec.multiplier

def lossTicks (portfolio : RiskPortfolio) : Int :=
  -(roundHalfEven (portfolio.positions.entries.map fun entry => entry.2.realizedPnlTicks).sum +
    roundHalfEven (portfolio.positions.entries.map fun entry =>
      entry.2.unrealizedPnlTicks entry.2.lastPriceTicks).sum)

def lossCash (portfolio : RiskPortfolio) : ℚ :=
  -((portfolio.positions.entries.map fun entry => entry.2.realizedPnlCash).sum +
    (portfolio.positions.entries.map fun entry =>
      entry.2.unrealizedPnlTicks entry.2.lastPriceTicks *
        ((portfolio.spec entry.1).tickSize * (portfolio.spec entry.1).multiplier)).sum)

theorem snapshot_loss {sqrt : ℚ → ℚ} {portfolio : RiskPortfolio} {method : MarkMethod}
    {currentTimeNs maxStaleNs : Option Int} {report : PortfolioSnapshot}
    (reported : portfolio.snapshot sqrt SortedMap.empty method currentTimeNs maxStaleNs =
      .ok report) :
    report.lossTicks = portfolio.lossTicks ∧
      -(report.realizedPnlCash + report.unrealizedPnlCash) = portfolio.lossCash := by
  rw [snapshot] at reported
  split at reported
  · cases reported
  · cases reported
    simp only [marked, List.map_map, lossTicks, lossCash]
    exact ⟨rfl, rfl⟩

/-- The portfolio keeps every limit that is set, as far as the order in one
instrument touches it. -/
structure Respects (sqrt : ℚ → ℚ) (portfolio : RiskPortfolio) (instrumentId : Int) : Prop where
  net : |portfolio.netPosition| ≤ portfolio.limits.maxNetPosition
  gross : portfolio.grossPosition ≤ portfolio.limits.maxGrossPosition
  notional : portfolio.grossNotional ≤ portfolio.limits.maxGrossNotionalTicks
  concentration : (portfolio.position instrumentId).grossQuantity *
    (portfolio.position instrumentId).lastPriceTicks ≤ portfolio.limits.maxConcentrationTicks
  loss : portfolio.lossTicks ≤ portfolio.limits.maxLossTicks
  grossCash : exceeds (portfolio.notionalsCash.map fun entry => |entry.2|).sum
    portfolio.cash.maxGrossNotionalCash = false
  netCash : exceeds |(portfolio.notionalsCash.map Prod.snd).sum|
    portfolio.cash.maxNetNotionalCash = false
  concentrationCash : exceeds |portfolio.cashNotional instrumentId
    (portfolio.position instrumentId).quantity (portfolio.position instrumentId).lastPriceTicks|
    portfolio.cash.maxConcentrationCash = false
  lossCash : exceeds portfolio.lossCash portfolio.cash.maxLossCash = false
  shortfall : (portfolio.factorModel.any fun model => exceeds
    (model.expectedShortfall sqrt portfolio.notionalsCash)
    portfolio.cash.maxExpectedShortfallCash) = false
  parametricVar : (portfolio.factorModel.any fun model => exceeds
    (model.parametricVar sqrt portfolio.notionalsCash) portfolio.cash.maxParametricVarCash) = false

def filled (portfolio : RiskPortfolio) (instrumentId side quantity priceTicks : Int)
    (isTaker : Bool) : RiskPortfolio :=
  { portfolio with
    toPortfolio := (portfolio.applyFill instrumentId side quantity priceTicks isTaker).1 }

/-- The limits that `validate_order` does not read, on the order and the state it meets. -/
structure Unconsulted (portfolio : RiskPortfolio) (instrumentId side quantity priceTicks : Int)
    (isTaker : Bool) : Prop where
  netCash : exceeds |((portfolio.projectedNotionalsCash instrumentId side quantity priceTicks).map
    Prod.snd).sum| portfolio.cash.maxNetNotionalCash = false
  concentrationCash : exceeds |portfolio.cashNotional instrumentId
    ((portfolio.position instrumentId).quantity + side * quantity) priceTicks|
    portfolio.cash.maxConcentrationCash = false
  loss : (portfolio.filled instrumentId side quantity priceTicks isTaker).lossTicks ≤
    portfolio.limits.maxLossTicks
  lossCash : exceeds (portfolio.filled instrumentId side quantity priceTicks isTaker).lossCash
    portfolio.cash.maxLossCash = false

theorem withPosition_listed (portfolio : RiskPortfolio) (instrumentId : Int) :
    (instrumentId, (portfolio.withPosition instrumentId).position instrumentId) ∈
      (portfolio.withPosition instrumentId).positions.entries := by
  have same : (portfolio.withPosition instrumentId).position instrumentId =
      portfolio.position instrumentId := by
    rw [withPosition, Portfolio.position_store, if_pos rfl]
  rw [same]
  exact Portfolio.mem_store.mpr (.inl ⟨rfl, rfl⟩)

/-- The projection of `validate_order` is what the fill makes of the notionals. -/
theorem notionalsCash_filled {portfolio : RiskPortfolio}
    {instrumentId side quantity priceTicks : Int} {isTaker : Bool}
    {locates : SortedMap ByInstrument Int}
    (listed : (instrumentId, portfolio.position instrumentId) ∈ portfolio.positions.entries)
    (applied : (portfolio.applyFill instrumentId side quantity priceTicks isTaker).1 =
      { portfolio.store instrumentId
          (portfolio.booked instrumentId side quantity priceTicks isTaker) with locates }) :
    (portfolio.filled instrumentId side quantity priceTicks isTaker).notionalsCash =
      portfolio.projectedNotionalsCash instrumentId side quantity priceTicks := by
  have entries : (portfolio.filled instrumentId side quantity priceTicks
      isTaker).positions.entries = portfolio.positions.entries.map fun entry =>
        if entry.1 = instrumentId then
          (instrumentId, portfolio.booked instrumentId side quantity priceTicks isTaker)
        else entry := by
    rw [filled, applied]
    exact SortedMap.entries_set_present _ listed
  have specs : (portfolio.filled instrumentId side quantity priceTicks isTaker).spec =
      portfolio.spec := by
    rw [filled, applied]
    rfl
  rw [notionalsCash, entries, specs, List.map_map, projectedNotionalsCash]
  apply List.map_congr_left
  intro entry member
  rw [Function.comp_apply]
  by_cases same : entry.1 = instrumentId
  · have held : portfolio.position instrumentId = entry.2 := by
      have found : portfolio.positions.find? instrumentId = some entry.2 := by
        apply (SortedMap.find?_eq_some _).mpr
        rw [← same]
        exact member
      rw [Portfolio.position, found, Option.getD_some]
    simp only [same, if_true, booked_quantity, booked_lastPriceTicks, held]
  · simp only [if_neg same]

structure FilledFields (portfolio : RiskPortfolio) (instrumentId side quantity priceTicks : Int)
    (isTaker : Bool) (after : RiskPortfolio) : Prop where
  limits : after.limits = portfolio.limits
  position : after.position instrumentId =
    portfolio.booked instrumentId side quantity priceTicks isTaker
  cashNotional : after.cashNotional = portfolio.cashNotional
  netPosition : after.netPosition = (portfolio.store instrumentId
    (portfolio.booked instrumentId side quantity priceTicks isTaker)).netPosition
  grossPosition : after.grossPosition = (portfolio.store instrumentId
    (portfolio.booked instrumentId side quantity priceTicks isTaker)).grossPosition
  grossNotional : after.grossNotional = (portfolio.store instrumentId
    (portfolio.booked instrumentId side quantity priceTicks isTaker)).grossNotional

theorem filled_fields {portfolio : RiskPortfolio} {instrumentId side quantity priceTicks : Int}
    {isTaker : Bool} {locates : SortedMap ByInstrument Int}
    (applied : (portfolio.applyFill instrumentId side quantity priceTicks isTaker).1 =
      { portfolio.store instrumentId
          (portfolio.booked instrumentId side quantity priceTicks isTaker) with locates }) :
    FilledFields portfolio instrumentId side quantity priceTicks isTaker
      (portfolio.filled instrumentId side quantity priceTicks isTaker) := by
  rw [filled, applied]
  constructor
  · rfl
  · exact (Portfolio.position_store _ _ _ _).trans (if_pos rfl)
  · rfl
  · rfl
  · rfl
  · rfl

/-- An approved order leaves a portfolio that keeps every limit that is set if and
only if it keeps those that `validate_order` does not read. -/
theorem approved_respects_iff (sqrt : ℚ → ℚ) (portfolio next : RiskPortfolio)
    (instrumentId side quantity priceTicks : Int) (isTaker : Bool)
    (approved : portfolio.validateOrder sqrt instrumentId side quantity priceTicks =
      (next, .ok (true, "approved"))) :
    (next.filled instrumentId side quantity priceTicks isTaker).Respects sqrt instrumentId ↔
      next.Unconsulted instrumentId side quantity priceTicks isTaker := by
  rcases validateOrder_approved approved with ⟨same, cleared⟩
  have listed : (instrumentId, next.position instrumentId) ∈ next.positions.entries := by
    rw [same]
    exact withPosition_listed portfolio instrumentId
  rcases applyFill_cleared cleared isTaker with ⟨locates, applied⟩
  have after : (next.applyFill instrumentId side quantity priceTicks isTaker).1 =
      { next.store instrumentId
          (next.booked instrumentId side quantity priceTicks isTaker) with locates } := by
    rw [applied]
  have notionals := notionalsCash_filled listed after
  have fields := filled_fields after
  constructor
  · intro respects
    constructor
    · have kept := respects.netCash
      rwa [notionals] at kept
    · have kept := respects.concentrationCash
      rwa [fields.position, fields.cashNotional, booked_quantity, booked_lastPriceTicks] at kept
    · have kept := respects.loss
      rwa [fields.limits] at kept
    · exact respects.lossCash
  · intro unconsulted
    rcases booked_within cleared isTaker with ⟨net, gross, notional, concentration⟩
    constructor
    · rw [fields.limits, fields.netPosition]
      exact net
    · rw [fields.limits, fields.grossPosition]
      exact gross
    · rw [fields.limits, fields.grossNotional]
      exact notional
    · rw [fields.limits, fields.position]
      exact concentration
    · rw [fields.limits]
      exact unconsulted.loss
    · rw [notionals]
      exact cleared.cashGross
    · rw [notionals]
      exact unconsulted.netCash
    · rw [fields.position, fields.cashNotional, booked_quantity, booked_lastPriceTicks]
      exact unconsulted.concentrationCash
    · exact unconsulted.lossCash
    · rw [notionals]
      exact cleared.shortfall
    · rw [notionals]
      exact cleared.parametricVar

def netCapped : RiskPortfolio :=
  { limits := ⟨10, 10, 1000, 1000, 0, false, false⟩, cash := { maxNetNotionalCash := some 1 } }

/-- A buy of five at 100 is approved and stands at a net notional of 500. -/
theorem net_cash_limit_unread :
    ¬ ∀ (sqrt : ℚ → ℚ) (portfolio next : RiskPortfolio)
      (instrumentId side quantity priceTicks : Int) (isTaker : Bool),
      portfolio.validateOrder sqrt instrumentId side quantity priceTicks =
        (next, .ok (true, "approved")) →
      (next.filled instrumentId side quantity priceTicks isTaker).Respects sqrt instrumentId := by
  intro always
  have approved : (netCapped.validateOrder (fun _ => 0) 7 1 5 100).2 = .ok (true, "approved") := by
    decide +kernel
  have respects := always (fun _ => 0) netCapped _ 7 1 5 100 true (Prod.ext rfl approved)
  have broken : exceeds |((((netCapped.validateOrder (fun _ => 0) 7 1 5 100).1.filled 7 1 5 100
      true).notionalsCash.map Prod.snd).sum)| (some 1) = true := by decide +kernel
  have kept := respects.netCash
  exact absurd (broken.symm.trans kept) (by decide)

theorem approved_respects_roomy :
    let portfolio : RiskPortfolio :=
      { limits := ⟨10, 10, 1000, 1000, 0, false, false⟩
        cash := { maxNetNotionalCash := some 600, maxConcentrationCash := some 600 } }
    ((portfolio.validateOrder (fun _ => 0) 7 1 5 100).1.filled 7 1 5 100 true).Respects
      (fun _ => 0) 7 := by
  intro portfolio
  have approved : (portfolio.validateOrder (fun _ => 0) 7 1 5 100).2 = .ok (true, "approved") := by
    decide +kernel
  apply (approved_respects_iff (fun _ => 0) portfolio _ 7 1 5 100 true
    (Prod.ext rfl approved)).mpr
  constructor <;> decide +kernel

end Ito.RiskPortfolio
