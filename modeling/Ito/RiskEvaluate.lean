import Ito.RiskGuards

/-! Exactness of `RiskEngine::evaluate` in every reachable state. -/

namespace Ito

open CheckedInt

/-- The identity fields `evaluate` requires to be set. -/
structure OrderIntent.Identified (intent : OrderIntent) : Prop where
  eventId : intent.eventId ≠ 0
  correlationId : intent.correlationId ≠ 0
  strategyId : intent.strategyId ≠ 0
  branchId : intent.branchId ≠ 0
  entityId : intent.entityId ≠ 0
  instrumentId : intent.instrumentId ≠ 0
  venueId : intent.venueId ≠ 0
  accountId : intent.accountId ≠ 0

namespace RiskEngine

/-- What a new order must satisfy in size: the per-order limits, the net limit on
the side it trades, and the gross limit. -/
structure SizeFits (limits : LimitSnapshot) (position : PositionSnapshot) (intent : OrderIntent) :
    Prop where
  quantity : 0 < intent.quantity.toInt ∧ intent.quantity.toInt ≤ limits.maxOrderQuantity.toInt
  price : 0 < intent.priceTicks.toInt
  notional : intent.priceTicks.toInt * intent.quantity.toInt ≤ limits.maxOrderNotionalTicks.toInt
  buyNet : intent.side = .buy →
    position.netPosition.toInt + intent.quantity.toInt ≤ limits.maxNetPosition.toInt
  sellNet : intent.side = .sell →
    -limits.maxNetPosition.toInt ≤ position.netPosition.toInt - intent.quantity.toInt
  gross : position.grossPosition.toInt + intent.quantity.toInt ≤ limits.maxGrossPosition.toInt

theorem netExceeded_eq {limits : LimitSnapshot} (limit : 0 ≤ limits.maxNetPosition.toInt)
    {position : PositionSnapshot} (ledger : position.Ledger) {intent : OrderIntent}
    (side : intent.side = .buy ∨ intent.side = .sell) (positive : 0 < intent.quantity.toInt) :
    ∃ signed exceeded, signedQuantity intent.side intent.quantity = some signed ∧
      netExceeded limits position signed = some exceeded ∧
      (position.grossPosition.toInt + intent.quantity.toInt ≤ limits.maxGrossPosition.toInt →
        (exceeded = false ↔
          (intent.side = .buy →
            position.netPosition.toInt + intent.quantity.toInt ≤ limits.maxNetPosition.toInt) ∧
          (intent.side = .sell → -limits.maxNetPosition.toInt ≤
            position.netPosition.toInt - intent.quantity.toInt))) := by
  have low := ledger.1
  have high := ledger.2
  have quantityTop := intent.quantity.toInt_lt
  have limitTop := limits.maxGrossPosition.toInt_lt
  rcases signedQuantity_eq intent.side positive with ⟨signed, evaluated, amount⟩
  rcases side with buy | sell
  · rw [buy] at amount
    simp only [Side.sign, Int.one_mul] at amount
    refine ⟨signed, _, evaluated, netExceeded_buy limit position (by omega), ?_⟩
    intro gross
    simp only [buy, decide_eq_false_iff_not, forall_const, reduceCtorEq, false_imp_iff, and_true]
    omega
  · rw [sell] at amount
    simp only [Side.sign, Int.neg_mul, Int.one_mul] at amount
    refine ⟨signed, _, evaluated,
      netExceeded_sell limit position (by omega) (by omega), ?_⟩
    intro gross
    simp only [sell, decide_eq_false_iff_not, forall_const, reduceCtorEq, false_imp_iff, true_and]
    omega

theorem sizeRefusal_spec {limits : LimitSnapshot} (valid : limits.Valid)
    {position : PositionSnapshot} (ledger : position.Ledger) {intent : OrderIntent}
    (side : intent.side = .buy ∨ intent.side = .sell) :
    ∃ reason, sizeRefusal limits position intent = some reason ∧
      (reason = none ↔ SizeFits limits position intent) := by
  have sized : intent.quantity ≤ 0 ∨ intent.quantity > limits.maxOrderQuantity ↔
      intent.quantity.toInt ≤ 0 ∨ limits.maxOrderQuantity.toInt < intent.quantity.toInt := by
    rw [gt_iff_lt, Int64.lt_iff_toInt_lt, Int64.le_iff_toInt_le, Int64.toInt_zero]
  rw [sizeRefusal]
  by_cases size : intent.quantity ≤ 0 ∨ intent.quantity > limits.maxOrderQuantity
  · rw [if_pos size]
    refine ⟨_, rfl, by simp, fun fits => ?_⟩
    have bounds := fits.quantity
    have outside := sized.mp size
    omega
  · rw [if_neg size]
    rw [sized] at size
    have positive : 0 < intent.quantity.toInt := by omega
    rw [notionalOverflows_eq positive, Option.bind_eq_bind, Option.bind_some]
    by_cases inside : 0 < intent.priceTicks.toInt ∧
        intent.priceTicks.toInt * intent.quantity.toInt < 2 ^ 63
    · rw [if_neg (not_not_intro inside ∘ of_decide_eq_true)]
      have price := inside.1
      have product : 0 < intent.priceTicks.toInt * intent.quantity.toInt :=
        Int.mul_pos price positive
      obtain ⟨notional, defined, value⟩ := ofInt?_defined
        (x := intent.priceTicks.toInt * intent.quantity.toInt) (by omega) inside.2
      obtain ⟨signed, exceeded, evaluated, netDefined, netMeaning⟩ :=
        netExceeded_eq valid.netPosition ledger side positive
      rw [mul?, defined, Option.bind_eq_bind, Option.bind_some, evaluated, Option.bind_some,
        netDefined, Option.bind_some,
        grossExceeded_eq valid.grossPosition ledger positive, Option.bind_some]
      simp only [decide_eq_true_eq, gt_iff_lt, Int64.lt_iff_toInt_lt, value]
      split
      case isTrue large =>
        refine ⟨_, rfl, by simp, fun fits => ?_⟩
        have bound := fits.notional
        omega
      case isFalse =>
        split
        case isTrue crossed =>
          refine ⟨_, rfl, by simp, fun fits => ?_⟩
          have clear := (netMeaning fits.gross).mpr ⟨fits.buyNet, fits.sellNet⟩
          simp [clear] at crossed
        case isFalse clear =>
          split
          case isTrue above =>
            refine ⟨_, rfl, by simp, fun fits => ?_⟩
            have bound := fits.gross
            omega
          case isFalse under =>
            refine ⟨_, rfl, fun _ => ?_, fun _ => rfl⟩
            have net := (netMeaning (by omega)).mp (by simpa using clear)
            exact ⟨⟨positive, by omega⟩, price, by omega, net.1, net.2, by omega⟩
    · rw [if_pos (decide_eq_true inside)]
      refine ⟨_, rfl, by simp, fun fits => ?_⟩
      have price := fits.price
      have notional := fits.notional
      have top := limits.maxOrderNotionalTicks.toInt_lt
      omega

/-- The rate window opened at `secondEpochNs` still covers `nowNs`. -/
def InWindow (engine : RiskEngine) (nowNs : UInt64) : Prop :=
  engine.secondEpochNs ≠ 0 ∧ engine.secondEpochNs.toNat ≤ nowNs.toNat ∧
    nowNs.toNat < engine.secondEpochNs.toNat + 10 ^ 9

/-- The orders the engine is meant to approve, stated over the integers. -/
structure Approvable (engine : RiskEngine) (intent : OrderIntent) (nowNs : UInt64) : Prop where
  enabled : engine.limits.tradingEnabled = true
  valid : engine.limits.Valid
  unexpired : nowNs < engine.limits.expiresNs
  healthy : engine.health = .healthy
  identified : intent.Identified
  created : intent.createdNs ≤ nowNs
  limitOrder : intent.orderType = .limit
  side : intent.side = .buy ∨ intent.side = .sell
  size : SizeFits engine.limits engine.position intent
  rate : engine.InWindow nowNs → engine.ordersThisSecond < engine.limits.maxOrdersPerSecond

/-- Everything `evaluate` asks for except the order rate. -/
def Admissible (engine : RiskEngine) (intent : OrderIntent) (nowNs : UInt64) : Prop :=
  engine.limits.tradingEnabled = true ∧ engine.limits.Valid ∧ nowNs < engine.limits.expiresNs ∧
    engine.health = .healthy ∧ intent.Identified ∧ intent.createdNs ≤ nowNs ∧
    intent.orderType = .limit ∧ (intent.side = .buy ∨ intent.side = .sell) ∧
    SizeFits engine.limits engine.position intent

theorem limits_valid_iff (limits : LimitSnapshot) :
    limits.Valid ↔ ¬ (limits.version = 0 ∨ limits.expiresNs = 0 ∨ limits.maxOrderQuantity ≤ 0 ∨
      limits.maxOrderNotionalTicks ≤ 0 ∨ limits.maxNetPosition < 0 ∨
      limits.maxGrossPosition < 0 ∨ limits.maxOrdersPerSecond = 0) := by
  simp only [not_or, Int64.lt_iff_toInt_lt, Int64.le_iff_toInt_le, Int64.toInt_zero, Int.not_le,
    Int.not_lt]
  constructor
  · intro valid
    exact ⟨valid.version, valid.expiry, valid.orderQuantity, valid.orderNotional,
      valid.netPosition, valid.grossPosition, valid.rate⟩
  · intro parts
    exact ⟨parts.1, parts.2.1, parts.2.2.1, parts.2.2.2.1, parts.2.2.2.2.1, parts.2.2.2.2.2.1,
      parts.2.2.2.2.2.2⟩

theorem well_formed_iff (intent : OrderIntent) (nowNs : UInt64) :
    (intent.Identified ∧ intent.createdNs ≤ nowNs ∧ intent.orderType = .limit ∧
      (intent.side = .buy ∨ intent.side = .sell)) ↔
      ¬ (intent.eventId = 0 ∨ intent.correlationId = 0 ∨ intent.strategyId = 0 ∨
        intent.branchId = 0 ∨ intent.entityId = 0 ∨ intent.instrumentId = 0 ∨
        intent.venueId = 0 ∨ intent.accountId = 0 ∨ intent.createdNs > nowNs ∨
        intent.orderType ≠ .limit ∨ (intent.side ≠ .buy ∧ intent.side ≠ .sell)) := by
  have sides : (intent.side = .buy ∨ intent.side = .sell) ↔
      ¬ (intent.side ≠ .buy ∧ intent.side ≠ .sell) := by
    cases intent.side <;> simp
  rw [sides]
  simp only [not_or, gt_iff_lt, UInt64.not_lt, ne_eq, not_not]
  constructor
  · intro parts
    have ids := parts.1
    exact ⟨ids.eventId, ids.correlationId, ids.strategyId, ids.branchId, ids.entityId,
      ids.instrumentId, ids.venueId, ids.accountId, parts.2⟩
  · intro parts
    obtain ⟨event, correlation, strategy, branch, entity, instrument, venue, account, rest⟩ := parts
    exact ⟨⟨event, correlation, strategy, branch, entity, instrument, venue, account⟩, rest⟩

theorem refusal_spec {engine : RiskEngine} (ledger : engine.position.Ledger)
    (intent : OrderIntent) (nowNs : UInt64) :
    ∃ reason, engine.refusal intent nowNs = some reason ∧
      (reason = none ↔ engine.Admissible intent nowNs) := by
  rw [refusal, Admissible]
  simp only [limits_valid_iff]
  split
  case isTrue disabled =>
    refine ⟨_, rfl, by simp, fun admissible => ?_⟩
    simp [admissible.1] at disabled
  case isFalse enabled =>
    split
    case isTrue invalid =>
      exact ⟨_, rfl, by simp, fun admissible => absurd invalid admissible.2.1⟩
    case isFalse valid =>
      split
      case isTrue expired =>
        exact ⟨_, rfl, by simp, fun admissible =>
          absurd admissible.2.2.1 (UInt64.not_lt.mpr expired)⟩
      case isFalse unexpired =>
        split
        case isTrue unhealthy =>
          exact ⟨_, rfl, by simp, fun admissible => absurd admissible.2.2.2.1 unhealthy⟩
        case isFalse healthy =>
          split
          case isTrue malformed =>
            refine ⟨_, rfl, by simp, fun admissible => ?_⟩
            rcases admissible with ⟨_, _, _, _, ids, created, type, side, _⟩
            exact absurd malformed ((well_formed_iff intent nowNs).mp ⟨ids, created, type, side⟩)
          case isFalse formed =>
            rcases (well_formed_iff intent nowNs).mpr formed with ⟨ids, created, type, side⟩
            obtain ⟨reason, defined, meaning⟩ :=
              sizeRefusal_spec ((limits_valid_iff _).mpr valid) ledger side
            refine ⟨reason, defined, meaning.trans ?_⟩
            constructor
            · intro fits
              exact ⟨by simpa using enabled, valid, UInt64.not_le.mp unexpired, not_not.mp healthy,
                ids, created, type, side, fits⟩
            · intro admissible
              exact admissible.2.2.2.2.2.2.2.2

theorem rollWindow_limits (engine : RiskEngine) (nowNs : UInt64) :
    (engine.rollWindow nowNs).limits = engine.limits := by
  rw [rollWindow]
  split <;> rfl

theorem rollWindow_position (engine : RiskEngine) (nowNs : UInt64) :
    (engine.rollWindow nowNs).position = engine.position := by
  rw [rollWindow]
  split <;> rfl

theorem inWindow_iff (engine : RiskEngine) (nowNs : UInt64) :
    engine.InWindow nowNs ↔ ¬ (engine.secondEpochNs = 0 ∨ nowNs < engine.secondEpochNs ∨
      nowNs - engine.secondEpochNs ≥ 1000000000) := by
  rw [InWindow]
  rw [not_or, not_or, UInt64.not_lt, ge_iff_le, UInt64.not_le, UInt64.le_iff_toNat_le,
    UInt64.lt_iff_toNat_lt]
  constructor
  · intro parts
    refine ⟨parts.1, parts.2.1, ?_⟩
    rw [UInt64.toNat_sub_of_le _ _ (UInt64.le_iff_toNat_le.mpr parts.2.1)]
    have bound := parts.2.2
    have literal : (1000000000 : UInt64).toNat = 10 ^ 9 := rfl
    omega
  · intro parts
    have short := parts.2.2
    rw [UInt64.toNat_sub_of_le _ _ (UInt64.le_iff_toNat_le.mpr parts.2.1)] at short
    have literal : (1000000000 : UInt64).toNat = 10 ^ 9 := rfl
    have order := parts.2.1
    exact ⟨parts.1, parts.2.1, by omega⟩

theorem rate_iff {engine : RiskEngine} (valid : engine.limits.Valid) (nowNs : UInt64) :
    (engine.rollWindow nowNs).ordersThisSecond < engine.limits.maxOrdersPerSecond ↔
      (engine.InWindow nowNs → engine.ordersThisSecond < engine.limits.maxOrdersPerSecond) := by
  rw [rollWindow]
  rw [inWindow_iff]
  split
  case isTrue fresh =>
    have positive : (0 : UInt64) < engine.limits.maxOrdersPerSecond :=
      UInt64.pos_iff_ne_zero.mpr valid.rate
    exact ⟨fun _ current => absurd fresh current, fun _ => positive⟩
  case isFalse current =>
    exact ⟨fun below _ => below, fun below => below current⟩

/-- `evaluate` never overflows, approves exactly the approvable orders, and
changes nothing but the rate window. -/
theorem evaluate_spec {engine : RiskEngine} (ledger : engine.position.Ledger)
    (journal : EventJournal) (intent : OrderIntent) (nowNs : UInt64) :
    ∃ next journal' decision,
      engine.evaluate journal intent nowNs = some (next, journal', decision) ∧
      (decision.status = .approved ↔ engine.Approvable intent nowNs) ∧
      next.limits = engine.limits ∧ next.position = engine.position := by
  rcases refusal_spec ledger intent nowNs with ⟨reason, defined, meaning⟩
  rw [evaluate]
  rw [Option.bind_eq_bind, defined, Option.bind_some]
  cases reason with
  | some code =>
      refine ⟨_, _, _, rfl, ?_, rfl, rfl⟩
      have refused : ¬ engine.Admissible intent nowNs := by
        rw [← meaning]
        simp
      constructor
      · intro approved
        simp at approved
      · intro fits
        exact absurd ⟨fits.enabled, fits.valid, fits.unexpired, fits.healthy, fits.identified,
          fits.created, fits.limitOrder, fits.side, fits.size⟩ refused
  | none =>
      obtain ⟨enabled, valid, unexpired, healthy, ids, created, type, side, size⟩ :=
        meaning.mp rfl
      have rate := rate_iff valid nowNs
      simp only [Option.pure_def, rollWindow_limits, ge_iff_le]
      split
      case isTrue full =>
        refine ⟨_, _, _, rfl, ?_, rollWindow_limits engine nowNs, rollWindow_position engine nowNs⟩
        constructor
        · intro approved
          simp at approved
        · intro fits
          exact absurd (rate.mpr fits.rate) (UInt64.not_lt.mpr full)
      case isFalse room =>
        refine ⟨_, _, _, rfl, ?_, rfl, rollWindow_position engine nowNs⟩
        constructor
        · intro _
          exact ⟨enabled, valid, unexpired, healthy, ids, created, type, side, size,
            rate.mp (UInt64.not_le.mp room)⟩
        · intro _
          rfl

/-- Every call is defined and keeps the ledger, and only `set_limits` changes the limits. -/
theorem step_spec {engine : RiskEngine} (ledger : engine.position.Ledger)
    (journal : EventJournal) (op : Op) :
    ∃ next output, step (engine, journal) op = some (next, output) ∧ next.1.position.Ledger ∧
      ((∀ limits, op ≠ .setLimits limits) → next.1.limits = engine.limits) := by
  cases op with
  | setLimits limits => exact ⟨_, _, rfl, ledger, fun fixed => absurd rfl (fixed limits)⟩
  | setPosition position =>
      simp only [step, setPosition_eq, Option.map_some]
      by_cases accepted : position.Ledger
      · exact ⟨_, _, rfl, by simp [accepted], fun _ => by simp [accepted]⟩
      · exact ⟨_, _, rfl, by simpa [accepted] using ledger, fun _ => by simp [accepted]⟩
  | setHealth health => exact ⟨_, _, rfl, ledger, fun _ => rfl⟩
  | applyFill side quantity =>
      obtain ⟨next, journal', booked, evaluated, kept, limits⟩ :=
        applyFill_keeps ledger journal side quantity
      exact ⟨(next, journal'), .filled booked, by simp only [step, evaluated, Option.map_some],
        kept, fun _ => limits⟩
  | evaluate intent nowNs =>
      obtain ⟨next, journal', decision, evaluated, _, limits, position⟩ :=
        evaluate_spec ledger journal intent nowNs
      refine ⟨(next, journal'), .decided decision, by simp only [step, evaluated, Option.map_some],
        ?_, fun _ => limits⟩
      rw [position]
      exact ledger

theorem initial_ledger : ({} : RiskEngine).position.Ledger := by decide

theorem exec_ledger (journal : EventJournal) (ops : List Op) :
    ∃ state log, Machine.exec step ({}, journal) ops = some (state, log) ∧
      state.1.position.Ledger := by
  apply Machine.exec_defined (fun state : RiskEngine × EventJournal => state.1.position.Ledger)
  · intro state op ledger
    rcases step_spec ledger state.2 op with ⟨next, output, first, kept, _⟩
    exact ⟨next, output, first, kept⟩
  · exact initial_ledger

/-- In every reachable state `evaluate` is exact: it overflows on no order and
approves an order if and only if it is approvable over the integers. -/
theorem evaluate_exact (journal : EventJournal) (ops : List Op) :
    ∃ engine journal' log,
      Machine.exec step ({}, journal) ops = some ((engine, journal'), log) ∧
      ∀ (intent : OrderIntent) (nowNs : UInt64), ∃ next journal'' decision,
        engine.evaluate journal' intent nowNs = some (next, journal'', decision) ∧
        (decision.status = .approved ↔ engine.Approvable intent nowNs) := by
  rcases exec_ledger journal ops with ⟨⟨engine, journal'⟩, log, ran, ledger⟩
  refine ⟨engine, journal', log, ran, ?_⟩
  intro intent nowNs
  obtain ⟨next, journal'', decision, evaluated, exact', _⟩ :=
    evaluate_spec ledger journal' intent nowNs
  exact ⟨next, journal'', decision, evaluated, exact'⟩

end RiskEngine

end Ito
