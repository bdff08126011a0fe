import Ito.PolicyEngine
import Ito.RiskEvaluate
import Ito.RiskHardware
import Ito.RiskPolicy

/-! The same order before the four software checks.

The risk engine and the two policies bound the net position on the side traded only, the risk
service on both sides. They part on orders that reduce a position which stays beyond its limit. -/

namespace Ito.RiskAgreement

section Encodings

variable (limits : LimitSnapshot) (position : PositionSnapshot) (intent : OrderIntent)

def serviceRequest : RiskService.RiskRequest :=
  { priceTicks := intent.priceTicks.toUInt64
    quantity := intent.quantity.toUInt64
    maxQuantity := limits.maxOrderQuantity.toUInt64
    maxNotionalTicks := limits.maxOrderNotionalTicks.toUInt64
    netPosition := position.netPosition
    maxNetPosition := limits.maxNetPosition.toUInt64
    side := if intent.side = .buy then .buy else .sell
    tradingEnabled := limits.tradingEnabled
    limitsValid := true
    clockHealthy := true
    feedHealthy := true
    halted := false }

def policyLimits (maxRate : Int64) : RiskPolicy.Limits :=
  { tradingEnabled := limits.tradingEnabled
    maxOrderQuantity := limits.maxOrderQuantity
    maxOrderNotional := limits.maxOrderNotionalTicks
    maxNetPosition := limits.maxNetPosition
    maxOrdersPerSecond := maxRate }

def policyOrder (rate : Int64) : RiskPolicy.Order :=
  { priceTicks := intent.priceTicks
    quantity := intent.quantity
    side := if intent.side = .buy then .buy else .sell
    netPosition := position.netPosition
    ordersPerSecond := rate
    healthy := true }

def branchLimits (expiresAtNs : Int64) : PolicyEngine.Limits :=
  { maxQuantity := limits.maxOrderQuantity
    maxNotional := limits.maxOrderNotionalTicks
    maxPosition := limits.maxNetPosition
    expiresAtNs
    tradingEnabled := limits.tradingEnabled }

def branchSide : PolicyEngine.Side := if intent.side = .buy then .buy else .sell

def Sized : Prop :=
  intent.quantity.toInt ≤ limits.maxOrderQuantity.toInt ∧
    intent.priceTicks.toInt * intent.quantity.toInt ≤ limits.maxOrderNotionalTicks.toInt

def nextNet : Int := position.netPosition.toInt + intent.side.sign * intent.quantity.toInt

def SideBounded : Prop :=
  (intent.side = .buy → nextNet position intent ≤ limits.maxNetPosition.toInt) ∧
    (intent.side = .sell → -limits.maxNetPosition.toInt ≤ nextNet position intent)

def StillBeyond : Prop :=
  intent.side = .buy ∧ nextNet position intent < -limits.maxNetPosition.toInt ∨
    intent.side = .sell ∧ limits.maxNetPosition.toInt < nextNet position intent

end Encodings

/-- Everything but the order's size speaks for it, and its gross and rate limits do not bind. -/
structure Undisputed (engine : RiskEngine) (intent : OrderIntent) (nowNs : UInt64) : Prop where
  ledger : engine.position.Ledger
  enabled : engine.limits.tradingEnabled = true
  valid : engine.limits.Valid
  unexpired : nowNs < engine.limits.expiresNs
  healthy : engine.health = .healthy
  identified : intent.Identified
  created : intent.createdNs ≤ nowNs
  limitOrder : intent.orderType = .limit
  side : intent.side = .buy ∨ intent.side = .sell
  price : 0 < intent.priceTicks.toInt
  quantity : 0 < intent.quantity.toInt
  gross : engine.position.grossPosition.toInt + intent.quantity.toInt ≤
    engine.limits.maxGrossPosition.toInt
  rate : engine.InWindow nowNs → engine.ordersThisSecond < engine.limits.maxOrdersPerSecond

section Checks

variable {engine : RiskEngine} {intent : OrderIntent} {nowNs : UInt64}

theorem nextNet_buy (position : PositionSnapshot) (buy : intent.side = .buy) :
    nextNet position intent = position.netPosition.toInt + intent.quantity.toInt := by
  rw [nextNet, buy]
  exact congrArg _ (Int.one_mul _)

theorem nextNet_sell (position : PositionSnapshot) (sell : intent.side = .sell) :
    nextNet position intent = position.netPosition.toInt - intent.quantity.toInt := by
  rw [nextNet, sell, Int.sub_eq_add_neg]
  exact congrArg _ (Int.neg_one_mul _)

theorem sideBounded_iff (limits : LimitSnapshot) (position : PositionSnapshot) :
    SideBounded limits position intent ↔
      (intent.side = .buy → position.netPosition.toInt + intent.quantity.toInt ≤
        limits.maxNetPosition.toInt) ∧
      (intent.side = .sell → -limits.maxNetPosition.toInt ≤
        position.netPosition.toInt - intent.quantity.toInt) := by
  apply and_congr
  · exact forall_congr' fun buy => by rw [nextNet_buy position buy]
  · exact forall_congr' fun sell => by rw [nextNet_sell position sell]

theorem encoded_buy {α : Type} {buy sell : α} (differ : sell ≠ buy) :
    (if intent.side = .buy then buy else sell) = buy ↔ intent.side = .buy := by
  split <;> simp [*]

theorem encoded_sell {α : Type} {buy sell : α} (differ : buy ≠ sell)
    (side : intent.side = .buy ∨ intent.side = .sell) :
    (if intent.side = .buy then buy else sell) = sell ↔ intent.side = .sell := by
  rcases side with isBuy | isSell
  · simp [isBuy, differ]
  · simp [isSell]

theorem approvable_iff (undisputed : Undisputed engine intent nowNs) :
    engine.Approvable intent nowNs ↔
      Sized engine.limits intent ∧ SideBounded engine.limits engine.position intent := by
  rw [sideBounded_iff]
  constructor
  · intro approvable
    have fits := approvable.size
    exact ⟨⟨fits.quantity.2, fits.notional⟩, fits.buyNet, fits.sellNet⟩
  · intro passes
    rcases passes with ⟨⟨most, notional⟩, buyNet, sellNet⟩
    have fits : RiskEngine.SizeFits engine.limits engine.position intent :=
      ⟨⟨undisputed.quantity, most⟩, undisputed.price, notional, buyNet, sellNet, undisputed.gross⟩
    exact ⟨undisputed.enabled, undisputed.valid, undisputed.unexpired, undisputed.healthy,
      undisputed.identified, undisputed.created, undisputed.limitOrder, undisputed.side, fits,
      undisputed.rate⟩

theorem policy_iff (undisputed : Undisputed engine intent nowNs) {rate maxRate : Int64}
    (slow : 0 ≤ rate.toInt ∧ rate.toInt ≤ maxRate.toInt) :
    RiskPolicy.validate (policyLimits engine.limits maxRate)
        (policyOrder engine.position intent rate) = .approved ↔
      Sized engine.limits intent ∧ SideBounded engine.limits engine.position intent := by
  have buys : (policyOrder engine.position intent rate).side = .buy ↔ intent.side = .buy :=
    encoded_buy (by decide)
  have sells : (policyOrder engine.position intent rate).side = .sell ↔ intent.side = .sell :=
    encoded_sell (by decide) undisputed.side
  have limit : 0 ≤ (policyLimits engine.limits maxRate).maxNetPosition.toInt :=
    undisputed.valid.netPosition
  rw [RiskPolicy.validate_approved limit, sideBounded_iff]
  constructor
  · intro passes
    exact ⟨⟨passes.quantity.2, passes.notional⟩, passes.buyNet ∘ buys.mpr,
      passes.sellNet ∘ sells.mpr⟩
  · intro passes
    rcases passes with ⟨⟨most, notional⟩, buyNet, sellNet⟩
    exact ⟨undisputed.enabled, rfl, ⟨undisputed.quantity, most⟩, undisputed.price, notional,
      buyNet ∘ buys.mp, sellNet ∘ sells.mp, slow⟩

theorem branch_iff (undisputed : Undisputed engine intent nowNs) (expiresAtNs policyNowNs : Int64) :
    PolicyEngine.validate .normal (branchLimits engine.limits expiresAtNs) policyNowNs
        (branchSide intent) intent.quantity intent.priceTicks engine.position.netPosition =
        .approved ↔
      Sized engine.limits intent ∧ SideBounded engine.limits engine.position intent := by
  have buys : branchSide intent = .buy ↔ intent.side = .buy := encoded_buy (by decide)
  have sells : branchSide intent = .sell ↔ intent.side = .sell :=
    encoded_sell (by decide) undisputed.side
  have limit : 0 ≤ (branchLimits engine.limits expiresAtNs).maxPosition.toInt :=
    undisputed.valid.netPosition
  rw [PolicyEngine.validate_approved .normal limit, sideBounded_iff]
  constructor
  · intro passes
    exact ⟨⟨passes.size.2, passes.notional⟩, passes.buyPosition ∘ buys.mpr,
      passes.sellPosition ∘ sells.mpr⟩
  · intro passes
    rcases passes with ⟨⟨most, notional⟩, buyNet, sellNet⟩
    exact ⟨.inl rfl, undisputed.enabled, ⟨undisputed.quantity, most⟩, undisputed.price, notional,
      buyNet ∘ buys.mp, sellNet ∘ sells.mp⟩

theorem toNat_toUInt64 {x : Int64} (nonneg : 0 ≤ x.toInt) : (x.toUInt64.toNat : Int) = x.toInt := by
  have positive : 0 ≤ x := Int64.le_iff_toInt_le.mpr nonneg
  rw [Int64.toNat_toUInt64_of_le positive]
  exact Int.toNat_of_nonneg nonneg

theorem nextPosition_serviceRequest (undisputed : Undisputed engine intent nowNs) :
    RiskService.nextPosition (serviceRequest engine.limits engine.position intent) =
      nextNet engine.position intent := by
  have quantity := toNat_toUInt64 undisputed.quantity.le
  rcases undisputed.side with buy | sell
  · rw [nextNet_buy _ buy, ← quantity]
    simp [RiskService.nextPosition, serviceRequest, buy]
  · rw [nextNet_sell _ sell, ← quantity]
    simp [RiskService.nextPosition, serviceRequest, sell, Int.sub_eq_add_neg]

theorem natAbs_nextNet_iff (undisputed : Undisputed engine intent nowNs) :
    (nextNet engine.position intent).natAbs ≤ engine.limits.maxNetPosition.toUInt64.toNat ↔
      SideBounded engine.limits engine.position intent ∧
        ¬ StillBeyond engine.limits engine.position intent := by
  have limit := toNat_toUInt64 undisputed.valid.netPosition
  rw [SideBounded, StillBeyond]
  rcases undisputed.side with buy | sell
  · simp only [buy, forall_const, reduceCtorEq, false_imp_iff, and_true, true_and, false_and,
      or_false]
    omega
  · simp only [sell, forall_const, reduceCtorEq, false_imp_iff, true_and, false_and, false_or]
    omega

theorem admissible_serviceRequest (undisputed : Undisputed engine intent nowNs) :
    Rtl.Admissible (Rtl.orderOf (serviceRequest engine.limits engine.position intent)) ↔
      Sized engine.limits intent := by
  have quantity := toNat_toUInt64 undisputed.quantity.le
  have price := toNat_toUInt64 undisputed.price.le
  have most := toNat_toUInt64 undisputed.valid.orderQuantity.le
  have notional := toNat_toUInt64 undisputed.valid.orderNotional.le
  have positive := undisputed.quantity
  have cost := undisputed.price
  have product : ((intent.priceTicks.toUInt64.toNat * intent.quantity.toUInt64.toNat : Nat) : Int) =
      intent.priceTicks.toInt * intent.quantity.toInt := by
    rw [Int.natCast_mul, price, quantity]
  constructor
  · intro admissible
    have size := admissible.quantity.2
    have value := admissible.notional
    change intent.quantity.toUInt64.toNat ≤ engine.limits.maxOrderQuantity.toUInt64.toNat at size
    change intent.priceTicks.toUInt64.toNat * intent.quantity.toUInt64.toNat ≤
      engine.limits.maxOrderNotionalTicks.toUInt64.toNat at value
    exact ⟨by omega, by omega⟩
  · intro sized
    rcases sized with ⟨size, value⟩
    have held : 0 < intent.quantity.toUInt64.toNat ∧
        intent.quantity.toUInt64.toNat ≤ engine.limits.maxOrderQuantity.toUInt64.toNat := by omega
    have worth : intent.priceTicks.toUInt64.toNat * intent.quantity.toUInt64.toNat ≤
        engine.limits.maxOrderNotionalTicks.toUInt64.toNat := by omega
    have priced : 0 < intent.priceTicks.toUInt64.toNat := by omega
    exact ⟨⟨undisputed.enabled, rfl, rfl, rfl, rfl, held, worth⟩, priced⟩

theorem service_iff (undisputed : Undisputed engine intent nowNs)
    (digest : RiskService.RiskRequest → String) :
    (RiskService.evaluate digest
        (serviceRequest engine.limits engine.position intent)).decision = .approved ↔
      Sized engine.limits intent ∧ SideBounded engine.limits engine.position intent ∧
        ¬ StillBeyond engine.limits engine.position intent := by
  rw [← natAbs_nextNet_iff undisputed, ← nextPosition_serviceRequest undisputed,
    ← Rtl.exactPosition_orderOf, ← admissible_serviceRequest undisputed]
  exact Rtl.decisionOf_approved _

theorem stillBeyond_bounded (undisputed : Undisputed engine intent nowNs)
    (beyond : StillBeyond engine.limits engine.position intent) :
    SideBounded engine.limits engine.position intent := by
  have limit := undisputed.valid.netPosition
  rcases beyond with ⟨buy, below⟩ | ⟨sell, above⟩
  · exact ⟨fun _ => by omega, fun sell => absurd (buy.symm.trans sell) (by decide)⟩
  · exact ⟨fun buy => absurd (sell.symm.trans buy) (by decide), fun _ => by omega⟩

/-- The four checks approve the same orders exactly where the order breaks a limit that they share,
or does not reduce a position that stays beyond its limit. -/
theorem software_checks_agree_iff (undisputed : Undisputed engine intent nowNs)
    (journal : EventJournal) (digest : RiskService.RiskRequest → String) {rate maxRate : Int64}
    (slow : 0 ≤ rate.toInt ∧ rate.toInt ≤ maxRate.toInt) (expiresAtNs policyNowNs : Int64) :
    ∃ next journal' decision,
      engine.evaluate journal intent nowNs = some (next, journal', decision) ∧
      (((decision.status = .approved ↔ (RiskService.evaluate digest
            (serviceRequest engine.limits engine.position intent)).decision = .approved) ∧
          (decision.status = .approved ↔ RiskPolicy.validate (policyLimits engine.limits maxRate)
            (policyOrder engine.position intent rate) = .approved) ∧
          (decision.status = .approved ↔
            PolicyEngine.validate .normal (branchLimits engine.limits expiresAtNs) policyNowNs
              (branchSide intent) intent.quantity intent.priceTicks
              engine.position.netPosition = .approved)) ↔
        engine.limits.maxOrderQuantity.toInt < intent.quantity.toInt ∨
          engine.limits.maxOrderNotionalTicks.toInt <
            intent.priceTicks.toInt * intent.quantity.toInt ∨
          ¬ StillBeyond engine.limits engine.position intent) := by
  rcases RiskEngine.evaluate_spec undisputed.ledger journal intent nowNs with
    ⟨next, journal', decision, evaluated, approved, _⟩
  refine ⟨next, journal', decision, evaluated, ?_⟩
  rw [approved, approvable_iff undisputed, service_iff undisputed digest,
    policy_iff undisputed slow, branch_iff undisputed expiresAtNs policyNowNs,
    iff_self, and_self, and_true, ← not_le, ← not_le, ← or_assoc, ← not_and_or]
  change (Sized engine.limits intent ∧ _ ↔ _) ↔ ¬ Sized engine.limits intent ∨ _
  constructor
  · intro agree
    by_cases sized : Sized engine.limits intent
    · apply Or.inr
      intro beyond
      have bounded := stillBeyond_bounded undisputed beyond
      exact (agree.mp ⟨sized, bounded⟩).2.2 beyond
    · exact .inl sized
  · intro condition
    constructor
    · intro passes
      exact ⟨passes.1, passes.2, condition.resolve_left (not_not_intro passes.1)⟩
    · intro passes
      exact ⟨passes.1, passes.2.1⟩

end Checks

def tightLimits : LimitSnapshot := ⟨1, 1000, 100, 10000, 10, 1000, 10, true⟩

theorem tightLimits_valid : tightLimits.Valid :=
  ⟨by decide, by decide, by decide, by decide, by decide, by decide, by decide⟩

def tightEngine (net gross : Int64) : RiskEngine :=
  { limits := tightLimits
    position := ⟨net, gross⟩
    health := .healthy }

def buyIntent : OrderIntent :=
  { eventId := 1
    correlationId := 1
    strategyId := 1
    branchId := 1
    entityId := 1
    instrumentId := 1
    venueId := 1
    accountId := 1
    side := .buy
    orderType := .limit
    timeInForce := .day
    priceTicks := 10
    quantity := 5
    createdNs := 1 }

theorem tight_undisputed (net gross : Int64) (ledger : (⟨net, gross⟩ : PositionSnapshot).Ledger)
    (room : gross.toInt + 5 ≤ 1000) : Undisputed (tightEngine net gross) buyIntent 100 where
  ledger := ledger
  enabled := rfl
  valid := tightLimits_valid
  unexpired := show 100 < tightLimits.expiresNs by decide
  healthy := rfl
  identified := ⟨by decide, by decide, by decide, by decide, by decide, by decide, by decide,
    by decide⟩
  created := by decide
  limitOrder := rfl
  side := .inl rfl
  price := by decide
  quantity := by decide
  gross := room
  rate := fun _ => show 0 < tightLimits.maxOrdersPerSecond by decide

theorem flat_checks_agree :
    Undisputed (tightEngine 0 0) buyIntent 100 ∧
      ∃ next journal' decision,
        (tightEngine 0 0).evaluate {} buyIntent 100 = some (next, journal', decision) ∧
        ((decision.status = .approved ↔ (RiskService.evaluate (fun _ => "")
            (serviceRequest (tightEngine 0 0).limits ⟨0, 0⟩ buyIntent)).decision = .approved) ∧
          (decision.status = .approved ↔
            RiskPolicy.validate (policyLimits (tightEngine 0 0).limits 10)
              (policyOrder ⟨0, 0⟩ buyIntent 1) = .approved) ∧
          (decision.status = .approved ↔
            PolicyEngine.validate .normal (branchLimits (tightEngine 0 0).limits 1000) 100
              (branchSide buyIntent) 5 10 0 = .approved)) := by
  have undisputed := tight_undisputed 0 0 (by decide) (by decide)
  apply And.intro undisputed
  have slow : 0 ≤ (1 : Int64).toInt ∧ (1 : Int64).toInt ≤ (10 : Int64).toInt := by decide
  rcases software_checks_agree_iff undisputed {} (fun _ => "") slow 1000 100 with
    ⟨next, journal', decision, evaluated, agree⟩
  refine ⟨next, journal', decision, evaluated, agree.mpr (.inr (.inr ?_))⟩
  rw [StillBeyond]
  decide

/-- A buy of 5 lots against a short position of 100 with a limit of 10: the service refuses it, the
other three approve. -/
theorem reducing_buy_splits :
    ¬ ∀ (engine : RiskEngine) (intent : OrderIntent) (nowNs : UInt64) (journal : EventJournal)
      (digest : RiskService.RiskRequest → String) (rate maxRate expiresAtNs policyNowNs : Int64),
      Undisputed engine intent nowNs → 0 < engine.limits.maxNetPosition.toInt →
      0 < engine.limits.maxGrossPosition.toInt → 0 ≤ rate.toInt → rate.toInt ≤ maxRate.toInt →
      ∃ next journal' decision,
        engine.evaluate journal intent nowNs = some (next, journal', decision) ∧
        (decision.status = .approved ↔ (RiskService.evaluate digest
          (serviceRequest engine.limits engine.position intent)).decision = .approved) ∧
        (decision.status = .approved ↔ RiskPolicy.validate (policyLimits engine.limits maxRate)
          (policyOrder engine.position intent rate) = .approved) ∧
        (decision.status = .approved ↔
          PolicyEngine.validate .normal (branchLimits engine.limits expiresAtNs) policyNowNs
            (branchSide intent) intent.quantity intent.priceTicks
            engine.position.netPosition = .approved) := by
  intro agree
  have undisputed := tight_undisputed (-100) 100 (by decide) (by decide)
  rcases agree _ _ _ {} (fun _ => "") 1 10 1000 100 undisputed (by decide) (by decide) (by decide)
    (by decide) with ⟨_, _, decision, _, service, policy, _⟩
  have approves : RiskPolicy.validate (policyLimits (tightEngine (-100) 100).limits 10)
      (policyOrder (tightEngine (-100) 100).position buyIntent 1) = .approved := by decide
  exact absurd (service.mp (policy.mpr approves)) (by decide)

end Ito.RiskAgreement
