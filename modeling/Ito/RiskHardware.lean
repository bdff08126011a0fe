import Ito.Library.Guards
import Ito.RiskAccelerator

/-! The software and the hardware risk gate on the same request.

Both apply the same checks. They differ in the position: the software gate adds
in 128 bits, the accelerator in one bit more than its inputs, which can wrap. -/

namespace Ito.Rtl

variable {w : Nat}

structure Screened (order : GateOrder w) : Prop where
  enabled : order.tradingEnabled = true
  running : order.halted = false
  limits : order.limitsValid = true
  clock : order.clockHealthy = true
  feed : order.feedHealthy = true
  quantity : 0 < order.quantity.toNat ∧ order.quantity.toNat ≤ order.maxQuantity.toNat
  notional : order.priceTicks.toNat * order.quantity.toNat ≤ order.maxNotionalTicks.toNat

structure Admissible (order : GateOrder w) : Prop extends Screened order where
  price : 0 < order.priceTicks.toNat

def exactPosition (order : GateOrder w) : Int :=
  WideSum.exact order.sideBuy order.netPosition order.quantity

theorem toNat_notional (order : GateOrder w) :
    (notional order).toNat = order.priceTicks.toNat * order.quantity.toNat := by
  have price := order.priceTicks.isLt
  have quantity := order.quantity.isLt
  have fits : order.priceTicks.toNat * order.quantity.toNat < 2 ^ (2 * w) := by
    rw [Nat.two_mul, Nat.pow_add]
    exact Nat.mul_lt_mul'' price quantity
  rw [notional, BitVec.toNat_mul, BitVec.toNat_setWidth_of_le (by omega),
    BitVec.toNat_setWidth_of_le (by omega), Nat.mod_eq_of_lt fits]

theorem notional_gt_iff (order : GateOrder w) :
    notional order > order.maxNotionalTicks.zeroExtend (2 * w) ↔
      order.maxNotionalTicks.toNat < order.priceTicks.toNat * order.quantity.toNat := by
  rw [gt_iff_lt, BitVec.lt_def, toNat_notional, BitVec.toNat_setWidth_of_le (by omega)]

theorem position_refused_iff (order : GateOrder w) :
    ((order.maxNetPosition.zeroExtend (w + 1)).slt (nextPosition order) ||
      (nextPosition order).slt (-(order.maxNetPosition.zeroExtend (w + 1)))) =
        !WideSum.within (nextPosition order) order.maxNetPosition := by
  rw [WideSum.within, Bool.not_and, Bool.not_not, Bool.not_not]

theorem decisionComb_approved (order : GateOrder w) :
    (decisionComb order (notional order) (nextPosition order)).1 = true ↔
      Admissible order ∧ WideSum.within (nextPosition order) order.maxNetPosition = true := by
  have zero : ∀ x : BitVec w, x = 0 ↔ x.toNat = 0 := fun x => by
    rw [BitVec.toNat_eq, BitVec.ofNat_eq_ofNat, BitVec.toNat_ofNat, Nat.zero_mod]
  have above : order.quantity > order.maxQuantity ↔
      order.maxQuantity.toNat < order.quantity.toNat := BitVec.lt_def
  simp only [decisionComb, Guards.flag_past_iff, position_refused_iff, notional_gt_iff, zero, above,
    Bool.or_eq_true, Bool.not_eq_true', not_or, Bool.not_eq_false, Bool.not_eq_true, not_lt,
    and_true]
  constructor
  · intro passed
    rcases passed with
      ⟨⟨enabled, running⟩, limits, ⟨clock, feed⟩, ⟨some', most⟩, notional, within, price⟩
    exact ⟨⟨⟨enabled, running, limits, clock, feed, ⟨by omega, most⟩, notional⟩, by omega⟩, within⟩
  · intro both
    rcases both with ⟨ok, within⟩
    have quantity := ok.quantity
    have price := ok.price
    exact ⟨⟨ok.enabled, ok.running⟩, ok.limits, ⟨ok.clock, ok.feed⟩, ⟨by omega, quantity.2⟩,
      ok.notional, within, by omega⟩

def orderOf (request : RiskService.RiskRequest) : GateOrder 64 :=
  { sideBuy := request.side == .buy
    tradingEnabled := request.tradingEnabled
    halted := request.halted
    limitsValid := request.limitsValid
    clockHealthy := request.clockHealthy
    feedHealthy := request.feedHealthy
    priceTicks := request.priceTicks.toBitVec
    quantity := request.quantity.toBitVec
    maxQuantity := request.maxQuantity.toBitVec
    maxNotionalTicks := request.maxNotionalTicks.toBitVec
    netPosition := request.netPosition.toBitVec
    maxNetPosition := request.maxNetPosition.toBitVec }

theorem packed_bits (first second third : Bool) :
    let byte := (first.toUInt8 ||| (second.toUInt8 <<< 1) ||| (third.toUInt8 <<< 2)).toBitVec
    byte.extractLsb' 3 5 = 0 ∧ byte.getLsbD 0 = first ∧ byte.getLsbD 1 = second ∧
      byte.getLsbD 2 = third := by
  cases first <;> cases second <;> cases third <;> decide

theorem bridge_captures (bridge : OrderFrameBridge 64) (request : RiskService.RiskRequest) :
    bridge.clock (present (RiskService.toFpgaFrame request)) =
      { requestValid := true, order := orderOf request } := by
  rcases packed_bits request.tradingEnabled request.halted (request.side == .buy) with
    ⟨controlZero, enabled, halted, buys⟩
  rcases packed_bits request.limitsValid request.clockHealthy request.feedHealthy with
    ⟨healthZero, limits, clock, feed⟩
  simp only [OrderFrameBridge.clock, frameParityOk, present, RiskService.toFpgaFrame, orderOf,
    controlZero, healthZero, enabled, halted, buys, limits, clock, feed, BEq.rfl, Bool.and_self,
    if_true]

/-- The response to a frame stands in the output registers after three edges,
whatever the pipeline held before and is given afterwards. -/
theorem pipeline_responds (start : Pipeline 64) (request : RiskService.RiskRequest)
    (second third : FrameInput 64) :
    let done := start.run [present (RiskService.toFpgaFrame request), second, third]
    done.gate.responseValid = true ∧ done.gate.approved =
      (decisionComb (orderOf request) (notional (orderOf request))
        (nextPosition (orderOf request))).1 := by
  simp [Pipeline.run, Pipeline.clock, bridge_captures, RiskAccelerator.clock]

theorem exactPosition_orderOf (request : RiskService.RiskRequest) :
    exactPosition (orderOf request) = RiskService.nextPosition request := by
  rw [exactPosition, WideSum.exact, RiskService.nextPosition, orderOf]
  cases request.side with
  | buy => rfl
  | sell => exact sub_eq_add_neg _ _

theorem notional_checked (request : RiskService.RiskRequest) :
    (¬ (RiskService.checkedMul request.priceTicks request.quantity).isNone = true ∧
      ¬ request.priceTicks * request.quantity > request.maxNotionalTicks) ↔
        request.priceTicks.toNat * request.quantity.toNat ≤ request.maxNotionalTicks.toNat := by
  have limit := request.maxNotionalTicks.toNat_lt
  rw [gt_iff_lt, UInt64.not_lt, UInt64.le_iff_toNat_le, UInt64.toNat_mul, RiskService.checkedMul]
  by_cases fits : request.priceTicks.toNat * request.quantity.toNat < 2 ^ 64
  · rw [if_pos fits, Nat.mod_eq_of_lt fits]
    simp
  · rw [if_neg fits]
    simp only [Option.isNone_none, not_true_eq_false, false_and, false_iff]
    omega

theorem decisionOf_approved (request : RiskService.RiskRequest) :
    RiskService.decisionOf request = .approved ↔ Admissible (orderOf request) ∧
      (exactPosition (orderOf request)).natAbs ≤ request.maxNetPosition.toNat := by
  have zero : ∀ x : UInt64, x = 0 ↔ x.toNat = 0 := fun x => by
    rw [← UInt64.toNat_inj, UInt64.toNat_zero]
  have above : request.quantity > request.maxQuantity ↔
      request.maxQuantity.toNat < request.quantity.toNat := UInt64.lt_iff_toNat_lt
  have product := notional_checked request
  simp only [RiskService.decisionOf]
  simp (disch := decide) only [Guards.past_iff]
  rw [exactPosition_orderOf]
  simp only [zero, above, Bool.or_eq_true, Bool.not_eq_true', not_or, Bool.not_eq_false,
    Bool.not_eq_true (RiskService.RiskRequest.halted _), not_lt, and_true]
  constructor
  · intro passed
    rcases passed with ⟨⟨enabled, running⟩, limits, ⟨clock, feed⟩, ⟨some', most⟩, price, checked,
      notional, position⟩
    have exact' := product.mp ⟨checked, notional⟩
    exact ⟨⟨⟨enabled, running, limits, clock, feed, ⟨Nat.pos_of_ne_zero some', most⟩, exact'⟩,
      Nat.pos_of_ne_zero price⟩, position⟩
  · intro both
    rcases both with ⟨ok, position⟩
    rcases product.mpr ok.notional with ⟨checked, notional⟩
    exact ⟨⟨ok.enabled, ok.running⟩, ok.limits, ⟨ok.clock, ok.feed⟩,
      ⟨ok.quantity.1.ne', ok.quantity.2⟩, ok.price.ne', checked, notional, position⟩

theorem within_nextPosition (order : GateOrder w) :
    WideSum.within (nextPosition order) order.maxNetPosition = true ↔
      (exactPosition order).natAbs ≤ order.maxNetPosition.toNat ∨
        2 ^ (w + 1) ≤ (exactPosition order).natAbs + order.maxNetPosition.toNat :=
  WideSum.within_wide_iff order.sideBuy order.netPosition order.quantity order.maxNetPosition

/-- The wrapped sum of the accelerator cannot come back within the bound. -/
def SumFits (order : GateOrder w) : Prop :=
  (exactPosition order).natAbs + order.maxNetPosition.toNat < 2 ^ (w + 1)

/-- The two gates approve the same request exactly when another check refuses it
or its position does not come back within the bound by wrapping in 65 bits. -/
theorem approval_agrees_iff (digest : RiskService.RiskRequest → String)
    (request : RiskService.RiskRequest) (start : Pipeline 64) (second third : FrameInput 64) :
    let done := start.run [present (RiskService.toFpgaFrame request), second, third]
    done.gate.responseValid = true ∧
      (((RiskService.evaluate digest request).decision = .approved ↔
          done.gate.approved = true) ↔
        (Admissible (orderOf request) → SumFits (orderOf request))) := by
  intro done
  rcases pipeline_responds start request second third with ⟨valid, approved⟩
  refine ⟨valid, ?_⟩
  have software : (RiskService.evaluate digest request).decision = .approved ↔
      Admissible (orderOf request) ∧
        (exactPosition (orderOf request)).natAbs ≤ (orderOf request).maxNetPosition.toNat :=
    decisionOf_approved request
  rw [software, show done.gate.approved = _ from approved, decisionComb_approved,
    within_nextPosition]
  have bound := (orderOf request).maxNetPosition.isLt
  rw [SumFits]
  by_cases admissible : Admissible (orderOf request)
  · simp only [admissible, true_and, true_implies]
    omega
  · simp [admissible]

/-- A buy of `2 ^ 64 - 1` lots from the largest long position. -/
def wrappingRequest : RiskService.RiskRequest :=
  { priceTicks := 1
    quantity := 0xFFFFFFFFFFFFFFFF
    maxQuantity := 0xFFFFFFFFFFFFFFFF
    maxNotionalTicks := 0xFFFFFFFFFFFFFFFF
    netPosition := 0x7FFFFFFFFFFFFFFF
    maxNetPosition := 0xFFFFFFFFFFFFFFFF
    side := .buy
    tradingEnabled := true
    limitsValid := true
    clockHealthy := true
    feedHealthy := true
    halted := false }

def idleFrame : FrameInput 64 := ⟨false, 0, 0, 0, 0, 0, 0, 0, 0⟩

def idlePipeline : Pipeline 64 :=
  { bridge := OrderFrameBridge.reset
    gate := RiskAccelerator.reset
      ⟨false, OrderFrameBridge.reset.order, 0, 0, false, false, 0⟩ }

theorem wrapped_position_approved :
    ¬ ∀ (digest : RiskService.RiskRequest → String) (request : RiskService.RiskRequest)
      (start : Pipeline 64) (second third : FrameInput 64),
      ((RiskService.evaluate digest request).decision = .approved ↔
        (start.run [present (RiskService.toFpgaFrame request), second, third]).gate.approved =
          true) := by
  intro agrees
  have same := agrees (fun _ => "") wrappingRequest idlePipeline idleFrame idleFrame
  revert same
  decide

end Ito.Rtl
