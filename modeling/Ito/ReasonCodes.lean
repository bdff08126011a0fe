import Ito.RiskHardware
import Ito.PreTradeGate

/-! The reason codes of the software gate and of the hardware gates on the same request.

The first four checks and their codes are the same. Behind them the software gate tests the
price, the overflow, the notional and the position, with the codes 5, 8, 6 and 7; the hardware
gates test the notional, the position and the price, with the codes 5, 6 and 7. -/

namespace Ito.Rtl

open RiskService

variable (request : RiskRequest)

def screened (rest : Nat) : Nat :=
  if !request.tradingEnabled || request.halted then 1
  else if !request.limitsValid then 2
  else if !request.clockHealthy || !request.feedHealthy then 3
  else if request.quantity = 0 ∨ request.quantity > request.maxQuantity then 4
  else rest

def exactNotional : Nat := request.priceTicks.toNat * request.quantity.toNat

def softwareTail : Nat :=
  if request.priceTicks = 0 then 5
  else if 2 ^ 64 ≤ exactNotional request then 8
  else if request.maxNotionalTicks.toNat < exactNotional request then 6
  else if request.maxNetPosition.toNat < (RiskService.nextPosition request).natAbs then 7
  else 0

def hardwareTail : Nat :=
  if request.maxNotionalTicks.toNat < exactNotional request then 5
  else if WideSum.within (nextPosition (orderOf request)) (orderOf request).maxNetPosition = false
    then 6
  else if request.priceTicks = 0 then 7
  else 0

theorem software_reason :
    (reasonCode (decisionOf request)).toNat = screened request (softwareTail request) := by
  have overflows : (checkedMul request.priceTicks request.quantity).isNone = true ↔
      2 ^ 64 ≤ exactNotional request := by
    rw [checkedMul, exactNotional]
    split <;> simp <;> omega
  simp only [decisionOf, screened, softwareTail, apply_ite reasonCode, apply_ite UInt8.toNat,
    overflows, gt_iff_lt]
  by_cases large : 2 ^ 64 ≤ exactNotional request
  · simp only [if_pos large]
    rfl
  · have product : request.maxNotionalTicks < request.priceTicks * request.quantity ↔
        request.maxNotionalTicks.toNat < exactNotional request := by
      rw [UInt64.lt_iff_toNat_lt, UInt64.toNat_mul]
      exact iff_of_eq (congrArg _ (Nat.mod_eq_of_lt (not_le.mp large)))
    simp only [if_neg large, product]
    rfl

theorem hardware_reason :
    (decisionComb (orderOf request) (notional (orderOf request))
      (nextPosition (orderOf request))).2.toNat = screened request (hardwareTail request) := by
  have zero : ∀ value : UInt64, value.toBitVec = 0 ↔ value = 0 := fun value =>
    UInt64.toBitVec_inj (b := 0)
  have within : WideSum.within (nextPosition (orderOf request)) (orderOf request).maxNetPosition =
      false ↔ (!WideSum.within (nextPosition (orderOf request))
        (orderOf request).maxNetPosition) = true := by
    rw [Bool.not_eq_true']
  have large : notional (orderOf request) >
      (orderOf request).maxNotionalTicks.zeroExtend (2 * 64) ↔
        request.maxNotionalTicks.toNat < exactNotional request := notional_gt_iff _
  simp only [decisionComb, position_refused_iff, large, screened, hardwareTail, within,
    apply_ite Prod.snd, apply_ite BitVec.toNat]
  simp only [orderOf, zero, gt_iff_lt, ← UInt64.lt_iff_toBitVec_lt]
  rfl

def Blocked : Prop :=
  request.tradingEnabled = false ∨ request.halted = true ∨ request.limitsValid = false ∨
    request.clockHealthy = false ∨ request.feedHealthy = false ∨ request.quantity = 0 ∨
    request.maxQuantity < request.quantity

structure Clean : Prop where
  price : request.priceTicks ≠ 0
  notional : exactNotional request ≤ request.maxNotionalTicks.toNat
  position : (RiskService.nextPosition request).natAbs ≤ request.maxNetPosition.toNat

theorem screened_blocked (blocked : Blocked request) (rest other : Nat) :
    screened request rest = screened request other := by
  simp only [screened]
  rcases blocked with disabled | halted | limits | clock | feed | none | notional
  all_goals simp_all

theorem screened_open (opened : ¬ Blocked request) (rest : Nat) :
    screened request rest = rest := by
  simp only [Blocked, not_or] at opened
  simp [screened, opened]

theorem tails_agree_iff : softwareTail request = hardwareTail request ↔ Clean request := by
  have limit := request.maxNotionalTicks.toNat_lt
  by_cases price : request.priceTicks = 0
  · have nothing : ¬ request.maxNotionalTicks.toNat < exactNotional request := by
      rw [exactNotional, price]
      simp
    rw [softwareTail, if_pos price, hardwareTail, if_neg nothing, if_pos price]
    apply iff_of_false
    · split <;> decide
    · intro clean
      exact clean.price price
  by_cases huge : 2 ^ 64 ≤ exactNotional request
  · rw [softwareTail, if_neg price, if_pos huge, hardwareTail, if_pos (by omega)]
    apply iff_of_false (by decide)
    intro clean
    have fits := clean.notional
    omega
  by_cases large : request.maxNotionalTicks.toNat < exactNotional request
  · rw [softwareTail, if_neg price, if_neg huge, if_pos large, hardwareTail, if_pos large]
    apply iff_of_false (by decide)
    intro clean
    exact absurd clean.notional (not_le.mpr large)
  have exactly := exactPosition_orderOf request
  have wraps := within_nextPosition (orderOf request)
  rw [exactly] at wraps
  by_cases beyond : request.maxNetPosition.toNat < (RiskService.nextPosition request).natAbs
  · rw [softwareTail, if_neg price, if_neg huge, if_neg large, if_pos beyond, hardwareTail,
      if_neg large, if_neg price]
    apply iff_of_false
    · split <;> decide
    · intro clean
      exact absurd clean.position (not_le.mpr beyond)
  · have inside : ¬ WideSum.within (nextPosition (orderOf request))
        (orderOf request).maxNetPosition = false := by
      rw [Bool.not_eq_false, wraps]
      exact .inl (not_lt.mp beyond)
    rw [softwareTail, if_neg price, if_neg huge, if_neg large, if_neg beyond, hardwareTail,
      if_neg large, if_neg inside, if_neg price]
    exact iff_of_true rfl ⟨price, not_lt.mp large, not_lt.mp beyond⟩

/-- The software gate and both hardware gates give the same reason code exactly when one of the
checks they make first refuses the request, or nothing does. -/
theorem reason_agrees_iff (digest : RiskRequest → String) (accelerator : RiskAccelerator 64)
    (gate : PreTradeGate 64) (nextValid : Bool) (nextOrder : GateOrder 64) :
    let answered := (accelerator.clock true (orderOf request)).clock nextValid nextOrder
    let decided := (gate.clock true (orderOf request)).clock nextValid nextOrder
    answered.responseValid = true ∧ decided.decisionValid = true ∧
      ((answered.reasonCode.toNat = (evaluate digest request).reasonCode.toNat ∧
          decided.reasonCode.toNat = (evaluate digest request).reasonCode.toNat) ↔
        Blocked request ∨ Clean request) := by
  intro answered decided
  apply And.intro rfl
  apply And.intro rfl
  have software : (evaluate digest request).reasonCode.toNat =
      screened request (softwareTail request) := software_reason request
  have fast : answered.reasonCode.toNat = screened request (hardwareTail request) :=
    hardware_reason request
  have slow : decided.reasonCode.toNat = screened request (hardwareTail request) :=
    hardware_reason request
  rw [software, fast, slow, and_self]
  by_cases blocked : Blocked request
  · exact iff_of_true (screened_blocked request blocked _ _) (.inl blocked)
  · rw [screened_open request blocked, screened_open request blocked, eq_comm,
      tails_agree_iff, or_iff_right blocked]

def freeRequest : RiskRequest :=
  { priceTicks := 0
    quantity := 10
    maxQuantity := 100
    maxNotionalTicks := 10000
    netPosition := 0
    maxNetPosition := 1000
    side := .buy
    tradingEnabled := true
    limitsValid := true
    clockHealthy := true
    feedHealthy := true
    halted := false }

/-- The software gate refuses it with 5, the hardware gates with 7. -/
theorem zero_price_codes_differ :
    ¬ ∀ (digest : RiskRequest → String) (request : RiskRequest) (accelerator : RiskAccelerator 64)
      (gate : PreTradeGate 64) (nextValid : Bool) (nextOrder : GateOrder 64),
      ((accelerator.clock true (orderOf request)).clock nextValid nextOrder).reasonCode.toNat =
          (evaluate digest request).reasonCode.toNat ∧
        ((gate.clock true (orderOf request)).clock nextValid nextOrder).reasonCode.toNat =
          (evaluate digest request).reasonCode.toNat := by
  intro agrees
  have same := (agrees (fun _ => "") freeRequest idlePipeline.gate
    ⟨false, orderOf freeRequest, false, false, 0⟩ false (orderOf freeRequest)).1
  revert same
  decide

end Ito.Rtl
