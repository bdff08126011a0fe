import Ito.PreTradeGate
import Ito.RiskHardware
import Ito.Library.Machine

/-! The software model of the pre-trade gate against the hardware.

The model squeezes unsigned quantities and bounds into signed 64-bit integers.
It mirrors the hardware exactly where nothing is lost by that. -/

namespace Ito.HardwareBridge

open Rtl

def orderOn (input : HardwareGateInputs) : GateOrder 64 :=
  { sideBuy := input.sideBuy
    tradingEnabled := input.tradingEnabled
    halted := input.halted
    limitsValid := input.limitsValid
    clockHealthy := input.clockHealthy
    feedHealthy := input.feedHealthy
    priceTicks := input.priceTicks.toBitVec
    quantity := input.quantity.toBitVec
    maxQuantity := input.maxQuantity.toBitVec
    maxNotionalTicks := input.maxNotionalTicks.toBitVec
    netPosition := input.netPosition.toBitVec
    maxNetPosition := input.maxNetPosition.toBitVec }

/-- The model and the gate on a common clock. The outputs of a cycle are what the
step of the model returns and what the registers of the gate show after the edge. -/
def lockstep (pair : HardwareRiskGateModel × PreTradeGate 64) (input : HardwareGateInputs) :
    Option ((HardwareRiskGateModel × PreTradeGate 64) × HardwareGateOutputs × PreTradeGate 64) :=
  (pair.1.step input).map fun next =>
    let gate := pair.2.clock input.intentValid (orderOn input)
    ((next.1, gate), next.2, gate)

def Same (out : HardwareGateOutputs) (gate : PreTradeGate 64) : Prop :=
  out.decisionValid = gate.decisionValid ∧
    (out.decisionValid = true →
      out.approved = gate.approved ∧ out.reasonCode.value = gate.reasonCode)

/-- The model computes a next position without overflow. -/
def SumDefined (input : HardwareGateInputs) : Prop :=
  let position := exactPosition (orderOn input)
  if input.quantity.toNat < 2 ^ 63 then -2 ^ 63 ≤ position ∧ position < 2 ^ 63
  else if input.sideBuy then 2 ^ 63 ≤ position
  else input.quantity.toNat ≠ 2 ^ 63 ∧ position < -2 ^ 63

/-- The position the model compares passes its bound as the one of the gate does. -/
def BoundAgrees (input : HardwareGateInputs) : Prop :=
  let distance := (exactPosition (orderOn input)).natAbs
  let bound := input.maxNetPosition.toNat
  if input.quantity.toNat < 2 ^ 63 then bound < 2 ^ 63
  else if bound < 2 ^ 63 then distance + bound < 2 ^ 64 ∨ 2 ^ 64 + bound < distance
  else bound < distance ∧ distance + bound < 2 ^ 65

/-- The inputs on which the model mirrors the gate. -/
def Comparable (input : HardwareGateInputs) : Prop :=
  SumDefined input ∧ (Screened (orderOn input) → BoundAgrees input)

namespace HardwareRiskGateModel

theorem toInt_toInt64 (x : UInt64) :
    x.toInt64.toInt = if x.toNat < 2 ^ 63 then (x.toNat : Int) else x.toNat - 2 ^ 64 := by
  have high := x.toNat_lt
  change x.toBitVec.toInt = _
  rw [BitVec.toInt_eq_toNat_cond]
  change (if 2 * x.toNat < 2 ^ 64 then (x.toNat : Int) else x.toNat - (2 ^ 64 : Nat)) = _
  split <;> split <;> omega

/-- The next position of the model: the exact one, or off by `2 ^ 64` where the
quantity does not fit. -/
def squeezed (stage : HardwareGateInputs) : Int :=
  let position := exactPosition (orderOn stage)
  if stage.quantity.toNat < 2 ^ 63 then position
  else if stage.sideBuy then position - 2 ^ 64
  else position + 2 ^ 64

theorem exactPosition_orderOn (stage : HardwareGateInputs) :
    exactPosition (orderOn stage) =
      if stage.sideBuy then stage.netPosition.toInt + stage.quantity.toNat
      else stage.netPosition.toInt - stage.quantity.toNat := rfl

theorem nextPosition_iff (stage : HardwareGateInputs) (next : Int64) :
    nextPosition stage = some next ↔ SumDefined stage ∧ next.toInt = squeezed stage := by
  have high := stage.quantity.toNat_lt
  have cast := toInt_toInt64 stage.quantity
  have netLow := stage.netPosition.le_toInt
  have netHigh := stage.netPosition.toInt_lt
  have nextLow := next.le_toInt
  have nextHigh := next.toInt_lt
  rw [nextPosition, SumDefined, squeezed, signedQuantity]
  simp only [exactPosition_orderOn, Option.bind_eq_some_iff, CheckedInt.add?,
    CheckedInt.ofInt?_eq_some]
  cases side : stage.sideBuy with
  | true =>
      simp only [if_true, Option.some.injEq, exists_eq_left']
      rw [cast]
      by_cases small : stage.quantity.toNat < 2 ^ 63
      · simp only [small, if_true]
        omega
      · simp only [small, if_false]
        omega
  | false =>
      simp only [Bool.false_eq_true, if_false, CheckedInt.neg?, CheckedInt.ofInt?_eq_some]
      constructor
      · intro computed
        rcases computed with ⟨signed, negated, sum⟩
        have signedHigh := signed.toInt_lt
        rw [cast] at negated
        by_cases small : stage.quantity.toNat < 2 ^ 63
        · simp only [small, if_true] at negated ⊢
          omega
        · simp only [small, if_false] at negated ⊢
          omega
      · intro computed
        rcases computed with ⟨fits, value⟩
        have low : -2 ^ 63 ≤ -stage.quantity.toInt64.toInt := by
          rw [cast]
          split <;> omega
        have top : -stage.quantity.toInt64.toInt < 2 ^ 63 := by
          rw [cast]
          split at fits <;> split <;> omega
        rcases CheckedInt.ofInt?_defined low top with ⟨signed, _, negated⟩
        refine ⟨signed, negated, ?_⟩
        rw [negated, cast, value]
        split <;> omega

theorem positionExceeded_small {stage : HardwareGateInputs} (next : Int64)
    (small : stage.maxNetPosition.toNat < 2 ^ 63) :
    positionExceeded stage next =
      some (decide (stage.maxNetPosition.toNat < next.toInt.natAbs)) := by
  have cast := toInt_toInt64 stage.maxNetPosition
  rw [if_pos small] at cast
  have negated : CheckedInt.neg? stage.maxNetPosition.toInt64 =
      some (Int64.ofInt (-stage.maxNetPosition.toInt64.toInt)) := if_pos (by omega)
  have value : (Int64.ofInt (-stage.maxNetPosition.toInt64.toInt)).toInt =
      -stage.maxNetPosition.toInt64.toInt := Int64.toInt_ofInt_of_le (by omega) (by omega)
  rw [positionExceeded, CheckedInt.or_some, negated, Option.map_some]
  by_cases above : next > stage.maxNetPosition.toInt64
  · rw [if_pos (decide_eq_true above)]
    rw [gt_iff_lt, Int64.lt_iff_toInt_lt] at above
    rw [decide_eq_true (by omega : stage.maxNetPosition.toNat < next.toInt.natAbs)]
  · rw [if_neg (by simpa using above)]
    rw [gt_iff_lt, Int64.lt_iff_toInt_lt] at above
    rw [Option.some.injEq, decide_eq_decide, Int64.lt_iff_toInt_lt, value]
    omega

theorem positionExceeded_large {stage : HardwareGateInputs} (next : Int64)
    (large : 2 ^ 63 ≤ stage.maxNetPosition.toNat) :
    positionExceeded stage next =
      if stage.maxNetPosition.toNat = 2 ^ 63 ∧ next.toInt = -2 ^ 63 then none else some true := by
  have high := stage.maxNetPosition.toNat_lt
  have low := next.le_toInt
  have cast := toInt_toInt64 stage.maxNetPosition
  rw [if_neg (by omega)] at cast
  rw [positionExceeded, CheckedInt.or_some]
  by_cases above : next > stage.maxNetPosition.toInt64
  · rw [if_pos (decide_eq_true above)]
    rw [gt_iff_lt, Int64.lt_iff_toInt_lt] at above
    rw [if_neg (by omega)]
  · rw [if_neg (by simpa using above)]
    rw [gt_iff_lt, Int64.lt_iff_toInt_lt] at above
    by_cases edge : stage.maxNetPosition.toNat = 2 ^ 63
    · have overflows : CheckedInt.neg? stage.maxNetPosition.toInt64 = none := if_neg (by omega)
      rw [overflows, if_pos (by omega)]
      rfl
    · have negated : CheckedInt.neg? stage.maxNetPosition.toInt64 =
          some (Int64.ofInt (-stage.maxNetPosition.toInt64.toInt)) := if_pos (by omega)
      have value : (Int64.ofInt (-stage.maxNetPosition.toInt64.toInt)).toInt =
          -stage.maxNetPosition.toInt64.toInt := Int64.toInt_ofInt_of_le (by omega) (by omega)
      have below : next < Int64.ofInt (-stage.maxNetPosition.toInt64.toInt) := by
        rw [Int64.lt_iff_toInt_lt, value]
        omega
      rw [negated, if_neg (by omega), Option.map_some, decide_eq_true below]

theorem nextPosition_defined (stage : HardwareGateInputs) (fits : SumDefined stage) :
    ∃ next, nextPosition stage = some next := by
  have quantityHigh := stage.quantity.toNat_lt
  have netLow := stage.netPosition.le_toInt
  have netHigh := stage.netPosition.toInt_lt
  have exact' := exactPosition_orderOn stage
  have range : -2 ^ 63 ≤ squeezed stage ∧ squeezed stage < 2 ^ 63 := by
    rw [SumDefined] at fits
    rw [squeezed]
    generalize exactPosition (orderOn stage) = position at *
    split at fits
    case isTrue small =>
      rw [if_pos small]
      exact fits
    case isFalse large =>
      rw [if_neg large]
      split at fits
      case isTrue buys =>
        rw [if_pos buys] at exact' ⊢
        omega
      case isFalse sells =>
        rw [if_neg sells] at exact' ⊢
        omega
  rcases CheckedInt.ofInt?_defined range.1 range.2 with ⟨next, _, value⟩
  exact ⟨next, (nextPosition_iff stage next).mpr ⟨fits, value⟩⟩

theorem squeezed_cases (stage : HardwareGateInputs) (fits : SumDefined stage) :
    (stage.quantity.toNat < 2 ^ 63 ∧ squeezed stage = exactPosition (orderOn stage) ∧
        (exactPosition (orderOn stage)).natAbs ≤ 2 ^ 63) ∨
      (2 ^ 63 ≤ stage.quantity.toNat ∧ 2 ^ 63 ≤ (exactPosition (orderOn stage)).natAbs ∧
        (exactPosition (orderOn stage)).natAbs < 2 ^ 64 + 2 ^ 63 ∧
        (squeezed stage).natAbs =
          Int.natAbs ((exactPosition (orderOn stage)).natAbs - 2 ^ 64) ∧
        (squeezed stage = -2 ^ 63 → (exactPosition (orderOn stage)).natAbs = 2 ^ 63)) := by
  have quantityHigh := stage.quantity.toNat_lt
  have netLow := stage.netPosition.le_toInt
  have netHigh := stage.netPosition.toInt_lt
  have exact' := exactPosition_orderOn stage
  rw [SumDefined] at fits
  rw [squeezed]
  generalize exactPosition (orderOn stage) = position at *
  by_cases small : stage.quantity.toNat < 2 ^ 63
  · rw [if_pos small] at fits
    rw [if_pos small]
    exact Or.inl ⟨small, rfl, by omega⟩
  · rw [if_neg small] at fits
    rw [if_neg small]
    apply Or.inr
    cases side : stage.sideBuy with
    | true =>
        simp only [side, if_true] at fits exact' ⊢
        omega
    | false =>
        simp only [side, Bool.false_eq_true, if_false] at fits exact' ⊢
        omega

theorem positionExceeded_agrees (stage : HardwareGateInputs) {next : Int64}
    (fits : SumDefined stage) (value : next.toInt = squeezed stage) :
    positionExceeded stage next =
        some (!WideSum.within (Rtl.nextPosition (orderOn stage)) (orderOn stage).maxNetPosition) ↔
      BoundAgrees stage := by
  have gate := within_nextPosition (orderOn stage)
  have limit : (orderOn stage).maxNetPosition.toNat = stage.maxNetPosition.toNat := rfl
  have high := stage.maxNetPosition.toNat_lt
  have region := squeezed_cases stage fits
  rw [limit] at gate
  rw [← value] at region
  rw [BoundAgrees]
  generalize WideSum.within (Rtl.nextPosition (orderOn stage)) (orderOn stage).maxNetPosition =
    passed at *
  generalize (exactPosition (orderOn stage)) = position at *
  by_cases large : 2 ^ 63 ≤ stage.maxNetPosition.toNat
  · rw [positionExceeded_large next large]
    rcases region with ⟨small, same, near⟩ | ⟨wide, far, reach, distance, edge⟩
    · have passes : passed = true := gate.mpr (by omega)
      rw [if_pos small, passes]
      split <;> simp <;> omega
    · rw [if_neg (show ¬ stage.quantity.toNat < 2 ^ 63 by omega),
        if_neg (show ¬ stage.maxNetPosition.toNat < 2 ^ 63 by omega)]
      split
      case isTrue undefined =>
        have bound := edge undefined.2
        simp only [reduceCtorEq, false_iff]
        omega
      case isFalse =>
        rw [Option.some.injEq, Bool.true_eq, Bool.not_eq_true', ← Bool.not_eq_true, gate]
        omega
  · rw [positionExceeded_small next (by omega), Option.some.injEq]
    have decided : decide (stage.maxNetPosition.toNat < next.toInt.natAbs) = !passed ↔
        (stage.maxNetPosition.toNat < next.toInt.natAbs ↔ ¬ passed = true) := by
      rw [Bool.eq_iff_iff, decide_eq_true_eq, Bool.not_eq_true', Bool.not_eq_true]
    rw [decided, gate]
    rcases region with ⟨small, same, near⟩ | ⟨wide, far, reach, distance, edge⟩
    · rw [if_pos small, same]
      omega
    · rw [if_neg (by omega), if_pos (by omega), distance]
      omega

theorem notionalExceeded_iff (stage : HardwareGateInputs) :
    notionalExceeded stage = true ↔ notional (orderOn stage) >
      (orderOn stage).maxNotionalTicks.zeroExtend (2 * 64) := by
  rw [notional_gt_iff]
  change _ ↔ stage.maxNotionalTicks.toNat < stage.priceTicks.toNat * stage.quantity.toNat
  simp only [notionalExceeded, Bool.and_eq_true, decide_eq_true_eq, gt_iff_lt,
    UInt64.lt_iff_toNat_lt, UInt64.toNat_div, UInt64.toNat_zero]
  constructor
  · intro refused
    rcases refused with ⟨⟨price, _⟩, exceeds⟩
    rw [Nat.mul_comm]
    exact (Nat.div_lt_iff_lt_mul price).mp exceeds
  · intro exceeds
    have price : 0 < stage.priceTicks.toNat := by
      apply Nat.pos_of_ne_zero
      intro zero
      rw [zero, Nat.zero_mul] at exceeds
      omega
    have quantity : 0 < stage.quantity.toNat := by
      apply Nat.pos_of_ne_zero
      intro zero
      rw [zero, Nat.mul_zero] at exceeds
      omega
    rw [Nat.mul_comm] at exceeds
    exact ⟨⟨price, quantity⟩, (Nat.div_lt_iff_lt_mul price).mpr exceeds⟩

theorem quantity_refused_iff (stage : HardwareGateInputs) :
    (stage.quantity = 0 ∨ stage.quantity > stage.maxQuantity) ↔
      ((orderOn stage).quantity = 0 ∨ (orderOn stage).quantity > (orderOn stage).maxQuantity) := by
  rw [← UInt64.toBitVec_inj]
  exact Iff.rfl

theorem price_zero_iff (stage : HardwareGateInputs) :
    stage.priceTicks = 0 ↔ (orderOn stage).priceTicks = 0 := by
  rw [← UInt64.toBitVec_inj]
  exact Iff.rfl

/-- The decision of the model, written as the gate writes its own. -/
def shown (decided : Bool × HardwareReasonCode) : Bool × BitVec 4 := (decided.1, decided.2.value)

theorem shown_check_iff {c : Prop} [Decidable c] {code : HardwareReasonCode} {number : BitVec 4}
    {rest : Option (Bool × HardwareReasonCode)} {rest' : Bool × BitVec 4}
    (same : code.value = number) :
    (if c then some (false, code) else rest).map shown =
        some (if c then (false, number) else rest') ↔
      (¬ c → rest.map shown = some rest') := by
  by_cases stopped : c
  · simp [stopped, shown, same]
  · simp [stopped]

theorem shown_position_iff {exceeded : Option Bool} {refused : Bool} {zero : Prop}
    [Decidable zero] :
    (exceeded.map fun exceeded =>
        if exceeded then (false, HardwareReasonCode.positionLimit)
        else if zero then (false, .priceZero) else (true, .approved)).map shown =
      some (if refused then (false, 6) else if zero then (false, 7) else (true, 0)) ↔
      exceeded = some refused := by
  by_cases zero' : zero <;> cases exceeded with
  | none => simp
  | some exceeded =>
      cases exceeded <;> cases refused <;>
        simp [zero', shown, HardwareReasonCode.value]

theorem screened_iff (stage : HardwareGateInputs) : Screened (orderOn stage) ↔
    ¬ (!stage.tradingEnabled || stage.halted) = true ∧ ¬ (!stage.limitsValid) = true ∧
      ¬ (!stage.clockHealthy || !stage.feedHealthy) = true ∧
      ¬ (stage.quantity = 0 ∨ stage.quantity > stage.maxQuantity) ∧
      ¬ notionalExceeded stage = true := by
  have above : stage.quantity > stage.maxQuantity ↔
      stage.maxQuantity.toNat < stage.quantity.toNat := UInt64.lt_iff_toNat_lt
  have zero : stage.quantity = 0 ↔ stage.quantity.toNat = 0 := by
    rw [← UInt64.toNat_inj, UInt64.toNat_zero]
  rw [notionalExceeded_iff, notional_gt_iff, above, zero]
  simp only [Bool.or_eq_true, Bool.not_eq_true', not_or, Bool.not_eq_false, not_lt]
  constructor
  · intro ok
    have quantity := ok.quantity
    exact ⟨⟨ok.enabled, Bool.not_eq_true _ ▸ ok.running⟩, ok.limits, ⟨ok.clock, ok.feed⟩,
      ⟨quantity.1.ne', quantity.2⟩, ok.notional⟩
  · intro passed
    rcases passed with ⟨⟨enabled, running⟩, limits, ⟨clock, feed⟩, ⟨some', most⟩, notional⟩
    exact ⟨enabled, Bool.not_eq_true _ ▸ running, limits, clock, feed,
      ⟨Nat.pos_of_ne_zero some', most⟩, notional⟩

theorem decision_iff (stage : HardwareGateInputs) :
    (decision stage).map shown = some (decisionComb (orderOn stage) (notional (orderOn stage))
        (Rtl.nextPosition (orderOn stage))) ↔ Comparable stage := by
  rw [Comparable]
  cases found : nextPosition stage with
  | none =>
      have undefined : ¬ SumDefined stage := by
        intro fits
        rcases nextPosition_defined stage fits with ⟨next, defined⟩
        rw [found] at defined
        cases defined
      simp [decision, found, undefined]
  | some next =>
      rcases (nextPosition_iff stage next).mp found with ⟨fits, value⟩
      have screened := screened_iff stage
      have position := positionExceeded_agrees stage fits value
      simp only [fits, true_and]
      rw [decision, found, Option.bind_some]
      rw [decisionComb]
      have stopped : (!(orderOn stage).tradingEnabled || (orderOn stage).halted) =
          (!stage.tradingEnabled || stage.halted) := rfl
      have limits : (!(orderOn stage).limitsValid) = !stage.limitsValid := rfl
      have health : (!(orderOn stage).clockHealthy || !(orderOn stage).feedHealthy) =
          (!stage.clockHealthy || !stage.feedHealthy) := rfl
      simp only [← quantity_refused_iff, ← notionalExceeded_iff, position_refused_iff,
        ← price_zero_iff, stopped, limits, health]
      rw [shown_check_iff, shown_check_iff, shown_check_iff, shown_check_iff, shown_check_iff,
        shown_position_iff, position, screened]
      · simp only [and_imp]
      all_goals rfl

end HardwareRiskGateModel

/-- The model and the gate hold the same stage. -/
structure Aligned (pair : HardwareRiskGateModel × PreTradeGate 64) : Prop where
  valid : pair.2.stageValid = pair.1.stage.intentValid
  stage : pair.1.stage.intentValid = true → pair.2.stage = orderOn pair.1.stage

theorem aligned_reset (gate : PreTradeGate 64) :
    Aligned (HardwareRiskGateModel.reset, gate.reset) := by
  constructor
  · rfl
  · intro valid
    cases valid

theorem lockstep_next {pair next : HardwareRiskGateModel × PreTradeGate 64}
    {input : HardwareGateInputs} {out : HardwareGateOutputs × PreTradeGate 64}
    (ran : lockstep pair input = some (next, out)) : next.1.stage = input ∧ Aligned next := by
  rcases Option.map_eq_some_iff.mp ran with ⟨⟨model, shown⟩, stepped, same⟩
  rcases Option.map_eq_some_iff.mp stepped with ⟨out', _, same'⟩
  cases same'
  cases same
  refine ⟨rfl, rfl, ?_⟩
  intro valid
  exact if_pos valid

theorem lockstep_iff {pair : HardwareRiskGateModel × PreTradeGate 64} (aligned : Aligned pair)
    (input : HardwareGateInputs) :
    (∃ next out, lockstep pair input = some (next, out) ∧ Same out.1 out.2) ↔
      (pair.1.stage.intentValid = true → Comparable pair.1.stage) := by
  cases valid : pair.1.stage.intentValid with
  | false =>
      have stageValid := aligned.valid
      rw [valid] at stageValid
      simp [lockstep, HardwareRiskGateModel.step, valid, Same, PreTradeGate.clock, stageValid]
  | true =>
      have stageValid := aligned.valid
      have stage := aligned.stage valid
      rw [valid] at stageValid
      rw [← HardwareRiskGateModel.decision_iff, ← stage]
      simp only [lockstep, HardwareRiskGateModel.step, valid, if_true, true_implies]
      cases HardwareRiskGateModel.decision pair.1.stage with
      | none => simp
      | some decided =>
          simp [Same, PreTradeGate.clock, stageValid, HardwareRiskGateModel.shown, Prod.ext_iff]

/-- The run is defined and the outputs agree on every cycle of it. -/
def Mirrors (pair : HardwareRiskGateModel × PreTradeGate 64) (inputs : List HardwareGateInputs) :
    Prop :=
  ∃ final log, Machine.exec lockstep pair inputs = some (final, log) ∧
    ∀ cycle ∈ log, Same cycle.2.1 cycle.2.2

theorem mirrors_cons {pair : HardwareRiskGateModel × PreTradeGate 64} {input : HardwareGateInputs}
    {inputs : List HardwareGateInputs} :
    Mirrors pair (input :: inputs) ↔
      ∃ next out, (lockstep pair input = some (next, out) ∧ Same out.1 out.2) ∧
        Mirrors next inputs := by
  rw [Mirrors]
  constructor
  · intro mirrored
    rcases mirrored with ⟨final, log, ran, same⟩
    rcases Machine.exec_cons_eq_some.mp ran with ⟨next, out, rest, first, tail, rfl⟩
    refine ⟨next, out, ⟨first, same _ List.mem_cons_self⟩, final, rest, tail, ?_⟩
    intro cycle member
    exact same cycle (List.mem_cons_of_mem _ member)
  · intro mirrored
    rcases mirrored with ⟨next, out, ⟨first, now⟩, final, rest, tail, same⟩
    refine ⟨final, (input, out) :: rest,
      Machine.exec_cons_eq_some.mpr ⟨next, out, rest, first, tail, rfl⟩, ?_⟩
    intro cycle member
    rcases List.mem_cons.mp member with rfl | later
    · exact now
    · exact same cycle later

/-- Over a whole stream: every stage that is decided must be comparable. -/
theorem mirrors_iff {pair : HardwareRiskGateModel × PreTradeGate 64} (aligned : Aligned pair)
    (inputs : List HardwareGateInputs) :
    Mirrors pair inputs ↔ ∀ stage ∈ (pair.1.stage :: inputs).dropLast,
      stage.intentValid = true → Comparable stage := by
  induction inputs generalizing pair with
  | nil =>
      constructor
      · intro _ stage member
        cases member
      · intro _
        exact ⟨pair, [], rfl, fun _ member => nomatch member⟩
  | cons input inputs ih =>
      have cycle := lockstep_iff aligned input
      rw [mirrors_cons, List.dropLast_cons_cons, List.forall_mem_cons]
      constructor
      · intro mirrored
        rcases mirrored with ⟨next, out, now, later⟩
        rcases lockstep_next now.1 with ⟨stage, kept⟩
        rw [ih kept, stage] at later
        exact ⟨cycle.mp ⟨next, out, now⟩, later⟩
      · intro both
        rcases both with ⟨first, rest⟩
        rcases cycle.mpr first with ⟨next, out, now⟩
        rcases lockstep_next now.1 with ⟨stage, kept⟩
        refine ⟨next, out, now, (ih kept).mpr ?_⟩
        rw [stage]
        exact rest

/-- From reset the model mirrors the gate over a stream of inputs exactly when
every valid intent it decides is comparable. -/
theorem model_mirrors_iff (gate : PreTradeGate 64) (inputs : List HardwareGateInputs) :
    Mirrors (HardwareRiskGateModel.reset, gate.reset) inputs ↔
      ∀ input ∈ inputs.dropLast, input.intentValid = true → Comparable input := by
  rw [mirrors_iff (aligned_reset gate)]
  cases inputs with
  | nil => simp
  | cons input inputs =>
      rw [List.dropLast_cons_cons, List.forall_mem_cons]
      constructor
      · intro both
        exact both.2
      · intro rest
        refine ⟨?_, rest⟩
        intro valid
        cases valid

/-- A buy of `2 ^ 64 - 1` lots, which the model takes for a sell of one. -/
def hugeBuy : HardwareGateInputs :=
  { intentValid := true
    priceTicks := 1
    quantity := 0xFFFFFFFFFFFFFFFF
    maxQuantity := 0xFFFFFFFFFFFFFFFF
    maxNotionalTicks := 0xFFFFFFFFFFFFFFFF
    maxNetPosition := 10 }

def idleGate : PreTradeGate 64 := ⟨false, orderOn {}, false, false, 0⟩

instance (out : HardwareGateOutputs) (gate : PreTradeGate 64) : Decidable (Same out gate) :=
  inferInstanceAs (Decidable (_ ∧ (_ → _)))

theorem huge_buy_differs : ¬ ∀ (gate : PreTradeGate 64) (inputs : List HardwareGateInputs),
    Mirrors (HardwareRiskGateModel.reset, gate.reset) inputs := by
  intro mirrors
  rcases mirrors idleGate [hugeBuy, hugeBuy] with ⟨final, log, ran, same⟩
  have differs : (Machine.exec lockstep (HardwareRiskGateModel.reset, idleGate.reset)
      [hugeBuy, hugeBuy]).map (fun run => decide (∀ cycle ∈ run.2, Same cycle.2.1 cycle.2.2)) =
        some false := by decide +kernel
  rw [ran, Option.map_some, Option.some.injEq] at differs
  exact of_decide_eq_false differs same

end Ito.HardwareBridge
