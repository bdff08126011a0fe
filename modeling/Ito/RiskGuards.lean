import Ito.RiskEngine

/-! What each guard of the risk engine decides, over the unbounded integers.

The guards rearrange sums into differences and add range tests of their own.
Under the ledger invariant `|net| ≤ gross` none of them overflows and none of
the extra tests changes a verdict. -/

namespace Ito

open CheckedInt

def PositionSnapshot.Ledger (position : PositionSnapshot) : Prop :=
  -position.grossPosition.toInt ≤ position.netPosition.toInt ∧
    position.netPosition.toInt ≤ position.grossPosition.toInt

instance (position : PositionSnapshot) : Decidable position.Ledger :=
  inferInstanceAs (Decidable (_ ∧ _))

def Side.sign : Side → Int
  | .buy => 1
  | _ => -1

structure LimitSnapshot.Valid (limits : LimitSnapshot) : Prop where
  version : limits.version ≠ 0
  expiry : limits.expiresNs ≠ 0
  orderQuantity : 0 < limits.maxOrderQuantity.toInt
  orderNotional : 0 < limits.maxOrderNotionalTicks.toInt
  netPosition : 0 ≤ limits.maxNetPosition.toInt
  grossPosition : 0 ≤ limits.maxGrossPosition.toInt
  rate : limits.maxOrdersPerSecond ≠ 0

namespace RiskEngine

theorem ledger_gross {position : PositionSnapshot} (ledger : position.Ledger) :
    0 ≤ position.grossPosition.toInt := by
  have low := ledger.1
  have high := ledger.2
  omega

theorem positionRefused_eq (position : PositionSnapshot) :
    positionRefused position = some (decide (¬ position.Ledger)) := by
  unfold positionRefused PositionSnapshot.Ledger
  simp only [Option.pure_def, Option.bind_eq_bind, or_some, decide_eq_true_eq, gt_iff_lt,
    Int64.lt_iff_toInt_lt, Int64.toInt_zero]
  split
  case isTrue negative =>
    rw [Option.some.injEq, eq_comm, decide_eq_true_eq]
    omega
  case isFalse nonnegative =>
    split
    case isTrue above =>
      rw [Option.some.injEq, eq_comm, decide_eq_true_eq]
      omega
    case isFalse below =>
      have top := position.grossPosition.toInt_lt
      obtain ⟨bound, defined, value⟩ :=
        ofInt?_defined (x := -position.grossPosition.toInt) (by omega) (by omega)
      rw [neg?, defined, Option.bind_some, value, Option.some.injEq, decide_eq_decide]
      omega

theorem setPosition_eq (engine : RiskEngine) (position : PositionSnapshot) :
    engine.setPosition position =
      some (if position.Ledger then { engine with position } else engine) := by
  rw [setPosition]
  rw [Option.bind_eq_bind, positionRefused_eq, Option.bind_some]
  by_cases ledger : position.Ledger <;> simp [ledger]

theorem signedQuantity_eq (side : Side) {quantity : Int64} (positive : 0 < quantity.toInt) :
    ∃ signed, signedQuantity side quantity = some signed ∧
      signed.toInt = side.sign * quantity.toInt := by
  have top := quantity.toInt_lt
  cases side with
  | buy => exact ⟨quantity, rfl, by simp [Side.sign]⟩
  | sell | unnamed =>
      obtain ⟨signed, defined, value⟩ :=
        ofInt?_defined (x := -quantity.toInt) (by omega) (by omega)
      exact ⟨signed, defined, by simp [Side.sign, value]⟩

theorem grossOverflows_eq {position : PositionSnapshot} (ledger : position.Ledger)
    (quantity : Int64) :
    grossOverflows position quantity =
      some (decide (¬ (0 < quantity.toInt ∧
        position.grossPosition.toInt + quantity.toInt < 2 ^ 63))) := by
  have gross := ledger_gross ledger
  have top := position.grossPosition.toInt_lt
  obtain ⟨room, defined, value⟩ := ofInt?_defined
    (x := Int64.maxValue.toInt - position.grossPosition.toInt)
    (by rw [Int64.toInt_maxValue]; omega) (by rw [Int64.toInt_maxValue]; omega)
  rw [Int64.toInt_maxValue] at value
  rw [grossOverflows]
  simp only [Option.pure_def, Option.bind_eq_bind, or_some, decide_eq_true_eq, gt_iff_lt,
    Int64.lt_iff_toInt_lt, Int64.le_iff_toInt_le, Int64.toInt_zero, sub?, defined,
    Option.bind_some, value]
  split
  case isTrue empty =>
    rw [Option.some.injEq, eq_comm, decide_eq_true_eq]
    omega
  case isFalse nonempty =>
    rw [if_neg (by omega), Option.some.injEq, decide_eq_decide]
    omega

theorem netOverflows_eq {position : PositionSnapshot} (ledger : position.Ledger) {signed : Int64}
    (up : position.grossPosition.toInt + signed.toInt < 2 ^ 63)
    (down : position.grossPosition.toInt - signed.toInt < 2 ^ 63) :
    netOverflows position signed = some false := by
  have low := ledger.1
  have high := ledger.2
  have top := signed.toInt_lt
  have bottom := signed.le_toInt
  rw [netOverflows]
  simp only [Option.pure_def, Option.bind_eq_bind, and_some, decide_eq_true_eq, gt_iff_lt,
    Int64.lt_iff_toInt_lt, Int64.toInt_zero, sub?]
  rcases Int.lt_trichotomy signed.toInt 0 with negative | zero | positive
  · obtain ⟨bound, defined, value⟩ := ofInt?_defined (x := Int64.minValue.toInt - signed.toInt)
      (by rw [Int64.toInt_minValue]; omega) (by rw [Int64.toInt_minValue]; omega)
    rw [Int64.toInt_minValue] at value
    rw [if_neg (by omega), if_pos negative, defined, Option.bind_some, value, or_some,
      if_neg (by simp), Option.some.injEq, decide_eq_false_iff_not]
    omega
  · rw [if_neg (by omega), if_neg (by omega), or_some, if_neg (by simp)]
  · obtain ⟨bound, defined, value⟩ := ofInt?_defined (x := Int64.maxValue.toInt - signed.toInt)
      (by rw [Int64.toInt_maxValue]; omega) (by rw [Int64.toInt_maxValue]; omega)
    rw [Int64.toInt_maxValue] at value
    have inside : ¬ 2 ^ 63 - 1 - signed.toInt < position.netPosition.toInt := by omega
    rw [if_pos positive, if_neg (by omega), defined, Option.bind_some, value, or_some,
      if_neg (by simpa using inside)]

theorem breaksLimits_eq (limits : LimitSnapshot) (nextGross : Int64) {nextNet : Int64}
    (above : -2 ^ 63 < nextNet.toInt) :
    breaksLimits limits nextGross nextNet =
      some (decide (¬ (nextGross.toInt ≤ limits.maxGrossPosition.toInt ∧
        -limits.maxNetPosition.toInt ≤ nextNet.toInt ∧
        nextNet.toInt ≤ limits.maxNetPosition.toInt))) := by
  rw [breaksLimits]
  simp only [Option.pure_def, Option.bind_eq_bind, or_some, decide_eq_true_eq, gt_iff_lt,
    Int64.lt_iff_toInt_lt]
  split
  case isTrue gross =>
    rw [Option.some.injEq, eq_comm, decide_eq_true_eq]
    omega
  case isFalse gross =>
    split
    case isTrue net =>
      rw [Option.some.injEq, eq_comm, decide_eq_true_eq]
      omega
    case isFalse net =>
      -- `max_net_position` is at least the net position, so negating it is safe
      have top := limits.maxNetPosition.toInt_lt
      obtain ⟨bound, defined, value⟩ :=
        ofInt?_defined (x := -limits.maxNetPosition.toInt) (by omega) (by omega)
      rw [neg?, defined, Option.bind_some, value, Option.some.injEq, decide_eq_decide]
      omega

/-- A fill the ledger takes: a named side, a positive quantity, and a position
after it that respects both limits. -/
def Bookable (engine : RiskEngine) (side : Side) (quantity : Int64) : Prop :=
  side ≠ .unnamed ∧ 0 < quantity.toInt ∧
    engine.position.grossPosition.toInt + quantity.toInt ≤ engine.limits.maxGrossPosition.toInt ∧
    -engine.limits.maxNetPosition.toInt ≤
      engine.position.netPosition.toInt + side.sign * quantity.toInt ∧
    engine.position.netPosition.toInt + side.sign * quantity.toInt ≤
      engine.limits.maxNetPosition.toInt

instance (engine : RiskEngine) (side : Side) (quantity : Int64) :
    Decidable (engine.Bookable side quantity) :=
  inferInstanceAs (Decidable (_ ∧ _))

/-- `apply_fill` books exactly the bookable fills and leaves everything as it
was otherwise. -/
theorem applyFill_eq {engine : RiskEngine} (ledger : engine.position.Ledger)
    (journal : EventJournal) (side : Side) (quantity : Int64) :
    ∃ next : PositionSnapshot,
      engine.applyFill journal side quantity = some
        (if engine.Bookable side quantity then
          ({ engine with position := next },
            journal.append .fill 0 (toString quantity.toInt), true)
        else (engine, journal, false)) ∧
      (engine.Bookable side quantity →
        next.netPosition.toInt =
            engine.position.netPosition.toInt + side.sign * quantity.toInt ∧
          next.grossPosition.toInt =
            engine.position.grossPosition.toInt + quantity.toInt) := by
  have low := ledger.1
  have high := ledger.2
  rw [applyFill]
  simp only [Option.pure_def, Option.bind_eq_bind, grossOverflows_eq ledger, Option.bind_some,
    decide_eq_true_eq]
  by_cases room : 0 < quantity.toInt ∧
      engine.position.grossPosition.toInt + quantity.toInt < 2 ^ 63
  case neg =>
    rw [if_pos room]
    have refused : ¬ engine.Bookable side quantity := by
      intro fits
      have positive := fits.2.1
      have limit := fits.2.2.1
      have top := engine.limits.maxGrossPosition.toInt_lt
      omega
    exact ⟨engine.position, by rw [if_neg refused], fun fits => absurd fits refused⟩
  case pos =>
    rw [if_neg (not_not_intro room)]
    have positive := room.1
    rcases signedQuantity_eq side positive with ⟨signed, evaluated, amount⟩
    have magnitude : signed.toInt = quantity.toInt ∨ signed.toInt = -quantity.toInt := by
      rw [amount]
      cases side <;> simp [Side.sign]
    rw [evaluated, Option.bind_some]
    by_cases other : side ≠ .buy ∧ side ≠ .sell
    case pos =>
      rw [if_pos other]
      have refused : ¬ engine.Bookable side quantity := by
        intro fits
        cases side <;> simp [Bookable] at other fits
      exact ⟨engine.position, by rw [if_neg refused], fun fits => absurd fits refused⟩
    case neg =>
      rw [if_neg other]
      obtain ⟨nextGross, grossDefined, grossValue⟩ := ofInt?_defined
        (x := engine.position.grossPosition.toInt + quantity.toInt) (by omega) (by omega)
      obtain ⟨nextNet, netDefined, netValue⟩ := ofInt?_defined
        (x := engine.position.netPosition.toInt + signed.toInt) (by omega) (by omega)
      have meaning : ¬ (nextGross.toInt ≤ engine.limits.maxGrossPosition.toInt ∧
          -engine.limits.maxNetPosition.toInt ≤ nextNet.toInt ∧
          nextNet.toInt ≤ engine.limits.maxNetPosition.toInt) ↔
          ¬ engine.Bookable side quantity := by
        have tag : side ≠ .unnamed := by
          intro unnamed
          exact other (by simp [unnamed])
        rw [grossValue, netValue, amount]
        simp only [Bookable, tag, positive, ne_eq, not_false_eq_true, true_and]
      refine ⟨⟨nextNet, nextGross⟩, ?_, ?_⟩
      · rw [netOverflows_eq ledger (by omega) (by omega), Option.bind_some, if_neg (by simp), add?,
          grossDefined, Option.bind_some, add?, netDefined, Option.bind_some,
          breaksLimits_eq _ _ (by omega), Option.bind_some]
        simp only [decide_eq_true_eq, meaning]
        by_cases fits : engine.Bookable side quantity
        · rw [if_neg (by simpa using fits), if_pos fits]
        · rw [if_pos fits, if_neg fits]
      · intro _
        exact ⟨by rw [netValue, amount], grossValue⟩

theorem applyFill_keeps {engine : RiskEngine} (ledger : engine.position.Ledger)
    (journal : EventJournal) (side : Side) (quantity : Int64) :
    ∃ next journal' booked, engine.applyFill journal side quantity = some (next, journal', booked) ∧
      next.position.Ledger ∧ next.limits = engine.limits := by
  rcases applyFill_eq ledger journal side quantity with ⟨position, evaluated, values⟩
  by_cases fits : engine.Bookable side quantity
  · rw [if_pos fits] at evaluated
    refine ⟨_, _, _, evaluated, ?_, rfl⟩
    have low := ledger.1
    have high := ledger.2
    have moved := values fits
    have positive := fits.2.1
    rw [PositionSnapshot.Ledger]
    rw [moved.1, moved.2]
    cases side <;> simp only [Side.sign] <;> omega
  · rw [if_neg fits] at evaluated
    exact ⟨_, _, _, evaluated, ledger, rfl⟩

theorem notionalOverflows_eq {intent : OrderIntent} (positive : 0 < intent.quantity.toInt) :
    notionalOverflows intent =
      some (decide (¬ (0 < intent.priceTicks.toInt ∧
        intent.priceTicks.toInt * intent.quantity.toInt < 2 ^ 63))) := by
  have nonzero : intent.quantity ≠ 0 := by
    intro zero
    simp [zero] at positive
  have quotient : (2 ^ 63 - 1 : Int).tdiv intent.quantity.toInt =
      (2 ^ 63 - 1) / intent.quantity.toInt := Int.tdiv_eq_ediv_of_nonneg (by decide)
  have nonneg : 0 ≤ (2 ^ 63 - 1 : Int) / intent.quantity.toInt :=
    Int.ediv_nonneg (by decide) (by omega)
  have small : (2 ^ 63 - 1 : Int) / intent.quantity.toInt ≤ 2 ^ 63 - 1 :=
    Int.ediv_le_self _ (by decide)
  obtain ⟨bound, defined, value⟩ := ofInt?_defined
    (x := Int64.maxValue.toInt.tdiv intent.quantity.toInt)
    (by rw [Int64.toInt_maxValue, quotient]; omega) (by rw [Int64.toInt_maxValue, quotient]; omega)
  rw [Int64.toInt_maxValue, quotient] at value
  have inside : intent.priceTicks.toInt ≤ (2 ^ 63 - 1) / intent.quantity.toInt ↔
      intent.priceTicks.toInt * intent.quantity.toInt ≤ 2 ^ 63 - 1 :=
    Int.le_ediv_iff_mul_le positive
  rw [notionalOverflows]
  simp only [Option.pure_def, Option.bind_eq_bind, or_some, decide_eq_true_eq, gt_iff_lt,
    Int64.lt_iff_toInt_lt, Int64.le_iff_toInt_le, Int64.toInt_zero, div?, if_neg nonzero, defined,
    Option.bind_some, value]
  split
  case isTrue flat =>
    rw [Option.some.injEq, eq_comm, decide_eq_true_eq]
    omega
  case isFalse priced =>
    rw [Option.some.injEq, decide_eq_decide]
    omega

theorem netExceeded_buy {limits : LimitSnapshot} (limit : 0 ≤ limits.maxNetPosition.toInt)
    (position : PositionSnapshot) {signed : Int64} (positive : 0 < signed.toInt) :
    netExceeded limits position signed =
      some (decide (limits.maxNetPosition.toInt <
          position.netPosition.toInt + signed.toInt ∨
        position.netPosition.toInt - signed.toInt < -2 ^ 63)) := by
  have top := signed.toInt_lt
  have limitTop := limits.maxNetPosition.toInt_lt
  obtain ⟨upper, upperDefined, upperValue⟩ := ofInt?_defined
    (x := limits.maxNetPosition.toInt - signed.toInt) (by omega) (by omega)
  obtain ⟨lower, lowerDefined, lowerValue⟩ := ofInt?_defined
    (x := Int64.minValue.toInt + signed.toInt)
    (by rw [Int64.toInt_minValue]; omega) (by rw [Int64.toInt_minValue]; omega)
  rw [Int64.toInt_minValue] at lowerValue
  rw [netExceeded]
  simp only [Option.pure_def, Option.bind_eq_bind, and_some, or_some, decide_eq_true_eq,
    gt_iff_lt, Int64.lt_iff_toInt_lt, Int64.toInt_zero, sub?, add?, if_pos positive, upperDefined,
    lowerDefined, Option.bind_some, upperValue, lowerValue]
  rw [if_neg (show ¬ signed.toInt < 0 by omega)]
  split
  case isTrue above =>
    rw [or_some, if_pos rfl, Option.some.injEq, eq_comm, decide_eq_true_eq]
    omega
  case isFalse below =>
    rw [or_some]
    by_cases under : position.netPosition.toInt < -2 ^ 63 + signed.toInt
    · rw [if_pos (by simpa using under), Option.some.injEq, eq_comm, decide_eq_true_eq]
      omega
    · rw [if_neg (by simpa using under), Option.some.injEq, eq_comm, decide_eq_false_iff_not]
      omega

theorem netExceeded_sell {limits : LimitSnapshot} (limit : 0 ≤ limits.maxNetPosition.toInt)
    (position : PositionSnapshot) {signed : Int64} (negative : signed.toInt < 0)
    (above : -2 ^ 63 < signed.toInt) :
    netExceeded limits position signed =
      some (decide (position.netPosition.toInt + signed.toInt < -limits.maxNetPosition.toInt ∨
        2 ^ 63 ≤ position.netPosition.toInt - signed.toInt)) := by
  have limitTop := limits.maxNetPosition.toInt_lt
  obtain ⟨floor, floorDefined, floorValue⟩ := ofInt?_defined
    (x := -limits.maxNetPosition.toInt) (by omega) (by omega)
  obtain ⟨lower, lowerDefined, lowerValue⟩ := ofInt?_defined
    (x := -limits.maxNetPosition.toInt - signed.toInt) (by omega) (by omega)
  obtain ⟨upper, upperDefined, upperValue⟩ := ofInt?_defined
    (x := Int64.maxValue.toInt + signed.toInt)
    (by rw [Int64.toInt_maxValue]; omega) (by rw [Int64.toInt_maxValue]; omega)
  rw [Int64.toInt_maxValue] at upperValue
  rw [netExceeded]
  simp only [Option.pure_def, Option.bind_eq_bind, and_some, or_some, decide_eq_true_eq,
    gt_iff_lt, Int64.lt_iff_toInt_lt, Int64.toInt_zero, sub?, add?, neg?, if_pos negative,
    floorDefined, lowerDefined, upperDefined, Option.bind_some, floorValue, lowerValue, upperValue]
  rw [if_neg (show ¬ 0 < signed.toInt by omega), or_some, if_neg (by simp)]
  split
  case isTrue under =>
    rw [Option.some.injEq, eq_comm, decide_eq_true_eq]
    omega
  case isFalse =>
    rw [Option.some.injEq, decide_eq_decide]
    omega

theorem grossExceeded_eq {limits : LimitSnapshot} (limit : 0 ≤ limits.maxGrossPosition.toInt)
    {position : PositionSnapshot} (ledger : position.Ledger) {quantity : Int64}
    (positive : 0 < quantity.toInt) :
    grossExceeded limits position quantity =
      some (decide (limits.maxGrossPosition.toInt <
        position.grossPosition.toInt + quantity.toInt)) := by
  have gross := ledger_gross ledger
  have top := limits.maxGrossPosition.toInt_lt
  have grossTop := position.grossPosition.toInt_lt
  obtain ⟨room, defined, value⟩ := ofInt?_defined
    (x := limits.maxGrossPosition.toInt - position.grossPosition.toInt) (by omega) (by omega)
  rw [grossExceeded]
  simp only [Option.pure_def, Option.bind_eq_bind, or_some, decide_eq_true_eq, gt_iff_lt,
    Int64.lt_iff_toInt_lt, Int64.toInt_zero, sub?, defined, Option.bind_some, value]
  rw [if_neg (by omega)]
  split
  case isTrue above =>
    rw [Option.some.injEq, eq_comm, decide_eq_true_eq]
    omega
  case isFalse =>
    rw [Option.some.injEq, decide_eq_decide]
    omega

end RiskEngine

end Ito
