import Ito.Library.Guards
import Ito.Library.WrappingInt

/-! The order policy of the branch service.

Source: `ocaml/risk_policy/risk_policy.ml`. An `int64` of the source wraps. -/

namespace Ito.RiskPolicy

inductive Decision where
  | approved
  | tradingDisabled
  | quantityLimit
  | priceLimit
  | notionalLimit
  | positionLimit
  | rateLimit
  | healthFailure
  deriving DecidableEq, Repr

inductive Side where
  | buy
  | sell
  deriving DecidableEq, Repr

structure Limits where
  tradingEnabled : Bool
  maxOrderQuantity : Int64
  maxOrderNotional : Int64
  maxNetPosition : Int64
  maxOrdersPerSecond : Int64
  deriving DecidableEq, Repr

structure Order where
  priceTicks : Int64
  quantity : Int64
  side : Side
  netPosition : Int64
  ordersPerSecond : Int64
  healthy : Bool
  deriving DecidableEq, Repr

def positionValid (limits : Limits) (request : Order) : Bool :=
  match request.side with
  | .buy => request.netPosition ≤ limits.maxNetPosition - request.quantity
  | .sell => request.netPosition ≥ -limits.maxNetPosition + request.quantity

def validate (limits : Limits) (request : Order) : Decision :=
  if !limits.tradingEnabled then .tradingDisabled
  else if !request.healthy then .healthFailure
  else if request.quantity ≤ 0 ∨ request.quantity > limits.maxOrderQuantity then .quantityLimit
  else if request.priceTicks ≤ 0 then .priceLimit
  else if limits.maxOrderNotional ≤ 0 ∨
      request.priceTicks > limits.maxOrderNotional / request.quantity then .notionalLimit
  else if !positionValid limits request then .positionLimit
  else if request.ordersPerSecond < 0 ∨
      request.ordersPerSecond > limits.maxOrdersPerSecond then .rateLimit
  else .approved

/-- The rules of the policy over the integers. The net position is bounded on the side traded
only. -/
structure Passes (limits : Limits) (request : Order) : Prop where
  enabled : limits.tradingEnabled = true
  healthy : request.healthy = true
  quantity : 0 < request.quantity.toInt ∧
    request.quantity.toInt ≤ limits.maxOrderQuantity.toInt
  price : 0 < request.priceTicks.toInt
  notional : request.priceTicks.toInt * request.quantity.toInt ≤ limits.maxOrderNotional.toInt
  buyNet : request.side = .buy →
    request.netPosition.toInt + request.quantity.toInt ≤ limits.maxNetPosition.toInt
  sellNet : request.side = .sell →
    -limits.maxNetPosition.toInt ≤ request.netPosition.toInt - request.quantity.toInt
  rate : 0 ≤ request.ordersPerSecond.toInt ∧
    request.ordersPerSecond.toInt ≤ limits.maxOrdersPerSecond.toInt

theorem positionValid_iff {limits : Limits} (limit : 0 ≤ limits.maxNetPosition.toInt)
    {request : Order} (positive : 0 < request.quantity.toInt) :
    positionValid limits request = true ↔
      (request.side = .buy →
        request.netPosition.toInt + request.quantity.toInt ≤ limits.maxNetPosition.toInt) ∧
      (request.side = .sell →
        -limits.maxNetPosition.toInt ≤ request.netPosition.toInt - request.quantity.toInt) := by
  rw [positionValid]
  cases request.side with
  | buy =>
      rw [decide_eq_true_eq, WrappingInt.le_sub_iff limit positive]
      simp
  | sell =>
      rw [decide_eq_true_eq, ge_iff_le, WrappingInt.neg_add_le_iff limit positive]
      simp

theorem validate_approved {limits : Limits} (limit : 0 ≤ limits.maxNetPosition.toInt)
    (request : Order) : validate limits request = .approved ↔ Passes limits request := by
  have slow : ¬ (request.ordersPerSecond < 0 ∨
      request.ordersPerSecond > limits.maxOrdersPerSecond) ↔
        0 ≤ request.ordersPerSecond.toInt ∧
          request.ordersPerSecond.toInt ≤ limits.maxOrdersPerSecond.toInt := by
    rw [not_or, gt_iff_lt, Int64.not_lt, Int64.not_lt, Int64.le_iff_toInt_le,
      Int64.le_iff_toInt_le, Int64.toInt_zero]
  rw [validate]
  simp (disch := decide) only [Guards.past_iff, WrappingInt.sized_iff, WrappingInt.positive_iff,
    slow, Bool.not_eq_true', Bool.not_eq_false, and_true]
  constructor
  · intro passed
    rcases passed with ⟨enabled, healthy, quantity, price, notional, position, rate⟩
    have net := (positionValid_iff limit quantity.1).mp position
    exact ⟨enabled, healthy, quantity, price,
      (WrappingInt.product_iff _ price quantity.1).mp notional, net.1, net.2, rate⟩
  · intro passes
    have positive := passes.quantity.1
    have notional := (WrappingInt.product_iff _ passes.price positive).mpr passes.notional
    have position := (positionValid_iff limit positive).mpr ⟨passes.buyNet, passes.sellNet⟩
    exact ⟨passes.enabled, passes.healthy, passes.quantity, passes.price, notional, position,
      passes.rate⟩

/-! The same steps in arithmetic that has no result where one of its operations wraps -/

def positionValid? (limits : Limits) (request : Order) : Option Bool :=
  match request.side with
  | .buy => do
      return request.netPosition ≤ (← CheckedInt.sub? limits.maxNetPosition request.quantity)
  | .sell => do
      let floor ← CheckedInt.neg? limits.maxNetPosition
      return request.netPosition ≥ (← CheckedInt.add? floor request.quantity)

/-- `validate`, with the division and the bounds of the position taken where the source takes
them. -/
def validate? (limits : Limits) (request : Order) : Option Decision :=
  if !limits.tradingEnabled then some .tradingDisabled
  else if !request.healthy then some .healthFailure
  else if request.quantity ≤ 0 ∨ request.quantity > limits.maxOrderQuantity then
    some .quantityLimit
  else if request.priceTicks ≤ 0 then some .priceLimit
  else if limits.maxOrderNotional ≤ 0 then some .notionalLimit
  else do
    if request.priceTicks > (← CheckedInt.div? limits.maxOrderNotional request.quantity) then
      return .notionalLimit
    else if !(← positionValid? limits request) then return .positionLimit
    else if request.ordersPerSecond < 0 ∨ request.ordersPerSecond > limits.maxOrdersPerSecond then
      return .rateLimit
    else return .approved

theorem positionValid?_eq {limits : Limits} (limit : 0 ≤ limits.maxNetPosition.toInt)
    {request : Order} (positive : 0 < request.quantity.toInt) :
    positionValid? limits request = some (positionValid limits request) := by
  have limitTop := limits.maxNetPosition.toInt_lt
  have quantityTop := request.quantity.toInt_lt
  rw [positionValid?, positionValid]
  cases request.side with
  | buy =>
      have ceiling : CheckedInt.sub? limits.maxNetPosition request.quantity =
          some (limits.maxNetPosition - request.quantity) :=
        WrappingInt.sub?_of_fits (by omega) (by omega)
      simp [ceiling]
  | sell =>
      have negated := WrappingInt.neg?_of_fits (show -2 ^ 63 < limits.maxNetPosition.toInt by omega)
      have same := WrappingInt.toInt_neg_of_fits
        (show -2 ^ 63 < limits.maxNetPosition.toInt by omega)
      have floor : CheckedInt.add? (-limits.maxNetPosition) request.quantity =
          some (-limits.maxNetPosition + request.quantity) :=
        WrappingInt.add?_of_fits (by omega) (by omega)
      simp [negated, floor]

theorem validate?_eq {limits : Limits} (limit : 0 ≤ limits.maxNetPosition.toInt)
    (request : Order) : validate? limits request = some (validate limits request) := by
  rw [validate?, validate]
  by_cases disabled : (!limits.tradingEnabled) = true
  · rw [if_pos disabled, if_pos disabled]
  by_cases unhealthy : (!request.healthy) = true
  · rw [if_neg disabled, if_neg disabled, if_pos unhealthy, if_pos unhealthy]
  by_cases sized : request.quantity ≤ 0 ∨ request.quantity > limits.maxOrderQuantity
  · rw [if_neg disabled, if_neg disabled, if_neg unhealthy, if_neg unhealthy, if_pos sized,
      if_pos sized]
  have positive : 0 < request.quantity.toInt := (WrappingInt.sized_iff.mp sized).1
  have quotient := WrappingInt.div?_of_pos limits.maxOrderNotional positive
  have position := positionValid?_eq limit positive
  rw [if_neg disabled, if_neg disabled, if_neg unhealthy, if_neg unhealthy, if_neg sized,
    if_neg sized]
  by_cases free : request.priceTicks ≤ 0
  · rw [if_pos free, if_pos free]
  by_cases none : limits.maxOrderNotional ≤ 0
  · rw [if_neg free, if_neg free, if_pos none, if_pos (Or.inl none)]
  · rw [if_neg free, if_neg free, if_neg none, quotient, position]
    simp only [none, false_or, Option.pure_def, Option.bind_eq_bind, Option.bind_some]
    split
    · rfl
    · split
      · rfl
      · split <;> rfl

/-- `validate` approves exactly the orders within the rules, and none of its operations wraps. -/
theorem validate_exact {limits : Limits} (limit : 0 ≤ limits.maxNetPosition.toInt)
    (request : Order) :
    (validate limits request = .approved ↔ Passes limits request) ∧
      validate? limits request = some (validate limits request) :=
  ⟨validate_approved limit request, validate?_eq limit request⟩

def demoLimits : Limits := ⟨true, 100, 1000000, 1000, 10⟩

def boundaryBuy : Order := ⟨100, 10, .buy, 990, 1, true⟩

theorem validate_exact_boundary :
    Passes demoLimits boundaryBuy ∧ validate? demoLimits boundaryBuy = some .approved := by
  have approved : validate demoLimits boundaryBuy = .approved := by decide
  have exact' := validate_exact (show 0 ≤ demoLimits.maxNetPosition.toInt by decide) boundaryBuy
  exact ⟨exact'.1.mp approved, exact'.2.trans (congrArg some approved)⟩

end Ito.RiskPolicy
