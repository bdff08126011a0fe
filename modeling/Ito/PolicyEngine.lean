import Ito.Library.Fallible
import Ito.Library.Guards
import Ito.Library.WrappingInt

/-! The branch policy engine.

Source: `ocaml/policy_engine/policy_engine.ml`. An `int64` of the source wraps. -/

namespace Ito.PolicyEngine

inductive BranchMode where
  | normal
  | degraded
  | restricted
  | halted
  deriving DecidableEq, Repr

inductive Side where
  | buy
  | sell
  deriving DecidableEq, Repr

structure Limits where
  maxQuantity : Int64
  maxNotional : Int64
  maxPosition : Int64
  expiresAtNs : Int64
  tradingEnabled : Bool
  deriving DecidableEq, Repr

inductive Verdict where
  | approved
  | rejected (reason : String)
  deriving DecidableEq, Repr

/-- What Yojson reads. An integer has the 63 bits of an `int`. -/
inductive Value where
  | null
  | bool (value : Bool)
  | int (value : Int) (fits : -2 ^ 62 ≤ value ∧ value < 2 ^ 62)
  | assoc (fields : List (String × Value))
  | other

/-- A value that has no members raises. -/
def member (key : String) : Value → Option Value
  | .assoc fields => some ((fields.lookup key).getD .null)
  | _ => none

/-- The exceptions are caught. -/
def requiredInt (object : Value) (key : String) : Except String Int64 :=
  match member key object with
  | some (.int number _) =>
      let value := Int64.ofInt number
      if value > 0 then .ok value else .error (key ++ "_invalid")
  | _ => .error (key ++ "_missing")

/-- The exceptions are not caught. -/
def requiredBool (object : Value) (key : String) : Option (Except String Bool) := do
  match ← member key object with
  | .bool value => return .ok value
  | .null => return .error (key ++ "_missing")
  | _ => none

def validateLimitsJson (value : Value) : Option (Except String Limits) :=
  let numbers := do
    let maxQuantity ← requiredInt value "max_quantity"
    let maxNotional ← requiredInt value "max_notional"
    let maxPosition ← requiredInt value "max_position"
    return (maxQuantity, maxNotional, maxPosition, ← requiredInt value "expires_at_ns")
  match numbers with
  | .error reason => some (.error reason)
  | .ok (maxQuantity, maxNotional, maxPosition, expiresAtNs) => do
      return (← requiredBool value "trading_enabled").map fun tradingEnabled =>
        { maxQuantity, maxNotional, maxPosition, expiresAtNs, tradingEnabled }

/-- The guard of the branch `position_limit`. -/
def positionExceeded (limits : Limits) (side : Side) (quantity position : Int64) : Bool :=
  match side with
  | .buy => position > limits.maxPosition - quantity
  | .sell => position < -limits.maxPosition + quantity

/-- The guards in the order of the source's match. Only the degraded mode looks at the expiry. -/
def validate (mode : BranchMode) (limits : Limits) (nowNs : Int64) (side : Side)
    (quantity price position : Int64) : Verdict :=
  if mode = .halted then .rejected "branch_halted"
  else if mode = .restricted then .rejected "branch_restricted"
  else if mode = .degraded ∧ limits.expiresAtNs ≤ nowNs then .rejected "policy_expired"
  else if !limits.tradingEnabled then .rejected "trading_disabled"
  else if quantity ≤ 0 ∨ quantity > limits.maxQuantity then .rejected "quantity_limit"
  else if price ≤ 0 then .rejected "price_invalid"
  else if limits.maxNotional ≤ 0 ∨ price > limits.maxNotional / quantity then
    .rejected "notional_limit"
  else if positionExceeded limits side quantity position then .rejected "position_limit"
  else .approved

/-- The rules of the engine over the integers. The position is bounded on the side traded only. -/
structure Passes (mode : BranchMode) (limits : Limits) (nowNs : Int64) (side : Side)
    (quantity price position : Int64) : Prop where
  running : mode = .normal ∨ mode = .degraded ∧ nowNs.toInt < limits.expiresAtNs.toInt
  enabled : limits.tradingEnabled = true
  size : 0 < quantity.toInt ∧ quantity.toInt ≤ limits.maxQuantity.toInt
  cost : 0 < price.toInt
  notional : price.toInt * quantity.toInt ≤ limits.maxNotional.toInt
  buyPosition : side = .buy → position.toInt + quantity.toInt ≤ limits.maxPosition.toInt
  sellPosition : side = .sell → -limits.maxPosition.toInt ≤ position.toInt - quantity.toInt

theorem positionExceeded_iff {limits : Limits} (limit : 0 ≤ limits.maxPosition.toInt) (side : Side)
    {quantity : Int64} (positive : 0 < quantity.toInt) (position : Int64) :
    positionExceeded limits side quantity position = false ↔
      (side = .buy → position.toInt + quantity.toInt ≤ limits.maxPosition.toInt) ∧
      (side = .sell → -limits.maxPosition.toInt ≤ position.toInt - quantity.toInt) := by
  rw [← Bool.not_eq_true]
  cases side with
  | buy =>
      rw [positionExceeded, decide_eq_true_eq, gt_iff_lt, Int64.not_lt,
        WrappingInt.le_sub_iff limit positive]
      simp
  | sell =>
      rw [positionExceeded, decide_eq_true_eq, Int64.not_lt,
        WrappingInt.neg_add_le_iff limit positive]
      simp

theorem mode_iff (mode : BranchMode) (limits : Limits) (nowNs : Int64) :
    (mode ≠ .halted ∧ mode ≠ .restricted ∧ ¬ (mode = .degraded ∧ limits.expiresAtNs ≤ nowNs)) ↔
      (mode = .normal ∨ mode = .degraded ∧ nowNs.toInt < limits.expiresAtNs.toInt) := by
  rw [Int64.le_iff_toInt_le]
  cases mode <;> simp

theorem validate_approved (mode : BranchMode) {limits : Limits}
    (limit : 0 ≤ limits.maxPosition.toInt) (nowNs : Int64) (side : Side)
    (quantity price position : Int64) :
    validate mode limits nowNs side quantity price position = .approved ↔
      Passes mode limits nowNs side quantity price position := by
  have modes := mode_iff mode limits nowNs
  rw [validate]
  simp (disch := simp) only [Guards.past_iff, WrappingInt.sized_iff, WrappingInt.positive_iff,
    Bool.not_eq_true', Bool.not_eq_false, Bool.not_eq_true (positionExceeded _ _ _ _), and_true]
  rw [← and_assoc (b := ¬ mode = .restricted), ← and_assoc (b := ¬ (mode = .degraded ∧ _)),
    and_assoc (b := ¬ mode = .restricted), modes]
  constructor
  · intro passed
    rcases passed with ⟨running, enabled, size, cost, notional, inside⟩
    have position := (positionExceeded_iff limit side size.1 position).mp inside
    exact ⟨running, enabled, size, cost, (WrappingInt.product_iff _ cost size.1).mp notional,
      position.1, position.2⟩
  · intro passes
    have positive := passes.size.1
    have notional := (WrappingInt.product_iff _ passes.cost positive).mpr passes.notional
    have inside := (positionExceeded_iff limit side positive position).mpr
      ⟨passes.buyPosition, passes.sellPosition⟩
    exact ⟨passes.running, passes.enabled, passes.size, passes.cost, notional, inside⟩

structure Limits.Positive (limits : Limits) : Prop where
  quantity : 0 < limits.maxQuantity.toInt
  notional : 0 < limits.maxNotional.toInt
  position : 0 < limits.maxPosition.toInt
  expiry : 0 < limits.expiresAtNs.toInt

theorem requiredInt_ok {object : Value} {key : String} {number : Int64}
    (found : requiredInt object key = .ok number) : 0 < number.toInt := by
  rw [requiredInt] at found
  split at found
  · dsimp only at found
    split at found
    case isTrue positive =>
      rw [← Except.ok.inj found]
      exact WrappingInt.positive_iff.mp (Int64.not_le.mpr positive)
    case isFalse => cases found
  · cases found

theorem validateLimitsJson_positive {value : Value} {limits : Limits}
    (read : validateLimitsJson value = some (.ok limits)) : limits.Positive := by
  rw [validateLimitsJson] at read
  split at read
  · cases read
  · rename_i numbers
    obtain ⟨maxQuantity, quantity, numbers⟩ := Fallible.bind_eq_ok.mp numbers
    obtain ⟨maxNotional, notional, numbers⟩ := Fallible.bind_eq_ok.mp numbers
    obtain ⟨maxPosition, position, numbers⟩ := Fallible.bind_eq_ok.mp numbers
    obtain ⟨expiresAtNs, expiry, numbers⟩ := Fallible.bind_eq_ok.mp numbers
    obtain ⟨⟩ := numbers
    obtain ⟨enabled, _, mapped⟩ := Option.bind_eq_some_iff.mp read
    have made := Option.some.inj mapped
    cases enabled with
    | error reason => cases made
    | ok tradingEnabled =>
        cases made
        exact ⟨requiredInt_ok quantity, requiredInt_ok notional, requiredInt_ok position,
          requiredInt_ok expiry⟩

structure Within (limits : Limits) (side : Side) (quantity price position : Int64) : Prop where
  enabled : limits.tradingEnabled = true
  size : 0 < quantity.toInt ∧ quantity.toInt ≤ limits.maxQuantity.toInt
  cost : 0 < price.toInt
  notional : price.toInt * quantity.toInt ≤ limits.maxNotional.toInt
  position :
    match side with
    | .buy => position.toInt + quantity.toInt ≤ limits.maxPosition.toInt
    | .sell => position.toInt - quantity.toInt ≥ -limits.maxPosition.toInt

/-- What an approval promises: a mode that trades, limits that have not expired, and an order
within them. -/
structure Sound (mode : BranchMode) (limits : Limits) (nowNs : Int64) (side : Side)
    (quantity price position : Int64) : Prop where
  running : mode = .normal ∨ mode = .degraded
  current : limits.expiresAtNs > nowNs
  within : Within limits side quantity price position

theorem passes_iff {mode : BranchMode} {limits : Limits} {nowNs : Int64} {side : Side}
    {quantity price position : Int64} :
    Passes mode limits nowNs side quantity price position ↔
      (mode = .normal ∨ mode = .degraded ∧ limits.expiresAtNs > nowNs) ∧
        Within limits side quantity price position := by
  rw [gt_iff_lt, Int64.lt_iff_toInt_lt]
  constructor
  · intro passes
    refine ⟨passes.running, passes.enabled, passes.size, passes.cost, passes.notional, ?_⟩
    cases side with
    | buy => exact passes.buyPosition rfl
    | sell => exact passes.sellPosition rfl
  · rintro ⟨running, within⟩
    refine ⟨running, within.enabled, within.size, within.cost, within.notional, ?_, ?_⟩
    · rintro rfl
      exact within.position
    · rintro rfl
      exact within.position

/-- An approval keeps its promise except in the normal mode, where expired limits approve every
order that is within them. -/
theorem approval_sound_iff {limits : Limits} (positive : limits.Positive) (mode : BranchMode)
    (nowNs : Int64) (side : Side) (quantity price position : Int64) :
    (validate mode limits nowNs side quantity price position = .approved →
        Sound mode limits nowNs side quantity price position) ↔
      ¬ (mode = .normal ∧ limits.expiresAtNs ≤ nowNs ∧
        Within limits side quantity price position) := by
  rw [validate_approved mode positive.position.le, passes_iff]
  constructor
  · rintro keeps ⟨normal, expired, within⟩
    exact Int64.not_lt.mpr expired (keeps ⟨Or.inl normal, within⟩).current
  · rintro current ⟨running, within⟩
    rcases running with normal | ⟨degraded, unexpired⟩
    · refine ⟨Or.inl normal, ?_, within⟩
      exact Int64.not_le.mp fun expired => current ⟨normal, expired, within⟩
    · exact ⟨Or.inr degraded, unexpired, within⟩

/-- The limits of the source's demonstration, which expire at 10000. -/
def demoLimits : Limits := ⟨100, 1000000, 1000, 10000, true⟩

theorem demoLimits_positive : demoLimits.Positive :=
  ⟨by decide, by decide, by decide, by decide⟩

theorem approval_sound_demo : Sound .normal demoLimits 2000 .buy 10 100 0 := by
  apply (approval_sound_iff demoLimits_positive .normal 2000 .buy 10 100 0).mpr
  · rintro ⟨_, expired, _⟩
    exact absurd expired (by decide)
  · decide

/-- The order of the demonstration is still approved when the limits have expired. -/
theorem expired_limits_approve :
    demoLimits.Positive ∧ validate .normal demoLimits 20000 .buy 10 100 0 = .approved ∧
      ¬ Sound .normal demoLimits 20000 .buy 10 100 0 := by
  refine ⟨demoLimits_positive, by decide, ?_⟩
  intro sound
  exact absurd sound.current (by decide)

end Ito.PolicyEngine
