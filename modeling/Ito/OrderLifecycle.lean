import Ito.OrderStateMachine
import Mathlib.Algebra.BigOperators.Group.List.Basic

/-! What every history of events keeps of an order, and which fills it takes.

Source: `cpp/ito_execution/order_state_machine.cpp`. -/

namespace Ito.OrderStateMachine

open CheckedInt

structure Kept (machine : OrderStateMachine) : Prop where
  positive : 0 < machine.orderQuantity.toInt
  nonneg : 0 ≤ machine.filledQuantity.toInt
  bound : machine.filledQuantity.toInt ≤ machine.orderQuantity.toInt
  filled_iff : machine.state = .filled ↔
    machine.filledQuantity.toInt = machine.orderQuantity.toInt

def Live (machine : OrderStateMachine) : Prop :=
  machine.state = .accepted ∨ machine.state = .partiallyFilled ∨ machine.state = .cancelPending

instance (machine : OrderStateMachine) : Decidable machine.Live :=
  inferInstanceAs (Decidable (_ ∨ _))

structure Fits (machine : OrderStateMachine) (quantity : Int64) : Prop where
  state : machine.state = .accepted ∨ machine.state = .partiallyFilled
  positive : 0 < quantity.toInt
  room : machine.filledQuantity.toInt + quantity.toInt ≤ machine.orderQuantity.toInt

inductive Effect (machine : OrderStateMachine) (event : OrderEvent) (quantity : Int64) :
    OrderStateMachine → Bool → Prop
  | refused : Effect machine event quantity machine false
  | moved {state : OrderState} (other : event ≠ .fill) (alive : machine.terminal = false)
      (open' : state ≠ .filled) : Effect machine event quantity { machine with state } true
  | filled {next : OrderStateMachine} (own : event = .fill) (fits : machine.Fits quantity)
      (whole : next.orderQuantity = machine.orderQuantity)
      (more : next.filledQuantity.toInt = machine.filledQuantity.toInt + quantity.toInt)
      (state : next.state = if next.filledQuantity.toInt = machine.orderQuantity.toInt then .filled
        else .partiallyFilled) :
      Effect machine event quantity next true

variable {machine next : OrderStateMachine} {event : OrderEvent} {quantity : Int64} {took : Bool}

theorem overfills_eq (kept : machine.Kept) (quantity : Int64) :
    machine.overfills quantity = some (decide (¬ (0 < quantity.toInt ∧
      machine.filledQuantity.toInt + quantity.toInt ≤ machine.orderQuantity.toInt))) := by
  have positive := kept.positive
  have top := machine.orderQuantity.toInt_lt
  have quantityTop := quantity.toInt_lt
  rw [overfills]
  simp only [Option.pure_def, Option.bind_eq_bind, or_some, and_some, decide_eq_true_eq, gt_iff_lt,
    Int64.lt_iff_toInt_lt, Int64.le_iff_toInt_le, Int64.toInt_zero, if_pos positive]
  split
  case isTrue empty =>
    rw [Option.some.injEq, eq_comm, decide_eq_true_eq]
    omega
  case isFalse nonempty =>
    obtain ⟨left, defined, value⟩ :=
      sub?_defined (a := machine.orderQuantity) (b := quantity) (by omega) (by omega)
    rw [defined, Option.bind_some, value, Option.some.injEq, decide_eq_decide]
    omega

theorem applyFill_effect (kept : machine.Kept) (quantity : Int64) :
    ∃ next took, machine.applyFill quantity = some (next, took) ∧
      Effect machine .fill quantity next took ∧ (took = true ↔ machine.Fits quantity) := by
  rw [applyFill]
  by_cases elsewhere : machine.state ≠ .accepted ∧ machine.state ≠ .partiallyFilled
  · rw [if_pos elsewhere]
    refine ⟨machine, false, rfl, .refused, iff_of_false Bool.false_ne_true ?_⟩
    intro fits
    rcases fits.state with accepted | partly
    · exact elsewhere.1 accepted
    · exact elsewhere.2 partly
  · rw [if_neg elsewhere, overfills_eq kept, Option.bind_eq_bind, Option.bind_some]
    by_cases room : 0 < quantity.toInt ∧
        machine.filledQuantity.toInt + quantity.toInt ≤ machine.orderQuantity.toInt
    · have nonneg := kept.nonneg
      have top := machine.orderQuantity.toInt_lt
      obtain ⟨filled, defined, value⟩ := ofInt?_defined
        (x := machine.filledQuantity.toInt + quantity.toInt) (by omega) (by omega)
      rw [if_neg (not_not_intro room ∘ of_decide_eq_true), add?, defined,
        Option.bind_eq_bind, Option.bind_some]
      have fits : machine.Fits quantity := by
        refine ⟨?_, room.1, room.2⟩
        by_contra neither
        rw [not_or] at neither
        exact elsewhere neither
      refine ⟨_, true, rfl, .filled rfl fits rfl value ?_, iff_of_true rfl fits⟩
      have whole : (machine.orderQuantity > 0 ∧ filled ≥ machine.orderQuantity) ↔
          filled.toInt = machine.orderQuantity.toInt := by
        rw [gt_iff_lt, ge_iff_le, pos_iff, Int64.le_iff_toInt_le]
        have positive := kept.positive
        omega
      simp only [whole]
    · rw [if_pos (decide_eq_true room)]
      exact ⟨machine, false, rfl, .refused, iff_of_false Bool.false_ne_true
        fun fits => room ⟨fits.positive, fits.room⟩⟩

theorem moveIf_effect {allowed : Bool} {state : OrderState} (other : event ≠ .fill)
    (alive : allowed = true → machine.terminal = false) (open' : state ≠ .filled) :
    Effect machine event quantity (machine.moveIf allowed state).1
      (machine.moveIf allowed state).2 := by
  rw [moveIf]
  split
  case isTrue allowed => exact .moved other (alive allowed) open'
  case isFalse => exact .refused

theorem apply_effect (kept : machine.Kept) (event : OrderEvent) (quantity : Int64) :
    ∃ next took, machine.apply event quantity = some (next, took) ∧
      Effect machine event quantity next took := by
  have from' : ∀ {state : OrderState}, machine.state = state →
      state ≠ .filled ∧ state ≠ .cancelled ∧ state ≠ .rejected → machine.terminal = false := by
    rintro _ rfl ⟨notFilled, notCancelled, notRejected⟩
    simp [terminal, notFilled, notCancelled, notRejected]
  cases event with
  | fill =>
      obtain ⟨next, took, applied, effect, _⟩ := applyFill_effect kept quantity
      exact ⟨next, took, applied, effect⟩
  | unnamed => exact ⟨machine, false, rfl, .refused⟩
  | recoveryRequired =>
      refine ⟨_, _, rfl, moveIf_effect (by decide) ?_ (by decide)⟩
      simp
  | riskApprove | submit | venueAccept | cancelConfirm =>
      refine ⟨_, _, rfl, moveIf_effect (by decide) ?_ (by decide)⟩
      intro allowed
      exact from' (of_decide_eq_true allowed) (by decide)
  | cancelRequest | reject =>
      refine ⟨_, _, rfl, moveIf_effect (by decide) ?_ (by decide)⟩
      intro allowed
      rcases of_decide_eq_true allowed with first | second
      · exact from' first (by decide)
      · exact from' second (by decide)

theorem Effect.kept (kept : machine.Kept) (effect : Effect machine event quantity next took) :
    next.Kept := by
  cases effect with
  | refused => exact kept
  | moved _ alive open' =>
      have short : machine.filledQuantity.toInt ≠ machine.orderQuantity.toInt := by
        intro whole
        rw [terminal, kept.filled_iff.mpr whole] at alive
        simp at alive
      exact ⟨kept.positive, kept.nonneg, kept.bound, iff_of_false open' short⟩
  | filled own fits whole more state =>
      obtain ⟨_, positive, room⟩ := fits
      have nonneg := kept.nonneg
      refine ⟨by rw [whole]; exact kept.positive, by omega, by rw [whole]; omega, ?_⟩
      rw [state, whole]
      split <;> simp_all

theorem kept_create (clientOrderId : UInt64) {orderQuantity : Int64}
    (positive : 0 < orderQuantity.toInt) : (create clientOrderId orderQuantity).Kept where
  positive := positive
  nonneg := le_rfl
  bound := positive.le
  filled_iff := by
    constructor
    · intro impossible
      cases impossible
    · intro whole
      exact absurd whole positive.ne

/-! Every history -/

def fillOf : (OrderEvent × Int64) × Bool → Int
  | ((.fill, quantity), true) => quantity.toInt
  | _ => 0

def fills (log : List ((OrderEvent × Int64) × Bool)) : Int := (log.map fillOf).sum

structure Balanced (orderQuantity : Int64) (machine : OrderStateMachine)
    (log : List ((OrderEvent × Int64) × Bool)) : Prop where
  filled : machine.filledQuantity.toInt = fills log
  bounds : 0 ≤ machine.filledQuantity.toInt ∧
    machine.filledQuantity.toInt ≤ orderQuantity.toInt
  remaining : ∃ remaining, machine.remainingQuantity = some remaining ∧
    remaining.toInt = orderQuantity.toInt - machine.filledQuantity.toInt
  filled_iff : machine.state = .filled ↔ machine.filledQuantity.toInt = orderQuantity.toInt

theorem Effect.fillOf (effect : Effect machine event quantity next took) :
    next.orderQuantity = machine.orderQuantity ∧
      next.filledQuantity.toInt =
        machine.filledQuantity.toInt + fillOf ((event, quantity), took) := by
  cases effect with
  | refused => cases event <;> exact ⟨rfl, (Int.add_zero _).symm⟩
  | moved other =>
      refine ⟨rfl, ?_⟩
      cases event
      case fill => exact absurd rfl other
      all_goals exact (Int.add_zero _).symm
  | filled own fits whole more =>
      rw [own]
      exact ⟨whole, more⟩

/-- A terminal order takes no event. -/
theorem Effect.terminal (effect : Effect machine event quantity next took)
    (ended : machine.terminal = true) : next = machine := by
  cases effect with
  | refused => rfl
  | moved _ alive =>
      rw [ended] at alive
      cases alive
  | filled _ fits =>
      rcases fits.state with accepted | partly
      · simp [OrderStateMachine.terminal, accepted] at ended
      · simp [OrderStateMachine.terminal, partly] at ended

theorem remaining_eq (kept : machine.Kept) : ∃ remaining,
    machine.remainingQuantity = some remaining ∧
      remaining.toInt = machine.orderQuantity.toInt - machine.filledQuantity.toInt := by
  have nonneg := kept.nonneg
  have bound := kept.bound
  have top := machine.orderQuantity.toInt_lt
  rw [remainingQuantity]
  split
  case isTrue => exact sub?_defined (by omega) (by omega)
  case isFalse none =>
    rw [gt_iff_lt, Int64.lt_iff_toInt_lt] at none
    refine ⟨0, rfl, ?_⟩
    rw [Int64.toInt_zero]
    omega

theorem exec_kept {start : OrderStateMachine} (kept : start.Kept)
    (events : List (OrderEvent × Int64)) :
    ∃ machine log, Machine.exec step start events = some (machine, log) ∧ machine.Kept := by
  apply Machine.exec_defined Kept _ kept
  intro machine input kept
  obtain ⟨next, took, applied, effect⟩ := apply_effect kept input.1 input.2
  exact ⟨next, took, applied, effect.kept kept⟩

theorem exec_fills {start machine : OrderStateMachine} (kept : start.Kept)
    {events : List (OrderEvent × Int64)} {log : List ((OrderEvent × Int64) × Bool)}
    (ran : Machine.exec step start events = some (machine, log)) :
    machine.Kept ∧ machine.orderQuantity = start.orderQuantity ∧
      machine.filledQuantity.toInt = start.filledQuantity.toInt + fills log := by
  apply Machine.exec_invariant (fun log (machine : OrderStateMachine) => machine.Kept ∧
    machine.orderQuantity = start.orderQuantity ∧
      machine.filledQuantity.toInt = start.filledQuantity.toInt + fills log) _
    ⟨kept, rfl, (Int.add_zero _).symm⟩ ran
  rintro log before ⟨event, quantity⟩ after took ⟨kept, whole, filled⟩ stepped
  obtain ⟨next, took', applied, effect⟩ := apply_effect kept event quantity
  rw [step, applied, Option.some.injEq, Prod.mk.injEq] at stepped
  obtain ⟨rfl, rfl⟩ := stepped
  obtain ⟨same, more⟩ := effect.fillOf
  refine ⟨effect.kept kept, same.trans whole, ?_⟩
  rw [more, filled, fills, fills, List.map_append, List.sum_append, List.map_singleton,
    List.sum_singleton]
  omega

/-- After every history the books of the order balance, and of a further event no arithmetic
overflows, a refused one changes nothing and none leads out of a terminal state. -/
theorem lifecycle_kept (clientOrderId : UInt64) (orderQuantity : Int64)
    (positive : 0 < orderQuantity) (events : List (OrderEvent × Int64)) :
    ∃ machine log, Machine.exec step (create clientOrderId orderQuantity) events =
        some (machine, log) ∧
      Balanced orderQuantity machine log ∧
      ∀ event quantity, ∃ next took, machine.apply event quantity = some (next, took) ∧
        (took = false → next = machine) ∧
        (machine.terminal = true → next.state = machine.state) := by
  rw [pos_iff] at positive
  have start := kept_create clientOrderId positive
  obtain ⟨machine, log, ran, _⟩ := exec_kept start events
  obtain ⟨kept, whole, filled⟩ := exec_fills start ran
  have whole : machine.orderQuantity = orderQuantity := whole
  refine ⟨machine, log, ran, ?_, ?_⟩
  · obtain ⟨remaining, left, value⟩ := remaining_eq kept
    have bound := kept.bound
    have filled_iff := kept.filled_iff
    rw [whole] at value bound filled_iff
    exact ⟨filled.trans (Int.zero_add _), ⟨kept.nonneg, bound⟩, ⟨remaining, left, value⟩,
      filled_iff⟩
  · intro event quantity
    obtain ⟨next, took, applied, effect⟩ := apply_effect kept event quantity
    refine ⟨next, took, applied, ?_, ?_⟩
    · intro refused
      cases effect with
      | refused => rfl
      | moved => cases refused
      | filled => cases refused
    · intro ended
      rw [effect.terminal ended]

/-! The test of the repository: an order of ten is filled in two parts -/

def testHistory : List (OrderEvent × Int64) :=
  [(.riskApprove, 0), (.submit, 0), (.venueAccept, 0), (.fill, 4), (.fill, 6),
    (.recoveryRequired, 0)]

theorem lifecycle_kept_test :
    ∃ machine log, Machine.exec step (create 9001 10) testHistory = some (machine, log) ∧
      Balanced 10 machine log ∧
      ∀ event quantity, ∃ next took, machine.apply event quantity = some (next, took) ∧
        (took = false → next = machine) ∧
        (machine.terminal = true → next.state = machine.state) :=
  lifecycle_kept 9001 10 (by decide) testHistory

/-! Fills that race a cancellation -/

def Takes (machine : OrderStateMachine) (quantity : Int64) : Prop :=
  ∃ next, machine.apply .fill quantity = some (next, true) ∧
    next.filledQuantity.toInt = machine.filledQuantity.toInt + quantity.toInt

/-- A fill of a live order is taken exactly when no cancellation is pending. -/
theorem live_takes_iff {clientOrderId : UInt64} {orderQuantity : Int64}
    (positive : 0 < orderQuantity) {events : List (OrderEvent × Int64)} {machine : OrderStateMachine}
    {log : List ((OrderEvent × Int64) × Bool)}
    (ran : Machine.exec step (create clientOrderId orderQuantity) events = some (machine, log))
    (live : machine.Live) {quantity remaining : Int64} (filled : 0 < quantity)
    (left : machine.remainingQuantity = some remaining) (enough : quantity ≤ remaining) :
    machine.Takes quantity ↔ machine.state ≠ .cancelPending := by
  rw [pos_iff] at positive filled
  obtain ⟨kept, _⟩ := exec_fills (kept_create clientOrderId positive) ran
  obtain ⟨remaining', left', value⟩ := remaining_eq kept
  rw [left, Option.some.injEq] at left'
  rw [← left'] at value
  rw [Int64.le_iff_toInt_le] at enough
  obtain ⟨next, took, applied, effect, taken⟩ := applyFill_effect kept quantity
  change machine.apply .fill quantity = _ at applied
  constructor
  · rintro ⟨other, took, _⟩ pending
    rw [applied, Option.some.injEq, Prod.mk.injEq] at took
    rcases (taken.mp took.2).state with accepted | partly
    · rw [pending] at accepted
      cases accepted
    · rw [pending] at partly
      cases partly
  · intro notPending
    have fits : machine.Fits quantity := by
      refine ⟨?_, filled, by omega⟩
      rcases live with accepted | partly | pending
      · exact Or.inl accepted
      · exact Or.inr partly
      · exact absurd pending notPending
    obtain rfl := taken.mpr fits
    exact ⟨next, applied, effect.fillOf.2⟩

def acceptedHistory : List (OrderEvent × Int64) :=
  [(.riskApprove, 0), (.submit, 0), (.venueAccept, 0)]

def acceptedOrder : OrderStateMachine := { create 9001 10 with state := .accepted }

theorem takes_accepted : acceptedOrder.Takes 4 := by
  have positive : (0 : Int64) < 10 := by decide
  have ran : Machine.exec step (create 9001 10) acceptedHistory = some (acceptedOrder, _) := rfl
  have left : acceptedOrder.remainingQuantity = some 10 := rfl
  have filled : (0 : Int64) < 4 := by decide
  exact (live_takes_iff positive ran (Or.inl rfl) filled left (by decide)).mpr (by decide)

def racingHistory : List (OrderEvent × Int64) :=
  [(.riskApprove, 0), (.submit, 0), (.venueAccept, 0), (.cancelRequest, 0)]

/-- A fill that comes before the cancellation is confirmed is dropped. -/
theorem racing_fill_dropped : ∃ machine log,
    Machine.exec step (create 9001 10) racingHistory = some (machine, log) ∧ machine.Live ∧
      machine.remainingQuantity = some 10 ∧ machine.apply .fill 4 = some (machine, false) ∧
      ¬ machine.Takes 4 := by
  refine ⟨_, _, rfl, by decide, rfl, rfl, ?_⟩
  rintro ⟨next, took, _⟩
  cases took

end Ito.OrderStateMachine
