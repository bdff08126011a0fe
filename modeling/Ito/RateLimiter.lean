import Ito.Library.Clocked
import Mathlib.Algebra.BigOperators.Ring.List
import Mathlib.Algebra.Order.Floor.Div

/-! The request limiter in hardware, clock by clock.

Source: `rtl/telemetry/rate_limiter.sv`. A step is one rising clock edge while `rst_n` is high,
and `reset` is what a low `rst_n` leaves. The timer is compared with the bits of
`REFILL_INTERVAL`, read without a sign. -/

namespace Ito.Rtl

open Clocked

variable {w : Nat}

/-- The registers of `rate_limiter`, `WIDTH` being `w`. -/
structure RateLimiter (w : Nat) where
  count : BitVec w
  refillTimer : BitVec w
  allowed : Bool
  tripped : Bool
  deriving DecidableEq, Repr

namespace RateLimiter

structure Input (w : Nat) where
  windowReset : Bool
  request : Bool
  maxRequests : BitVec w
  deriving DecidableEq, Repr

def reset : RateLimiter w :=
  { count := 0, refillTimer := 0, allowed := false, tripped := false }

def refill (refillInterval : Nat) (limiter : RateLimiter w) : RateLimiter w :=
  if refillInterval ≤ limiter.refillTimer.toNat then
    { limiter with
      refillTimer := 0
      count := if 0 < limiter.count then limiter.count - 1 else limiter.count }
  else { limiter with refillTimer := limiter.refillTimer + 1 }

/-- One rising edge. Every assignment reads the registers from before the edge, and the last one
to a register is the one that it keeps. -/
def clock (refillInterval : Nat) (limiter : RateLimiter w) (input : Input w) : RateLimiter w :=
  if input.windowReset then reset
  else
    let refilled := refill refillInterval { limiter with allowed := false }
    if input.request then
      if limiter.count < input.maxRequests then
        { refilled with count := limiter.count + 1, allowed := true }
      else { refilled with tripped := true }
    else refilled

/-! What happens on a cycle -/

def granted (cycle : RateLimiter w × Input w) : Bool :=
  cycle.2.request && cycle.1.count < cycle.2.maxRequests

def due (refillInterval : Nat) (cycle : RateLimiter w × Input w) : Bool :=
  refillInterval ≤ cycle.1.refillTimer.toNat

/-- The refill timer has run out, and there is a token to return. -/
def returned (refillInterval : Nat) (cycle : RateLimiter w × Input w) : Bool :=
  due refillInterval cycle && 0 < cycle.1.count

section Step

variable {refillInterval : Nat} {limiter : RateLimiter w} {cycle : RateLimiter w × Input w}

@[simp] theorem refill_allowed : (refill refillInterval limiter).allowed = limiter.allowed := by
  rw [refill]
  split <;> rfl

@[simp] theorem refill_tripped : (refill refillInterval limiter).tripped = limiter.tripped := by
  rw [refill]
  split <;> rfl

theorem next_open (opened : cycle.2.windowReset = false) :
    next (clock refillInterval) cycle =
      let refilled := refill refillInterval { cycle.1 with allowed := false }
      if granted cycle then { refilled with count := cycle.1.count + 1, allowed := true }
      else if cycle.2.request then { refilled with tripped := true }
      else refilled := by
  rw [next, clock, if_neg (by rw [opened]; decide), granted]
  cases cycle.2.request <;> simp

theorem next_allowed (opened : cycle.2.windowReset = false) :
    (next (clock refillInterval) cycle).allowed = granted cycle := by
  rw [next_open opened]
  cases granted cycle <;> cases cycle.2.request <;> simp

theorem next_tripped (opened : cycle.2.windowReset = false) :
    (next (clock refillInterval) cycle).tripped =
      (cycle.1.tripped || (cycle.2.request && !granted cycle)) := by
  rw [next_open opened]
  cases granted cycle <;> cases cycle.2.request <;> simp

theorem next_refillTimer (opened : cycle.2.windowReset = false) :
    (next (clock refillInterval) cycle).refillTimer =
      if due refillInterval cycle then 0 else cycle.1.refillTimer + 1 := by
  have refilled : (refill refillInterval { cycle.1 with allowed := false }).refillTimer =
      if due refillInterval cycle then 0 else cycle.1.refillTimer + 1 := by
    rw [refill, due]
    simp only [decide_eq_true_eq]
    split <;> rfl
  rw [next_open opened, ← refilled]
  cases granted cycle <;> cases cycle.2.request <;> rfl

theorem next_count (opened : cycle.2.windowReset = false) :
    (next (clock refillInterval) cycle).count =
      if granted cycle then cycle.1.count + 1
      else if returned refillInterval cycle then cycle.1.count - 1
      else cycle.1.count := by
  have refilled : (refill refillInterval { cycle.1 with allowed := false }).count =
      if returned refillInterval cycle then cycle.1.count - 1 else cycle.1.count := by
    rw [refill, returned, due]
    simp only [Bool.and_eq_true, decide_eq_true_eq]
    by_cases late : refillInterval ≤ cycle.1.refillTimer.toNat
    · rw [if_pos late]
      exact if_congr (and_iff_right late).symm rfl rfl
    · rw [if_neg late, if_neg fun both => late both.1]
  rw [next_open opened, ← refilled]
  cases granted cycle <;> cases cycle.2.request <;> rfl

theorem next_count_toNat (opened : cycle.2.windowReset = false) :
    (next (clock refillInterval) cycle).count.toNat =
      if granted cycle then cycle.1.count.toNat + 1
      else if returned refillInterval cycle then cycle.1.count.toNat - 1
      else cycle.1.count.toNat := by
  rw [next_count opened]
  split
  case isTrue allowed =>
    have room : cycle.1.count.toNat < cycle.2.maxRequests.toNat := by
      rw [granted, Bool.and_eq_true, decide_eq_true_eq] at allowed
      exact allowed.2
    have small := cycle.2.maxRequests.isLt
    have wide : 1 < 2 ^ w := by omega
    have one : (1 : BitVec w).toNat = 1 := Nat.mod_eq_of_lt wide
    rw [BitVec.toNat_add, one, Nat.mod_eq_of_lt (by omega)]
  case isFalse =>
    split
    case isTrue held =>
      have positive : 0 < cycle.1.count.toNat := by
        rw [returned, Bool.and_eq_true, decide_eq_true_eq] at held
        exact held.2
      have small := cycle.1.count.isLt
      have wide : 1 < 2 ^ w := by omega
      have one : (1 : BitVec w).toNat = 1 := Nat.mod_eq_of_lt wide
      rw [BitVec.toNat_sub_of_le, one]
      exact one.le.trans positive
    case isFalse => rfl

end Step

/-! Bounds on a run -/

section Bounds

variable {refillInterval : Nat} {limiter : RateLimiter w} {inputs : List (Input w)}

theorem refills_le (opened : ∀ input ∈ inputs, input.windowReset = false) :
    (cycles (clock refillInterval) limiter inputs).countP (due refillInterval) ≤
      inputs.length ⌈/⌉ (refillInterval + 1) := by
  -- The time since the last refill, as far as the timer shows it.
  have each : ∀ cycle ∈ cycles (clock refillInterval) limiter inputs,
      (refillInterval + 1) * (due refillInterval cycle).toNat +
          min (next (clock refillInterval) cycle).refillTimer.toNat refillInterval ≤
        min cycle.1.refillTimer.toNat refillInterval + 1 := by
    intro cycle member
    rw [next_refillTimer (opened _ (mem_inputs member))]
    cases late : due refillInterval cycle with
    | true =>
        have reached : refillInterval ≤ cycle.1.refillTimer.toNat := of_decide_eq_true late
        simp [reached]
    | false =>
        have early : ¬ refillInterval ≤ cycle.1.refillTimer.toNat := of_decide_eq_false late
        have slow : (cycle.1.refillTimer + 1).toNat ≤ cycle.1.refillTimer.toNat + 1 := by
          rw [BitVec.toNat_add]
          exact (Nat.mod_le _ _).trans (Nat.add_le_add_left (Nat.mod_le 1 _) _)
        simp only [Bool.toNat_false, Nat.mul_zero, Bool.false_eq_true, if_false]
        omega
  have bound := sum_le_sum (fun limiter => min limiter.refillTimer.toNat refillInterval)
    (fun _ => 1) (fun cycle => (refillInterval + 1) * (due refillInterval cycle).toNat) each
  rw [List.sum_map_mul_left, ← countP_eq_sum, List.map_const', List.sum_replicate, length_cycles,
    smul_eq_mul, Nat.mul_one] at bound
  have paced : (cycles (clock refillInterval) limiter inputs).countP (due refillInterval) *
      (refillInterval + 1) ≤ inputs.length + refillInterval := by
    rw [Nat.mul_comm]
    omega
  rw [Nat.ceilDiv_eq_add_pred_div]
  exact (Nat.le_div_iff_mul_le (Nat.succ_pos _)).mpr paced

theorem grants_le {maxRequests : BitVec w}
    (steady : ∀ input ∈ inputs, input.windowReset = false ∧ input.maxRequests = maxRequests) :
    (cycles (clock refillInterval) limiter inputs).countP granted ≤
      maxRequests.toNat +
        (cycles (clock refillInterval) limiter inputs).countP (due refillInterval) := by
  have each : ∀ cycle ∈ cycles (clock refillInterval) limiter inputs,
      (granted cycle).toNat +
          (maxRequests.toNat - (next (clock refillInterval) cycle).count.toNat) ≤
        maxRequests.toNat - cycle.1.count.toNat + (due refillInterval cycle).toNat := by
    intro cycle member
    rcases steady _ (mem_inputs member) with ⟨opened, constant⟩
    rw [next_count_toNat opened]
    cases allowed : granted cycle with
    | true =>
        rw [granted, Bool.and_eq_true, decide_eq_true_eq, constant] at allowed
        have room : cycle.1.count.toNat < maxRequests.toNat := allowed.2
        simp only [Bool.toNat_true, if_true]
        omega
    | false =>
        rw [returned]
        cases due refillInterval cycle <;> simp
        split <;> omega
  have bound := sum_le_sum (fun limiter => maxRequests.toNat - limiter.count.toNat)
    (fun cycle => (due refillInterval cycle).toNat) (fun cycle => (granted cycle).toNat) each
  rw [← countP_eq_sum, ← countP_eq_sum] at bound
  omega

theorem count_le {maxRequests : BitVec w} {cycle : RateLimiter w × Input w}
    (opened : cycle.2.windowReset = false) (constant : cycle.2.maxRequests = maxRequests)
    (kept : cycle.1.count ≤ maxRequests) :
    (next (clock refillInterval) cycle).count ≤ maxRequests := by
  have below : cycle.1.count.toNat ≤ maxRequests.toNat := kept
  change (next (clock refillInterval) cycle).count.toNat ≤ maxRequests.toNat
  rw [next_count_toNat opened]
  cases allowed : granted cycle with
  | true =>
      rw [granted, Bool.and_eq_true, decide_eq_true_eq, constant] at allowed
      exact Nat.succ_le_of_lt allowed.2
  | false =>
      simp only [Bool.false_eq_true, if_false]
      split <;> omega

theorem tripped_run (tripped : limiter.tripped = true)
    (opened : ∀ input ∈ inputs, input.windowReset = false) :
    (run (clock refillInterval) limiter inputs).tripped = true := by
  refine (invariant (I := fun limiter : RateLimiter w => limiter.tripped = true)
    (fun limiter input held here => ?_) tripped opened).2
  have kept := @next_tripped _ refillInterval (limiter, input) here
  rw [held, Bool.true_or] at kept
  exact kept

/-- The count stays within the limit, any window of cycles allows no more requests than the limit
and the refills that fit into it, and a request beyond the limit is refused and trips. -/
theorem limiter_bounds (refillInterval : Nat) {maxRequests : BitVec w}
    (steady : ∀ input ∈ inputs, input.windowReset = false ∧ input.maxRequests = maxRequests) :
    (∀ cycle ∈ cycles (clock refillInterval) reset inputs,
      cycle.1.count ≤ maxRequests ∧ (next (clock refillInterval) cycle).count ≤ maxRequests) ∧
    (∀ front window back, cycles (clock refillInterval) reset inputs = front ++ window ++ back →
      window.countP (fun cycle => (next (clock refillInterval) cycle).allowed) ≤
        maxRequests.toNat + window.length ⌈/⌉ (refillInterval + 1)) ∧
    ∀ cycle ∈ cycles (clock refillInterval) reset inputs, cycle.2.request = true →
      cycle.1.count = maxRequests →
      (next (clock refillInterval) cycle).allowed = false ∧
      ∀ later : List (Input w), (∀ input ∈ later, input.windowReset = false) →
        (run (clock refillInterval) (next (clock refillInterval) cycle) later).tripped = true := by
  refine ⟨?_, ?_, ?_⟩
  · have empty : (reset : RateLimiter w).count ≤ maxRequests := Nat.zero_le _
    have kept := (invariant (I := fun limiter : RateLimiter w => limiter.count ≤ maxRequests)
      (fun limiter input held here =>
        @count_le _ refillInterval _ (limiter, input) here.1 here.2 held) empty steady).1
    exact fun cycle member =>
      ⟨(kept cycle member).1, count_le (kept cycle member).2.1 (kept cycle member).2.2
        (kept cycle member).1⟩
  · intro front window back split
    rw [List.append_assoc] at split
    rcases cycles_split split with ⟨before, rest, rfl, -, others⟩
    rcases cycles_split others.symm with ⟨inside, after, rfl, rfl, -⟩
    have inner : ∀ input ∈ inside,
        input.windowReset = false ∧ input.maxRequests = maxRequests :=
      fun input member => steady input (by simp [member])
    have same : ∀ cycle ∈ cycles (clock refillInterval) (run (clock refillInterval) reset before)
        inside, (next (clock refillInterval) cycle).allowed = granted cycle :=
      fun cycle member => next_allowed (inner _ (mem_inputs member)).1
    rw [List.countP_congr fun cycle member => by rw [same cycle member], length_cycles]
    exact (grants_le inner).trans
      (Nat.add_le_add_left (refills_le fun input member => (inner input member).1) _)
  · intro cycle member requested full
    rcases steady _ (mem_inputs member) with ⟨opened, constant⟩
    have refused : granted cycle = false := by
      rw [granted, constant, full]
      simp
    refine ⟨(next_allowed opened).trans refused, fun later quiet => tripped_run ?_ quiet⟩
    rw [next_tripped opened, refused, requested]
    simp

theorem limiter_bounds_testbench :
    let request : Input 32 := { windowReset := false, request := true, maxRequests := 2 }
    (cycles (clock 1000) reset [request, request, request]).countP
        (fun cycle => (next (clock 1000) cycle).allowed) ≤
      (2 : BitVec 32).toNat + 3 ⌈/⌉ (1000 + 1) ∧
    (run (clock 1000) reset [request, request, request]).tripped = true := by
  intro request
  have bounds := @limiter_bounds 32 [request, request, request] 1000 2 (by decide)
  exact ⟨bounds.2.1 [] _ [] (List.append_nil _).symm,
    (bounds.2.2 _ (List.getLast_mem (List.cons_ne_nil _ _)) rfl (by decide)).2 [] (by simp)⟩

end Bounds

/-! Tokens returned and tokens lost -/

section Tokens

variable {refillInterval : Nat} {limiter : RateLimiter w} {inputs : List (Input w)}

/-- The count is assigned twice on the cycle, and the refill's assignment is the first. -/
def overwritten (refillInterval : Nat) (cycle : RateLimiter w × Input w) : Bool :=
  granted cycle && returned refillInterval cycle

theorem next_balance {cycle : RateLimiter w × Input w} (opened : cycle.2.windowReset = false) :
    cycle.1.count.toNat + ((granted cycle).toNat + (overwritten refillInterval cycle).toNat) =
      (returned refillInterval cycle).toNat + (next (clock refillInterval) cycle).count.toNat := by
  rw [next_count_toNat opened, overwritten]
  cases granted cycle with
  | true =>
      cases returned refillInterval cycle <;> simp
      omega
  | false =>
      cases held : returned refillInterval cycle with
      | true =>
          have positive : 0 < cycle.1.count.toNat := by
            rw [returned, Bool.and_eq_true, decide_eq_true_eq] at held
            exact held.2
          simp
          omega
      | false => simp

/-- Over a run, the count exceeds the allowed requests less the returned tokens by what was
overwritten. -/
theorem run_balance (opened : ∀ input ∈ inputs, input.windowReset = false) :
    limiter.count.toNat + ((cycles (clock refillInterval) limiter inputs).countP granted +
        (cycles (clock refillInterval) limiter inputs).countP (overwritten refillInterval)) =
      (cycles (clock refillInterval) limiter inputs).countP (returned refillInterval) +
        (run (clock refillInterval) limiter inputs).count.toNat := by
  have balance := sum_balance (s := limiter) (fun limiter => limiter.count.toNat)
    (fun cycle => (granted cycle).toNat + (overwritten refillInterval cycle).toNat)
    (fun cycle => (returned refillInterval cycle).toNat)
    (fun cycle member => next_balance (opened _ (mem_inputs member)))
  rw [List.sum_map_add] at balance
  rw [countP_eq_sum, countP_eq_sum, countP_eq_sum]
  exact balance

/-- Every refill comes off the count exactly on the runs that never allow a request on an edge
where the timer has run out and the count is not zero. -/
theorem refills_kept_iff (refillInterval : Nat)
    (opened : ∀ input ∈ inputs, input.windowReset = false) :
    ((∀ cycle ∈ cycles (clock refillInterval) reset inputs,
      ((next (clock refillInterval) cycle).count.toNat : ℤ) =
        cycle.1.count.toNat + (granted cycle).toNat - (returned refillInterval cycle).toNat) ∧
    ∀ front back, inputs = front ++ back →
      ((run (clock refillInterval) reset front).count.toNat : ℤ) =
        (cycles (clock refillInterval) reset front).countP granted -
          (cycles (clock refillInterval) reset front).countP (returned refillInterval)) ↔
    ∀ cycle ∈ cycles (clock refillInterval) reset inputs,
      refillInterval ≤ cycle.1.refillTimer.toNat → 0 < cycle.1.count →
        cycle.2.request = true → ¬ cycle.1.count < cycle.2.maxRequests := by
  have alone : ∀ cycle : RateLimiter w × Input w, overwritten refillInterval cycle = false ↔
      (refillInterval ≤ cycle.1.refillTimer.toNat → 0 < cycle.1.count →
        cycle.2.request = true → ¬ cycle.1.count < cycle.2.maxRequests) := by
    intro cycle
    rw [overwritten, granted, returned, due, ← Bool.not_eq_true]
    simp only [Bool.and_eq_true, decide_eq_true_eq]
    tauto
  constructor
  · rintro ⟨each, -⟩ cycle member
    have exact_step := each cycle member
    have balance := @next_balance _ refillInterval _ (opened _ (mem_inputs member))
    refine (alone cycle).mp ?_
    cases lost : overwritten refillInterval cycle with
    | false => rfl
    | true =>
        rw [lost, Bool.toNat_true] at balance
        omega
  · intro apart
    refine ⟨fun cycle member => ?_, fun front back split => ?_⟩
    · have balance := @next_balance _ refillInterval _ (opened _ (mem_inputs member))
      rw [(alone cycle).mpr (apart cycle member), Bool.toNat_false] at balance
      omega
    · subst split
      rw [cycles_append] at apart
      have kept : (cycles (clock refillInterval) reset front).countP
          (overwritten refillInterval) = 0 := by
        rw [List.countP_eq_zero]
        intro cycle member
        rw [(alone cycle).mpr (apart cycle (List.mem_append_left _ member))]
        decide
      have balance := @run_balance _ refillInterval reset front
        fun input member => opened input (List.mem_append_left back member)
      have empty : (reset : RateLimiter w).count.toNat = 0 := rfl
      rw [kept, empty] at balance
      omega

theorem refills_kept_testbench :
    let request : Input 32 := { windowReset := false, request := true, maxRequests := 2 }
    ∀ cycle ∈ cycles (clock 1000) reset [request, request, request],
      ((next (clock 1000) cycle).count.toNat : ℤ) =
        cycle.1.count.toNat + (granted cycle).toNat - (returned 1000 cycle).toNat := by
  intro request
  exact ((@refills_kept_iff 32 [request, request, request] 1000 (by decide)).mpr
    (by decide)).1

/-- A request on the edge of the first refill. -/
theorem refill_lost :
    let idle : Input 32 := { windowReset := false, request := false, maxRequests := 5 }
    let inputs := { idle with request := true } ::
      (List.replicate 999 idle ++ [{ idle with request := true }])
    (∀ input ∈ inputs, input.windowReset = false) ∧
    ((run (clock 1000) reset inputs).count.toNat : ℤ) ≠
      (cycles (clock 1000) reset inputs).countP granted -
        (cycles (clock 1000) reset inputs).countP (returned 1000) := by
  decide +kernel

end Tokens

end RateLimiter

end Ito.Rtl
