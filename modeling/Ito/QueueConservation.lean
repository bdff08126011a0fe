import Ito.QueueTracker
import Ito.Library.Machine

/-! What the native model of a passive order conserves.

A decay of more than the whole queue makes the queue negative for the rest of the call, and
what is missing from it is filled as if the trade had brought it. -/

namespace Ito.QueueTracker

open CheckedInt

structure Call where
  tradePrice : Int64
  tradeQuantity : Int64
  cancellationDecayBps : UInt32 := 1000
  deriving DecidableEq, Repr

def step (order : RestingQueueOrder) (call : Call) : Option (RestingQueueOrder × Int64) :=
  processTrade order call.tradePrice call.tradeQuantity call.cancellationDecayBps

def queueAfterDecay (order : RestingQueueOrder) (call : Call) : Int :=
  order.queueAhead.toInt - order.queueAhead.toInt * call.cancellationDecayBps.toNat / 10000

def Trades (order : RestingQueueOrder) (call : Call) : Prop :=
  Matches order call.tradePrice ∧ 0 < call.tradeQuantity.toInt

instance (order : RestingQueueOrder) (call : Call) : Decidable (Trades order call) :=
  inferInstanceAs (Decidable (_ ∧ _))

/-- The decay leaves no less than nothing, or the trade covers the whole order anyway. -/
def Backed (order : RestingQueueOrder) (call : Call) : Prop :=
  Trades order call → 0 ≤ queueAfterDecay order call ∨
    (order.remainingQuantity.toInt ≤ call.tradeQuantity.toInt ∧
      call.tradeQuantity.toInt - queueAfterDecay order call < 2 ^ 63)

instance (order : RestingQueueOrder) (call : Call) : Decidable (Backed order call) :=
  inferInstanceAs (Decidable (_ → _))

/-- The product that the decay is computed from can be represented. -/
def ProductFits (queue : Int) (call : Call) : Prop :=
  queue * call.cancellationDecayBps.toNat < 2 ^ 63

instance (queue : Int) (call : Call) : Decidable (ProductFits queue call) :=
  inferInstanceAs (Decidable (_ < _))

/-- What the source promises of a call. No positive part of a trade that is refused can be
filled. -/
structure Conserves (order : RestingQueueOrder) (call : Call) (filled : Int64)
    (next : RestingQueueOrder) : Prop where
  nonneg : 0 ≤ filled.toInt
  bound : filled.toInt ≤ max 0 (min order.remainingQuantity.toInt call.tradeQuantity.toInt)
  waiting : Waiting next
  shorter : next.queueAhead.toInt ≤ order.queueAhead.toInt
  left : next.remainingQuantity.toInt + filled.toInt = order.remainingQuantity.toInt

/-- What the source promises of a run, and of every call in it. -/
def Conserved (order : RestingQueueOrder) (calls : List Call) : Prop :=
  ∃ final log, Machine.exec step order calls = some (final, log) ∧
    Machine.Along step Conserves order calls ∧
    final.remainingQuantity.toInt + (log.map fun entry => entry.2.toInt).sum =
      order.remainingQuantity.toInt

inductive Effect (order : RestingQueueOrder) (call : Call) (next : RestingQueueOrder)
    (filled : Int64) : Prop
  | refused (none : ¬ Trades order call) (same : next = order) (nothing : filled = 0)
  | queued (trades : Trades order call)
      (behind : call.tradeQuantity.toInt ≤ queueAfterDecay order call)
      (queue : next.queueAhead.toInt = queueAfterDecay order call - call.tradeQuantity.toInt)
      (remaining : next.remainingQuantity = order.remainingQuantity) (nothing : filled = 0)
  | reached (trades : Trades order call)
      (past : queueAfterDecay order call < call.tradeQuantity.toInt)
      (small : call.tradeQuantity.toInt - queueAfterDecay order call < 2 ^ 63)
      (queue : next.queueAhead = 0)
      (given : filled.toInt = min order.remainingQuantity.toInt
        (call.tradeQuantity.toInt - queueAfterDecay order call))
      (remaining : next.remainingQuantity.toInt =
        order.remainingQuantity.toInt - filled.toInt)

variable {order next : RestingQueueOrder} {call : Call} {filled : Int64}

theorem decayedQueue_defined (waiting : Waiting order)
    (fits : ProductFits order.queueAhead.toInt call) :
    ∃ queue, decayedQueue order call.cancellationDecayBps = some queue ∧
      queue.toInt = queueAfterDecay order call := by
  have queue := waiting.queue
  have queueHigh := order.queueAhead.toInt_lt
  have rateHigh := call.cancellationDecayBps.toNat_lt
  rw [ProductFits] at fits
  have rate : (Int64.ofNat call.cancellationDecayBps.toNat).toInt =
      call.cancellationDecayBps.toNat := Int64.toInt_ofNat_of_lt (by omega)
  have product : 0 ≤ order.queueAhead.toInt * call.cancellationDecayBps.toNat :=
    mul_nonneg queue (Int.natCast_nonneg _)
  rcases ofInt?_of_inRange (x := order.queueAhead.toInt * call.cancellationDecayBps.toNat)
    ⟨by omega, fits⟩ with ⟨scaled, multiplying, scaledEq⟩
  have ten : (10000 : Int64).toInt = 10000 := rfl
  rcases div?_defined (a := scaled) (b := 10000) (by decide)
    (inRange_tdiv scaled (by decide)) with ⟨amount, dividing, amountEq⟩
  rw [ten, scaledEq, Int.tdiv_eq_ediv_of_nonneg product] at amountEq
  have least : 0 ≤ amount.toInt := by
    rw [amountEq]
    exact Int.ediv_nonneg product (by decide)
  have amountHigh := amount.toInt_lt
  rcases sub?_defined (a := order.queueAhead) (b := amount) (by omega) (by omega) with
    ⟨decayed, subtracting, decayedEq⟩
  refine ⟨decayed, ?_, ?_⟩
  · rw [decayedQueue, mul?, rate, multiplying, Option.bind_eq_bind, Option.bind_some, dividing,
      Option.bind_some, subtracting]
  · rw [decayedEq, amountEq, queueAfterDecay]

theorem step_effect (waiting : Waiting order) (fits : ProductFits order.queueAhead.toInt call) :
    (∃ next filled, step order call = some (next, filled) ∧ Effect order call next filled) ∨
      (step order call = none ∧ Trades order call ∧
        2 ^ 63 ≤ call.tradeQuantity.toInt - queueAfterDecay order call) := by
  have queue := waiting.queue
  have remaining := waiting.remaining
  have remainingHigh := order.remainingQuantity.toInt_lt
  have quantityHigh := call.tradeQuantity.toInt_lt
  have refusedIff : (¬ Matches order call.tradePrice ∨ call.tradeQuantity ≤ 0) ↔
      ¬ Trades order call := by
    rw [Trades, not_and_or, ← pos_iff, Int64.not_lt]
  by_cases trades : Trades order call
  · have taken : ¬ (¬ Matches order call.tradePrice ∨ call.tradeQuantity ≤ 0) :=
      fun refused => refusedIff.mp refused trades
    rcases decayedQueue_defined waiting fits with ⟨decayed, decaying, decayedEq⟩
    have decayedHigh := decayed.toInt_lt
    simp only [step, processTrade, if_neg taken, decaying, Option.bind_eq_bind, Option.bind_some,
      Option.pure_def]
    by_cases through : call.tradeQuantity > decayed
    · have past : decayed.toInt < call.tradeQuantity.toInt := Int64.lt_iff_toInt_lt.mp through
      rw [if_pos through]
      by_cases small : call.tradeQuantity.toInt - decayed.toInt < 2 ^ 63
      · left
        rcases sub?_defined (a := call.tradeQuantity) (b := decayed) (by omega) small with
          ⟨fillable, behind, fillableEq⟩
        have filledEq := toInt_min order.remainingQuantity fillable
        rcases sub?_defined (a := order.remainingQuantity)
          (b := min order.remainingQuantity fillable) (by omega) (by omega) with
          ⟨left, taking, leftEq⟩
        rw [behind, Option.bind_some, taking, Option.bind_some]
        refine ⟨_, _, rfl, .reached trades (decayedEq ▸ past) (decayedEq ▸ small) rfl ?_ leftEq⟩
        rw [filledEq, fillableEq, decayedEq]
      · right
        have overflows : sub? call.tradeQuantity decayed = none := by
          apply if_neg
          omega
        rw [overflows]
        exact ⟨rfl, trades, by omega⟩
    · have short : call.tradeQuantity.toInt ≤ decayed.toInt :=
        Int64.le_iff_toInt_le.mp (Int64.not_lt.mp through)
      have positive := trades.2
      rcases sub?_defined (a := decayed) (b := call.tradeQuantity) (by omega) (by omega) with
        ⟨ahead, taking, aheadEq⟩
      left
      rw [if_neg through, taking, Option.bind_some]
      exact ⟨_, _, rfl, .queued trades (decayedEq ▸ short) (by rw [aheadEq, decayedEq]) rfl rfl⟩
  · left
    refine ⟨order, 0, ?_, .refused trades rfl rfl⟩
    rw [step, processTrade, if_pos (refusedIff.mpr trades)]

/-- Everything but the bound by the trade is kept whatever the decay is. -/
theorem Effect.kept (waiting : Waiting order) (effect : Effect order call next filled) :
    0 ≤ filled.toInt ∧ filled.toInt ≤ order.remainingQuantity.toInt ∧ Waiting next ∧
      next.queueAhead.toInt ≤ order.queueAhead.toInt ∧
      next.remainingQuantity.toInt + filled.toInt = order.remainingQuantity.toInt := by
  have queue := waiting.queue
  have remaining := waiting.remaining
  cases effect with
  | refused none same nothing =>
      subst same nothing
      exact ⟨le_rfl, remaining, waiting, le_rfl, Int.add_zero _⟩
  | queued trades behind ahead same nothing =>
      have decay : 0 ≤ order.queueAhead.toInt * call.cancellationDecayBps.toNat / 10000 :=
        Int.ediv_nonneg (mul_nonneg queue (Int.natCast_nonneg _)) (by decide)
      have positive := trades.2
      rw [queueAfterDecay] at behind ahead
      subst nothing
      rw [← same] at remaining ⊢
      exact ⟨le_rfl, remaining, ⟨remaining, by omega⟩, by omega, Int.add_zero _⟩
  | reached trades past small ahead given left =>
      have none : next.queueAhead.toInt = 0 := by
        rw [ahead]
        rfl
      exact ⟨by omega, by omega, ⟨by omega, by omega⟩, by omega, by omega⟩

theorem backed_iff (waiting : Waiting order) (fits : ProductFits order.queueAhead.toInt call) :
    Backed order call ↔
      ∃ next filled, step order call = some (next, filled) ∧ Conserves order call filled next := by
  have remaining := waiting.remaining
  rcases step_effect waiting fits with ⟨next, filled, stepped, effect⟩ | ⟨undefined, trades, large⟩
  · have ⟨nonneg, most, kept, shorter, left⟩ := effect.kept waiting
    have conserves : (∃ next filled, step order call = some (next, filled) ∧
        Conserves order call filled next) ↔
        filled.toInt ≤ max 0 (min order.remainingQuantity.toInt call.tradeQuantity.toInt) := by
      constructor
      · rintro ⟨other, given, again, conserved⟩
        rw [stepped, Option.some.injEq, Prod.mk.injEq] at again
        rw [again.2]
        exact conserved.bound
      · exact fun bound => ⟨next, filled, stepped, nonneg, bound, kept, shorter, left⟩
    rw [conserves, Backed]
    cases effect with
    | refused none same nothing =>
        subst nothing
        exact iff_of_true (fun trades => absurd trades none) (le_max_left _ _)
    | queued trades behind ahead same nothing =>
        have positive := trades.2
        subst nothing
        exact iff_of_true (fun _ => Or.inl (by omega)) (le_max_left _ _)
    | reached trades past small ahead given same =>
        have positive := trades.2
        rw [given]
        constructor
        · intro backed
          rcases backed trades with nonneg | ⟨covered, _⟩ <;> omega
        · intro bound _
          omega
  · have large' : 0 ≤ queueAfterDecay order call → False := by
      intro nonneg
      have high := call.tradeQuantity.toInt_lt
      omega
    apply iff_of_false
    · intro backed
      rcases backed trades with nonneg | ⟨_, small⟩
      · exact large' nonneg
      · omega
    · rintro ⟨next, filled, stepped, _⟩
      rw [undefined] at stepped
      cases stepped

theorem sum_filled {calls : List Call} {final : RestingQueueOrder} {log : List (Call × Int64)}
    (ran : Machine.exec step order calls = some (final, log))
    (along : Machine.Along step Conserves order calls) :
    final.remainingQuantity.toInt + (log.map fun entry => entry.2.toInt).sum =
      order.remainingQuantity.toInt := by
  induction calls generalizing order log with
  | nil =>
      simp only [Machine.exec_nil, Option.some.injEq, Prod.mk.injEq] at ran
      rw [← ran.1, ← ran.2]
      exact Int.add_zero _
  | cons call calls ih =>
      rcases Machine.exec_cons_eq_some.mp ran with ⟨next, filled, rest, stepped, later, rfl⟩
      rcases (Machine.along_cons stepped).mp along with ⟨here, along⟩
      have tail := ih later along
      have left := here.left
      simp only [List.map_cons, List.sum_cons]
      omega

theorem ProductFits.shorter {queue longer : Int} (fits : ProductFits longer call)
    (shorter : queue ≤ longer) : ProductFits queue call :=
  lt_of_le_of_lt (Int.mul_le_mul_of_nonneg_right shorter (Int.natCast_nonneg _)) fits

theorem conserved_waiting {calls : List Call} (waiting : Waiting order)
    (fits : ∀ call ∈ calls, ProductFits order.queueAhead.toInt call) :
    Conserved order calls ↔ Machine.Meets step Backed order calls := by
  have runs : Machine.Meets step Backed order calls ↔
      ∃ final log, Machine.exec step order calls = some (final, log) ∧
        Machine.Along step Conserves order calls := by
    apply Machine.meets_iff
      (fun now => Waiting now ∧ now.queueAhead.toInt ≤ order.queueAhead.toInt) _ _
      ⟨waiting, le_rfl⟩ fits
    · intro now call kept fits
      exact backed_iff kept.1 (fits.shorter kept.2)
    · intro now call next filled kept fits stepped
      rcases step_effect kept.1 (fits.shorter kept.2) with
        ⟨other, given, again, effect⟩ | ⟨undefined, _⟩
      · rw [stepped, Option.some.injEq, Prod.mk.injEq] at again
        have ⟨_, _, still, shorter, _⟩ := effect.kept kept.1
        rw [again.1]
        exact ⟨still, shorter.trans kept.2⟩
      · rw [stepped] at undefined
        cases undefined
  rw [runs, Conserved]
  constructor
  · rintro ⟨final, log, ran, along, _⟩
    exact ⟨final, log, ran, along⟩
  · rintro ⟨final, log, ran, along⟩
    exact ⟨final, log, ran, along, sum_filled ran along⟩

/-- In a run of a new order whose products can be represented, every call conserves exactly
where every call is backed. -/
theorem conserved_iff (id : UInt64) (isBuy : Bool) (price : Int64) {quantity depthAhead : Int64}
    (nonneg : 0 ≤ quantity.toInt) {calls : List Call}
    (fits : ∀ call ∈ calls, ProductFits (max 0 depthAhead.toInt) call) :
    Conserved (createOrder id isBuy price quantity depthAhead) calls ↔
      Machine.Meets step Backed (createOrder id isBuy price quantity depthAhead) calls := by
  have queue : (createOrder id isBuy price quantity depthAhead).queueAhead.toInt =
      max 0 depthAhead.toInt := toInt_max 0 depthAhead
  apply conserved_waiting
  · exact ⟨nonneg, queue ▸ le_max_left _ _⟩
  · rw [queue]
    exact fits

theorem conserved_iff_test :
    Conserved (createOrder 101 true 100 10 50) [⟨100, 30, 0⟩, ⟨100, 25, 0⟩] :=
  (conserved_iff 101 true 100 (by decide) (by decide)).mpr (by decide)

/-- A decay of twice the queue of 10 makes a trade of 5 fill 15 of an order for 20. -/
theorem excess_filled :
    ProductFits 10 ⟨100, 5, 20000⟩ ∧
      step (createOrder 1 true 100 20 10) ⟨100, 5, 20000⟩ =
        some (⟨1, 100, 5, 0, true⟩, 15) ∧
      ¬ Conserved (createOrder 1 true 100 20 10) [⟨100, 5, 20000⟩] := by
  have stepped : step (createOrder 1 true 100 20 10) ⟨100, 5, 20000⟩ =
      some (⟨1, 100, 5, 0, true⟩, 15) := by decide
  refine ⟨by decide, stepped, ?_⟩
  rintro ⟨final, log, _, along, _⟩
  have bound := ((Machine.along_cons stepped).mp along).1.bound
  exact absurd bound (by decide)

end Ito.QueueTracker
