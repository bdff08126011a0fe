import Ito.ExchangePriority
import Mathlib.Algebra.Order.BigOperators.Group.List

/-! Conservation of quantity over whole runs of the exchange.

Every lot of an accepted order is traded, resting, cancelled, or discarded when
an immediate order ends. The identity holds step by step and adds up over logs. -/

namespace Ito.ExchangeSimulator

abbrev Entry := Op × ExchangeSimulator × Output

def record (exchange : ExchangeSimulator) (op : Op) :
    Option (ExchangeSimulator × ExchangeSimulator × Output) :=
  (exchange.step op).map fun next => (next.1, exchange, next.2)

def restingQuantity (exchange : ExchangeSimulator) (venueOrderId : Nat) : Int :=
  match exchange.find venueOrderId with
  | none => 0
  | some order => order.remainingQuantity.toInt

def submittedQuantity (venueOrderId : Nat) : Entry → Int
  | (.submit intent _, _, .submitted result) =>
      if result.accepted ∧ result.venueOrderId = venueOrderId then intent.quantity.toInt else 0
  | _ => 0

def Names (venueOrderId : Nat) (event : MatchEvent) : Prop :=
  event.takerOrderId = venueOrderId ∨ event.makerOrderId = venueOrderId

instance (venueOrderId : Nat) : DecidablePred (Names venueOrderId) :=
  fun _ => inferInstanceAs (Decidable (_ ∨ _))

def tradedIn (venueOrderId : Nat) (events : List MatchEvent) : Int :=
  (events.map fun event => if Names venueOrderId event then event.quantity.toInt else 0).sum

def tradedQuantity (venueOrderId : Nat) : Entry → Int
  | (_, _, .submitted result) => tradedIn venueOrderId result.matchEvents
  | _ => 0

def cancelledQuantity (venueOrderId : Nat) : Entry → Int
  | (.cancel cancelled _, before, .cancelled true) =>
      if cancelled = venueOrderId then before.restingQuantity venueOrderId else 0
  | _ => 0

def discardedQuantity (venueOrderId : Nat) : Entry → Int
  | (.submit intent _, _, .submitted result) =>
      if result.accepted ∧ result.venueOrderId = venueOrderId ∧ intent.timeInForce = .ioc then
        result.remainingQuantity.toInt
      else 0
  | _ => 0

def heldUnder (venueOrderId : Nat) (orders : List RestingOrder) : Int :=
  (orders.map fun order => if order.venueOrderId = venueOrderId then size order else 0).sum

section Held

variable {venueOrderId : Nat} {orders other : List RestingOrder}

@[simp] theorem heldUnder_append :
    heldUnder venueOrderId (orders ++ other) =
      heldUnder venueOrderId orders + heldUnder venueOrderId other := by
  simp [heldUnder]

@[simp] theorem heldUnder_cons {order : RestingOrder} :
    heldUnder venueOrderId (order :: orders) =
      (if order.venueOrderId = venueOrderId then size order else 0) +
        heldUnder venueOrderId orders := by
  simp [heldUnder]

theorem heldUnder_perm (same : orders.Perm other) :
    heldUnder venueOrderId orders = heldUnder venueOrderId other :=
  (same.map _).sum_eq

theorem heldUnder_of_absent (absent : ∀ order ∈ orders, order.venueOrderId ≠ venueOrderId) :
    heldUnder venueOrderId orders = 0 := by
  induction orders with
  | nil => rfl
  | cons order orders ih =>
      rw [heldUnder_cons, if_neg (absent order List.mem_cons_self),
        ih fun old member => absent old (List.mem_cons_of_mem _ member), zero_add]

end Held

theorem Consistent.restingQuantity_eq {exchange : ExchangeSimulator}
    (consistent : exchange.Consistent) (venueOrderId : Nat) :
    exchange.restingQuantity venueOrderId = heldUnder venueOrderId exchange.orders := by
  have index := consistent.index_of
  rw [restingQuantity]
  cases found : exchange.find venueOrderId with
  | none =>
      symm
      apply heldUnder_of_absent
      intro order member same
      have present := (index.lookup venueOrderId order).mpr ⟨member, same⟩
      rw [find, present] at found
      cases found
  | some order =>
      rcases (index.lookup venueOrderId order).mp found with ⟨member, rfl⟩
      have split := Index.perm_cons_filter index.nodup member
      rw [heldUnder_perm split, heldUnder_cons, if_pos rfl, heldUnder_of_absent, add_zero]
      · rfl
      · intro other among
        simpa using (List.mem_filter.mp among).2

section Traded

variable {before beside : Int64 → Int64 → Prop} [DecidableRel beside]
  [IsStrictTotalOrder Int64 beside] {theirs : Side → Prop} {orderId : Nat}
  {outside : Int64 → Bool} {intent : OrderIntent} {timestampNs : UInt64}
  {book book' : PriceBook before} {own own' : PriceBook beside} {result : SubmitResult}

theorem heldUnder_settleOwn (own : PriceBook beside) (intent : OrderIntent) (orderId : Nat)
    (remaining : Int64) (venueOrderId : Nat) :
    heldUnder venueOrderId (settleOwn own intent orderId remaining).flat =
      heldUnder venueOrderId own.flat +
        if (0 < remaining ∧ intent.timeInForce = .day) ∧ orderId = venueOrderId then
          remaining.toInt
        else 0 := by
  rw [settleOwn]
  by_cases rests : 0 < remaining ∧ intent.timeInForce = .day
  · rw [if_pos rests, heldUnder_perm (pushBack_perm own _), heldUnder_cons, add_comm]
    simp only [rests, true_and]
    rfl
  · simp [rests]

theorem Traded.open' (stocked : Stocked theirs orderId book) :
    ∀ order ∈ accepted outside book, 0 < size order ∧ order.venueOrderId < orderId := by
  intro order member
  have among : order ∈ book.flat := by
    rw [← accepted_append_refused outside book]
    exact List.mem_append_left _ member
  have ok := stocked.order among
  exact ⟨ok.open', ok.known⟩

theorem Traded.tradedIn_eq (stocked : Stocked theirs orderId book)
    (traded : Traded outside intent orderId timestampNs book book' own own' result)
    (venueOrderId : Nat) :
    tradedIn venueOrderId result.matchEvents =
      ((Greedy.fills size intent.quantity.toInt (accepted outside book)).map fun fill =>
        if orderId = venueOrderId ∨ fill.1.venueOrderId = venueOrderId then fill.2 else 0).sum := by
  rw [tradedIn, traded.events, List.map_map]
  congr 1
  apply List.map_congr_left
  intro fill member
  have fits := (fill_fits (fun order among => (Traded.open' stocked order among).1) member).1
  simp only [Function.comp_apply, matchEvent, Names, fits]

theorem Traded.served_eq (traded : Traded outside intent orderId timestampNs book book' own own'
    result) (venueOrderId : Nat) :
    heldUnder venueOrderId book.flat =
      ((Greedy.fills size intent.quantity.toInt (accepted outside book)).map fun fill =>
        if fill.1.venueOrderId = venueOrderId then fill.2 else 0).sum +
          heldUnder venueOrderId book'.flat := by
  have parts := @Greedy.sum_fills_add_rest _ size trim intent.quantity.toInt
    (accepted outside book) (fun order => order.venueOrderId = venueOrderId) _
    (fun _ _ => Iff.rfl) (fun _ _ _ positive smaller => size_trim positive smaller)
  rw [← accepted_append_refused outside book, traded.served, heldUnder_append, heldUnder_append]
  unfold heldUnder at *
  omega

theorem Traded.conserve (stocked : Stocked theirs orderId book) (entered : Entered intent)
    (traded : Traded outside intent orderId timestampNs book book' own own' result)
    (venueOrderId : Nat) :
    (if orderId = venueOrderId then intent.quantity.toInt else 0) +
        heldUnder venueOrderId book.flat + heldUnder venueOrderId own.flat =
      tradedIn venueOrderId result.matchEvents + heldUnder venueOrderId book'.flat +
        heldUnder venueOrderId own'.flat +
          if orderId = venueOrderId ∧ intent.timeInForce = .ioc then
            result.remainingQuantity.toInt
          else 0 := by
  rw [traded.tradedIn_eq stocked, traded.served_eq, traded.settled, heldUnder_settleOwn]
  by_cases mine' : orderId = venueOrderId
  · subst mine'
    have makers : ((Greedy.fills size intent.quantity.toInt (accepted outside book)).map fun fill =>
        if fill.1.venueOrderId = orderId then fill.2 else 0).sum = 0 := by
      apply List.sum_eq_zero
      intro part member
      rcases List.mem_map.mp member with ⟨fill, among, rfl⟩
      apply if_neg
      have served : fill.1 ∈ accepted outside book := by
        apply List.mem_of_mem_take
        rw [← Greedy.fills_eq_take]
        exact List.mem_map_of_mem among
      exact (Traded.open' stocked fill.1 served).2.ne
    have covered : ((Greedy.fills size intent.quantity.toInt (accepted outside book)).map
        fun fill => fill.2).sum + result.remainingQuantity.toInt = intent.quantity.toInt := by
      rw [traded.remaining]
      exact Greedy.sum_fills_add_left intent.quantity.toInt (accepted outside book)
    have start : 0 ≤ result.remainingQuantity.toInt := by
      rw [traded.remaining]
      exact Greedy.left_nonneg entered.positive.le
    simp only [true_or, if_true, true_and, and_true, makers]
    cases time : intent.timeInForce with
    | day =>
        simp only [CheckedInt.pos_iff, and_true, reduceCtorEq, if_false]
        split <;> omega
    | ioc =>
        simp only [reduceCtorEq, and_false, if_false, if_true]
        omega
    | fok => exact absurd time entered.timeInForce
  · simp only [mine', false_or, and_false, false_and, if_false]
    omega

end Traded

inductive Recorded (exchange after : ExchangeSimulator) : Op → Output → Prop
  | submitted {intent : OrderIntent} {timestampNs : UInt64} {result : SubmitResult}
      (next : after.nextOrderId = exchange.nextOrderId + 1)
      (effect : SubmitEffect exchange intent timestampNs after result) :
      Recorded exchange after (.submit intent timestampNs) (.submitted result)
  | cancelled {venueOrderId : Nat} {timestampNs : UInt64} {found : Bool}
      (next : after.nextOrderId = exchange.nextOrderId)
      (effect : CancelEffect exchange venueOrderId after found) :
      Recorded exchange after (.cancel venueOrderId timestampNs) (.cancelled found)

theorem record_cases {exchange after seen : ExchangeSimulator} {op : Op} {output : Output}
    (consistent : exchange.Consistent) (ran : exchange.record op = some (after, seen, output)) :
    seen = exchange ∧ after.Consistent ∧ Recorded exchange after op output := by
  rcases Option.map_eq_some_iff.mp ran with ⟨⟨after', output'⟩, stepped, same⟩
  cases same
  cases op with
  | submit intent timestampNs =>
      rcases submit_spec consistent intent timestampNs with
        ⟨after', result, submitted, kept, next, effect⟩
      rw [step, submitted, Option.map_some, Option.some.injEq, Prod.mk.injEq] at stepped
      rw [← stepped.1, ← stepped.2]
      exact ⟨rfl, kept, .submitted next effect⟩
  | cancel venueOrderId timestampNs =>
      rcases cancel_spec consistent venueOrderId timestampNs with ⟨kept, next, effect⟩
      rw [step, Option.some.injEq, Prod.mk.injEq] at stepped
      rw [← stepped.1, ← stepped.2]
      exact ⟨rfl, kept, .cancelled next effect⟩

theorem cancelled_gone {exchange after : ExchangeSimulator} {venueOrderId : Nat}
    (consistent : exchange.Consistent) (effect : CancelEffect exchange venueOrderId after true) :
    venueOrderId < exchange.nextOrderId ∧ heldUnder venueOrderId after.orders = 0 := by
  cases effect with
  | removed order present split =>
      rcases (consistent.index_of.lookup _ _).mp present with ⟨member, rfl⟩
      have fresh := (Index.of_perm split consistent.index_of).nodup
      refine ⟨(consistent.bookInvariant.open' order member).2.2, heldUnder_of_absent ?_⟩
      intro other among same
      apply (List.nodup_cons.mp fresh).1
      rw [← same]
      exact List.mem_map_of_mem among

theorem record_conserve {exchange after seen : ExchangeSimulator} {op : Op} {output : Output}
    (consistent : exchange.Consistent) (ran : exchange.record op = some (after, seen, output))
    (venueOrderId : Nat) :
    submittedQuantity venueOrderId (op, seen, output) + exchange.restingQuantity venueOrderId =
      tradedQuantity venueOrderId (op, seen, output) + after.restingQuantity venueOrderId +
        cancelledQuantity venueOrderId (op, seen, output) +
          discardedQuantity venueOrderId (op, seen, output) := by
  rcases record_cases consistent ran with ⟨rfl, kept, recorded⟩
  cases recorded with
  | submitted next effect =>
      simp only [submittedQuantity, tradedQuantity, cancelledQuantity, discardedQuantity]
      rw [consistent.restingQuantity_eq, kept.restingQuantity_eq]
      cases effect with
      | refused cause bids asks index same =>
          simp [same, orders, bids, asks, tradedIn]
      | bought entered side traded =>
          have balance := traded.conserve consistent.served entered venueOrderId
          simp only [traded.taken, traded.id, true_and, orders, heldUnder_append]
          omega
      | sold entered side traded =>
          have balance := traded.conserve consistent.resting entered venueOrderId
          simp only [traded.taken, traded.id, true_and, orders, heldUnder_append]
          omega
  | cancelled next effect =>
      cases effect with
      | missing absent same =>
          simp [submittedQuantity, tradedQuantity, cancelledQuantity, discardedQuantity, same]
      | removed order present split =>
          rcases (consistent.index_of.lookup _ _).mp present with ⟨_, rfl⟩
          have gone := (cancelled_gone consistent (.removed order present split)).2
          simp only [submittedQuantity, tradedQuantity, cancelledQuantity, discardedQuantity]
          rw [consistent.restingQuantity_eq, kept.restingQuantity_eq, heldUnder_perm split,
            heldUnder_cons]
          by_cases same : order.venueOrderId = venueOrderId
          · rw [if_pos same, if_pos same, ← same, gone]
            omega
          · rw [if_neg same, if_neg same]
            omega

def total (quantity : Entry → Int) (log : List Entry) : Int := (log.map quantity).sum

@[simp] theorem total_append_single (quantity : Entry → Int) (log : List Entry) (entry : Entry) :
    total quantity (log ++ [entry]) = total quantity log + quantity entry := by
  simp [total]

/-- The log holds an accepted submission with this id and quantity. -/
def Accepted (log : List Entry) (venueOrderId : Nat) (quantity : Int) : Prop :=
  ∃ intent timestampNs before result,
    (Op.submit intent timestampNs, before, Output.submitted result) ∈ log ∧
      result.accepted = true ∧ result.venueOrderId = venueOrderId ∧
      intent.quantity.toInt = quantity

def Cancelled (log : List Entry) (venueOrderId : Nat) : Prop :=
  ∃ timestampNs before,
    (Op.cancel venueOrderId timestampNs, before, Output.cancelled true) ∈ log

def Makes (venueOrderId : Nat) : Entry → Prop
  | (_, _, .submitted result) => venueOrderId ∈ result.matchEvents.map (·.makerOrderId)
  | _ => False

/-- The state of the books after a log: quantities add up, ids are used once, and
what was cancelled stays away. -/
structure Audited (log : List Entry) (exchange : ExchangeSimulator) : Prop where
  consistent : exchange.Consistent
  balance : ∀ venueOrderId, total (submittedQuantity venueOrderId) log =
    total (tradedQuantity venueOrderId) log + exchange.restingQuantity venueOrderId +
      total (cancelledQuantity venueOrderId) log + total (discardedQuantity venueOrderId) log
  nonneg : ∀ venueOrderId, 0 ≤ total (cancelledQuantity venueOrderId) log ∧
    0 ≤ total (discardedQuantity venueOrderId) log
  unused : ∀ venueOrderId, exchange.nextOrderId ≤ venueOrderId →
    total (submittedQuantity venueOrderId) log = 0
  accepted : ∀ venueOrderId quantity, Accepted log venueOrderId quantity →
    venueOrderId < exchange.nextOrderId ∧ total (submittedQuantity venueOrderId) log = quantity
  cancelled : ∀ venueOrderId, Cancelled log venueOrderId →
    venueOrderId < exchange.nextOrderId ∧ exchange.restingQuantity venueOrderId = 0

theorem Consistent.restingQuantity_nonneg {exchange : ExchangeSimulator}
    (consistent : exchange.Consistent) (venueOrderId : Nat) :
    0 ≤ exchange.restingQuantity venueOrderId := by
  rw [restingQuantity]
  cases found : exchange.find venueOrderId with
  | none => exact le_refl 0
  | some order =>
      have member := ((consistent.index_of.lookup _ _).mp found).1
      exact (CheckedInt.pos_iff.mp (consistent.bookInvariant.open' order member).1).le

section Effect

variable {exchange after : ExchangeSimulator} {intent : OrderIntent} {timestampNs : UInt64}
  {result : SubmitResult}

theorem SubmitEffect.id (effect : SubmitEffect exchange intent timestampNs after result) :
    result.venueOrderId = exchange.nextOrderId := by
  cases effect with
  | refused _ _ _ _ same => rw [same]
  | bought _ _ traded => exact traded.id
  | sold _ _ traded => exact traded.id

theorem Traded.positive {before beside : Int64 → Int64 → Prop} [DecidableRel beside]
    [IsStrictTotalOrder Int64 beside] {theirs : Side → Prop} {orderId : Nat}
    {outside : Int64 → Bool} {book book' : PriceBook before} {own own' : PriceBook beside}
    (stocked : Stocked theirs orderId book) (entered : Entered intent)
    (traded : Traded outside intent orderId timestampNs book book' own own' result) :
    0 ≤ result.remainingQuantity.toInt ∧
      ∀ event ∈ result.matchEvents, 0 < event.quantity.toInt := by
  constructor
  · rw [traded.remaining]
    exact Greedy.left_nonneg entered.positive.le
  · intro event member
    rw [traded.events] at member
    rcases List.mem_map.mp member with ⟨fill, among, rfl⟩
    rcases fill_fits (fun order inside => (Traded.open' stocked order inside).1) among with
      ⟨fits, positive, _⟩
    rw [matchEvent, fits]
    exact positive

/-- Every match trades something, and an accepted order keeps what it did not trade. -/
theorem SubmitEffect.positive (consistent : exchange.Consistent)
    (effect : SubmitEffect exchange intent timestampNs after result) :
    (result.accepted = true → 0 ≤ result.remainingQuantity.toInt) ∧
      ∀ event ∈ result.matchEvents, 0 < event.quantity.toInt := by
  cases effect with
  | refused _ _ _ _ same => simp [same]
  | bought entered _ traded =>
      have parts := traded.positive consistent.served entered
      exact ⟨fun _ => parts.1, parts.2⟩
  | sold entered _ traded =>
      have parts := traded.positive consistent.resting entered
      exact ⟨fun _ => parts.1, parts.2⟩

end Effect

theorem tradedIn_nonneg {events : List MatchEvent} (venueOrderId : Nat)
    (positive : ∀ event ∈ events, 0 < event.quantity.toInt) : 0 ≤ tradedIn venueOrderId events := by
  apply List.sum_nonneg
  intro part member
  rcases List.mem_map.mp member with ⟨event, among, rfl⟩
  split
  · exact (positive event among).le
  · exact le_refl 0

theorem tradedIn_pos {events : List MatchEvent} {venueOrderId : Nat}
    (positive : ∀ event ∈ events, 0 < event.quantity.toInt)
    (named : venueOrderId ∈ events.map (·.makerOrderId)) : 0 < tradedIn venueOrderId events := by
  induction events with
  | nil => cases named
  | cons event events ih =>
      have first := positive event List.mem_cons_self
      have later : ∀ event ∈ events, 0 < event.quantity.toInt := fun old member =>
        positive old (List.mem_cons_of_mem _ member)
      have rest := tradedIn_nonneg venueOrderId later
      rw [tradedIn, List.map_cons, List.sum_cons]
      change 0 < _ + tradedIn venueOrderId events
      rcases List.mem_cons.mp named with same | among
      · have names : Names venueOrderId event := Or.inr same.symm
        rw [if_pos names]
        omega
      · have tail := ih later among
        split <;> omega

section Step

variable {exchange after seen : ExchangeSimulator} {op : Op} {output : Output}

theorem submitted_old (seen : ExchangeSimulator) (recorded : Recorded exchange after op output)
    {venueOrderId : Nat} (differ : venueOrderId ≠ exchange.nextOrderId) :
    submittedQuantity venueOrderId (op, seen, output) = 0 := by
  cases recorded with
  | submitted next effect =>
      apply if_neg
      rw [effect.id]
      exact fun both => differ both.2.symm
  | cancelled => rfl

theorem submitted_unused (seen : ExchangeSimulator)
    (recorded : Recorded exchange after op output) {venueOrderId : Nat}
    (unused : after.nextOrderId ≤ venueOrderId) :
    submittedQuantity venueOrderId (op, seen, output) = 0 := by
  cases recorded with
  | submitted next effect => exact submitted_old seen (.submitted next effect) (by omega)
  | cancelled => rfl

theorem next_le (recorded : Recorded exchange after op output) :
    exchange.nextOrderId ≤ after.nextOrderId := by
  cases recorded with
  | submitted next => omega
  | cancelled next => exact next.ge

theorem recorded_nonneg (consistent : exchange.Consistent)
    (recorded : Recorded exchange after op output) (venueOrderId : Nat) :
    0 ≤ tradedQuantity venueOrderId (op, exchange, output) ∧
      0 ≤ cancelledQuantity venueOrderId (op, exchange, output) ∧
      0 ≤ discardedQuantity venueOrderId (op, exchange, output) := by
  cases recorded with
  | submitted next effect =>
      have parts := effect.positive consistent
      refine ⟨tradedIn_nonneg venueOrderId parts.2, le_refl 0, ?_⟩
      simp only [discardedQuantity]
      split
      case isTrue taken => exact parts.1 taken.1
      case isFalse => exact le_refl 0
  | @cancelled id timestampNs found next effect =>
      refine ⟨le_refl 0, ?_, le_refl 0⟩
      cases found with
      | false => exact le_refl 0
      | true =>
          simp only [cancelledQuantity]
          split
          · exact consistent.restingQuantity_nonneg venueOrderId
          · exact le_refl 0

theorem record_retired (consistent : exchange.Consistent)
    (ran : exchange.record op = some (after, seen, output)) {venueOrderId : Nat}
    (known : venueOrderId < exchange.nextOrderId)
    (gone : exchange.restingQuantity venueOrderId = 0) :
    (venueOrderId < after.nextOrderId ∧ after.restingQuantity venueOrderId = 0) ∧
      ¬ Makes venueOrderId (op, seen, output) := by
  have balance := record_conserve consistent ran venueOrderId
  rcases record_cases consistent ran with ⟨rfl, kept, recorded⟩
  have nothing := submitted_old seen recorded known.ne
  have parts := recorded_nonneg consistent recorded venueOrderId
  have left := kept.restingQuantity_nonneg venueOrderId
  have later := next_le recorded
  refine ⟨⟨by omega, by omega⟩, ?_⟩
  intro makes
  cases recorded with
  | submitted next effect =>
      have traded : 0 < tradedIn venueOrderId _ :=
        tradedIn_pos (effect.positive consistent).2 makes
      simp only [tradedQuantity] at balance parts
      omega
  | cancelled => exact makes

end Step

theorem accepted_append {log : List Entry} {entry : Entry} {venueOrderId : Nat} {quantity : Int} :
    Accepted (log ++ [entry]) venueOrderId quantity ↔
      Accepted log venueOrderId quantity ∨ Accepted [entry] venueOrderId quantity := by
  simp only [Accepted, List.mem_append]
  constructor
  · rintro ⟨intent, time, before, result, old | new, rest⟩
    · exact Or.inl ⟨intent, time, before, result, old, rest⟩
    · exact Or.inr ⟨intent, time, before, result, new, rest⟩
  · rintro (⟨intent, time, before, result, old, rest⟩ | ⟨intent, time, before, result, new, rest⟩)
    · exact ⟨intent, time, before, result, Or.inl old, rest⟩
    · exact ⟨intent, time, before, result, Or.inr new, rest⟩

theorem audited_start (journal : EventJournal) : Audited [] (create journal) := by
  constructor
  · exact create_consistent journal
  · intro venueOrderId
    simp [total, restingQuantity, find, create]
  · simp [total]
  · simp [total]
  · intro venueOrderId quantity listed
    rcases listed with ⟨_, _, _, _, member, _⟩
    cases member
  · intro venueOrderId listed
    rcases listed with ⟨_, _, member⟩
    cases member

theorem accepted_single {exchange after : ExchangeSimulator} {op : Op} {output : Output}
    (recorded : Recorded exchange after op output) {venueOrderId : Nat} {quantity : Int}
    (accepted : Accepted [(op, exchange, output)] venueOrderId quantity) :
    venueOrderId = exchange.nextOrderId ∧ venueOrderId < after.nextOrderId ∧
      submittedQuantity venueOrderId (op, exchange, output) = quantity := by
  rcases accepted with ⟨intent, timestampNs, before, result, single, taken, id, amount⟩
  cases List.mem_singleton.mp single
  cases recorded with
  | submitted next effect =>
      have fresh := effect.id
      refine ⟨by omega, by omega, ?_⟩
      rw [submittedQuantity, if_pos ⟨taken, id⟩, amount]

theorem audited_step {log : List Entry} {exchange after : ExchangeSimulator} {op : Op}
    {noted : ExchangeSimulator × Output} (audited : Audited log exchange)
    (ran : exchange.record op = some (after, noted)) : Audited (log ++ [(op, noted)]) after := by
  rcases noted with ⟨seen, output⟩
  have retired := @record_retired exchange after seen op output audited.consistent ran
  have conserve := record_conserve audited.consistent ran
  rcases record_cases audited.consistent ran with ⟨rfl, kept, recorded⟩
  have later := next_le recorded
  constructor
  · exact kept
  · intro venueOrderId
    have before := audited.balance venueOrderId
    have step := conserve venueOrderId
    simp only [total_append_single]
    omega
  · intro venueOrderId
    have before := audited.nonneg venueOrderId
    have parts := recorded_nonneg audited.consistent recorded venueOrderId
    simp only [total_append_single]
    omega
  · intro venueOrderId unused
    rw [total_append_single, submitted_unused seen recorded unused,
      audited.unused venueOrderId (later.trans unused), add_zero]
  · intro venueOrderId quantity accepted
    rw [total_append_single]
    rcases accepted_append.mp accepted with old | new
    · rcases audited.accepted venueOrderId quantity old with ⟨known, sum⟩
      rw [submitted_old seen recorded known.ne, sum, add_zero]
      exact ⟨by omega, rfl⟩
    · rcases accepted_single recorded new with ⟨fresh, known, single⟩
      rw [audited.unused venueOrderId fresh.ge, single, zero_add]
      exact ⟨known, rfl⟩
  · intro venueOrderId listed
    rcases listed with ⟨timestampNs, before, member⟩
    rcases List.mem_append.mp member with old | new
    · rcases audited.cancelled venueOrderId ⟨timestampNs, before, old⟩ with ⟨known, gone⟩
      exact (retired known gone).1
    · cases List.mem_singleton.mp new
      cases recorded with
      | cancelled next effect =>
          rcases cancelled_gone audited.consistent effect with ⟨known, gone⟩
          rw [next, kept.restingQuantity_eq]
          exact ⟨known, gone⟩

theorem record_exec {exchange : ExchangeSimulator} (consistent : exchange.Consistent)
    (ops : List Op) : ∃ after log, Machine.exec record exchange ops = some (after, log) ∧
      after.Consistent := by
  apply Machine.exec_defined Consistent ?_ consistent ops
  intro before op held
  rcases step_spec held op with ⟨after, output, ran, kept⟩
  exact ⟨after, (before, output), by rw [record, ran, Option.map_some], kept⟩

theorem exec_retired {exchange after : ExchangeSimulator} {ops : List Op} {log : List Entry}
    {venueOrderId : Nat} (consistent : exchange.Consistent)
    (known : venueOrderId < exchange.nextOrderId)
    (gone : exchange.restingQuantity venueOrderId = 0)
    (ran : Machine.exec record exchange ops = some (after, log)) :
    ∀ entry ∈ log, ¬ Makes venueOrderId entry := by
  have along : Machine.Along record (fun _ op noted _ => ¬ Makes venueOrderId (op, noted))
      exchange ops := by
    apply Machine.along_of_invariant (fun state : ExchangeSimulator => state.Consistent ∧
      venueOrderId < state.nextOrderId ∧ state.restingQuantity venueOrderId = 0) ?_
      ⟨consistent, known, gone⟩
    intro before op shown next invariant stepped
    rcases shown with ⟨seen, output⟩
    rcases invariant with ⟨held, known, gone⟩
    have retired := record_retired held stepped known gone
    exact ⟨retired.2, (record_cases held stepped).2.1, retired.1⟩
  exact Machine.log_of_along ran along

/-- Over every run, cut at any point: the quantity of an accepted order is what
was traded, what rests, what was cancelled and what was discarded; and once the
order is filled or cancelled, no later match names it as its maker. -/
theorem quantity_conserved (journal : EventJournal) (front back : List Op) :
    ∃ mid log final later, Machine.exec record (create journal) front = some (mid, log) ∧
      Machine.exec record mid back = some (final, later) ∧
      ∀ venueOrderId quantity, Accepted log venueOrderId quantity →
        quantity = total (tradedQuantity venueOrderId) log + mid.restingQuantity venueOrderId +
          total (cancelledQuantity venueOrderId) log +
            total (discardedQuantity venueOrderId) log ∧
        (total (tradedQuantity venueOrderId) log = quantity ∨ Cancelled log venueOrderId →
          ∀ entry ∈ later, ¬ Makes venueOrderId entry) := by
  rcases record_exec (create_consistent journal) front with ⟨mid, log, ran, consistent⟩
  rcases record_exec consistent back with ⟨final, later, ran', _⟩
  refine ⟨mid, log, final, later, ran, ran', ?_⟩
  have audited : Audited log mid := Machine.exec_invariant Audited
    (fun _ _ _ _ _ held stepped => audited_step held stepped) (audited_start journal) ran
  intro venueOrderId quantity accepted
  rcases audited.accepted venueOrderId quantity accepted with ⟨known, sum⟩
  have balance := audited.balance venueOrderId
  have resting := consistent.restingQuantity_nonneg venueOrderId
  have nonneg := audited.nonneg venueOrderId
  refine ⟨by omega, ?_⟩
  intro ended
  have gone : mid.restingQuantity venueOrderId = 0 := by
    rcases ended with filled | cancelled
    · omega
    · exact (audited.cancelled venueOrderId cancelled).2
  exact exec_retired consistent known gone ran'

end Ito.ExchangeSimulator
