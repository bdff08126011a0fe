import Ito.MicrostructureRuns
import Mathlib.Algebra.Order.BigOperators.Group.List

/-! Whether the backtest engine fills a limit order at its limit or better. A resting order
is; an order that crosses the book walks it like a market order, past its own limit. -/

namespace Ito.Backtest.MicrostructureEngine

variable {F : Type} [PythonFloat F]

def Acceptable (side price : Int) (level : BookLevel) : Prop :=
  (0 < side → level.priceTicks ≤ price) ∧ (side < 0 → price ≤ level.priceTicks)

instance (side price : Int) (level : BookLevel) : Decidable (Acceptable side price level) :=
  inferInstanceAs (Decidable (_ ∧ _))

def depthWithin (side price : Int) (ladder : List BookLevel) : Int :=
  ((ladder.filter fun level => Acceptable side price level ∧ 0 < level.size).map
    BookLevel.size).sum

def firstBeyond (side price : Int) (ladder : List BookLevel) : Option BookLevel :=
  ladder.find? fun level => ¬ Acceptable side price level ∧ 0 < level.size

/-- The quantity exceeds what is on offer at acceptable prices, there is more behind it, and
the position limit leaves room for all of the former and the next part of the latter. -/
def ReachesBeyond (maxPosition side price position quantity : Int) (ladder : List BookLevel) :
    Prop :=
  depthWithin side price ladder < quantity ∧
    ∃ level ∈ firstBeyond side price ladder,
      signed side position + depthWithin side price ladder +
        min (quantity - depthWithin side price ladder) level.size ≤ maxPosition

instance (maxPosition side price position quantity : Int) (ladder : List BookLevel) :
    Decidable (ReachesBeyond maxPosition side price position quantity ladder) :=
  inferInstanceAs (Decidable (_ ∧ _))

section Ladder

variable {side price : Int} {level : BookLevel} {ladder : List BookLevel}

theorem depthWithin_nonneg (side price : Int) (ladder : List BookLevel) :
    0 ≤ depthWithin side price ladder := by
  apply List.sum_nonneg
  intro size member
  rcases List.mem_map.mp member with ⟨level, inside, rfl⟩
  have offered := (List.mem_filter.mp inside).2
  simp only [decide_eq_true_eq] at offered
  exact offered.2.le

theorem firstBeyond_size (found : level ∈ firstBeyond side price ladder) : 0 < level.size := by
  have offered := List.find?_some found
  simp only [decide_eq_true_eq] at offered
  exact offered.2

theorem beyond_empty (empty : level.size ≤ 0) :
    depthWithin side price (level :: ladder) = depthWithin side price ladder ∧
      firstBeyond side price (level :: ladder) = firstBeyond side price ladder := by
  have none : ¬ 0 < level.size := not_lt.mpr empty
  simp [depthWithin, firstBeyond, none]

theorem beyond_acceptable (offered : 0 < level.size) (inside : Acceptable side price level) :
    depthWithin side price (level :: ladder) = level.size + depthWithin side price ladder ∧
      firstBeyond side price (level :: ladder) = firstBeyond side price ladder := by
  simp [depthWithin, firstBeyond, offered, inside]

theorem beyond_outside (offered : 0 < level.size) (outside : ¬ Acceptable side price level)
    (rest : ∀ other ∈ ladder, ¬ Acceptable side price other) :
    depthWithin side price (level :: ladder) = 0 ∧
      firstBeyond side price (level :: ladder) = some level := by
  have none : ladder.filter (fun other => Acceptable side price other ∧ 0 < other.size) = [] := by
    apply List.filter_eq_nil_iff.mpr
    intro other member
    simp [rest other member]
  constructor
  · rw [depthWithin, List.filter_cons_of_neg (by simp [outside]), none]
    rfl
  · simp [firstBeyond, offered, outside]

end Ladder

section Walk

variable {engine : MicrostructureEngine F} {signal : Signal} (arrivalTime latency : Int)
  {maxPosition side price position remaining : Int} {level : BookLevel} {ladder : List BookLevel}

theorem not_reachesBeyond_full (offered : 0 < level.size) (inside : Acceptable side price level)
    (full : maxPosition < signed side position + min remaining level.size) :
    ¬ ReachesBeyond maxPosition side price position remaining (level :: ladder) := by
  have depth := depthWithin_nonneg side price ladder
  intro beyond
  rw [ReachesBeyond, (beyond_acceptable offered inside).1, (beyond_acceptable offered inside).2]
    at beyond
  rcases beyond with ⟨short, next, found, room⟩
  have more := firstBeyond_size found
  omega

theorem reachesBeyond_taken (offered : 0 < level.size) (inside : Acceptable side price level) :
    ReachesBeyond maxPosition side price (position + signed side (min remaining level.size))
        (remaining - min remaining level.size) ladder ↔
      ReachesBeyond maxPosition side price position remaining (level :: ladder) := by
  have depth := depthWithin_nonneg side price ladder
  rw [ReachesBeyond, ReachesBeyond, (beyond_acceptable offered inside).1,
    (beyond_acceptable offered inside).2, signed_add]
  constructor
  · intro beyond
    rcases beyond with ⟨short, next, found, room⟩
    exact ⟨by omega, next, found, by omega⟩
  · intro beyond
    rcases beyond with ⟨short, next, found, room⟩
    exact ⟨by omega, next, found, by omega⟩

theorem reachesBeyond_outside (offered : 0 < level.size) (outside : ¬ Acceptable side price level)
    (rest : ∀ other ∈ ladder, ¬ Acceptable side price other) (unfilled : 0 < remaining) :
    ReachesBeyond maxPosition side price position remaining (level :: ladder) ↔
      ¬ maxPosition < signed side position + min remaining level.size := by
  rw [ReachesBeyond, (beyond_outside offered outside rest).1,
    (beyond_outside offered outside rest).2]
  simp only [Option.mem_some, exists_eq_left', sub_zero, add_zero, not_lt]
  exact and_iff_right unfilled

theorem walk_within_iff
    (sorted : ladder.Pairwise fun a b =>
      Acceptable signal.side price b → Acceptable signal.side price a)
    (limit : |position| ≤ engine.maxPosition) :
    (∀ fill ∈ (engine.walk signal arrivalTime latency position remaining ladder).2.2,
        Within signal.side price fill) ↔
      ¬ ReachesBeyond engine.maxPosition signal.side price position remaining ladder := by
  induction ladder generalizing position remaining with
  | nil => simp [walk, ReachesBeyond, firstBeyond]
  | cons level ladder ih =>
      rcases List.pairwise_cons.mp sorted with ⟨first, tail⟩
      rw [walk]
      by_cases done : remaining ≤ 0
      · have all := depthWithin_nonneg signal.side price (level :: ladder)
        have covered : ¬ depthWithin signal.side price (level :: ladder) < remaining := by omega
        simp [done, ReachesBeyond, covered]
      by_cases empty : level.size ≤ 0
      · simp only [if_neg done, if_pos empty, ih tail limit, ReachesBeyond,
          (beyond_empty empty).1, (beyond_empty empty).2]
      have unfilled : 0 < remaining := by omega
      have offered : 0 < level.size := by omega
      have part : 0 ≤ min remaining level.size := by omega
      have refused := room_of_refused signal.side limit part
      simp only [if_neg done, if_neg empty, gt_iff_lt, refused]
      by_cases inside : Acceptable signal.side price level
      · split
        · rename_i full
          -- the limit stops the walk inside the price
          exact iff_of_true (by simp) (not_reachesBeyond_full offered inside full)
        · rename_i free
          have limit' : |position + signed signal.side (min remaining level.size)| ≤
              engine.maxPosition := not_lt.mp (refused.not.mpr free)
          rw [List.forall_mem_cons, ih tail limit', reachesBeyond_taken offered inside]
          exact and_iff_right inside
      · have rest : ∀ other ∈ ladder, ¬ Acceptable signal.side price other := by
          intro other member acceptable
          exact inside (first other member acceptable)
        rw [reachesBeyond_outside offered inside rest unfilled, not_not]
        split
        · rename_i full
          exact iff_of_true (by simp) full
        · rename_i free
          apply iff_of_false _ free
          intro within
          exact inside (within _ List.mem_cons_self)

end Walk

structure Traced (F : Type) [PythonFloat F] where
  engine : MicrostructureEngine F
  placed : List (Int × Signal) := []

/-- An event, with a note of the signal whose order takes the next id. -/
def traceStep (state : Traced F) (event : Event) : Option (Traced F × List (Fill F)) :=
  (state.engine.step event).map fun next =>
    let placed :=
      match event with
      | .signal signal =>
          if next.1.nextOrderId = state.engine.nextOrderId then state.placed
          else state.placed ++ [(state.engine.nextOrderId, signal)]
      | _ => state.placed
    (⟨next.1, placed⟩, next.2)

def restingFills (engine : MicrostructureEngine F) : Event → List (RestingOrder × Fill F)
  | .quote quote =>
      if Quotable quote then ((engine.quoted quote).quoteRound quote).filled else []
  | .trade trade => (engine.tradeRound trade).filled
  | .signal _ => []

/-- Every fill for a limit order is at its limit price or better. -/
def Protects (before : Traced F) (event : Event) (fills : List (Fill F)) (_ : Traced F) : Prop :=
  match event with
  | .signal signal => signal.orderType = .limit → ∀ price ∈ signal.limitPriceTicks,
      ∀ fill ∈ fills, Within signal.side price fill
  | event =>
      fills = (before.engine.restingFills event).map Prod.snd ∧
        ∀ entry ∈ before.engine.restingFills event, ∀ signal,
          (entry.1.orderId, signal) ∈ before.placed → signal.orderType = .limit →
            ∀ price ∈ signal.limitPriceTicks, Within signal.side price entry.2

/-- A limit order that crosses the book does not reach beyond its limit. -/
def StaysWithin (before : Traced F) (event : Event) (_ : List (Fill F)) (_ : Traced F) : Prop :=
  match event with
  | .signal signal => Submittable signal → signal.orderType = .limit →
      ∀ price ∈ signal.limitPriceTicks, before.engine.Crosses signal.side price →
        ¬ ReachesBeyond before.engine.maxPosition signal.side price before.engine.position
          signal.quantity (before.engine.ladder signal.side)
  | _ => True

instance (before : Traced F) (event : Event) (fills : List (Fill F)) (after : Traced F) :
    Decidable (StaysWithin before event fills after) :=
  match event with
  | .signal signal => inferInstanceAs (Decidable (Submittable signal →
      signal.orderType = .limit → ∀ price ∈ signal.limitPriceTicks,
        before.engine.Crosses signal.side price →
          ¬ ReachesBeyond before.engine.maxPosition signal.side price before.engine.position
            signal.quantity (before.engine.ladder signal.side)))
  | .quote _ => isTrue trivial
  | .trade _ => isTrue trivial

structure Noted (state : Traced F) : Prop where
  sane : Sane state.engine
  known : ∀ order ∈ state.engine.restingOrders, ∃ signal,
    (order.orderId, signal) ∈ state.placed ∧ order.side = signal.side ∧
      ∀ price ∈ signal.limitPriceTicks, order.priceTicks = price
  older : ∀ entry ∈ state.placed, entry.1 < state.engine.nextOrderId
  unique : ∀ orderId signal other, (orderId, signal) ∈ state.placed →
    (orderId, other) ∈ state.placed → signal = other

section Resting

variable {state : Traced F} {turn : Int → RestingOrder → Turn F}
  {engine : MicrostructureEngine F}

theorem round_protects (noted : Noted state)
    (same : engine.restingOrders = state.engine.restingOrders)
    (limit : |engine.position| ≤ engine.maxPosition)
    (turns : ∀ position order, TurnEffect engine position order (turn position order)) :
    ∀ entry ∈ (round turn engine.position engine.restingOrders).filled, ∀ signal,
      (entry.1.orderId, signal) ∈ state.placed →
        ∀ price ∈ signal.limitPriceTicks, Within signal.side price entry.2 := by
  intro entry member signal noted' price given
  rcases (round_effect turns engine.restingOrders limit).2.2 entry member with ⟨resting, within⟩
  rw [same] at resting
  rcases noted.known entry.1 resting with ⟨own, placed, side, limits⟩
  rw [noted.unique _ _ _ noted' placed] at given ⊢
  rw [side, limits price given] at within
  exact within

theorem round_known (noted : Noted state)
    (same : engine.restingOrders = state.engine.restingOrders)
    (limit : |engine.position| ≤ engine.maxPosition)
    (turns : ∀ position order, TurnEffect engine position order (turn position order)) :
    ∀ order ∈ (round turn engine.position engine.restingOrders).surviving, ∃ signal,
      (order.orderId, signal) ∈ state.placed ∧ order.side = signal.side ∧
        ∀ price ∈ signal.limitPriceTicks, order.priceTicks = price := by
  intro next member
  rcases (round_effect turns engine.restingOrders limit).2.1 next member with
    ⟨order, resting, kept⟩
  rw [same] at resting
  rw [kept.orderId, kept.side, kept.priceTicks]
  exact noted.known order resting

end Resting

section Steps

variable {before after : Traced F} {fills : List (Fill F)}

theorem quote_step {quote : Quote} (noted : Noted before)
    (stepped : traceStep before (.quote quote) = some (after, fills)) :
    Protects before (.quote quote) fills after ∧ Noted after := by
  have sane' : Sane (before.engine.onQuote quote).1 := step_sane noted.sane
    (show before.engine.step (.quote quote) = some (before.engine.onQuote quote) from rfl)
  simp only [traceStep, step, Option.map_some, Option.some.injEq, Prod.mk.injEq] at stepped
  rw [← stepped.1, ← stepped.2]
  by_cases quotable : Quotable quote
  · have turns := quoteTurn_effect (before.engine.quoted quote) quote
    have limit : |(before.engine.quoted quote).position| ≤
        (before.engine.quoted quote).maxPosition := noted.sane.limit
    have same : (before.engine.quoted quote).restingOrders = before.engine.restingOrders := rfl
    have protects := round_protects noted same limit turns
    have known := round_known noted same limit turns
    simp only [onQuote, if_pos quotable] at sane' ⊢
    constructor
    · simp only [Protects, restingFills, if_pos quotable, true_and]
      intro entry member signal placed _
      exact protects entry member signal placed
    · exact ⟨sane', known, noted.older, noted.unique⟩
  · simp only [onQuote, if_neg quotable] at sane' ⊢
    constructor
    · simp [Protects, restingFills, quotable]
    · exact ⟨sane', noted.known, noted.older, noted.unique⟩

theorem trade_step {trade : MarketTrade} (noted : Noted before)
    (stepped : traceStep before (.trade trade) = some (after, fills)) :
    Protects before (.trade trade) fills after ∧ Noted after := by
  have sane' : Sane (before.engine.onMarketTrade trade).1 := step_sane noted.sane
    (show before.engine.step (.trade trade) = some (before.engine.onMarketTrade trade) from rfl)
  simp only [traceStep, step, Option.map_some, Option.some.injEq, Prod.mk.injEq] at stepped
  rw [← stepped.1, ← stepped.2]
  have turns := tradeTurn_effect before.engine trade
  have known := round_known noted rfl noted.sane.limit turns
  constructor
  · apply And.intro rfl
    intro entry member signal placed _
    exact round_protects noted rfl noted.sane.limit turns entry member signal placed
  · exact ⟨sane', known, noted.older, noted.unique⟩

theorem ladder_cut {engine : MicrostructureEngine F} (sane : Sane engine) {signal : Signal}
    (submittable : Submittable signal) (price : Int) :
    (engine.ladder signal.side).Pairwise fun a b =>
      Acceptable signal.side price b → Acceptable signal.side price a := by
  rw [Submittable] at submittable
  have sided : signal.side = 1 ∨ signal.side = -1 := by omega
  rcases sided with buys | sells
  · have sorted := List.pairwise_map.mp sane.asks
    rw [ladder, if_pos (by omega)]
    apply sorted.imp
    intro a b ordered accepted
    rw [Acceptable, buys] at accepted ⊢
    omega
  · have sorted := List.pairwise_map.mp sane.bids
    rw [ladder, if_neg (by omega)]
    apply sorted.imp
    intro a b ordered accepted
    rw [Acceptable, sells] at accepted ⊢
    omega

theorem signal_protects_iff {signal : Signal} (sane : Sane before.engine)
    (stepped : traceStep before (.signal signal) = some (after, fills)) :
    Protects before (.signal signal) fills after ↔
      StaysWithin before (.signal signal) fills after := by
  simp only [traceStep, step, Option.map_some, Option.some.injEq, Prod.mk.injEq] at stepped
  rw [← stepped.2]
  simp only [Protects, StaysWithin]
  have quiet : ¬ before.engine.Aggressive signal → Submittable signal →
      signal.orderType = .limit → ∀ price ∈ signal.limitPriceTicks,
        ¬ before.engine.Crosses signal.side price := by
    intro passive submittable type price given crosses
    have limit : before.engine.limitPrice signal = price := by rw [limitPrice, given]
    exact passive ⟨submittable, .inr ⟨type, by rw [limit]; exact crosses⟩⟩
  rcases submitOrder_cases before.engine signal with
    ⟨time, ⟨passive, idle⟩ | ⟨sends, arrivalTime, latency, walks⟩ | ⟨passive, _, order, _, rests⟩⟩
  · rw [idle]
    apply iff_of_true (by simp)
    intro submittable type price given crosses
    exact absurd crosses (quiet passive submittable type price given)
  · rw [walks]
    have cut := ladder_cut sane sends.1
    have reaches : ∀ price,
        (∀ fill ∈ ({ before.engine with currentTimeNs := time }.executeAggressive signal
          arrivalTime latency).2, Within signal.side price fill) ↔
        ¬ ReachesBeyond before.engine.maxPosition signal.side price before.engine.position
          signal.quantity (before.engine.ladder signal.side) := by
      intro price
      exact walk_within_iff arrivalTime latency (cut price) sane.limit
    simp only [reaches, sends.1, true_implies]
    constructor
    · intro inside type price given _
      exact inside type price given
    · intro inside type price given
      have limit : before.engine.limitPrice signal = price := by rw [limitPrice, given]
      have crosses : before.engine.Crosses signal.side price := by
        rcases sends.2 with market | ⟨_, crosses⟩
        · exact absurd (type.symm.trans market) (by decide)
        · rw [← limit]
          exact crosses
      exact inside type price given crosses
  · rw [rests]
    apply iff_of_true (by simp)
    intro submittable type price given crosses
    exact absurd crosses (quiet passive submittable type price given)

theorem signal_noted {signal : Signal} (noted : Noted before)
    (stepped : traceStep before (.signal signal) = some (after, fills)) : Noted after := by
  have sane' := submitOrder_sane noted.sane signal
  simp only [traceStep, step, Option.map_some, Option.some.injEq, Prod.mk.injEq] at stepped
  rw [← stepped.1]
  rcases submitOrder_cases before.engine signal with
    ⟨time, ⟨_, idle⟩ | ⟨_, arrivalTime, latency, walks⟩ | ⟨_, _, order, placed, rests⟩⟩
  · rw [idle] at sane' ⊢
    simp only [if_true]
    exact ⟨sane', noted.known, noted.older, noted.unique⟩
  · rw [walks] at sane' ⊢
    simp only [executeAggressive, if_true] at sane' ⊢
    exact ⟨sane', noted.known, noted.older, noted.unique⟩
  · have unused : before.engine.nextOrderId + 1 ≠ before.engine.nextOrderId := by omega
    have fresh : ∀ other, (before.engine.nextOrderId, other) ∉ before.placed := by
      intro other member
      exact absurd (noted.older _ member) (lt_irrefl _)
    rw [rests] at sane' ⊢
    simp only [if_neg unused]
    constructor
    · exact sane'
    · intro resting member
      rcases List.mem_append.mp member with old | new
      · rcases noted.known resting old with ⟨own, known, side, limits⟩
        exact ⟨own, List.mem_append_left _ known, side, limits⟩
      · rw [List.mem_singleton.mp new]
        apply Exists.intro signal
        rw [placed.orderId, placed.priceTicks]
        apply And.intro (List.mem_append_right _ (List.mem_singleton_self _))
        apply And.intro placed.side
        intro price given
        rw [limitPrice, given]
    · intro entry member
      rcases List.mem_append.mp member with old | new
      · exact (noted.older entry old).trans (by simp)
      · rw [List.mem_singleton.mp new]
        simp
    · intro orderId own other member member'
      simp only [List.mem_append, List.mem_singleton, Prod.mk.injEq] at member member'
      rcases member with old | ⟨rfl, rfl⟩
      · rcases member' with old' | ⟨same, rfl⟩
        · exact noted.unique orderId own other old old'
        · rw [same] at old
          exact absurd old (fresh own)
      · rcases member' with old' | ⟨_, rfl⟩
        · exact absurd old' (fresh other)
        · rfl

theorem step_protects_iff {event : Event} (noted : Noted before)
    (stepped : traceStep before event = some (after, fills)) :
    (Protects before event fills after ↔ StaysWithin before event fills after) ∧ Noted after := by
  cases event with
  | quote quote =>
      rcases quote_step noted stepped with ⟨protects, noted'⟩
      exact ⟨iff_of_true protects trivial, noted'⟩
  | trade trade =>
      rcases trade_step noted stepped with ⟨protects, noted'⟩
      exact ⟨iff_of_true protects trivial, noted'⟩
  | signal signal =>
      exact ⟨signal_protects_iff noted.sane stepped, signal_noted noted stepped⟩

end Steps

/-- In every run of a new engine every fill for a limit order is at its limit price or
better, exactly when no limit order that crosses the book reaches beyond its limit. -/
theorem limit_protected_iff {maxPosition : Int} {config : Option (MicrostructureConfig F)}
    {engine : MicrostructureEngine F} (created : create maxPosition config = .ok engine)
    (events : List Event) :
    Machine.Along traceStep Protects ⟨engine, []⟩ events ↔
      Machine.Along traceStep StaysWithin ⟨engine, []⟩ events := by
  have empty : engine.restingOrders = [] := by
    rw [create] at created
    split at created
    · simp at created
    · rw [← Except.ok.inj created]
  have noted : Noted (F := F) ⟨engine, []⟩ :=
    ⟨create_sane created, by simp [empty], by simp, by simp⟩
  apply Machine.along_iff Noted (A := fun _ => True) _ noted (fun _ _ => trivial)
  intro before event fills after holds _ stepped
  rcases step_protects_iff holds stepped with ⟨same, noted'⟩
  exact ⟨same, fun _ => noted'⟩

def twoLevels : Quote :=
  { timestampNs := 1000, bidTicks := 99, askTicks := 101,
    bids := some [(99, 100)], asks := some [(101, 50), (102, 50)] }

theorem limit_protected_small :
    ∃ engine : MicrostructureEngine Rat, create 500 none = .ok engine ∧
      Machine.Along traceStep Protects ⟨engine, []⟩
        [.quote twoLevels,
          .signal { timestampNs := 1500, side := 1, quantity := 30, orderType := .limit,
                    limitPriceTicks := some 101 },
          .signal { timestampNs := 1600, side := 1, quantity := 20, orderType := .limit,
                    limitPriceTicks := some 100 },
          .trade ⟨5000, 100, 10, -1⟩] := by
  have created : create 500 (none : Option (MicrostructureConfig Rat)) = .ok _ := rfl
  apply Exists.intro _
  apply And.intro created
  apply (limit_protected_iff created _).mpr
  decide +kernel

/-- A limit order for more walks on to the next level, above its limit. -/
theorem limit_order_filled_above_limit :
    ∃ engine : MicrostructureEngine Rat, create 500 none = .ok engine ∧
      ¬ Machine.Along traceStep Protects ⟨engine, []⟩
        [.quote twoLevels,
          .signal { timestampNs := 1500, side := 1, quantity := 80, orderType := .limit,
                    limitPriceTicks := some 101 }] := by
  have created : create 500 (none : Option (MicrostructureConfig Rat)) = .ok _ := rfl
  apply Exists.intro _
  apply And.intro created
  intro protects
  have within := ((protects _ _ rfl).2 _ _ rfl).1 rfl 101 rfl
  exact absurd within (by decide +kernel)

end Ito.Backtest.MicrostructureEngine
