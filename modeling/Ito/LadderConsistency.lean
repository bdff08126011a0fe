import Ito.OrderBookTracker

/-! When the ladders of the order book agree with its live orders.

A ladder and an order lose the same shares only while a message takes no more than its order
still has. The ladder is cut at zero for the whole level, the order for itself, so a larger
count also takes shares of the other orders at that price. -/

namespace Ito.OrderBookTracker

open ItchHandler SortedMap

def levelOf (order : ItchAddOrder) : Bool × Int := (isBid order, order.priceTicks)

def liveAt (tracker : Tracker) (bid : Bool) (price : Int) : List ItchAddOrder :=
  tracker.orders.group levelOf (bid, price)

def livePrices (tracker : Tracker) (bid : Bool) : Set Int :=
  {price | ∃ order ∈ tracker.orders.entries.map Prod.snd, levelOf order = (bid, price)}

structure Consistent (tracker : Tracker) : Prop where
  level : ∀ bid price, (tracker.ladder bid).find? price =
    if liveAt tracker bid price = [] then none
    else some ((liveAt tracker bid price).map ItchAddOrder.shares).sum
  noBid : livePrices tracker true = ∅ → bestBid tracker = 0
  someBid : (livePrices tracker true).Nonempty →
    IsGreatest (livePrices tracker true) (bestBid tracker)
  noAsk : livePrices tracker false = ∅ → bestAsk tracker = 0
  someAsk : (livePrices tracker false).Nonempty →
    IsLeast (livePrices tracker false) (bestAsk tracker)

/-- New orders have references that are not live and positive shares. -/
def FreshAdd (tracker : Tracker) : Option ItchMessage → Prop
  | some (.addOrder msg) => tracker.orders.find? msg.orderRef = none ∧ 0 < msg.shares
  | _ => True

/-- No other live order shares the level of `order`. -/
def Alone (tracker : Tracker) (orderRef : Int) (order : ItchAddOrder) : Prop :=
  ∀ other ∈ tracker.orders.entries, levelOf other.2 = levelOf order → other.1 = orderRef

/-- The order named has the shares that are taken off, or is alone on its level. -/
def Covers (tracker : Tracker) (orderRef shares : Int) : Prop :=
  ∀ order, tracker.orders.find? orderRef = some order →
    shares ≤ order.shares ∨ Alone tracker orderRef order

def Covered (tracker : Tracker) : Option ItchMessage → Prop
  | some (.orderExecuted msg) => Covers tracker msg.orderRef msg.executedShares
  | some (.orderCancel msg) => Covers tracker msg.orderRef msg.canceledShares
  | _ => True

instance decidableFreshAdd (tracker : Tracker) :
    (msg : Option ItchMessage) → Decidable (FreshAdd tracker msg)
  | none => isTrue trivial
  | some (.addOrder msg) =>
      inferInstanceAs (Decidable (tracker.orders.find? msg.orderRef = none ∧ 0 < msg.shares))
  | some (.orderExecuted _) => isTrue trivial
  | some (.orderCancel _) => isTrue trivial
  | some (.orderDelete _) => isTrue trivial

instance decidableCovers (tracker : Tracker) (orderRef shares : Int) :
    Decidable (Covers tracker orderRef shares) :=
  inferInstanceAs (Decidable (∀ order ∈ tracker.orders.find? orderRef, shares ≤ order.shares ∨
    ∀ other ∈ tracker.orders.entries, levelOf other.2 = levelOf order → other.1 = orderRef))

instance decidableCovered (tracker : Tracker) :
    (msg : Option ItchMessage) → Decidable (Covered tracker msg)
  | none => isTrue trivial
  | some (.addOrder _) => isTrue trivial
  | some (.orderExecuted msg) => decidableCovers tracker msg.orderRef msg.executedShares
  | some (.orderCancel msg) => decidableCovers tracker msg.orderRef msg.canceledShares
  | some (.orderDelete _) => isTrue trivial

abbrev volume (orders : Dict ItchAddOrder) (name : Bool × Int) : Int :=
  orders.total levelOf ItchAddOrder.shares name

def Agree (tracker : Tracker) : Prop :=
  ∀ bid price, (tracker.ladder bid).find? price = nonzero (volume tracker.orders (bid, price))

def Positive (tracker : Tracker) : Prop :=
  ∀ entry ∈ tracker.orders.entries, 0 < entry.2.shares

@[simp] theorem orders_withLadder (tracker : Tracker) (bid : Bool) (ladder : Dict Int) :
    (tracker.withLadder bid ladder).orders = tracker.orders := by
  cases bid <;> rfl

theorem ladder_withLadder (tracker : Tracker) (bid other : Bool) (ladder : Dict Int) :
    (tracker.withLadder bid ladder).ladder other =
      if other = bid then ladder else tracker.ladder other := by
  cases bid <;> cases other <;> rfl

@[simp] theorem ladder_withOrders (tracker : Tracker) (orders : Dict ItchAddOrder) (bid : Bool) :
    ({ tracker with orders := orders } : Tracker).ladder bid = tracker.ladder bid := rfl

theorem takeOff_find? (ladder : Dict Int) (price shares other : Int) :
    (takeOff ladder price shares).find? other =
      if other = price then nonzero (max 0 (quantity ladder price - shares))
      else ladder.find? other := by
  simp only [takeOff, nonzero, find?_set_self, Option.some.injEq]
  by_cases same : other = price <;> split <;> simp [same, find?_erase, find?_set]

theorem processDelete_eq {tracker : Tracker} {msg : ItchOrderDelete} {order : ItchAddOrder}
    (found : tracker.orders.find? msg.orderRef = some order) :
    processDelete tracker msg = reduce tracker msg.orderRef order.shares := by
  have cut : ∀ level : Int, ((some level).getD 0 = 0 ∧ (some level).isSome = true) ↔
      some level = some 0 := by simp
  unfold processDelete reduce
  simp only [found, sub_self, le_refl, if_true, ladder_withOrders, takeOff, quantity,
    find?_set_self, cut]
  cases isBid order <;> rfl

section Reduce

variable {tracker : Tracker} {orderRef : Int} {order : ItchAddOrder}

theorem reduce_absent (absent : tracker.orders.find? orderRef = none) (shares : Int) :
    reduce tracker orderRef shares = tracker := by
  unfold reduce
  rw [absent]

theorem reduce_orders (found : tracker.orders.find? orderRef = some order) (shares : Int) :
    (reduce tracker orderRef shares).orders =
      if order.shares ≤ shares then tracker.orders.erase orderRef
      else tracker.orders.set orderRef { order with shares := order.shares - shares } := by
  unfold reduce
  simp only [found, sub_nonpos]
  split <;> simp

theorem reduce_ladder (found : tracker.orders.find? orderRef = some order) (shares : Int)
    (bid : Bool) (price : Int) :
    ((reduce tracker orderRef shares).ladder bid).find? price =
      if levelOf order = (bid, price) then
        nonzero (max 0 (quantity (tracker.ladder bid) price - shares))
      else (tracker.ladder bid).find? price := by
  have ladders : ((reduce tracker orderRef shares).ladder bid) =
      if bid = isBid order then
        takeOff (tracker.ladder (isBid order)) order.priceTicks shares
      else tracker.ladder bid := by
    unfold reduce
    simp only [found]
    split <;> rw [ladder_withOrders, ladder_withLadder]
  rw [ladders]
  by_cases side : bid = isBid order
  · subst side
    rw [if_pos rfl, takeOff_find?]
    by_cases same : price = order.priceTicks
    · simp [levelOf, same]
    · simp [levelOf, same, Ne.symm same]
  · simp [levelOf, side, Ne.symm side]

/-- What the other orders on the level of `order` have. -/
abbrev others (tracker : Tracker) (orderRef : Int) (order : ItchAddOrder) : Int :=
  volume (tracker.orders.erase orderRef) (levelOf order)

theorem reduce_volume (found : tracker.orders.find? orderRef = some order) (shares : Int)
    (name : Bool × Int) :
    volume (reduce tracker orderRef shares).orders name =
      volume tracker.orders name - (if levelOf order = name then min shares order.shares else 0) := by
  have before := tracker.orders.total_erase levelOf ItchAddOrder.shares found name
  rw [reduce_orders found]
  split
  · simp only [share] at before
    split at before <;> simp_all
  · have after := tracker.orders.total_set levelOf ItchAddOrder.shares orderRef
      { order with shares := order.shares - shares } name
    have same : levelOf { order with shares := order.shares - shares } = levelOf order := rfl
    simp only [share, same] at before after
    split at before <;> simp_all
    omega

theorem others_nonneg (positive : Positive tracker) (orderRef : Int) (order : ItchAddOrder) :
    0 ≤ others tracker orderRef order := by
  apply total_nonneg
  intro entry member
  exact positive entry (tracker.orders.mem_erase.mp member).2

theorem others_eq_zero_iff (positive : Positive tracker) (orderRef : Int) (order : ItchAddOrder) :
    others tracker orderRef order = 0 ↔ Alone tracker orderRef order := by
  rw [total_eq_zero_iff]
  · simp only [group, List.filter_eq_nil_iff, List.mem_map, Prod.exists, exists_eq_right,
      mem_erase, decide_eq_true_eq, forall_exists_index, and_imp, Alone, Prod.forall]
    constructor
    · intro none ref other member same
      by_contra differ
      exact none other ref differ member same
    · intro alone other ref differ member same
      exact differ (alone ref other member same)
  · intro entry member
    exact positive entry (tracker.orders.mem_erase.mp member).2

theorem reduce_positive (positive : Positive tracker) (orderRef shares : Int) :
    Positive (reduce tracker orderRef shares) := by
  cases found : tracker.orders.find? orderRef with
  | none =>
      rw [reduce_absent found]
      exact positive
  | some order =>
      intro entry member
      rw [reduce_orders found] at member
      split at member
      · exact positive entry (tracker.orders.mem_erase.mp member).2
      · next more =>
        rcases (tracker.orders.mem_set).mp member with ⟨_, same⟩ | ⟨_, old⟩
        · rw [same]
          simp only
          omega
        · exact positive entry old

theorem reduce_agree_iff (agree : Agree tracker) (positive : Positive tracker)
    (orderRef shares : Int) :
    Agree (reduce tracker orderRef shares) ↔ Covers tracker orderRef shares := by
  cases found : tracker.orders.find? orderRef with
  | none =>
      rw [reduce_absent found]
      simp [agree, Covers, found]
  | some order =>
      have split : volume tracker.orders (levelOf order) =
          others tracker orderRef order + share levelOf ItchAddOrder.shares order (levelOf order) :=
        tracker.orders.total_erase levelOf ItchAddOrder.shares found (levelOf order)
      have room := others_nonneg positive orderRef order
      have alone := others_eq_zero_iff positive orderRef order
      rw [share, if_pos rfl] at split
      have cuts : Agree (reduce tracker orderRef shares) ↔
          max 0 (volume tracker.orders (levelOf order) - shares) =
            volume tracker.orders (levelOf order) - min shares order.shares := by
        constructor
        · intro after
          have level := after (isBid order) order.priceTicks
          rw [reduce_ladder found, reduce_volume found, levelOf, if_pos rfl, if_pos rfl,
            nonzero_inj, quantity, agree, getD_nonzero] at level
          exact level
        · intro same bid price
          rw [reduce_ladder found, reduce_volume found]
          by_cases here : levelOf order = (bid, price)
          · rw [if_pos here, if_pos here, quantity, agree, getD_nonzero, ← here, same]
          · rw [if_neg here, if_neg here, sub_zero, agree]
      rw [cuts, Covers]
      simp only [found, Option.some.injEq, forall_eq']
      rw [← alone]
      omega

end Reduce

theorem processAdd_agree {tracker : Tracker} {msg : ItchAddOrder} (agree : Agree tracker)
    (positive : Positive tracker) (absent : tracker.orders.find? msg.orderRef = none)
    (some_shares : 0 < msg.shares) :
    Agree (processAdd tracker msg) ∧ Positive (processAdd tracker msg) := by
  unfold processAdd
  split
  case isFalse => exact ⟨agree, positive⟩
  case isTrue =>
    constructor
    · intro bid price
      have grown : volume (tracker.orders.set msg.orderRef msg) (bid, price) =
          volume tracker.orders (bid, price) + share levelOf ItchAddOrder.shares msg (bid, price) := by
        rw [volume, total_set, total_erase_absent _ _ _ absent]
      simp only [ladder_withOrders, ladder_withLadder, orders_withLadder]
      rw [grown, share]
      by_cases side : bid = isBid msg
      · subst side
        rw [if_pos rfl, find?_set, quantity, agree, getD_nonzero]
        by_cases same : price = msg.priceTicks
        · subst same
          have more : 0 ≤ volume tracker.orders (isBid msg, msg.priceTicks) :=
            total_nonneg _ _ _ positive _
          rw [if_pos rfl, levelOf, if_pos rfl, nonzero, if_neg (by omega)]
        · rw [if_neg same, levelOf, if_neg (by simp [Ne.symm same]), add_zero, agree]
      · rw [if_neg side, levelOf, if_neg (by simp [Ne.symm side]), add_zero, agree]
    · intro entry member
      rw [orders_withLadder] at member
      rcases (tracker.orders.mem_set).mp member with ⟨_, same⟩ | ⟨_, old⟩
      · rw [same]
        exact some_shares
      · exact positive entry old

section Best

variable {keys : List Int} {prices : Set Int}

theorem max_of_none (same : ∀ price, price ∈ keys ↔ price ∈ prices) (none : prices = ∅) :
    keys.max?.getD 0 = 0 := by
  have empty : keys = [] := List.eq_nil_iff_forall_not_mem.mpr fun price => by simp [same, none]
  rw [empty]
  rfl

theorem max_of_some (same : ∀ price, price ∈ keys ↔ price ∈ prices) (some : prices.Nonempty) :
    IsGreatest prices (keys.max?.getD 0) := by
  cases found : keys.max? with
  | none =>
      obtain ⟨price, live⟩ := some
      rw [List.max?_eq_none_iff.mp found] at same
      simp [← same] at live
  | some best =>
      obtain ⟨member, bound⟩ := List.max?_eq_some_iff.mp found
      exact ⟨(same best).mp member, fun price live => bound price ((same price).mpr live)⟩

theorem min_of_none (same : ∀ price, price ∈ keys ↔ price ∈ prices) (none : prices = ∅) :
    keys.min?.getD 0 = 0 := by
  have empty : keys = [] := List.eq_nil_iff_forall_not_mem.mpr fun price => by simp [same, none]
  rw [empty]
  rfl

theorem min_of_some (same : ∀ price, price ∈ keys ↔ price ∈ prices) (some : prices.Nonempty) :
    IsLeast prices (keys.min?.getD 0) := by
  cases found : keys.min? with
  | none =>
      obtain ⟨price, live⟩ := some
      rw [List.min?_eq_none_iff.mp found] at same
      simp [← same] at live
  | some best =>
      obtain ⟨member, bound⟩ := List.min?_eq_some_iff.mp found
      exact ⟨(same best).mp member, fun price live => bound price ((same price).mpr live)⟩

end Best

section Consistent

variable {tracker : Tracker}

theorem level_eq (positive : Positive tracker) (bid : Bool) (price : Int) :
    (if liveAt tracker bid price = [] then none
      else some ((liveAt tracker bid price).map ItchAddOrder.shares).sum) =
      nonzero (volume tracker.orders (bid, price)) := by
  have empty := total_eq_zero_iff tracker.orders levelOf ItchAddOrder.shares positive (bid, price)
  rw [nonzero]
  exact if_congr empty.symm rfl rfl

theorem mem_ladder_iff (agree : Agree tracker) (positive : Positive tracker) (bid : Bool)
    (price : Int) :
    price ∈ (tracker.ladder bid).entries.map Prod.fst ↔ price ∈ livePrices tracker bid := by
  have present : price ∈ (tracker.ladder bid).entries.map Prod.fst ↔
      (tracker.ladder bid).find? price ≠ none := by
    rw [List.mem_map, Option.ne_none_iff_exists']
    simp [find?_eq_some]
  have empty := total_eq_zero_iff tracker.orders levelOf ItchAddOrder.shares positive (bid, price)
  rw [present, agree, nonzero, ne_eq, ite_eq_left_iff, Classical.not_imp]
  simp only [reduceCtorEq, not_false_eq_true, and_true]
  rw [volume, empty, group, List.filter_eq_nil_iff]
  simp [livePrices]

theorem consistent_iff (positive : Positive tracker) : Consistent tracker ↔ Agree tracker := by
  constructor
  · intro consistent bid price
    rw [consistent.level, level_eq positive]
  · intro agree
    have bids := mem_ladder_iff agree positive true
    have asks := mem_ladder_iff agree positive false
    refine ⟨?_, max_of_none bids, max_of_some bids, min_of_none asks, min_of_some asks⟩
    intro bid price
    rw [agree, level_eq positive]

/-- A level is listed with the shares of its live orders, and every live level is listed. -/
theorem mem_depthLadders (agree : Agree tracker) (level : Int × Int) :
    (level ∈ (depthLadders tracker).1 ↔
      nonzero (volume tracker.orders (true, level.1)) = some level.2) ∧
    (level ∈ (depthLadders tracker).2 ↔
      nonzero (volume tracker.orders (false, level.1)) = some level.2) := by
  rw [← agree, ← agree, find?_eq_some, find?_eq_some, depthLadders, List.mem_reverse]
  exact ⟨Iff.rfl, Iff.rfl⟩

end Consistent

theorem process_agree_iff {tracker : Tracker} {msg : Option ItchMessage} (agree : Agree tracker)
    (positive : Positive tracker) (fresh : FreshAdd tracker msg) :
    (Agree (process tracker msg) ↔ Covered tracker msg) ∧ Positive (process tracker msg) := by
  cases msg with
  | none => exact ⟨iff_of_true agree trivial, positive⟩
  | some msg =>
      cases msg with
      | addOrder msg =>
          obtain ⟨kept, still⟩ := processAdd_agree agree positive fresh.1 fresh.2
          exact ⟨iff_of_true kept trivial, still⟩
      | orderExecuted msg =>
          exact ⟨reduce_agree_iff agree positive _ _, reduce_positive positive _ _⟩
      | orderCancel msg =>
          exact ⟨reduce_agree_iff agree positive _ _, reduce_positive positive _ _⟩
      | orderDelete msg =>
          rw [process]
          cases found : tracker.orders.find? msg.orderRef with
          | none =>
              have same : processDelete tracker msg = tracker := by
                unfold processDelete
                rw [found]
              rw [same]
              exact ⟨iff_of_true agree trivial, positive⟩
          | some order =>
              have covers : Covers tracker msg.orderRef order.shares := by
                intro other again
                rw [found, Option.some.injEq] at again
                rw [again]
                exact Or.inl le_rfl
              rw [processDelete_eq found]
              refine ⟨iff_of_true ?_ trivial, reduce_positive positive _ _⟩
              exact (reduce_agree_iff agree positive _ _).mpr covers

theorem create_agree (targetStock : List Char) : Agree (create targetStock) := by
  intro bid price
  cases bid <;> rfl

/-- The order book is consistent after every message exactly when no executed or cancelled
count exceeds its own order while other orders share the level. -/
theorem consistent_along_iff (targetStock : List Char) (msgs : List (Option ItchMessage))
    (fresh : Machine.Along step (fun tracker msg _ _ => FreshAdd tracker msg)
      (create targetStock) msgs) :
    Machine.Along step (fun _ _ _ after => Consistent after) (create targetStock) msgs ↔
      Machine.Along step (fun tracker msg _ _ => Covered tracker msg) (create targetStock) msgs := by
  apply Machine.along_iff_along (fun tracker => Agree tracker ∧ Positive tracker) _ _ fresh
  · intro tracker msg _ after invariant allowed stepped
    obtain ⟨agree, positive⟩ := invariant
    simp only [step, Option.some.injEq, Prod.mk.injEq] at stepped
    obtain ⟨same, still⟩ := process_agree_iff agree positive allowed
    rw [stepped.1] at same still
    rw [consistent_iff still]
    exact ⟨same, fun covered => ⟨same.mpr covered, still⟩⟩
  · refine ⟨create_agree targetStock, ?_⟩
    intro entry member
    cases member

def bidFor (orderRef shares price : Int) : Option ItchMessage :=
  some (.addOrder ⟨1, 0, orderRef, ['B'], shares, ['S', 'P', 'Y'], price⟩)

def askFor (orderRef shares price : Int) : Option ItchMessage :=
  some (.addOrder ⟨1, 0, orderRef, ['S'], shares, ['S', 'P', 'Y'], price⟩)

def plainFeed : List (Option ItchMessage) :=
  [bidFor 101 100 15000, askFor 102 200 15050, some (.orderExecuted ⟨1, 0, 101, 40, 999⟩),
    some (.orderCancel ⟨1, 0, 102, 50⟩), some (.orderDelete ⟨1, 0, 101⟩), none]

theorem plain_feed_consistent :
    Machine.Along step (fun _ _ _ after => Consistent after) (create ['S', 'P', 'Y']) plainFeed :=
  (consistent_along_iff ['S', 'P', 'Y'] plainFeed (by decide)).mpr (by decide)

def excessFeed : List (Option ItchMessage) :=
  [bidFor 1 100 15000, bidFor 2 50 15000, some (.orderExecuted ⟨1, 0, 1, 120, 7⟩)]

/-- The level is left with 30 shares, the order that is still live has 50. -/
theorem excess_execution_drifts :
    Machine.Along step (fun tracker msg _ _ => FreshAdd tracker msg) (create ['S', 'P', 'Y'])
      excessFeed ∧
    ¬ Machine.Along step (fun _ _ _ after => Consistent after) (create ['S', 'P', 'Y'])
      excessFeed := by
  refine ⟨by decide, ?_⟩
  intro along
  have third := (((along _ _ rfl).2 _ _ rfl).2 _ _ rfl).1.level true 15000
  exact absurd third (by decide)

end Ito.OrderBookTracker
