import Ito.EngineQueue
import Ito.TradedVolume

/-! The books of the backtest engine: its position against the fills it has recorded, and what
an order that rests has been given against what it rested with. -/

namespace Ito.Backtest.MicrostructureEngine

variable {F : Type} [PythonFloat F]

def holding (fills : List (Fill F)) : Int :=
  (fills.map fun fill => signed fill.side fill.quantity).sum

@[simp] theorem holding_nil : holding ([] : List (Fill F)) = 0 := rfl

@[simp] theorem holding_cons (fill : Fill F) (fills : List (Fill F)) :
    holding (fill :: fills) = signed fill.side fill.quantity + holding fills := rfl

theorem holding_append (front back : List (Fill F)) :
    holding (front ++ back) = holding front + holding back := by
  rw [holding, List.map_append, List.sum_append]
  rfl

def taken (turn : Turn F) : Int := (turn.fill.map Fill.quantity).getD 0

structure TurnLedger (position : Int) (order : RestingOrder) (turn : Turn F) : Prop where
  moves : turn.position = position + holding turn.fill.toList
  positive : 0 < order.remainingQuantity → ∀ fill ∈ turn.fill, 0 < fill.quantity
  left : ∀ next ∈ turn.surviving, next.remainingQuantity = order.remainingQuantity - taken turn
  most : 0 < order.remainingQuantity → taken turn ≤ order.remainingQuantity

theorem TurnLedger.unfilled {position : Int} {order : RestingOrder}
    {surviving : Option RestingOrder}
    (left : ∀ next ∈ surviving, next.remainingQuantity = order.remainingQuantity) :
    TurnLedger position order (⟨position, surviving, none⟩ : Turn F) := by
  refine ⟨(Int.add_zero _).symm, fun _ fill member => by simp at member, ?_, fun waits => waits.le⟩
  intro next member
  rw [left next member]
  exact (Int.sub_zero _).symm

section Turns

variable {engine : MicrostructureEngine F} {position : Int} {order : RestingOrder}

theorem tradeTurn_ledger (trade : MarketTrade) :
    TurnLedger position order (engine.tradeTurn trade position order) := by
  have survives : ∀ moved : RestingOrder, ∀ next ∈
      (if moved.remainingQuantity > 0 then some moved else none), next = moved := by
    intro moved next member
    split at member
    · exact (Option.some.inj member).symm
    · simp at member
  have keeps : ∀ moved : RestingOrder, moved.remainingQuantity = order.remainingQuantity →
      ∀ next ∈ (if moved.remainingQuantity > 0 then some moved else none),
        next.remainingQuantity = order.remainingQuantity := by
    intro moved same next member
    rw [survives moved next member]
    exact same
  rw [tradeTurn]
  split
  · apply TurnLedger.unfilled
    intro next member
    rw [Option.some.inj member]
  · simp only [matchTrade]
    split
    · split
      · split
        · rename_i admits
          have most : engine.tradeFill trade order ≤ order.remainingQuantity := min_le_left _ _
          constructor
          · simp
          · intro _ fill member
            rw [← Option.some.inj member]
            exact admits.2
          · intro next member
            rw [survives _ next member]
            rfl
          · exact fun _ => most
        · exact TurnLedger.unfilled (keeps order rfl)
      · exact TurnLedger.unfilled (keeps _ rfl)
    · exact TurnLedger.unfilled (keeps order rfl)

theorem quoteTurn_ledger (quote : Quote) :
    TurnLedger position order (engine.quoteTurn quote position order) := by
  have kept : TurnLedger position order (⟨position, some order, none⟩ : Turn F) := by
    apply TurnLedger.unfilled
    intro next member
    rw [Option.some.inj member]
  rw [quoteTurn]
  split
  · exact kept
  · split
    · exact kept
    · dsimp only
      split
      · constructor
        · simp
        · intro waits fill member
          rw [← Option.some.inj member]
          exact waits
        · intro next member
          simp at member
        · exact fun _ => le_rfl
      · exact kept

end Turns

section Rounds

variable {turn : Int → RestingOrder → Turn F}

theorem round_moves (turns : ∀ position order, TurnLedger position order (turn position order))
    (position : Int) (orders : List RestingOrder) :
    (round turn position orders).position =
      position + holding ((round turn position orders).filled.map Prod.snd) := by
  induction orders generalizing position with
  | nil => exact (Int.add_zero _).symm
  | cons order orders ih =>
      have fills : ((round turn position (order :: orders)).filled.map Prod.snd) =
          (turn position order).fill.toList ++
            (round turn (turn position order).position orders).filled.map Prod.snd := by
        rw [round, List.map_append]
        cases (turn position order).fill <;> rfl
      calc
        _ = (turn position order).position + holding ((round turn (turn position order).position
              orders).filled.map Prod.snd) := ih _
        _ = position + (holding (turn position order).fill.toList + holding ((round turn
              (turn position order).position orders).filled.map Prod.snd)) := by
            rw [(turns position order).moves, Int.add_assoc]
        _ = _ := by rw [fills, holding_append]

theorem round_positive (turns : ∀ position order, TurnLedger position order (turn position order))
    (position : Int) {orders : List RestingOrder}
    (waits : ∀ order ∈ orders, 0 < order.remainingQuantity) :
    ∀ entry ∈ (round turn position orders).filled, 0 < entry.2.quantity := by
  induction orders generalizing position with
  | nil => simp [round]
  | cons order orders ih =>
      rcases List.forall_mem_cons.mp waits with ⟨here, later⟩
      intro entry member
      rcases List.mem_append.mp member with now | rest
      · rcases Option.map_eq_some_iff.mp (Option.mem_toList.mp now) with ⟨fill, made, rfl⟩
        exact (turns position order).positive here fill made
      · exact ih _ later entry rest

end Rounds

theorem walk_ledger (engine : MicrostructureEngine F) (signal : Signal)
    (arrivalTime latency : Int) (ladder : List BookLevel) (position remaining : Int) :
    (engine.walk signal arrivalTime latency position remaining ladder).1 = position +
        holding (engine.walk signal arrivalTime latency position remaining ladder).2.2 ∧
      ∀ fill ∈ (engine.walk signal arrivalTime latency position remaining ladder).2.2,
        0 < fill.quantity := by
  induction ladder generalizing position remaining with
  | nil => exact ⟨(Int.add_zero _).symm, by simp [walk]⟩
  | cons level ladder ih =>
      rw [walk]
      split
      · exact ⟨(Int.add_zero _).symm, by simp⟩
      · rename_i more
        split
        · exact ih position remaining
        · rename_i stocked
          dsimp only
          split
          · exact ⟨(Int.add_zero _).symm, by simp⟩
          · rcases ih (position + signed signal.side (min remaining level.size))
              (remaining - min remaining level.size) with ⟨moves, positive⟩
            constructor
            · rw [moves, holding_cons, Int.add_assoc]
            · intro fill member
              rcases List.mem_cons.mp member with rfl | later
              · change 0 < min remaining level.size
                omega
              · exact positive fill later

/-! The books of a run -/

structure Ledger (engine : MicrostructureEngine F) : Prop where
  position : engine.position = holding engine.fills
  positive : ∀ fill ∈ engine.fills, 0 < fill.quantity

theorem create_ledger {maxPosition : Int} {config : Option (MicrostructureConfig F)}
    {engine : MicrostructureEngine F} (created : create maxPosition config = .ok engine) :
    Ledger engine := by
  rw [create] at created
  split at created
  · simp at created
  · rw [← Except.ok.inj created]
    exact ⟨rfl, by simp⟩

/-- New fills are booked where they move the position and are not empty. -/
theorem Ledger.booked {engine next : MicrostructureEngine F} {fills : List (Fill F)}
    (ledger : Ledger engine) (moves : next.position = engine.position + holding fills)
    (recorded : next.fills = engine.fills ++ fills) (positive : ∀ fill ∈ fills, 0 < fill.quantity) :
    Ledger next := by
  constructor
  · rw [moves, recorded, holding_append, ledger.position]
  · rw [recorded]
    intro fill member
    rcases List.mem_append.mp member with old | new
    · exact ledger.positive fill old
    · exact positive fill new

theorem settle_ledger {engine : MicrostructureEngine F} {turn : Int → RestingOrder → Turn F}
    (turns : ∀ position order, TurnLedger position order (turn position order))
    (waits : ∀ order ∈ engine.restingOrders, 0 < order.remainingQuantity) (ledger : Ledger engine) :
    Ledger (engine.settle (round turn engine.position engine.restingOrders)) := by
  apply ledger.booked (round_moves turns _ _) rfl
  intro fill member
  rcases List.mem_map.mp member with ⟨entry, inside, rfl⟩
  exact round_positive turns _ waits entry inside

theorem step_ledger {engine next : MicrostructureEngine F} {event : Event} {fills : List (Fill F)}
    (sane : Sane engine) (ledger : Ledger engine)
    (stepped : engine.step event = some (next, fills)) : Ledger next := by
  cases event with
  | quote quote =>
      simp only [step, Option.some.injEq] at stepped
      rw [onQuote] at stepped
      split at stepped
      · rw [← (Prod.mk.inj stepped).1]
        exact settle_ledger (fun _ _ => quoteTurn_ledger quote) sane.remaining
          ⟨ledger.position, ledger.positive⟩
      · rw [← (Prod.mk.inj stepped).1]
        exact ledger
  | trade trade =>
      simp only [step, Option.some.injEq] at stepped
      rw [← (Prod.mk.inj stepped).1]
      have settled := settle_ledger (fun _ _ => engine.tradeTurn_ledger trade) sane.remaining ledger
      exact ⟨settled.position, settled.positive⟩
  | signal signal =>
      simp only [step, Option.some.injEq] at stepped
      rcases submitOrder_cases engine signal with
        ⟨time, ⟨_, idle⟩ | ⟨_, arrivalTime, latency, walks⟩ | ⟨_, _, order, _, rests⟩⟩
      · rw [idle] at stepped
        rw [← (Prod.mk.inj stepped).1]
        exact ⟨ledger.position, ledger.positive⟩
      · rw [walks] at stepped
        rw [← (Prod.mk.inj stepped).1]
        have walked := walk_ledger { engine with currentTimeNs := time } signal arrivalTime latency
          (engine.ladder signal.side) engine.position signal.quantity
        exact ledger.booked walked.1 rfl walked.2
      · rw [rests] at stepped
        rw [← (Prod.mk.inj stepped).1]
        exact ⟨ledger.position, ledger.positive⟩

/-! What an order is given -/

def filledBy (engine : MicrostructureEngine F) : Event → List (RestingOrder × Fill F)
  | .quote quote => if Quotable quote then ((engine.quoted quote).quoteRound quote).filled else []
  | .trade trade => (engine.tradeRound trade).filled
  | .signal _ => []

def after (engine : MicrostructureEngine F) : Event → MicrostructureEngine F
  | .quote quote => (engine.onQuote quote).1
  | .trade trade => (engine.onMarketTrade trade).1
  | .signal signal => (engine.submitOrder signal).1

/-- What the resting order with this id is given by the events that follow. -/
def received (orderId : Int) : MicrostructureEngine F → List Event → Int
  | _, [] => 0
  | engine, event :: events =>
      volume ((ownFilled orderId (engine.filledBy event)).map Prod.snd) +
        received orderId (engine.after event) events

theorem round_received {turn : Int → RestingOrder → Turn F} {orderId : Int} (keeps : KeepsId turn)
    (turns : ∀ position order, TurnLedger position order (turn position order)) (position : Int)
    {orders : List RestingOrder} {order : RestingOrder} (alone : own orderId orders = [order])
    (waits : 0 < order.remainingQuantity) :
    volume ((ownFilled orderId (round turn position orders).filled).map Prod.snd) ≤
        order.remainingQuantity ∧
      ∀ next ∈ own orderId (round turn position orders).surviving, next.remainingQuantity =
        order.remainingQuantity -
          volume ((ownFilled orderId (round turn position orders).filled).map Prod.snd) := by
  rcases round_own keeps position alone with ⟨survives, fills⟩
  have ledger := turns (positionAt turn orderId position orders) order
  have given : volume ((ownFilled orderId (round turn position orders).filled).map Prod.snd) =
      taken (turn (positionAt turn orderId position orders) order) := by
    rw [fills, taken, volume]
    cases (turn (positionAt turn orderId position orders) order).fill <;> simp
  rw [given, survives]
  refine ⟨ledger.most waits, ?_⟩
  intro next member
  exact ledger.left next (Option.mem_toList.mp member)

structure Held (orderId : Int) (engine : MicrostructureEngine F) (quantity : Int) : Prop where
  known : orderId < engine.nextOrderId
  share : (own orderId engine.restingOrders = [] ∧ 0 ≤ quantity) ∨
    ∃ order, own orderId engine.restingOrders = [order] ∧ order.remainingQuantity = quantity

theorem held_of_rests {engine : MicrostructureEngine F} {order : RestingOrder}
    (numbered : Numbered engine) (rests : order ∈ engine.restingOrders) :
    Held order.orderId engine order.remainingQuantity :=
  ⟨numbered.next _ (List.mem_map_of_mem rests),
    Or.inr ⟨order, own_of_numbered numbered rests, rfl⟩⟩

theorem mem_of_own {orderId : Int} {orders : List RestingOrder} {order : RestingOrder}
    (alone : own orderId orders = [order]) : order ∈ orders := by
  apply List.mem_of_mem_filter
  exact alone ▸ List.mem_singleton_self order

theorem settle_held {engine : MicrostructureEngine F} {turn : Int → RestingOrder → Turn F}
    {orderId quantity : Int} (keeps : KeepsId turn)
    (turns : ∀ position order, TurnLedger position order (turn position order))
    (waits : ∀ order ∈ engine.restingOrders, 0 < order.remainingQuantity)
    (held : Held orderId engine quantity) :
    volume ((ownFilled orderId (round turn engine.position engine.restingOrders).filled).map
        Prod.snd) ≤ quantity ∧
      Held orderId (engine.settle (round turn engine.position engine.restingOrders)) (quantity -
        volume ((ownFilled orderId (round turn engine.position engine.restingOrders).filled).map
          Prod.snd)) := by
  rcases held.share with ⟨absent, nonneg⟩ | ⟨order, alone, rfl⟩
  · rcases round_absent keeps engine.position absent with ⟨survivors, fills⟩
    have none : volume ((ownFilled orderId
        (round turn engine.position engine.restingOrders).filled).map Prod.snd) = 0 := by
      rw [fills]
      rfl
    rw [none, Int.sub_zero]
    exact ⟨nonneg, held.known, Or.inl ⟨survivors, nonneg⟩⟩
  · have positive := waits order (mem_of_own alone)
    rcases round_received keeps turns engine.position alone positive with ⟨most, left⟩
    refine ⟨most, held.known, ?_⟩
    have survivors := (round_own keeps engine.position alone).1
    cases survives : (turn (positionAt turn orderId engine.position engine.restingOrders)
        order).surviving with
    | none =>
        rw [survives] at survivors
        exact Or.inl ⟨survivors, by omega⟩
    | some next =>
        rw [survives] at survivors
        refine Or.inr ⟨next, survivors, left next ?_⟩
        rw [survivors]
        exact List.mem_singleton_self next

theorem after_held {engine : MicrostructureEngine F} {orderId quantity : Int} (event : Event)
    (sane : Sane engine) (held : Held orderId engine quantity) :
    volume ((ownFilled orderId (engine.filledBy event)).map Prod.snd) ≤ quantity ∧
      Held orderId (engine.after event)
        (quantity - volume ((ownFilled orderId (engine.filledBy event)).map Prod.snd)) := by
  have nonneg : 0 ≤ quantity := by
    rcases held.share with ⟨_, nonneg⟩ | ⟨order, alone, rfl⟩
    · exact nonneg
    · exact (sane.remaining order (mem_of_own alone)).le
  cases event with
  | quote quote =>
      rw [filledBy, after, onQuote]
      split
      · exact @settle_held _ _ (engine.quoted quote) _ _ _
          (keepsId_of_effect (quoteTurn_effect _ quote)) (fun _ _ => quoteTurn_ledger quote)
          sane.remaining ⟨held.known, held.share⟩
      · exact ⟨nonneg, held.known, by simpa [ownFilled, volume] using held.share⟩
  | trade trade =>
      rcases settle_held (keepsId_of_effect (tradeTurn_effect engine trade))
        (fun _ _ => engine.tradeTurn_ledger trade) sane.remaining held with ⟨most, kept⟩
      exact ⟨most, kept.known, kept.share⟩
  | signal signal =>
      have none : volume ((ownFilled orderId (engine.filledBy (.signal signal))).map
          Prod.snd) = 0 := rfl
      rw [none, Int.sub_zero, after]
      refine ⟨nonneg, ?_⟩
      rcases submitOrder_cases engine signal with
        ⟨time, ⟨_, idle⟩ | ⟨_, arrivalTime, latency, walks⟩ | ⟨_, _, order, placed, rests⟩⟩
      · rw [idle]
        exact ⟨held.known, held.share⟩
      · rw [walks]
        exact ⟨held.known, held.share⟩
      · rw [rests]
        have known := held.known
        have other : order.orderId ≠ orderId := by
          rw [placed.orderId]
          omega
        have same : own orderId (engine.restingOrders ++ [order]) =
            own orderId engine.restingOrders := by
          simp [own, other]
        refine ⟨Int.lt_add_one_of_le known.le, ?_⟩
        simp only [same]
        exact held.share

/-- `after` is the state that a step leaves, and where resting orders are filled, their fills are
what it returns. -/
theorem step_after (engine : MicrostructureEngine F) (event : Event) :
    ∃ fills, engine.step event = some (engine.after event, fills) ∧
      (engine.filledBy event ≠ [] → fills = (engine.filledBy event).map Prod.snd) := by
  cases event with
  | quote quote =>
      refine ⟨(engine.onQuote quote).2, rfl, ?_⟩
      rw [filledBy, onQuote]
      split
      · exact fun _ => rfl
      · exact fun filled => absurd rfl filled
  | trade trade => exact ⟨_, rfl, fun _ => rfl⟩
  | signal signal => exact ⟨_, rfl, fun filled => absurd rfl filled⟩

theorem after_sane {engine : MicrostructureEngine F} (sane : Sane engine) (event : Event) :
    Sane (engine.after event) := by
  rcases step_after engine event with ⟨fills, stepped, _⟩
  exact step_sane sane stepped

theorem received_le {engine : MicrostructureEngine F} {orderId quantity : Int} (sane : Sane engine)
    (held : Held orderId engine quantity) (events : List Event) :
    received orderId engine events ≤ quantity := by
  induction events generalizing engine quantity with
  | nil =>
      rw [received]
      rcases held.share with ⟨_, nonneg⟩ | ⟨order, alone, rfl⟩
      · exact nonneg
      · exact (sane.remaining order (mem_of_own alone)).le
  | cons event events ih =>
      rcases after_held event sane held with ⟨_, kept⟩
      have later := ih (after_sane sane event) kept
      rw [received]
      omega

end Ito.Backtest.MicrostructureEngine
