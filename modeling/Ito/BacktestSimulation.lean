import Ito.Library.StableSort
import Ito.PositionInvariant
import Mathlib.Data.Prod.Lex

/-! A whole simulation of the backtest engine.

Source: `run_simulation` of `python/backtest/engine.py`. The events are sorted by their time, and at
one time quotes come before trades and trades before signals. A call that raises ends the loop. -/

namespace Ito.Backtest.MicrostructureEngine

open StableSort

variable {F : Type} [CheckedFloat F]

def Event.timestampNs : Event → Int
  | .quote q => q.timestampNs
  | .trade t => t.timestampNs
  | .signal s => s.timestampNs

def Event.kind : Event → Nat
  | .quote _ => 0
  | .trade _ => 1
  | .signal _ => 2

def Event.key (event : Event) : Int ×ₗ Nat := toLex (event.timestampNs, event.kind)

def call (engine : MicrostructureEngine F) : Event → MicrostructureEngine F × Option (List (Fill F))
  | .quote quote => engine.onQuoteChecked quote
  | .trade trade => engine.onMarketTradeChecked trade
  | .signal signal => engine.submitOrderChecked signal

def replay : MicrostructureEngine F → List Event → MicrostructureEngine F × Bool
  | engine, [] => (engine, true)
  | engine, event :: events =>
      match engine.call event with
      | (engine, none) => (engine, false)
      | (engine, some _) => replay engine events

def runSimulation (engine : MicrostructureEngine F) (events : List Event) :
    MicrostructureEngine F × Option (List (Fill F)) :=
  let done := engine.replay (sorted Event.key events)
  (done.1, if done.2 then some done.1.fills else none)

variable {engine : MicrostructureEngine F} {event : Event} {events front back : List Event}

theorem call_eq : engine.stepChecked event = some (engine.call event) := by
  cases event <;> rfl

theorem replay_raised (raised : (engine.call event).2 = none) :
    engine.replay (event :: events) = ((engine.call event).1, false) := by
  rw [replay]
  cases called : engine.call event with
  | mk next returned =>
      rw [called] at raised
      dsimp only at raised
      rw [raised]

theorem replay_returned {fills : List (Fill F)} (returned : (engine.call event).2 = some fills) :
    engine.replay (event :: events) = (engine.call event).1.replay events := by
  rw [replay]
  cases called : engine.call event with
  | mk next result =>
      rw [called] at returned
      dsimp only at returned
      rw [returned]

theorem replay_keeps {I : MicrostructureEngine F → Prop}
    (keep : ∀ engine event, I engine → I (engine.call event).1) (start : I engine)
    (events : List Event) : I (engine.replay events).1 := by
  induction events generalizing engine with
  | nil => exact start
  | cons event events ih =>
      cases returned : (engine.call event).2 with
      | none =>
          rw [replay_raised returned]
          exact keep engine event start
      | some fills =>
          rw [replay_returned returned]
          exact ih (keep engine event start)

theorem replay_quiet {I : MicrostructureEngine F → Prop}
    (keep : ∀ engine event fills, I engine → (engine.call event).2 = some fills →
      I (engine.call event).1)
    (start : I engine) (ended : (engine.replay events).2 = true) : I (engine.replay events).1 := by
  induction events generalizing engine with
  | nil => exact start
  | cons event events ih =>
      cases returned : (engine.call event).2 with
      | none =>
          rw [replay_raised returned] at ended
          cases ended
      | some fills =>
          rw [replay_returned returned] at ended ⊢
          exact ih (keep engine event fills start returned) ended

theorem replay_append :
    engine.replay (front ++ back) =
      if (engine.replay front).2 then (engine.replay front).1.replay back
      else engine.replay front := by
  induction front generalizing engine with
  | nil => rfl
  | cons event front ih =>
      rw [List.cons_append]
      cases returned : (engine.call event).2 with
      | none =>
          rw [replay_raised returned, replay_raised returned]
          rfl
      | some fills => rw [replay_returned returned, replay_returned returned, ih]

/-! No call takes a fill back -/

theorem settleTried_fills (engine : MicrostructureEngine F) (tried : Tried F) :
    engine.fills <+: (engine.settleTried tried).1.fills := by
  rw [settleTried]
  split
  · exact List.prefix_append _ _
  · exact List.prefix_append _ _

theorem executeAggressiveChecked_fills {fills : List (Fill F)} (earlier : fills <+: engine.fills)
    (signal : Signal) (arrivalTime latency : Int) :
    fills <+: (engine.executeAggressiveChecked signal arrivalTime latency).1.fills := by
  rw [executeAggressiveChecked]
  split
  · exact earlier
  · split
    · exact earlier
    · exact earlier.trans (List.prefix_append _ _)

theorem placeLimitChecked_fills {fills : List (Fill F)} (earlier : fills <+: engine.fills)
    (signal : Signal) (arrivalTime latency : Int) (isPostOnly : Bool) :
    fills <+: (engine.placeLimitChecked signal arrivalTime latency isPostOnly).1.fills := by
  rw [placeLimitChecked]
  split
  case isTrue => exact executeAggressiveChecked_fills earlier signal arrivalTime latency
  case isFalse passive =>
    change fills <+: (engine.placeLimit signal arrivalTime latency isPostOnly).1.fills
    rw [placeLimit]
    split
    case isTrue crosses =>
      have postOnly : isPostOnly = true := by simpa using not_and.mp passive crosses
      rw [if_pos postOnly]
      exact earlier
    case isFalse => exact earlier

theorem call_fills (engine : MicrostructureEngine F) (event : Event) :
    engine.fills <+: (engine.call event).1.fills := by
  cases event with
  | quote quote =>
      rw [call, onQuoteChecked]
      split
      · exact settleTried_fills (engine.quoted quote) _
      · exact List.prefix_rfl
  | trade trade =>
      exact settleTried_fills
        { engine with currentTimeNs := max engine.currentTimeNs trade.timestampNs } _
  | signal signal =>
      rw [call, submitOrderChecked]
      split
      · dsimp only
        split
        · apply executeAggressiveChecked_fills
          exact List.prefix_rfl
        · apply placeLimitChecked_fills
          exact List.prefix_rfl
        · apply placeLimitChecked_fills
          exact List.prefix_rfl
        · exact List.prefix_rfl
      · exact List.prefix_rfl

theorem replay_fills (engine : MicrostructureEngine F) (events : List Event) :
    engine.fills <+: (engine.replay events).1.fills :=
  replay_keeps (I := fun now => engine.fills <+: now.fills)
    (fun now event earlier => earlier.trans (call_fills now event)) List.prefix_rfl events

/-- A simulation sees no order among its events but that of the events of one kind at one time, so
without two of these it gives the same for every order of its list. -/
theorem simulation_order_free (engine : MicrostructureEngine F) (first second : List Event) :
    ((∀ key, withKey Event.key key first = withKey Event.key key second) →
      engine.runSimulation first = engine.runSimulation second) ∧
    (first.Perm second → (first.map Event.key).Nodup →
      engine.runSimulation first = engine.runSimulation second) := by
  constructor
  · intro same
    rw [runSimulation, runSimulation, sorted_eq_iff.mpr same]
  · intro perm distinct
    rw [runSimulation, runSimulation, sorted_eq_of_perm perm distinct]

/-- The events of a run backwards, and two signals of one time that change places with the quote
between them. -/
theorem simulation_order_free_reversed :
    let quote : Event := .quote { timestampNs := 1000, bidTicks := 100, askTicks := 102 }
    let bought : Event := .signal { timestampNs := 1000, side := 1, quantity := 3 }
    let sold : Event := .signal { timestampNs := 1000, side := -1, quantity := 2 }
    newEngine.runSimulation [bought, quote, sold] = newEngine.runSimulation [bought, sold, quote] ∧
      newEngine.runSimulation bookedEvents.reverse = newEngine.runSimulation bookedEvents := by
  intro quote bought sold
  constructor
  · refine (simulation_order_free newEngine _ _).1 fun key => ?_
    have apart : quote.key ≠ sold.key := by decide
    by_cases here : quote.key = key
    · subst here
      simp [withKey, List.filter_cons, apart.symm]
    · simp [withKey, List.filter_cons, here]
  · exact (simulation_order_free newEngine _ _).2 (List.reverse_perm bookedEvents) (by decide)

/-- A simulation does not look ahead: where no event of a second batch comes before one of the
first, the first batch is simulated as if it were alone, its fills are the first ones of the
whole, and the second batch goes on from the engine that it leaves. -/
theorem simulation_batches (engine : MicrostructureEngine F)
    (before : ∀ early ∈ front, ∀ late ∈ back, early.key ≤ late.key) :
    (engine.runSimulation front).1.fills <+: (engine.runSimulation (front ++ back)).1.fills ∧
      engine.runSimulation (front ++ back) =
        match engine.runSimulation front with
        | (middle, none) => (middle, none)
        | (middle, some _) => middle.runSimulation back := by
  rw [runSimulation, runSimulation, sorted_append before, replay_append]
  cases ended : (engine.replay (sorted Event.key front)).2 with
  | true =>
      simp only [if_true]
      exact ⟨replay_fills _ _, rfl⟩
  | false =>
      simp only [Bool.false_eq_true, if_false, ended, and_true]
      exact List.prefix_rfl

theorem simulation_batches_split :
    let first := newEngine.runSimulation (bookedEvents.take 2)
    first.1.fills <+: (newEngine.runSimulation (bookedEvents.take 2 ++ bookedEvents.drop 2)).1.fills ∧
      (newEngine.runSimulation (bookedEvents.take 2 ++ bookedEvents.drop 2)).1.position = 7 := by
  intro first
  exact ⟨(simulation_batches newEngine (by decide)).1, by decide +kernel⟩

/-- Whatever events a new engine is given, in whatever order, it stays within its limit, and where
the simulation returns its fills, they are the fills of the engine, each of a positive quantity,
and its position is theirs. -/
theorem simulation_books {maxPosition : Int} {config : Option (MicrostructureConfig F)}
    (created : create maxPosition config = .ok engine) (events : List Event) :
    let done := engine.runSimulation events
    |done.1.position| ≤ maxPosition ∧
      ∀ fills, done.2 = some fills → fills = done.1.fills ∧ done.1.position = holding fills ∧
        ∀ fill ∈ fills, 0 < fill.quantity := by
  intro done
  have limited : Limited maxPosition done.1 :=
    replay_keeps (fun _ _ kept => stepChecked_limited kept call_eq) (create_limited created) _
  refine ⟨limited.limit, ?_⟩
  intro fills returned
  change (if (engine.replay (sorted Event.key events)).2 then
    some (engine.replay (sorted Event.key events)).1.fills else none) = some fills at returned
  split at returned
  case isFalse => cases returned
  case isTrue ended =>
    have books : Sane done.1 ∧ Ledger done.1 := by
      apply replay_quiet (I := fun now => Sane now ∧ Ledger now) _
        ⟨create_sane created, create_ledger created⟩ ended
      intro now event given kept same
      have stepped := step_of_stepChecked (call_eq.trans (congrArg some (Prod.ext rfl same)))
      exact ⟨step_sane kept.1 stepped, step_ledger kept.1 kept.2 stepped⟩
    rcases Option.some.inj returned with rfl
    exact ⟨rfl, books.2.position, books.2.positive⟩

end Ito.Backtest.MicrostructureEngine
