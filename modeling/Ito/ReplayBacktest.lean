import Ito.EngineLedger
import Mathlib.Logic.Function.Basic

/-! The plain backtest, which fills each signal at the quote of its time.

Source: `ReplayBacktest` of `python/backtest/engine.py`. A dict is the function that its `get` is. -/

namespace Ito.Backtest

open MicrostructureEngine (holding holding_cons holding_nil)

variable {F : Type} [PythonFloat F]

structure ReplayBacktest (F : Type) [PythonFloat F] where
  maxPosition : Int
  strictUniqueTimestamps : Bool := true
  position : Int := 0
  fills : List (Fill F) := []

namespace ReplayBacktest

def create (maxPosition : Int) (strictUniqueTimestamps : Bool) : Except String (ReplayBacktest F) :=
  if maxPosition ≤ 0 then .error "max_position_invalid"
  else .ok { maxPosition, strictUniqueTimestamps }

def apply (backtest : ReplayBacktest F) (quote : Quote) (signal : Signal) :
    ReplayBacktest F × Option (Fill F) :=
  if quote.timestampNs ≤ 0 ∨ quote.bidTicks ≤ 0 ∨ quote.askTicks < quote.bidTicks ∨
      (signal.side ≠ -1 ∧ signal.side ≠ 1) then (backtest, none)
  else
    let price := if signal.side > 0 then quote.askTicks else quote.bidTicks
    let nextPosition := backtest.position + signed signal.side signal.quantity
    if signal.quantity ≤ 0 ∨ |nextPosition| > backtest.maxPosition then (backtest, none)
    else
      let fill : Fill F :=
        { timestampNs := signal.timestampNs, priceTicks := price, quantity := signal.quantity
          side := signal.side }
      ({ backtest with position := nextPosition, fills := backtest.fills ++ [fill] }, some fill)

/-- The loop that fills `quote_by_time`. -/
def index (strict : Bool) :
    List Quote → (Int → Option Quote) → Except String (Int → Option Quote)
  | [], quoteByTime => .ok quoteByTime
  | quote :: quotes, quoteByTime =>
      if strict && (quoteByTime quote.timestampNs).isSome then .error "duplicate_quote_timestamp"
      else index strict quotes (Function.update quoteByTime quote.timestampNs (some quote))

def applyAll (quoteByTime : Int → Option Quote) :
    ReplayBacktest F → List Signal → ReplayBacktest F
  | backtest, [] => backtest
  | backtest, signal :: signals =>
      match quoteByTime signal.timestampNs with
      | some quote => applyAll quoteByTime (backtest.apply quote signal).1 signals
      | none => applyAll quoteByTime backtest signals

def run (backtest : ReplayBacktest F) (quotes : List Quote) (signals : List Signal) :
    ReplayBacktest F × Except String (List (Fill F)) :=
  match index backtest.strictUniqueTimestamps quotes fun _ => none with
  | .error error => (backtest, .error error)
  | .ok quoteByTime =>
      let done := applyAll quoteByTime backtest signals
      (done, .ok done.fills)

/-! The quotes by their times -/

def lastAt (quotes : List Quote) (time : Int) : Option Quote :=
  quotes.reverse.find? fun quote => quote.timestampNs = time

theorem lastAt_cons (quote : Quote) (quotes : List Quote) (time : Int) :
    lastAt (quote :: quotes) time =
      (lastAt quotes time).or (if quote.timestampNs = time then some quote else none) := by
  rw [lastAt, List.reverse_cons, List.find?_append, List.find?_singleton, lastAt]
  simp

def Repeats (quotes : List Quote) (quoteByTime : Int → Option Quote) : Prop :=
  ¬ (quotes.map Quote.timestampNs).Nodup ∨
    ∃ quote ∈ quotes, (quoteByTime quote.timestampNs).isSome

theorem repeats_cons {quote : Quote} {quotes : List Quote} {quoteByTime : Int → Option Quote}
    (fresh : (quoteByTime quote.timestampNs).isSome = false) :
    Repeats (quote :: quotes) quoteByTime ↔
      Repeats quotes (Function.update quoteByTime quote.timestampNs (some quote)) := by
  have updated : ∀ other : Quote,
      (Function.update quoteByTime quote.timestampNs (some quote) other.timestampNs).isSome = true ↔
        other.timestampNs = quote.timestampNs ∨ (quoteByTime other.timestampNs).isSome = true := by
    intro other
    by_cases same : other.timestampNs = quote.timestampNs
    · rw [same, Function.update_self]
      simp
    · rw [Function.update_of_ne same]
      simp [same]
  simp only [Repeats, List.map_cons, List.nodup_cons, List.exists_mem_cons_iff, updated, fresh,
    List.mem_map]
  grind

theorem index_refused {quotes : List Quote} {quoteByTime : Int → Option Quote}
    (repeats : Repeats quotes quoteByTime) :
    index true quotes quoteByTime = .error "duplicate_quote_timestamp" := by
  induction quotes generalizing quoteByTime with
  | nil => exact absurd repeats (by simp [Repeats])
  | cons quote quotes ih =>
      rw [index, Bool.true_and]
      split
      · rfl
      · rename_i fresh
        exact ih ((repeats_cons (Bool.not_eq_true _ ▸ fresh)).mp repeats)

theorem index_accepted {strict : Bool} {quotes : List Quote} {quoteByTime : Int → Option Quote}
    (clean : strict = true → ¬ Repeats quotes quoteByTime) :
    index strict quotes quoteByTime =
      .ok fun time => (lastAt quotes time).or (quoteByTime time) := by
  induction quotes generalizing quoteByTime with
  | nil => rfl
  | cons quote quotes ih =>
      rw [index]
      split
      case isTrue refused =>
        rw [Bool.and_eq_true] at refused
        exact absurd (Or.inr ⟨quote, List.mem_cons_self, refused.2⟩) (clean refused.1)
      case isFalse passes =>
        have later : strict = true →
            ¬ Repeats quotes (Function.update quoteByTime quote.timestampNs (some quote)) := by
          intro isStrict
          have fresh : (quoteByTime quote.timestampNs).isSome = false := by
            simpa [isStrict] using passes
          rw [← repeats_cons fresh]
          exact clean isStrict
        rw [ih later]
        refine congrArg Except.ok (funext fun time => ?_)
        rw [lastAt_cons, Option.or_assoc]
        by_cases here : quote.timestampNs = time
        · subst here
          rw [Function.update_self, if_pos rfl]
          rfl
        · rw [Function.update_of_ne (Ne.symm here), if_neg here]
          rfl

theorem lastAt_eq_some {quotes : List Quote} {time : Int} {quote : Quote}
    (distinct : (quotes.map Quote.timestampNs).Nodup) :
    lastAt quotes time = some quote ↔ quote ∈ quotes ∧ quote.timestampNs = time := by
  constructor
  · intro found
    exact ⟨List.mem_reverse.mp (List.mem_of_find?_eq_some found),
      by simpa using List.find?_some found⟩
  · rintro ⟨member, rfl⟩
    cases found : lastAt quotes quote.timestampNs with
    | none =>
        have other := List.find?_eq_none.mp found quote (List.mem_reverse.mpr member)
        simp at other
    | some first =>
        have among := List.mem_reverse.mp (List.mem_of_find?_eq_some found)
        have same : first.timestampNs = quote.timestampNs := by simpa using List.find?_some found
        rw [List.inj_on_of_nodup_map distinct among member same]

theorem lastAt_perm {quotes other : List Quote} (perm : quotes.Perm other)
    (distinct : (quotes.map Quote.timestampNs).Nodup) : lastAt quotes = lastAt other := by
  funext time
  apply Option.ext
  intro quote
  rw [lastAt_eq_some distinct, lastAt_eq_some ((perm.map _).nodup_iff.mp distinct), perm.mem_iff]

/-! What a run fills -/

structure FilledAt (quote : Quote) (signal : Signal) (fill : Fill F) : Prop where
  time : fill.timestampNs = signal.timestampNs
  side : fill.side = signal.side ∧ (signal.side = -1 ∨ signal.side = 1)
  quantity : fill.quantity = signal.quantity ∧ 0 < signal.quantity
  price : fill.priceTicks = if signal.side > 0 then quote.askTicks else quote.bidTicks
  quotable : 0 < quote.timestampNs ∧ 0 < quote.bidTicks ∧ quote.bidTicks ≤ quote.askTicks

theorem apply_cases (backtest : ReplayBacktest F) (quote : Quote) (signal : Signal) :
    backtest.apply quote signal = (backtest, none) ∨
      ∃ fill, FilledAt quote signal fill ∧
        |backtest.position + signed signal.side signal.quantity| ≤ backtest.maxPosition ∧
        backtest.apply quote signal =
          ({ backtest with
             position := backtest.position + signed signal.side signal.quantity
             fills := backtest.fills ++ [fill] }, some fill) := by
  rw [apply]
  split
  case isTrue => exact .inl rfl
  case isFalse quotable =>
    dsimp only
    split
    case isTrue => exact .inl rfl
    case isFalse fits =>
      refine .inr ⟨_, ⟨rfl, ⟨rfl, ?_⟩, ⟨rfl, ?_⟩, rfl, ?_⟩, ?_, rfl⟩
      · omega
      · omega
      · omega
      · exact not_lt.mp (not_or.mp fits).2

inductive Fills (quoteByTime : Int → Option Quote) : List Signal → List (Fill F) → Prop
  | nil : Fills quoteByTime [] []
  | skip {signal signals fills} : Fills quoteByTime signals fills →
      Fills quoteByTime (signal :: signals) fills
  | fill {signal signals fills quote fill} : quoteByTime signal.timestampNs = some quote →
      FilledAt quote signal fill → Fills quoteByTime signals fills →
      Fills quoteByTime (signal :: signals) (fill :: fills)

theorem applyAll_fills (quoteByTime : Int → Option Quote) (backtest : ReplayBacktest F)
    (signals : List Signal) :
    ∃ fills, Fills quoteByTime signals fills ∧
      applyAll quoteByTime backtest signals =
        { backtest with
          position := backtest.position + holding fills, fills := backtest.fills ++ fills } ∧
      (|backtest.position| ≤ backtest.maxPosition →
        |backtest.position + holding fills| ≤ backtest.maxPosition) := by
  induction signals generalizing backtest with
  | nil => exact ⟨[], .nil, by simp [applyAll], by simp⟩
  | cons signal signals ih =>
      rw [applyAll]
      cases found : quoteByTime signal.timestampNs with
      | none =>
          rcases ih backtest with ⟨fills, given, same, within⟩
          exact ⟨fills, .skip given, same, within⟩
      | some quote =>
          rcases apply_cases backtest quote signal with refused | ⟨fill, at', fits, filled⟩
          · rcases ih backtest with ⟨fills, given, same, within⟩
            refine ⟨fills, .skip given, ?_, within⟩
            dsimp only
            rw [refused, same]
          · dsimp only
            rw [filled]
            rcases ih { backtest with
              position := backtest.position + signed signal.side signal.quantity
              fills := backtest.fills ++ [fill] } with ⟨fills, given, same, within⟩
            have held : holding (fill :: fills) =
                signed signal.side signal.quantity + holding fills := by
              rw [holding_cons, at'.side.1, at'.quantity.1]
            refine ⟨fill :: fills, .fill found at' given, ?_, ?_⟩
            · rw [same, held]
              simp [add_assoc]
            · intro _
              rw [held, ← add_assoc]
              exact within fits

/-- A run in strict mode with two quotes of one time raises and changes nothing. Every other run
fills signals in their order, each at the last quote of its time and at its side of it, adds the
fills to the position, keeps it within the limit, and gives the same for every order of quotes
with distinct times. -/
theorem replay_run (backtest : ReplayBacktest F) (quotes : List Quote) (signals : List Signal) :
    let strict := backtest.strictUniqueTimestamps = true
    let distinct := (quotes.map Quote.timestampNs).Nodup
    (strict ∧ ¬ distinct →
      backtest.run quotes signals = (backtest, .error "duplicate_quote_timestamp")) ∧
    (¬ (strict ∧ ¬ distinct) → ∃ fills, Fills (lastAt quotes) signals fills ∧
      backtest.run quotes signals =
        ({ backtest with
           position := backtest.position + holding fills, fills := backtest.fills ++ fills },
          .ok (backtest.fills ++ fills)) ∧
      (|backtest.position| ≤ backtest.maxPosition →
        |backtest.position + holding fills| ≤ backtest.maxPosition)) ∧
    (∀ other, quotes.Perm other → distinct →
      backtest.run other signals = backtest.run quotes signals) := by
  intro strict distinct
  have repeats : ∀ some' : List Quote,
      Repeats some' (fun _ => none) ↔ ¬ (some'.map Quote.timestampNs).Nodup := by
    intro some'
    simp [Repeats]
  have accepts : ∀ some' : List Quote, (strict → (some'.map Quote.timestampNs).Nodup) →
      backtest.run some' signals =
        (applyAll (lastAt some') backtest signals,
          .ok (applyAll (lastAt some') backtest signals).fills) := by
    intro some' clean
    have indexed : index backtest.strictUniqueTimestamps some' (fun _ => none) =
        .ok fun time => (lastAt some' time).or none :=
      index_accepted fun isStrict => by rw [repeats, not_not]; exact clean isStrict
    simp only [Option.or_none] at indexed
    rw [run, indexed]
  refine ⟨?_, ?_, ?_⟩
  · rintro ⟨isStrict, twice⟩
    have isStrict : backtest.strictUniqueTimestamps = true := isStrict
    rw [run, isStrict, index_refused ((repeats quotes).mpr twice)]
  · intro passes
    have clean : strict → distinct := fun isStrict => by
      by_contra twice
      exact passes ⟨isStrict, twice⟩
    rcases applyAll_fills (lastAt quotes) backtest signals with ⟨fills, given, same, within⟩
    refine ⟨fills, given, ?_, within⟩
    rw [accepts quotes clean, same]
  · intro other perm clean
    rw [accepts quotes fun _ => clean,
      accepts other fun _ => (perm.map _).nodup_iff.mp clean, lastAt_perm perm clean]

theorem replay_run_limited :
    let backtest : ReplayBacktest Rat := { maxPosition := 5 }
    let early : Quote := { timestampNs := 1000, bidTicks := 100, askTicks := 102 }
    let late : Quote := { timestampNs := 2000, bidTicks := 104, askTicks := 105 }
    let signals : List Signal :=
      [{ timestampNs := 1000, side := 1, quantity := 3 },
        { timestampNs := 2000, side := 1, quantity := 3 },
        { timestampNs := 2000, side := -1, quantity := 4 }]
    (backtest.run [early, late] signals).1.fills.map Fill.priceTicks = [102, 104] ∧
      |backtest.position + -1| ≤ 5 ∧
      backtest.run [late, early] signals = backtest.run [early, late] signals ∧
      backtest.run [early, late, early] signals =
        (backtest, .error "duplicate_quote_timestamp") := by
  intro backtest early late signals
  rcases (replay_run backtest [early, late] signals).2.1 (by decide) with ⟨fills, -, same, within⟩
  have prices : (backtest.run [early, late] signals).1.fills.map Fill.priceTicks = [102, 104] := by
    decide +kernel
  have position : (backtest.run [early, late] signals).1.position = -1 := by decide +kernel
  rw [same] at position
  have held : backtest.position + holding fills = backtest.position + -1 := position
  exact ⟨prices, held ▸ within (by decide),
    (replay_run backtest [early, late] signals).2.2 _ (List.Perm.swap _ _ _) (by decide),
    (replay_run backtest [early, late, early] signals).1 (by decide)⟩

end ReplayBacktest

end Ito.Backtest
