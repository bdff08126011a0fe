import Ito.PortfolioAccounting

/-! The locates of the portfolio, which short sales use up.

A fill checks and takes its locates before it moves the position, and its floats can raise at
three places after that: an integer can be too large to become a float. -/

namespace Ito.Portfolio

/-- The place where a fill raises an `OverflowError`. -/
inductive Overflow where
  /-- The average or the profit cannot be computed. -/
  | moving
  /-- The price cannot become the average of a position that has turned. -/
  | turning
  /-- The fee cannot be computed. -/
  | charging
  deriving DecidableEq, Repr

/-- What `apply_fill` leaves behind where it raises an `OverflowError`, unless it has raised
a `PortfolioError` before. -/
def interruptFill (portfolio : Portfolio) (instrumentId side quantity priceTicks : Int)
    (overflow : Overflow) : Portfolio :=
  if (side ≠ -1 ∧ side ≠ 1) ∨ quantity ≤ 0 ∨ priceTicks ≤ 0 then portfolio
  else if instrumentId ≤ 0 then portfolio
  else
    let position := portfolio.position instrumentId
    match portfolio.locateShort instrumentId side quantity with
    | .error _ => portfolio.store instrumentId position
    | .ok locates =>
        let moved := position.move (portfolio.spec instrumentId) side quantity priceTicks
        let left :=
          match overflow with
          | .moving => position
          | .turning => { moved with averagePriceTicks := position.averagePriceTicks }
          | .charging => { moved with lastPriceTicks := priceTicks }
        { portfolio.store instrumentId left with locates }

/-- A call that its floats may interrupt. Only fills have floats. -/
def call (portfolio : Portfolio) : Op × Option Overflow → Option (Portfolio × Output)
  | (op, none) => portfolio.step op
  | (.applyFill instrumentId side quantity priceTicks _, some overflow) =>
      some (portfolio.interruptFill instrumentId side quantity priceTicks overflow,
        .booked (.error "overflow_error"))
  | (.registerLocate _ _, some _) => none

def remaining (portfolio : Portfolio) (instrumentId : Int) : Int :=
  (portfolio.locates.find? instrumentId).getD 0

def short (portfolio : Portfolio) (instrumentId : Int) : Int :=
  max 0 (-(portfolio.position instrumentId).quantity)

def requiresLocates (portfolio : Portfolio) (instrumentId : Int) : Bool :=
  portfolio.limits.requireLocates || (portfolio.spec instrumentId).locateRequired

def registeredBy (instrumentId : Int) : (Op × Option Overflow) × Output → Int
  | ((.registerLocate instrument quantity, _), .located (.ok _)) =>
      if instrument = instrumentId then quantity else 0
  | _ => 0

def registered (instrumentId : Int) (log : List ((Op × Option Overflow) × Output)) : Int :=
  (log.map (registeredBy instrumentId)).sum

theorem registered_append (instrumentId : Int) (log : List ((Op × Option Overflow) × Output))
    (entry : (Op × Option Overflow) × Output) :
    registered instrumentId (log ++ [entry]) =
      registered instrumentId log + registeredBy instrumentId entry := by
  simp [registered]

/-! What a fill does -/

/-- A fill that gets past its guards: its locates are taken, and its position has moved or has
not moved yet. -/
structure Filled (portfolio : Portfolio) (instrumentId side quantity : Int) (next : Portfolio) :
    Prop where
  limits : next.limits = portfolio.limits
  specs : next.specs = portfolio.specs
  valid : side = -1 ∨ side = 1
  positive : 0 < quantity
  located : portfolio.locateShort instrumentId side quantity = .ok next.locates
  own : (next.position instrumentId).quantity = (portfolio.position instrumentId).quantity ∨
    (next.position instrumentId).quantity =
      (portfolio.position instrumentId).quantity + side * quantity
  others : ∀ other ≠ instrumentId, next.position other = portfolio.position other

structure Untouched (portfolio next : Portfolio) : Prop where
  limits : next.limits = portfolio.limits
  specs : next.specs = portfolio.specs
  positions : ∀ other, next.position other = portfolio.position other
  locates : next.locates = portfolio.locates

theorem untouched_store (portfolio : Portfolio) (instrumentId : Int) :
    Untouched portfolio
      (portfolio.store instrumentId (portfolio.position instrumentId)) := by
  refine ⟨rfl, rfl, fun other => ?_, rfl⟩
  rw [position_store]
  split
  case isTrue same => rw [same]
  case isFalse => rfl

inductive Taken (portfolio : Portfolio) (instrumentId side quantity : Int)
    (locates : SortedMap ByInstrument Int) : Prop
  | covered
      (long : ¬ (side < 0 ∧ (portfolio.position instrumentId).quantity - quantity < 0))
      (same : locates = portfolio.locates)
  | free
      (allowed : portfolio.limits.allowShort = true)
      (notRequired : portfolio.requiresLocates instrumentId = false)
      (same : locates = portfolio.locates)
  | borrowed
      (allowed : portfolio.limits.allowShort = true)
      (sells : side < 0)
      (beyond : (portfolio.position instrumentId).quantity - quantity < 0)
      (increase : Int)
      (grows : increase =
        quantity - (portfolio.position instrumentId).quantity - portfolio.short instrumentId)
      (enough : increase ≤ portfolio.remaining instrumentId)
      (taken : locates =
        portfolio.locates.set instrumentId (portfolio.remaining instrumentId - increase))

theorem locateShort_taken {portfolio : Portfolio} {instrumentId side quantity : Int}
    {locates : SortedMap ByInstrument Int}
    (located : portfolio.locateShort instrumentId side quantity = .ok locates) :
    Taken portfolio instrumentId side quantity locates := by
  rw [locateShort] at located
  dsimp only at located
  split at located
  case isFalse long => exact .covered long (Except.ok.inj located).symm
  case isTrue opens =>
    split at located
    case isTrue => cases located
    case isFalse allowed =>
      have allowed : portfolio.limits.allowShort = true := by simpa using allowed
      split at located
      case isFalse free =>
        exact .free allowed (Bool.eq_false_iff.mpr free) (Except.ok.inj located).symm
      case isTrue =>
        split at located
        case isTrue => cases located
        case isFalse enough =>
          have shortens : |min 0 ((portfolio.position instrumentId).quantity - quantity)| =
              quantity - (portfolio.position instrumentId).quantity := by
            rw [min_eq_right opens.2.le, abs_of_neg opens.2]
            omega
          rw [shortens] at located enough
          exact .borrowed allowed opens.1 opens.2 _ rfl (not_lt.mp enough)
            (Except.ok.inj located).symm

theorem filled_store {portfolio : Portfolio} {instrumentId side quantity : Int}
    {locates : SortedMap ByInstrument Int} {held : Position} (valid : side = -1 ∨ side = 1)
    (positive : 0 < quantity)
    (located : portfolio.locateShort instrumentId side quantity = .ok locates)
    (own : held.quantity = (portfolio.position instrumentId).quantity ∨
      held.quantity = (portfolio.position instrumentId).quantity + side * quantity) :
    Filled portfolio instrumentId side quantity
      { portfolio.store instrumentId held with locates } := by
  have stored : ∀ other, Portfolio.position { portfolio.store instrumentId held with locates } other
      = if other = instrumentId then held else portfolio.position other :=
    fun other => portfolio.position_store instrumentId other held
  refine ⟨rfl, rfl, valid, positive, located, ?_, ?_⟩
  · rw [stored, if_pos rfl]
    exact own
  · intro other different
    rw [stored, if_neg different]

theorem move_quantity (position : Position) (spec : InstrumentSpec)
    (side quantity priceTicks : Int) :
    (position.move spec side quantity priceTicks).quantity =
      position.quantity + side * quantity :=
  @Position.moved_quantity position spec ⟨side, quantity, priceTicks⟩

theorem applyFill_filled (portfolio : Portfolio)
    (instrumentId side quantity priceTicks : Int) (isTaker : Bool) :
    let next := (portfolio.applyFill instrumentId side quantity priceTicks isTaker).1
    Untouched portfolio next ∨ Filled portfolio instrumentId side quantity next := by
  dsimp only
  rw [applyFill]
  split
  · exact Or.inl ⟨rfl, rfl, fun _ => rfl, rfl⟩
  · rename_i valid
    split
    · exact Or.inl ⟨rfl, rfl, fun _ => rfl, rfl⟩
    · dsimp only
      cases located : portfolio.locateShort instrumentId side quantity with
      | error reason => exact Or.inl (portfolio.untouched_store instrumentId)
      | ok locates =>
          exact Or.inr (filled_store (by omega) (by omega) located
            (Or.inr (move_quantity ..)))

theorem interruptFill_filled (portfolio : Portfolio)
    (instrumentId side quantity priceTicks : Int) (overflow : Overflow) :
    let next := portfolio.interruptFill instrumentId side quantity priceTicks overflow
    Untouched portfolio next ∨ Filled portfolio instrumentId side quantity next := by
  dsimp only
  rw [interruptFill]
  split
  · exact Or.inl ⟨rfl, rfl, fun _ => rfl, rfl⟩
  · rename_i valid
    split
    · exact Or.inl ⟨rfl, rfl, fun _ => rfl, rfl⟩
    · dsimp only
      cases located : portfolio.locateShort instrumentId side quantity with
      | error reason => exact Or.inl (portfolio.untouched_store instrumentId)
      | ok locates =>
          refine Or.inr (filled_store (by omega) (by omega) located ?_)
          cases overflow with
          | moving => exact Or.inl rfl
          | turning => exact Or.inr (move_quantity ..)
          | charging => exact Or.inr (move_quantity ..)

/-! The invariant -/

/-- What the locates and the positions are held to, given what was there at first and what has
been registered since. -/
structure Located (start : Portfolio) (log : List ((Op × Option Overflow) × Output))
    (portfolio : Portfolio) (instrumentId : Int) : Prop where
  limits : portfolio.limits = start.limits
  specs : portfolio.specs = start.specs
  nonneg : 0 ≤ portfolio.remaining instrumentId
  covered : start.requiresLocates instrumentId = true →
    portfolio.short instrumentId + portfolio.remaining instrumentId ≤
      start.remaining instrumentId + registered instrumentId log
  long : start.limits.allowShort = false → 0 ≤ (portfolio.position instrumentId).quantity

theorem requiresLocates_congr {portfolio start : Portfolio}
    (limits : portfolio.limits = start.limits) (specs : portfolio.specs = start.specs)
    (instrumentId : Int) :
    portfolio.requiresLocates instrumentId = start.requiresLocates instrumentId := by
  rw [requiresLocates, requiresLocates, spec, spec, limits, specs]

/-- A fill keeps the locates of its instrument. -/
theorem Filled.keeps {start portfolio next : Portfolio} {side quantity instrumentId : Int}
    {log : List ((Op × Option Overflow) × Output)}
    (filled : Filled portfolio instrumentId side quantity next)
    (kept : Located start log portfolio instrumentId) :
    0 ≤ next.remaining instrumentId ∧
      (start.requiresLocates instrumentId = true →
        next.short instrumentId + next.remaining instrumentId ≤
          portfolio.short instrumentId + portfolio.remaining instrumentId) ∧
      (start.limits.allowShort = false → 0 ≤ (next.position instrumentId).quantity) := by
  have same := requiresLocates_congr kept.limits kept.specs instrumentId
  have positive := filled.positive
  have nonneg := kept.nonneg
  have long := kept.long
  have sideValue : side * quantity = quantity ∨ side < 0 ∧ side * quantity = -quantity := by
    rcases filled.valid with sell | buy
    · exact Or.inr ⟨by omega, by rw [sell]; omega⟩
    · exact Or.inl (by rw [buy]; omega)
  have own := filled.own
  have shortBefore : portfolio.short instrumentId =
      max 0 (-(portfolio.position instrumentId).quantity) := rfl
  have shortAfter : next.short instrumentId =
      max 0 (-(next.position instrumentId).quantity) := rfl
  cases locateShort_taken filled.located with
  | covered holds locates =>
      have left : next.remaining instrumentId = portfolio.remaining instrumentId := by
        rw [remaining, remaining, locates]
      refine ⟨by omega, fun _ => by omega, fun never => ?_⟩
      have before := long never
      omega
  | free allowed notRequired locates =>
      have left : next.remaining instrumentId = portfolio.remaining instrumentId := by
        rw [remaining, remaining, locates]
      refine ⟨by omega, fun required => ?_, fun never => ?_⟩
      · rw [same, required] at notRequired
        cases notRequired
      · rw [kept.limits, never] at allowed
        cases allowed
  | borrowed allowed sells beyond increase grows enough locates =>
      have left : next.remaining instrumentId = portfolio.remaining instrumentId - increase := by
        rw [remaining, locates, SortedMap.find?_set_self]
        rfl
      refine ⟨by omega, fun _ => by omega, fun never => ?_⟩
      rw [kept.limits, never] at allowed
      cases allowed

theorem registerLocate_remaining (portfolio : Portfolio) {instrument quantity : Int}
    (instrumentId : Int) (accepted : ¬ (instrument ≤ 0 ∨ quantity ≤ 0)) :
    (portfolio.registerLocate instrument quantity).1.remaining instrumentId =
      portfolio.remaining instrumentId + if instrument = instrumentId then quantity else 0 := by
  rw [registerLocate, if_neg accepted, remaining, SortedMap.find?_set]
  by_cases own : instrumentId = instrument
  · rw [if_pos own, if_pos own.symm, own]
    rfl
  · rw [if_neg own, if_neg fun same => own same.symm, Int.add_zero]
    rfl

theorem Located.untouched {start portfolio next : Portfolio} {instrumentId : Int}
    {log : List ((Op × Option Overflow) × Output)}
    {entry : (Op × Option Overflow) × Output} (kept : Located start log portfolio instrumentId)
    (untouched : Untouched portfolio next) (silent : registeredBy instrumentId entry = 0) :
    Located start (log ++ [entry]) next instrumentId := by
  have same : next.remaining instrumentId = portfolio.remaining instrumentId := by
    rw [remaining, remaining, untouched.locates]
  refine ⟨untouched.limits.trans kept.limits, untouched.specs.trans kept.specs, ?_, ?_, ?_⟩
  · rw [same]
    exact kept.nonneg
  · intro required
    rw [registered_append, silent, Int.add_zero, same, short, untouched.positions]
    exact kept.covered required
  · intro never
    rw [untouched.positions]
    exact kept.long never

theorem Located.filled {start portfolio next : Portfolio} {side quantity filled instrumentId : Int}
    {log : List ((Op × Option Overflow) × Output)}
    {entry : (Op × Option Overflow) × Output} (kept : Located start log portfolio instrumentId)
    (effect : Filled portfolio filled side quantity next)
    (silent : registeredBy instrumentId entry = 0) :
    Located start (log ++ [entry]) next instrumentId := by
  by_cases own : instrumentId = filled
  · rw [← own] at effect
    rcases effect.keeps kept with ⟨nonneg, covered, long⟩
    refine ⟨effect.limits.trans kept.limits, effect.specs.trans kept.specs, nonneg, ?_, long⟩
    intro required
    rw [registered_append, silent, Int.add_zero]
    exact (covered required).trans (kept.covered required)
  · have position := effect.others instrumentId own
    have same : next.remaining instrumentId = portfolio.remaining instrumentId := by
      rw [remaining, remaining]
      cases locateShort_taken effect.located with
      | covered _ locates | free _ _ locates => rw [locates]
      | borrowed _ _ _ _ _ _ locates => rw [locates, SortedMap.find?_set_ne _ own]
    refine ⟨effect.limits.trans kept.limits, effect.specs.trans kept.specs, ?_, ?_, ?_⟩
    · rw [same]
      exact kept.nonneg
    · intro required
      rw [registered_append, silent, Int.add_zero, same, short, position]
      exact kept.covered required
    · intro never
      rw [position]
      exact kept.long never

theorem Located.registered {start portfolio : Portfolio} {instrumentId : Int}
    {log : List ((Op × Option Overflow) × Output)} (kept : Located start log portfolio instrumentId)
    (instrument quantity : Int) :
    Located start
      (log ++ [((.registerLocate instrument quantity, none),
        .located (portfolio.registerLocate instrument quantity).2)])
      (portfolio.registerLocate instrument quantity).1 instrumentId := by
  by_cases accepted : instrument ≤ 0 ∨ quantity ≤ 0
  · rw [registerLocate, if_pos accepted]
    exact kept.untouched ⟨rfl, rfl, fun _ => rfl, rfl⟩ rfl
  · have more := portfolio.registerLocate_remaining instrumentId accepted
    have entry : registeredBy instrumentId ((.registerLocate instrument quantity, none),
        .located (portfolio.registerLocate instrument quantity).2) =
          if instrument = instrumentId then quantity else 0 := by
      rw [registerLocate, if_neg accepted]
      rfl
    have positive : 0 ≤ if instrument = instrumentId then quantity else 0 := by
      split <;> omega
    have same : (portfolio.registerLocate instrument quantity).1.position instrumentId =
        portfolio.position instrumentId := portfolio.registerLocate_position ..
    have nonneg := kept.nonneg
    refine ⟨?_, ?_, by omega, ?_, ?_⟩
    · rw [registerLocate, if_neg accepted]
      exact kept.limits
    · rw [registerLocate, if_neg accepted]
      exact kept.specs
    · intro required
      have covered := kept.covered required
      rw [registered_append, entry, more, short, same]
      rw [short] at covered
      omega
    · rw [same]
      exact kept.long

theorem call_located {start portfolio next : Portfolio} {instrumentId : Int}
    {log : List ((Op × Option Overflow) × Output)} {input : Op × Option Overflow}
    {output : Output} (kept : Located start log portfolio instrumentId)
    (called : portfolio.call input = some (next, output)) :
    Located start (log ++ [(input, output)]) next instrumentId := by
  rcases input with ⟨op, overflow⟩
  cases op with
  | applyFill instrument side quantity priceTicks isTaker =>
      cases overflow with
      | none =>
          simp only [call, step, Option.some.injEq, Prod.mk.injEq] at called
          rw [← called.1]
          rcases portfolio.applyFill_filled instrument side quantity priceTicks isTaker with
            untouched | filled
          · exact kept.untouched untouched rfl
          · exact kept.filled filled rfl
      | some overflow =>
          simp only [call, Option.some.injEq, Prod.mk.injEq] at called
          rw [← called.1]
          rcases portfolio.interruptFill_filled instrument side quantity priceTicks overflow with
            untouched | filled
          · exact kept.untouched untouched rfl
          · exact kept.filled filled rfl
  | registerLocate instrument quantity =>
      cases overflow with
      | some overflow => cases called
      | none =>
          simp only [call, step, Option.some.injEq, Prod.mk.injEq] at called
          rw [← called.1, ← called.2]
          exact kept.registered instrument quantity

/-- Every short is located: with what is left, the locates that an instrument needs never exceed
those it was given, and without permission nothing is sold short. -/
theorem shorts_located {limits : PortfolioLimits}
    {specs : SortedMap ByInstrument InstrumentSpec} {locates : SortedMap ByInstrument Int}
    {start portfolio : Portfolio} {calls : List (Op × Option Overflow)}
    {log : List ((Op × Option Overflow) × Output)}
    (created : create limits specs locates = .ok start)
    (nonneg : ∀ entry ∈ locates.entries, 0 ≤ entry.2)
    (ran : Machine.exec call start calls = some (portfolio, log)) (instrumentId : Int) :
    (start.requiresLocates instrumentId = true →
      portfolio.short instrumentId + portfolio.remaining instrumentId ≤
        (locates.find? instrumentId).getD 0 + registered instrumentId log) ∧
    0 ≤ portfolio.remaining instrumentId ∧
    (limits.allowShort = false → 0 ≤ (portfolio.position instrumentId).quantity) := by
  have begun : start = { limits, specs, locates } := by
    rw [create] at created
    split at created
    · cases created
    · exact (Except.ok.inj created).symm
  have empty : (start.position instrumentId).quantity = 0 := by
    rw [begun]
    rfl
  have first : start.remaining instrumentId = (locates.find? instrumentId).getD 0 := by
    rw [begun]
    rfl
  have initial : Located start [] start instrumentId := by
    refine ⟨rfl, rfl, ?_, ?_, ?_⟩
    · rw [first]
      cases found : locates.find? instrumentId with
      | none => exact le_rfl
      | some held => exact nonneg _ (locates.find?_eq_some.mp found)
    · intro _
      rw [short, empty]
      simp [registered]
    · intro _
      exact empty.ge
  have kept := Machine.exec_invariant
    (fun log (now : Portfolio) => Located start log now instrumentId)
    (fun _ _ _ _ _ => call_located) initial ran
  refine ⟨?_, kept.nonneg, ?_⟩
  · rw [← first]
    exact kept.covered
  · rw [begun] at kept
    exact kept.long

def memeLimits : PortfolioLimits := ⟨100, 100, 50000, 50000, 10000, true, false⟩

def memeSpecs : SortedMap ByInstrument InstrumentSpec :=
  SortedMap.empty.set 99 { locateRequired := true }

/-- The fills of the source's own test: one without a locate, and one of the 50 registered. -/
def memeCalls : List (Op × Option Overflow) :=
  [(.applyFill 99 (-1) 50 100 true, none), (.registerLocate 99 50, none),
    (.applyFill 99 (-1) 50 100 true, none)]

theorem shorts_located_test : ∃ portfolio log,
    Machine.exec call { limits := memeLimits, specs := memeSpecs } memeCalls =
        some (portfolio, log) ∧
      portfolio.short 99 = 50 ∧ registered 99 log = 50 ∧
      portfolio.short 99 + portfolio.remaining 99 ≤ 0 + registered 99 log := by
  have created : create memeLimits memeSpecs SortedMap.empty =
      .ok { limits := memeLimits, specs := memeSpecs } := rfl
  have computed : (Machine.exec call { limits := memeLimits, specs := memeSpecs } memeCalls).map
      (fun run => (run.1.short 99, registered 99 run.2)) = some (50, 50) := by decide +kernel
  rcases Option.map_eq_some_iff.mp computed with ⟨⟨portfolio, log⟩, ran, same⟩
  rw [Prod.mk.injEq] at same
  have located := shorts_located created (by simp [SortedMap.empty]) ran 99
  exact ⟨portfolio, log, ran, same.1, same.2, located.1 (by decide +kernel)⟩

end Ito.Portfolio
