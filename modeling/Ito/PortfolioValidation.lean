import Ito.Library.Guards
import Ito.PortfolioAccounting
import Ito.PortfolioRisk

/-! What an approved order does to the limits of a portfolio.

`validate_order` projects every aggregate by taking out the position of the
instrument and adding the one it will have; `apply_fill` then changes that
position, and `snapshot` sums up from the start. -/

namespace Ito

namespace Portfolio

variable {A : Type*} [AddCommGroup A]

def total (portfolio : Portfolio) (measure : Int → Position → A) : A :=
  (portfolio.positions.entries.map fun entry => measure entry.1 entry.2).sum

theorem total_store (portfolio : Portfolio) (measure : Int → Position → A) {instrumentId : Int}
    (empty : measure instrumentId {} = 0) (position : Position) :
    (portfolio.store instrumentId position).total measure =
      portfolio.total measure - measure instrumentId (portfolio.position instrumentId) +
        measure instrumentId position := by
  rw [total, store, SortedMap.sum_set, total, Portfolio.position]
  cases portfolio.positions.find? instrumentId with
  | none => simp [empty]
  | some held => rfl

theorem netPosition_store (portfolio : Portfolio) (instrumentId : Int) (position : Position) :
    (portfolio.store instrumentId position).netPosition =
      portfolio.netPosition - (portfolio.position instrumentId).quantity + position.quantity :=
  portfolio.total_store (fun _ held => held.quantity) rfl position

theorem grossPosition_store (portfolio : Portfolio) (instrumentId : Int) (position : Position) :
    (portfolio.store instrumentId position).grossPosition =
      portfolio.grossPosition - (portfolio.position instrumentId).grossQuantity +
        position.grossQuantity :=
  portfolio.total_store (fun _ held => held.grossQuantity) rfl position

theorem grossNotional_store (portfolio : Portfolio) (instrumentId : Int) (position : Position) :
    (portfolio.store instrumentId position).grossNotional =
      portfolio.grossNotional -
        (portfolio.position instrumentId).grossQuantity *
          (portfolio.position instrumentId).lastPriceTicks +
        position.grossQuantity * position.lastPriceTicks :=
  portfolio.total_store (fun _ held => held.grossQuantity * held.lastPriceTicks) rfl position

theorem mem_store {portfolio : Portfolio} {instrumentId other : Int} {position held : Position} :
    (other, held) ∈ (portfolio.store instrumentId position).positions.entries ↔
      (other = instrumentId ∧ held = position) ∨
        (other ≠ instrumentId ∧ (other, held) ∈ portfolio.positions.entries) :=
  SortedMap.mem_set _

end Portfolio

namespace RiskPortfolio

/-- The portfolio after `setdefault`. -/
def withPosition (portfolio : RiskPortfolio) (instrumentId : Int) : RiskPortfolio :=
  { portfolio with
    toPortfolio := portfolio.store instrumentId (portfolio.position instrumentId) }

/-- Everything `validate_order` has checked when it approves. -/
structure Cleared (sqrt : ℚ → ℚ) (portfolio : RiskPortfolio)
    (instrumentId side quantity priceTicks : Int) : Prop where
  valid : FillRecord.Valid ⟨side, quantity, priceTicks⟩
  named : 0 < instrumentId
  net : |portfolio.netPosition + side * quantity| ≤ portfolio.limits.maxNetPosition
  gross : portfolio.grossPosition - (portfolio.position instrumentId).grossQuantity +
    |(portfolio.position instrumentId).quantity + side * quantity| ≤
      portfolio.limits.maxGrossPosition
  notional : portfolio.grossNotional -
    (portfolio.position instrumentId).grossQuantity *
      (portfolio.position instrumentId).lastPriceTicks +
    |(portfolio.position instrumentId).quantity + side * quantity| * priceTicks ≤
      portfolio.limits.maxGrossNotionalTicks
  concentration : |(portfolio.position instrumentId).quantity + side * quantity| * priceTicks ≤
    portfolio.limits.maxConcentrationTicks
  located : ∃ locates, portfolio.locateShort instrumentId side quantity = .ok locates
  cashGross : exceeds ((portfolio.projectedNotionalsCash instrumentId side quantity
    priceTicks).map fun entry => |entry.2|).sum portfolio.cash.maxGrossNotionalCash = false
  shortfall : (portfolio.factorModel.any fun model => exceeds (model.expectedShortfall sqrt
    (portfolio.projectedNotionalsCash instrumentId side quantity priceTicks))
    portfolio.cash.maxExpectedShortfallCash) = false
  parametricVar : (portfolio.factorModel.any fun model => exceeds (model.parametricVar sqrt
    (portfolio.projectedNotionalsCash instrumentId side quantity priceTicks))
    portfolio.cash.maxParametricVarCash) = false

theorem locateShort_ok {portfolio : Portfolio} {instrumentId side quantity : Int}
    (allowed : ¬ ((side < 0 ∧ (portfolio.position instrumentId).quantity - quantity < 0) ∧
      !portfolio.limits.allowShort))
    (available : ¬ ((side < 0 ∧ (portfolio.position instrumentId).quantity - quantity < 0) ∧
      (portfolio.limits.requireLocates || (portfolio.spec instrumentId).locateRequired) ∧
      (portfolio.locates.find? instrumentId).getD 0 <
        |min 0 ((portfolio.position instrumentId).quantity - quantity)| -
          max 0 (-(portfolio.position instrumentId).quantity))) :
    ∃ locates, portfolio.locateShort instrumentId side quantity = .ok locates := by
  rw [Portfolio.locateShort]
  split
  case isTrue opens =>
    simp only [opens, true_and] at allowed available
    rw [if_neg allowed]
    split
    case isTrue required =>
      simp only [required, true_and] at available
      rw [if_neg available]
      exact ⟨_, rfl⟩
    case isFalse => exact ⟨_, rfl⟩
  case isFalse => exact ⟨_, rfl⟩

theorem validateOrder_approved {sqrt : ℚ → ℚ} {portfolio next : RiskPortfolio}
    {instrumentId side quantity priceTicks : Int} {reason : String}
    (approved : portfolio.validateOrder sqrt instrumentId side quantity priceTicks =
      (next, .ok (true, reason))) :
    next = portfolio.withPosition instrumentId ∧
      next.Cleared sqrt instrumentId side quantity priceTicks := by
  rw [validateOrder] at approved
  by_cases broken : (side ≠ -1 ∧ side ≠ 1) ∨ quantity ≤ 0 ∨ priceTicks ≤ 0
  · rw [if_pos broken] at approved
    simp at approved
  rw [if_neg broken] at approved
  by_cases unnamed : instrumentId ≤ 0
  · rw [if_pos unnamed] at approved
    simp at approved
  rw [if_neg unnamed] at approved
  simp only [Prod.mk.injEq, Except.ok.injEq] at approved
  rcases approved with ⟨rfl, verdict⟩
  have passed := congrArg Prod.fst verdict
  simp only [RiskPortfolio.verdict, Guards.flag_past_iff, Bool.not_eq_true, Int.not_lt] at passed
  rcases passed with ⟨net, gross, notional, concentration, allowed, available, cashGross, shortfall,
    parametricVar, _⟩
  constructor
  · rfl
  · constructor
    · constructor <;> simp only <;> omega
    · omega
    · exact net
    · exact gross
    · exact notional
    · exact concentration
    · exact locateShort_ok allowed available
    · exact cashGross
    · exact shortfall
    · exact parametricVar

def booked (portfolio : RiskPortfolio) (instrumentId side quantity priceTicks : Int)
    (isTaker : Bool) : Position :=
  { (portfolio.position instrumentId).move (portfolio.spec instrumentId) side quantity priceTicks with
    lastPriceTicks := priceTicks }.charge (portfolio.spec instrumentId) quantity priceTicks isTaker

@[simp] theorem booked_quantity (portfolio : RiskPortfolio)
    (instrumentId side quantity priceTicks : Int) (isTaker : Bool) :
    (portfolio.booked instrumentId side quantity priceTicks isTaker).quantity =
      (portfolio.position instrumentId).quantity + side * quantity := by
  have moved : ((portfolio.position instrumentId).moved (portfolio.spec instrumentId)
      ⟨side, quantity, priceTicks⟩).quantity =
      (portfolio.position instrumentId).quantity + side * quantity := Position.moved_quantity _
  exact moved

@[simp] theorem booked_lastPriceTicks (portfolio : RiskPortfolio)
    (instrumentId side quantity priceTicks : Int) (isTaker : Bool) :
    (portfolio.booked instrumentId side quantity priceTicks isTaker).lastPriceTicks = priceTicks :=
  rfl

theorem applyFill_cleared {sqrt : ℚ → ℚ} {portfolio : RiskPortfolio}
    {instrumentId side quantity priceTicks : Int}
    (cleared : portfolio.Cleared sqrt instrumentId side quantity priceTicks) (isTaker : Bool) :
    ∃ locates, portfolio.applyFill instrumentId side quantity priceTicks isTaker =
      ({ portfolio.store instrumentId
          (portfolio.booked instrumentId side quantity priceTicks isTaker) with locates },
        .ok (portfolio.booked instrumentId side quantity priceTicks isTaker)) := by
  rcases cleared.located with ⟨locates, located⟩
  have sides := cleared.valid.side
  have lots := cleared.valid.quantity
  have price := cleared.valid.price
  have named := cleared.named
  simp only at sides lots price
  refine ⟨locates, ?_⟩
  rw [Portfolio.applyFill, if_neg (by omega), if_neg (by omega), located]
  rfl

/-- The four limits that `snapshot` compares with the positions, and the prices it needs. -/
structure WithinLimits (portfolio : RiskPortfolio) : Prop where
  net : |portfolio.netPosition| ≤ portfolio.limits.maxNetPosition
  gross : portfolio.grossPosition ≤ portfolio.limits.maxGrossPosition
  notional : portfolio.grossNotional ≤ portfolio.limits.maxGrossNotionalTicks
  concentration : ∀ entry ∈ portfolio.positions.entries,
    entry.2.grossQuantity * entry.2.lastPriceTicks ≤ portfolio.limits.maxConcentrationTicks
  priced : ∀ entry ∈ portfolio.positions.entries,
    entry.2.quantity ≠ 0 → 0 < entry.2.lastPriceTicks
  some : 0 ≤ portfolio.limits.maxConcentrationTicks

theorem within_of_same {portfolio next : RiskPortfolio} (within : portfolio.WithinLimits)
    (positions : next.positions = portfolio.positions) (limits : next.limits = portfolio.limits) :
    next.WithinLimits := by
  have net : next.netPosition = portfolio.netPosition := by
    rw [Portfolio.netPosition, positions, Portfolio.netPosition]
  have gross : next.grossPosition = portfolio.grossPosition := by
    rw [Portfolio.grossPosition, positions, Portfolio.grossPosition]
  have notional : next.grossNotional = portfolio.grossNotional := by
    rw [Portfolio.grossNotional, positions, Portfolio.grossNotional]
  constructor
  · rw [net, limits]
    exact within.net
  · rw [gross, limits]
    exact within.gross
  · rw [notional, limits]
    exact within.notional
  · rw [positions, limits]
    exact within.concentration
  · rw [positions]
    exact within.priced
  · rw [limits]
    exact within.some

theorem within_store {portfolio : RiskPortfolio} {instrumentId : Int} {position : Position}
    (within : portfolio.WithinLimits)
    (net : |(portfolio.store instrumentId position).netPosition| ≤ portfolio.limits.maxNetPosition)
    (gross : (portfolio.store instrumentId position).grossPosition ≤
      portfolio.limits.maxGrossPosition)
    (notional : (portfolio.store instrumentId position).grossNotional ≤
      portfolio.limits.maxGrossNotionalTicks)
    (concentration : position.grossQuantity * position.lastPriceTicks ≤
      portfolio.limits.maxConcentrationTicks)
    (priced : position.quantity ≠ 0 → 0 < position.lastPriceTicks) :
    ({ portfolio with toPortfolio := portfolio.store instrumentId position } :
      RiskPortfolio).WithinLimits := by
  constructor
  · exact net
  · exact gross
  · exact notional
  · intro entry member
    rcases entry with ⟨other, held⟩
    rcases Portfolio.mem_store.mp member with ⟨_, rfl⟩ | ⟨_, kept⟩
    · exact concentration
    · exact within.concentration _ kept
  · intro entry member
    rcases entry with ⟨other, held⟩
    rcases Portfolio.mem_store.mp member with ⟨_, rfl⟩ | ⟨_, kept⟩
    · exact priced
    · exact within.priced _ kept
  · exact within.some

theorem within_position {portfolio : RiskPortfolio} (within : portfolio.WithinLimits)
    (instrumentId : Int) :
    (portfolio.position instrumentId).grossQuantity *
        (portfolio.position instrumentId).lastPriceTicks ≤
      portfolio.limits.maxConcentrationTicks ∧
    ((portfolio.position instrumentId).quantity ≠ 0 →
      0 < (portfolio.position instrumentId).lastPriceTicks) := by
  rw [Portfolio.position]
  cases found : portfolio.positions.find? instrumentId with
  | none =>
      constructor
      · exact within.some
      · intro held
        exact absurd rfl held
  | some position =>
      have member := (SortedMap.find?_eq_some _).mp found
      rw [Option.getD_some]
      exact ⟨within.concentration (instrumentId, position) member,
        within.priced (instrumentId, position) member⟩

theorem within_withPosition {portfolio : RiskPortfolio} (within : portfolio.WithinLimits)
    (instrumentId : Int) : (portfolio.withPosition instrumentId).WithinLimits := by
  rcases within_position within instrumentId with ⟨concentration, priced⟩
  apply within_store within _ _ _ concentration priced
  · rw [Portfolio.netPosition_store, sub_add_cancel]
    exact within.net
  · rw [Portfolio.grossPosition_store, sub_add_cancel]
    exact within.gross
  · rw [Portfolio.grossNotional_store, sub_add_cancel]
    exact within.notional

theorem booked_within {sqrt : ℚ → ℚ} {portfolio : RiskPortfolio}
    {instrumentId side quantity priceTicks : Int}
    (cleared : portfolio.Cleared sqrt instrumentId side quantity priceTicks) (isTaker : Bool) :
    let booked := portfolio.booked instrumentId side quantity priceTicks isTaker
    |(portfolio.store instrumentId booked).netPosition| ≤ portfolio.limits.maxNetPosition ∧
      (portfolio.store instrumentId booked).grossPosition ≤ portfolio.limits.maxGrossPosition ∧
      (portfolio.store instrumentId booked).grossNotional ≤
        portfolio.limits.maxGrossNotionalTicks ∧
      booked.grossQuantity * booked.lastPriceTicks ≤ portfolio.limits.maxConcentrationTicks := by
  intro booked
  have held : booked.quantity = (portfolio.position instrumentId).quantity + side * quantity :=
    booked_quantity ..
  have price : booked.lastPriceTicks = priceTicks := booked_lastPriceTicks ..
  have net : (portfolio.store instrumentId booked).netPosition =
      portfolio.netPosition + side * quantity := by
    rw [Portfolio.netPosition_store, held]
    omega
  rw [net, Portfolio.grossPosition_store, Portfolio.grossNotional_store]
  simp only [Position.grossQuantity, held, price]
  exact ⟨cleared.net, cleared.gross, cleared.notional, cleared.concentration⟩

theorem within_applyFill {sqrt : ℚ → ℚ} {portfolio : RiskPortfolio}
    {instrumentId side quantity priceTicks : Int} (within : portfolio.WithinLimits)
    (cleared : portfolio.Cleared sqrt instrumentId side quantity priceTicks) (isTaker : Bool) :
    (∃ position, (portfolio.applyFill instrumentId side quantity priceTicks isTaker).2 =
      .ok position) ∧
    ({ portfolio with toPortfolio :=
        (portfolio.applyFill instrumentId side quantity priceTicks isTaker).1 } :
      RiskPortfolio).WithinLimits := by
  rcases applyFill_cleared cleared isTaker with ⟨locates, applied⟩
  rw [applied]
  constructor
  · exact ⟨_, rfl⟩
  · have stored : ({ portfolio with
        toPortfolio := portfolio.store instrumentId
          (portfolio.booked instrumentId side quantity priceTicks isTaker) } :
        RiskPortfolio).WithinLimits := by
      rcases booked_within cleared isTaker with ⟨net, gross, notional, concentration⟩
      apply within_store within net gross notional concentration
      intro _
      exact cleared.valid.price
    exact within_of_same stored rfl rfl

theorem truncate_intCast (value : Int) : truncate (value : ℚ) = value := by
  rw [truncate]
  split
  · exact Rat.floor_intCast value
  · exact Rat.ceil_intCast value

theorem marked_notionalTicks (portfolio : RiskPortfolio) (method : MarkMethod)
    (currentTimeNs maxStaleNs : Option Int) :
    (portfolio.marked SortedMap.empty method currentTimeNs maxStaleNs).map
        MarkedPosition.notionalTicks =
      portfolio.positions.entries.map fun entry =>
        entry.2.grossQuantity * entry.2.lastPriceTicks := by
  rw [marked, List.map_map]
  apply List.map_congr_left
  intro entry _
  have exact' := truncate_intCast (entry.2.grossQuantity * entry.2.lastPriceTicks)
  rw [Int.cast_mul] at exact'
  exact exact'

/-- Within the limits `snapshot` without marks returns and reports none of the four breached. -/
theorem snapshot_within {portfolio : RiskPortfolio} (within : portfolio.WithinLimits)
    (sqrt : ℚ → ℚ) (method : MarkMethod) (currentTimeNs maxStaleNs : Option Int) :
    ∃ report, portfolio.snapshot sqrt SortedMap.empty method currentTimeNs maxStaleNs = .ok report ∧
      report.limitsBreached.netPosition = false ∧ report.limitsBreached.grossPosition = false ∧
      report.limitsBreached.grossNotional = false ∧
      report.limitsBreached.concentration = false := by
  have notionals := portfolio.marked_notionalTicks method currentTimeNs maxStaleNs
  have marks : (portfolio.marked SortedMap.empty method currentTimeNs maxStaleNs).any
      (fun turn => turn.mark ≤ 0 ∧ turn.position.quantity ≠ 0) = false := by
    rw [List.any_eq_false]
    intro turn member
    rcases List.mem_map.mp member with ⟨entry, listed, rfl⟩
    simp only [decide_eq_true_eq, not_and, not_not]
    intro unpriced
    by_contra held
    have priced : (0 : ℚ) < entry.2.lastPriceTicks := by
      exact_mod_cast within.priced entry listed held
    exact absurd unpriced (not_le.mpr priced)
  have top : ((portfolio.positions.entries.map fun entry =>
      entry.2.grossQuantity * entry.2.lastPriceTicks).max?).getD 0 ≤
        portfolio.limits.maxConcentrationTicks := by
    cases most : (portfolio.positions.entries.map fun entry =>
        entry.2.grossQuantity * entry.2.lastPriceTicks).max? with
    | none => exact within.some
    | some largest =>
        rcases List.mem_map.mp (List.max?_mem most) with ⟨entry, listed, same⟩
        rw [Option.getD_some, ← same]
        exact within.concentration entry listed
  rw [snapshot, if_neg (by rw [marks]; simp), notionals]
  refine ⟨_, rfl, ?_⟩
  have net := within.net
  have gross := within.gross
  have notional := within.notional
  rw [Portfolio.grossNotional] at notional
  simp only [decide_eq_false_iff_not, Int.not_lt]
  exact ⟨net, gross, notional, top⟩

def Validated (past : List (Op × Output)) : Op → Prop
  | .applyFill instrumentId side quantity priceTicks _ =>
      past.getLast? = some (.validateOrder instrumentId side quantity priceTicks,
        .validated (.ok (true, "approved")))
  | _ => True

/-- No fill raises, and a snapshot without marks reports the four limits as kept. -/
def Upholds : Op → Output → Prop
  | .applyFill _ _ _ _ _, .booked result => ∃ position, result = .ok position
  | .snapshot marks _ _ _, .reported result =>
      marks = SortedMap.empty → ∃ report, result = .ok report ∧
        report.limitsBreached.netPosition = false ∧ report.limitsBreached.grossPosition = false ∧
        report.limitsBreached.grossNotional = false ∧ report.limitsBreached.concentration = false
  | _, _ => True

structure Guarded (sqrt : ℚ → ℚ) (past : List (Op × Output)) (portfolio : RiskPortfolio) : Prop where
  within : portfolio.WithinLimits
  pending : ∀ instrumentId side quantity priceTicks,
    past.getLast? = some (.validateOrder instrumentId side quantity priceTicks,
      .validated (.ok (true, "approved"))) →
    portfolio.Cleared sqrt instrumentId side quantity priceTicks

theorem validateOrder_within {sqrt : ℚ → ℚ} {portfolio : RiskPortfolio}
    (within : portfolio.WithinLimits) (instrumentId side quantity priceTicks : Int) :
    (portfolio.validateOrder sqrt instrumentId side quantity priceTicks).1.WithinLimits := by
  rw [validateOrder]
  split
  · exact within
  · split
    · exact within
    · exact within_withPosition within instrumentId

theorem step_guarded {sqrt : ℚ → ℚ} {past : List (Op × Output)} {portfolio next : RiskPortfolio}
    {op : Op} {output : Output} (guarded : Guarded sqrt past portfolio)
    (validated : Validated past op) (ran : step sqrt portfolio op = some (next, output)) :
    Upholds op output ∧ Guarded sqrt (past ++ [(op, output)]) next := by
  -- Only an approval in the new entry leaves one standing.
  have closed : (∀ instrumentId side quantity priceTicks,
      op ≠ .validateOrder instrumentId side quantity priceTicks) → next.WithinLimits →
      Guarded sqrt (past ++ [(op, output)]) next := by
    intro other within
    constructor
    · exact within
    · intro instrumentId side quantity priceTicks last
      rw [List.getLast?_concat, Option.some.injEq, Prod.mk.injEq] at last
      exact absurd last.1 (other instrumentId side quantity priceTicks)
  cases op with
  | validateOrder instrumentId side quantity priceTicks =>
      cases ran
      constructor
      · trivial
      constructor
      · exact validateOrder_within guarded.within instrumentId side quantity priceTicks
      · intro instrumentId' side' quantity' priceTicks' last
        rw [List.getLast?_concat, Option.some.injEq, Prod.mk.injEq] at last
        rcases last with ⟨same, approved⟩
        cases same
        rw [Output.validated.injEq] at approved
        exact (validateOrder_approved (Prod.ext rfl approved)).2
  | applyFill instrumentId side quantity priceTicks isTaker =>
      cases ran
      have cleared := guarded.pending instrumentId side quantity priceTicks validated
      rcases within_applyFill guarded.within cleared isTaker with ⟨booked, within⟩
      exact ⟨booked, closed (by simp) within⟩
  | registerLocate instrumentId quantity =>
      cases ran
      have within : ({ portfolio with
          toPortfolio := (portfolio.registerLocate instrumentId quantity).1 } :
          RiskPortfolio).WithinLimits := by
        rw [Portfolio.registerLocate]
        split
        · exact guarded.within
        · exact within_of_same guarded.within rfl rfl
      exact ⟨trivial, closed (by simp) within⟩
  | snapshot marks method currentTimeNs maxStaleNs =>
      cases ran
      constructor
      · intro unmarked
        rw [unmarked]
        exact snapshot_within guarded.within sqrt method currentTimeNs maxStaleNs
      · exact closed (by simp) guarded.within

/-- Every fill of the log follows the approval of the same order at once. -/
def EachValidated (log : List (Op × Output)) : Prop :=
  ∀ past op output rest, log = past ++ (op, output) :: rest → Validated past op

theorem create_within {limits : PortfolioLimits} {cash : CashLimits}
    {specs : SortedMap ByInstrument InstrumentSpec} {locates : SortedMap ByInstrument Int}
    {factorModel : Option FactorModel} {start : RiskPortfolio}
    (created : create limits cash specs locates factorModel = .ok start) : start.WithinLimits := by
  rw [create, Portfolio.create] at created
  split at created
  · cases created
  · next positive =>
    cases created
    simp only [not_or, not_le, lt_min_iff] at positive
    rcases positive with ⟨⟨⟨net, gross⟩, notional, concentration⟩, _⟩
    constructor
    · exact net.le
    · exact gross.le
    · exact notional.le
    · intro entry member
      cases member
    · intro entry member
      cases member
    · exact concentration.le

/-- From an empty portfolio, in every run that fills only what was just approved,
no fill raises and no snapshot at the last prices reports one of the four limits
breached. -/
theorem validated_fills_within (sqrt : ℚ → ℚ) (limits : PortfolioLimits) (cash : CashLimits)
    (specs : SortedMap ByInstrument InstrumentSpec) (locates : SortedMap ByInstrument Int)
    (factorModel : Option FactorModel) (start : RiskPortfolio)
    (created : create limits cash specs locates factorModel = .ok start) (ops : List Op) :
    ∃ portfolio log, Machine.exec (step sqrt) start ops = some (portfolio, log) ∧
      (EachValidated log → ∀ entry ∈ log, Upholds entry.1 entry.2) := by
  have total : ∀ (portfolio : RiskPortfolio) (op : Op), True →
      ∃ next output, step sqrt portfolio op = some (next, output) ∧ True := by
    intro portfolio op _
    cases op <;> exact ⟨_, _, rfl, trivial⟩
  rcases Machine.exec_defined _ total trivial ops with ⟨portfolio, log, ran, _⟩
  refine ⟨portfolio, log, ran, ?_⟩
  have kept : EachValidated log →
      Guarded sqrt log portfolio ∧ ∀ entry ∈ log, Upholds entry.1 entry.2 := by
    apply Machine.exec_invariant (fun log portfolio => EachValidated log →
      Guarded sqrt log portfolio ∧ ∀ entry ∈ log, Upholds entry.1 entry.2) _ _ ran
    · intro past before op after output held first each
      have earlier : EachValidated past := by
        intro front op' output' rest same
        exact each front op' output' (rest ++ [(op, output)]) (by simp [same])
      rcases held earlier with ⟨guarded, upheld⟩
      rcases step_guarded guarded (each past op output [] rfl) first with ⟨now, guarded'⟩
      constructor
      · exact guarded'
      · intro entry member
        rcases List.mem_append.mp member with before' | last
        · exact upheld entry before'
        · rw [List.mem_singleton.mp last]
          exact now
    · intro _
      constructor
      · constructor
        · exact create_within created
        · intro instrumentId side quantity priceTicks last
          cases last
      · intro entry member
        cases member
  intro each
  exact (kept each).2

def sampleStart : RiskPortfolio := { limits := ⟨10, 10, 1000, 1000, 0, false, false⟩ }

theorem validated_buy_within :
    ∃ portfolio log, Machine.exec (step fun _ => 0) sampleStart
        [.validateOrder 7 1 5 100, .applyFill 7 1 5 100 true,
          .snapshot SortedMap.empty .last none none] = some (portfolio, log) ∧
      log.length = 3 ∧ ∀ entry ∈ log, Upholds entry.1 entry.2 := by
  rcases validated_fills_within (fun _ => 0) sampleStart.limits {} SortedMap.empty SortedMap.empty
    none sampleStart rfl [.validateOrder 7 1 5 100, .applyFill 7 1 5 100 true,
      .snapshot SortedMap.empty .last none none] with ⟨portfolio, log, ran, kept⟩
  have approved : (sampleStart.validateOrder (fun _ => 0) 7 1 5 100).2 =
      .ok (true, "approved") := by decide +kernel
  rcases Machine.exec_cons_eq_some.mp ran with ⟨_, first, _, validated, later, rfl⟩
  rcases Machine.exec_cons_eq_some.mp later with ⟨_, _, _, _, last, rfl⟩
  rcases Machine.exec_cons_eq_some.mp last with ⟨_, _, _, _, done, rfl⟩
  rw [Machine.exec_nil, Option.some.injEq, Prod.mk.injEq] at done
  rcases done with ⟨_, rfl⟩
  have answered : first = .validated (.ok (true, "approved")) := by
    rw [← approved]
    exact (congrArg Prod.snd (Option.some.inj validated)).symm
  refine ⟨portfolio, _, ran, rfl, kept ?_⟩
  rw [answered]
  intro past op output rest same
  rcases past with _ | ⟨_, _ | ⟨_, _ | ⟨_, _⟩⟩⟩
  · cases same
    trivial
  · cases same
    rfl
  · cases same
    trivial
  · simp at same

end RiskPortfolio

end Ito
