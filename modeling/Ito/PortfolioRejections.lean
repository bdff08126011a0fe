import Ito.FactorVariance

/-! What orders and fills that are turned down leave of a portfolio. `_position` stores an
empty position where it finds none, before the order or the fill is judged. -/

namespace List

theorem max?_getD_zero {first last : List Int} (nonneg : ∀ value ∈ first ++ last, 0 ≤ value) :
    ((first ++ 0 :: last).max?).getD 0 = ((first ++ last).max?).getD 0 := by
  have bounds : ∀ values : List Int, (∀ value ∈ values, 0 ≤ value) →
      ∀ bound, values.max?.getD 0 ≤ bound ↔ 0 ≤ bound ∧ ∀ value ∈ values, value ≤ bound := by
    intro values nonneg bound
    cases greatest : values.max? with
    | none => simp [List.max?_eq_none_iff.mp greatest]
    | some most =>
        rw [Option.getD_some, List.max?_le_iff greatest]
        have least := nonneg most (List.max?_mem greatest)
        refine ⟨fun all => ⟨?_, all⟩, fun both => both.2⟩
        exact least.trans (all most (List.max?_mem greatest))
  apply eq_of_forall_ge_iff
  intro bound
  rw [bounds _ _ bound, bounds _ nonneg bound]
  · constructor
    · rintro ⟨lower, all⟩
      refine ⟨lower, fun value member => all value ?_⟩
      rcases List.mem_append.mp member with early | late
      · exact List.mem_append_left _ early
      · exact List.mem_append_right _ (List.mem_cons_of_mem _ late)
    · rintro ⟨lower, all⟩
      refine ⟨lower, fun value member => ?_⟩
      rcases List.mem_append.mp member with early | late
      · exact all value (List.mem_append_left _ early)
      · rcases List.mem_cons.mp late with zero | late
        · exact zero.trans_le lower
        · exact all value (List.mem_append_right _ late)
  · intro value member
    rcases List.mem_append.mp member with early | late
    · exact nonneg value (List.mem_append_left _ early)
    · rcases List.mem_cons.mp late with zero | late
      · exact zero.ge
      · exact nonneg value (List.mem_append_right _ late)

end List

namespace Ito

structure PortfolioSnapshot.GainsEmpty (instrumentId : Int) (earlier later : PortfolioSnapshot) :
    Prop where
  own : (instrumentId, {}) ∈ later.positions
  positions : later.positions.filter (fun entry => entry.1 ≠ instrumentId) = earlier.positions
  stale : later.stalePositions.filter (fun other => other ≠ instrumentId) = earlier.stalePositions
  rest : { later with
    positions := earlier.positions, stalePositions := earlier.stalePositions } = earlier

/-- What `snapshot` answers before and after the position was gained. -/
inductive PortfolioSnapshot.SameAnswer (instrumentId : Int) :
    Except String PortfolioSnapshot → Except String PortfolioSnapshot → Prop
  | refused (reason : String) : SameAnswer instrumentId (.error reason) (.error reason)
  | reported {earlier later : PortfolioSnapshot} (gains : GainsEmpty instrumentId earlier later) :
      SameAnswer instrumentId (.ok earlier) (.ok later)

theorem PortfolioSnapshot.SameAnswer.floats_iff {instrumentId : Int}
    {earlier later : Except String PortfolioSnapshot} (same : SameAnswer instrumentId earlier later) :
    (∀ report ∈ later.toOption.toList, ∀ value ∈ report.floats, InFloatRange value) ↔
      ∀ report ∈ earlier.toOption.toList, ∀ value ∈ report.floats, InFloatRange value := by
  cases same with
  | refused => rfl
  | @reported earlier later gains =>
      have floats : later.floats = earlier.floats := by
        rw [← gains.rest]
        rfl
      simp [Except.toOption, floats]

namespace MarkedPosition

variable {turn : MarkedPosition}

theorem notionalTicks_nonneg (valid : ¬ (turn.mark ≤ 0 ∧ turn.position.quantity ≠ 0)) :
    0 ≤ turn.notionalTicks := by
  have product : 0 ≤ (turn.position.grossQuantity : ℚ) * turn.mark := by
    rcases not_and_or.mp valid with positive | flat
    · exact mul_nonneg (by exact_mod_cast abs_nonneg turn.position.quantity)
        (not_le.mp positive).le
    · rw [Position.grossQuantity, not_ne_iff.mp flat]
      simp
  rw [notionalTicks, truncate, if_pos product]
  exact Rat.le_floor_iff.mpr (by exact_mod_cast product)

section Empty

variable (empty : turn.position = {})
include empty

theorem notionalTicks_empty : turn.notionalTicks = 0 := by
  have flat : ((turn.position.grossQuantity : ℚ) * turn.mark) = 0 := by
    simp [empty, Position.grossQuantity]
  rw [notionalTicks, flat]
  decide +kernel

theorem cashNotional_empty : turn.cashNotional = 0 := by
  simp [cashNotional, empty]

theorem unrealizedTicks_empty : turn.unrealizedTicks = 0 := by
  simp [unrealizedTicks, empty, Position.unrealizedPnlTicks]

end Empty

/-! One more turn, of an empty position -/

section Gained

variable {first last : List MarkedPosition} {fresh : MarkedPosition}

theorem sum_gained {M : Type} [AddCommMonoid M] (part : MarkedPosition → M)
    (zero : part fresh = 0) :
    ((first ++ fresh :: last).map part).sum = ((first ++ last).map part).sum := by
  simp [zero]

theorem variance_gained (model : FactorModel) (empty : fresh.position = {}) :
    model.calculateVariance ((first ++ fresh :: last).map fun turn =>
      (turn.instrumentId, turn.cashNotional)) =
    model.calculateVariance ((first ++ last).map fun turn =>
      (turn.instrumentId, turn.cashNotional)) := by
  rw [model.calculateVariance_perm (List.perm_middle.map _), List.map_cons,
    cashNotional_empty empty, model.calculateVariance_zero]

theorem top_gained (empty : fresh.position = {})
    (valid : ∀ turn ∈ first ++ last, ¬ (turn.mark ≤ 0 ∧ turn.position.quantity ≠ 0)) :
    (((first ++ fresh :: last).map notionalTicks).max?).getD 0 =
      (((first ++ last).map notionalTicks).max?).getD 0 := by
  have nonneg : ∀ value ∈ first.map notionalTicks ++ last.map notionalTicks, 0 ≤ value := by
    intro value member
    rw [← List.map_append] at member
    rcases List.mem_map.mp member with ⟨turn, among, rfl⟩
    exact notionalTicks_nonneg (valid turn among)
  rw [List.map_append, List.map_cons, notionalTicks_empty empty, List.map_append]
  exact List.max?_getD_zero nonneg

end Gained

theorem stale_gains {instrumentId : Int} {first last : List MarkedPosition}
    {fresh : MarkedPosition} (named : fresh.instrumentId = instrumentId)
    (others : ∀ turn ∈ first ++ last, turn.instrumentId ≠ instrumentId) :
    (((first ++ fresh :: last).filter stale).map MarkedPosition.instrumentId).filter
        (fun other => other ≠ instrumentId) =
      ((first ++ last).filter stale).map MarkedPosition.instrumentId := by
  have unlisted : ∀ turns : List MarkedPosition,
      (∀ turn ∈ turns, turn.instrumentId ≠ instrumentId) →
      ((turns.filter stale).map MarkedPosition.instrumentId).filter
          (fun other => other ≠ instrumentId) =
        (turns.filter stale).map MarkedPosition.instrumentId := by
    intro turns differ
    apply List.filter_eq_self.mpr
    intro listed member
    rcases List.mem_map.mp member with ⟨turn, among, rfl⟩
    exact decide_eq_true (differ turn (List.mem_filter.mp among).1)
  have dropped : (([fresh].filter stale).map MarkedPosition.instrumentId).filter
      (fun other => other ≠ instrumentId) = [] := by
    apply List.filter_eq_nil_iff.mpr
    intro listed member
    rcases List.mem_map.mp member with ⟨turn, among, rfl⟩
    rw [List.mem_singleton.mp (List.mem_filter.mp among).1, named]
    simp
  rw [← List.singleton_append, List.filter_append, List.filter_append, List.map_append,
    List.map_append, List.filter_append, List.filter_append, dropped, List.nil_append,
    unlisted first fun turn member => others turn (List.mem_append_left _ member),
    unlisted last fun turn member => others turn (List.mem_append_right _ member),
    ← List.map_append, ← List.filter_append]

end MarkedPosition

namespace RiskPortfolio

variable (portfolio : RiskPortfolio) (instrumentId : Int)

/-- The portfolio once `_position` has looked the instrument up. -/
def lookUp : RiskPortfolio :=
  { portfolio with toPortfolio := portfolio.store instrumentId (portfolio.position instrumentId) }

def RefusedAtOnce (instrumentId side quantity priceTicks : Int) : Prop :=
  ((side ≠ -1 ∧ side ≠ 1) ∨ quantity ≤ 0 ∨ priceTicks ≤ 0) ∨ instrumentId ≤ 0

instance (side quantity priceTicks : Int) :
    Decidable (RefusedAtOnce instrumentId side quantity priceTicks) :=
  inferInstanceAs (Decidable (_ ∨ _))

theorem lookUp_present {position : Position}
    (present : portfolio.positions.find? instrumentId = some position) :
    portfolio.lookUp instrumentId = portfolio := by
  have same : portfolio.positions.set instrumentId (portfolio.position instrumentId) =
      portfolio.positions := by
    apply SortedMap.ext_find?
    intro other
    rw [SortedMap.find?_set, Portfolio.position, present]
    split
    case isTrue own => rw [own, present, Option.getD_some]
    case isFalse => rfl
  rw [lookUp, Portfolio.store, same]

theorem find?_lookUp (absent : portfolio.positions.find? instrumentId = none) (other : Int) :
    (portfolio.lookUp instrumentId).positions.find? other =
      if other = instrumentId then some {} else portfolio.positions.find? other := by
  have empty : portfolio.position instrumentId = {} := by rw [Portfolio.position, absent]; rfl
  rw [lookUp, empty]
  exact SortedMap.find?_set portfolio.positions instrumentId other {}

section Reports

variable {portfolio instrumentId}
variable (absent : portfolio.positions.find? instrumentId = none)
include absent

theorem positions_lookUp : ∃ first last, portfolio.positions.entries = first ++ last ∧
    (portfolio.lookUp instrumentId).positions.entries = first ++ (instrumentId, {}) :: last := by
  have empty : portfolio.position instrumentId = {} := by rw [Portfolio.position, absent]; rfl
  rw [lookUp, empty]
  exact SortedMap.entries_set_between portfolio.positions absent {}

theorem netPosition_lookUp :
    (portfolio.lookUp instrumentId).netPosition = portfolio.netPosition := by
  rcases positions_lookUp absent with ⟨first, last, held, gained⟩
  rw [Portfolio.netPosition, Portfolio.netPosition, held, gained]
  simp

theorem grossPosition_lookUp :
    (portfolio.lookUp instrumentId).grossPosition = portfolio.grossPosition := by
  rcases positions_lookUp absent with ⟨first, last, held, gained⟩
  rw [Portfolio.grossPosition, Portfolio.grossPosition, held, gained]
  simp [Position.grossQuantity]

variable (marks : SortedMap ByInstrument Mark) (method : MarkMethod)
  (currentTimeNs maxStaleNs : Option Int)

theorem marked_lookUp : ∃ first fresh last,
    portfolio.marked marks method currentTimeNs maxStaleNs = first ++ last ∧
    (portfolio.lookUp instrumentId).marked marks method currentTimeNs maxStaleNs =
      first ++ fresh :: last ∧
    fresh.instrumentId = instrumentId ∧ fresh.position = {} ∧
    fresh.unitValue = (portfolio.spec instrumentId).tickSize *
      (portfolio.spec instrumentId).multiplier ∧
    ∀ turn ∈ first ++ last, turn.instrumentId ≠ instrumentId := by
  have turns : ∃ mark : Int × Position → MarkedPosition,
      (∀ entry, (mark entry).instrumentId = entry.1 ∧ (mark entry).position = entry.2 ∧
        (mark entry).unitValue =
          (portfolio.spec entry.1).tickSize * (portfolio.spec entry.1).multiplier) ∧
      portfolio.marked marks method currentTimeNs maxStaleNs =
        portfolio.positions.entries.map mark ∧
      (portfolio.lookUp instrumentId).marked marks method currentTimeNs maxStaleNs =
        (portfolio.lookUp instrumentId).positions.entries.map mark :=
    ⟨_, fun _ => ⟨rfl, rfl, rfl⟩, rfl, rfl⟩
  rcases turns with ⟨mark, keeps, earlier, later⟩
  rcases positions_lookUp absent with ⟨first, last, held, gained⟩
  refine ⟨first.map mark, mark (instrumentId, {}), last.map mark, ?_, ?_, (keeps _).1,
    (keeps _).2.1, (keeps _).2.2, ?_⟩
  · rw [earlier, held, List.map_append]
  · rw [later, gained, List.map_append, List.map_cons]
  · intro turn member same
    rw [← List.map_append, ← held] at member
    rcases List.mem_map.mp member with ⟨entry, among, made⟩
    have own : entry.1 = instrumentId := by rw [← same, ← made, (keeps entry).1]
    have found := (SortedMap.find?_eq_some portfolio.positions).mpr among
    rw [own, absent] at found
    cases found

theorem snapshot_lookUp (sqrt : ℚ → ℚ) :
    PortfolioSnapshot.SameAnswer instrumentId
      (portfolio.snapshot sqrt marks method currentTimeNs maxStaleNs)
      ((portfolio.lookUp instrumentId).snapshot sqrt marks method currentTimeNs maxStaleNs) := by
  rcases positions_lookUp absent with ⟨before, after, held, gained⟩
  rcases marked_lookUp absent marks method currentTimeNs maxStaleNs with
    ⟨first, fresh, last, turns, more, named, empty, -, others⟩
  have judged : (first ++ fresh :: last).any
      (fun turn => turn.mark ≤ 0 ∧ turn.position.quantity ≠ 0) =
      (first ++ last).any fun turn => turn.mark ≤ 0 ∧ turn.position.quantity ≠ 0 := by
    simp [empty]
  rw [snapshot, snapshot, turns, more]
  dsimp only
  rw [judged]
  by_cases invalid : ((first ++ last).any fun turn =>
      decide (turn.mark ≤ 0 ∧ turn.position.quantity ≠ 0)) = true
  · rw [if_pos invalid, if_pos invalid]
    exact .refused _
  · rw [if_neg invalid, if_neg invalid]
    have valid : ∀ turn ∈ first ++ last, ¬ (turn.mark ≤ 0 ∧ turn.position.quantity ≠ 0) :=
      fun turn among bad => invalid (List.any_eq_true.mpr ⟨turn, among, decide_eq_true bad⟩)
    refine .reported ⟨?_, ?_, ?_, ?_⟩
    · rw [gained]
      exact List.mem_append_right _ List.mem_cons_self
    · rw [gained, List.filter_append, List.filter_cons_of_neg (by simp), ← List.filter_append,
        ← held]
      exact SortedMap.entries_erase_absent portfolio.positions absent
    · exact MarkedPosition.stale_gains named others
    · have notional := MarkedPosition.notionalTicks_empty empty
      have cash := MarkedPosition.cashNotional_empty empty
      have unrealized := MarkedPosition.unrealizedTicks_empty empty
      have grossCash : (fresh.position.grossQuantity : ℚ) * fresh.mark * fresh.unitValue = 0 := by
        simp [empty, Position.grossQuantity]
      have unrealizedCash : fresh.unrealizedTicks * fresh.unitValue = 0 := by simp [unrealized]
      have realized : fresh.position.realizedPnlTicks = 0 := by rw [empty]
      have realizedCash : fresh.position.realizedPnlCash = 0 := by rw [empty]
      have fees : fresh.position.feesPaidCash = 0 := by rw [empty]
      simp only [netPosition_lookUp absent, grossPosition_lookUp absent,
        MarkedPosition.top_gained empty valid, MarkedPosition.variance_gained _ empty,
        MarkedPosition.sum_gained MarkedPosition.notionalTicks notional,
        MarkedPosition.sum_gained MarkedPosition.cashNotional cash,
        MarkedPosition.sum_gained MarkedPosition.unrealizedTicks unrealized,
        MarkedPosition.sum_gained (fun turn => turn.position.realizedPnlTicks) realized,
        MarkedPosition.sum_gained (fun turn => turn.position.realizedPnlCash) realizedCash,
        MarkedPosition.sum_gained (fun turn => turn.position.feesPaidCash) fees,
        MarkedPosition.sum_gained
          (fun turn => (turn.position.grossQuantity : ℚ) * turn.mark * turn.unitValue) grossCash,
        MarkedPosition.sum_gained (fun turn => turn.unrealizedTicks * turn.unitValue)
          unrealizedCash,
        FactorModel.parametricVar, FactorModel.expectedShortfall]
      rfl

/-- The mark and the unit value that `snapshot` computes for the new position are finite. -/
def MarkFits (portfolio : RiskPortfolio) (instrumentId : Int) (marks : SortedMap ByInstrument Mark)
    (method : MarkMethod) : Prop :=
  InFloatRange (({} : Position).markTicks method ((marks.find? instrumentId).getD (.ticks 0))) ∧
    InFloatRange ((portfolio.spec instrumentId).tickSize *
      (portfolio.spec instrumentId).multiplier)

theorem markedTicks_lookUp :
    (∀ ticks ∈ (portfolio.lookUp instrumentId).markedTicks marks method, InFloatRange ticks) ↔
      InFloatRange (({} : Position).markTicks method
          ((marks.find? instrumentId).getD (.ticks 0))) ∧
        ∀ ticks ∈ portfolio.markedTicks marks method, InFloatRange ticks := by
  rcases positions_lookUp absent with ⟨first, last, held, gained⟩
  rw [markedTicks, markedTicks, held, gained]
  simp only [List.map_append, List.map_cons, List.forall_mem_append, List.forall_mem_cons]
  exact and_left_comm

theorem floats_lookUp (fits : InFloatRange ((portfolio.spec instrumentId).tickSize *
      (portfolio.spec instrumentId).multiplier)) :
    (∀ turn ∈ (portfolio.lookUp instrumentId).marked marks method currentTimeNs maxStaleNs,
        ∀ value ∈ turn.floats, InFloatRange value) ↔
      ∀ turn ∈ portfolio.marked marks method currentTimeNs maxStaleNs,
        ∀ value ∈ turn.floats, InFloatRange value := by
  rcases marked_lookUp absent marks method currentTimeNs maxStaleNs with
    ⟨first, fresh, last, turns, more, -, empty, unit, -⟩
  have own : ∀ value ∈ fresh.floats, InFloatRange value := by
    have zero : InFloatRange 0 := by decide +kernel
    have cash := MarkedPosition.cashNotional_empty empty
    have unrealized := MarkedPosition.unrealizedTicks_empty empty
    rw [MarkedPosition.floats, cash, unrealized, empty, unit]
    simpa [Position.grossQuantity, zero] using fits
  rw [turns, more]
  simp only [List.forall_mem_append, List.forall_mem_cons]
  exact ⟨fun all => ⟨all.1, all.2.2⟩, fun all => ⟨all.1, own, all.2⟩⟩

/-- Where the mark of the new position is finite, the same calls stay finite, and the answers are
the same but for that position. -/
theorem finiteSnapshot_lookUp (sqrt : ℚ → ℚ) (fits : portfolio.MarkFits instrumentId marks method) :
    Option.Rel (PortfolioSnapshot.SameAnswer instrumentId)
      (portfolio.finiteSnapshot sqrt marks method currentTimeNs maxStaleNs)
      ((portfolio.lookUp instrumentId).finiteSnapshot sqrt marks method currentTimeNs
        maxStaleNs) := by
  have same := snapshot_lookUp absent marks method currentTimeNs maxStaleNs sqrt
  rw [finiteSnapshot, finiteSnapshot]
  simp only [markedTicks_lookUp absent, floats_lookUp absent marks method currentTimeNs maxStaleNs
    fits.2, fits.1, true_and, same.floats_iff]
  split
  · exact .some same
  · exact .none

end Reports

/-! The calls -/

theorem validateOrder_leaves (sqrt : ℚ → ℚ) (side quantity priceTicks : Int) :
    (portfolio.validateOrder sqrt instrumentId side quantity priceTicks).1 =
      if RefusedAtOnce instrumentId side quantity priceTicks then portfolio
      else portfolio.lookUp instrumentId := by
  rw [validateOrder]
  split
  case isTrue invalid =>
    have refused : RefusedAtOnce instrumentId side quantity priceTicks := Or.inl invalid
    rw [if_pos refused]
  case isFalse valid =>
    split
    case isTrue invalid =>
      have refused : RefusedAtOnce instrumentId side quantity priceTicks := Or.inr invalid
      rw [if_pos refused]
    case isFalse known =>
      have seen : ¬ RefusedAtOnce instrumentId side quantity priceTicks :=
        fun refused => refused.elim valid known
      rw [if_neg seen]
      rfl

theorem applyFill_leaves {side quantity priceTicks : Int} {isTaker : Bool} {reason : String}
    (raised : (portfolio.applyFill instrumentId side quantity priceTicks isTaker).2 =
      .error reason) :
    { portfolio with
      toPortfolio :=
        (portfolio.applyFill instrumentId side quantity priceTicks isTaker).1 } =
      if RefusedAtOnce instrumentId side quantity priceTicks then portfolio
      else portfolio.lookUp instrumentId := by
  rw [Portfolio.applyFill] at raised ⊢
  split
  case isTrue invalid =>
    have refused : RefusedAtOnce instrumentId side quantity priceTicks := Or.inl invalid
    rw [if_pos refused]
  case isFalse valid =>
    rw [if_neg valid] at raised
    split
    case isTrue invalid =>
      have refused : RefusedAtOnce instrumentId side quantity priceTicks := Or.inr invalid
      rw [if_pos refused]
    case isFalse known =>
      rw [if_neg known] at raised
      have seen : ¬ RefusedAtOnce instrumentId side quantity priceTicks :=
        fun refused => refused.elim valid known
      rw [if_neg seen]
      dsimp only at raised ⊢
      cases located : portfolio.locateShort instrumentId side quantity with
      | error refusal => rfl
      | ok locates => simp [located] at raised

/-- An order, or a fill that is turned down, leaves at most an empty position behind: the
limits, the specifications and the locates are the same, nothing else is in the positions, and
the reports differ in that entry only, where the instrument's mark is a finite float. -/
theorem rejections_leave_at_most_empty (sqrt : ℚ → ℚ) {side quantity priceTicks : Int}
    {isTaker : Bool} {op : Op} {next : RiskPortfolio} {output : Output}
    (called : op = .validateOrder instrumentId side quantity priceTicks ∨
      op = .applyFill instrumentId side quantity priceTicks isTaker)
    (stepped : portfolio.step sqrt op = some (next, output))
    (rejected : ∀ position, output ≠ .booked (.ok position)) :
    (next.limits = portfolio.limits ∧ next.specs = portfolio.specs ∧
      next.cash = portfolio.cash ∧ next.factorModel = portfolio.factorModel ∧
      next.locates = portfolio.locates) ∧
    (RefusedAtOnce instrumentId side quantity priceTicks ∨
      (portfolio.positions.find? instrumentId).isSome → next = portfolio) ∧
    (¬ RefusedAtOnce instrumentId side quantity priceTicks →
      portfolio.positions.find? instrumentId = none →
      (∀ other, next.positions.find? other =
        if other = instrumentId then some {} else portfolio.positions.find? other) ∧
      ∀ marks method currentTimeNs maxStaleNs, portfolio.MarkFits instrumentId marks method →
        Option.Rel (PortfolioSnapshot.SameAnswer instrumentId)
          (portfolio.finiteSnapshot sqrt marks method currentTimeNs maxStaleNs)
          (next.finiteSnapshot sqrt marks method currentTimeNs maxStaleNs)) := by
  have leaves : next = if RefusedAtOnce instrumentId side quantity priceTicks then portfolio
      else portfolio.lookUp instrumentId := by
    rcases called with rfl | rfl
    · rcases Prod.mk.inj (Option.some.inj stepped) with ⟨rfl, -⟩
      exact portfolio.validateOrder_leaves instrumentId sqrt side quantity priceTicks
    · rcases Prod.mk.inj (Option.some.inj stepped) with ⟨rfl, rfl⟩
      cases booked : (portfolio.applyFill instrumentId side quantity priceTicks isTaker).2 with
      | ok position => exact absurd (congrArg Output.booked booked) (rejected position)
      | error reason => exact portfolio.applyFill_leaves instrumentId booked
  refine ⟨?_, ?_, ?_⟩
  · rw [leaves]
    split <;> exact ⟨rfl, rfl, rfl, rfl, rfl⟩
  · rintro (refused | held)
    · rw [leaves, if_pos refused]
    · rcases Option.isSome_iff_exists.mp held with ⟨position, present⟩
      rw [leaves, portfolio.lookUp_present instrumentId present, ite_self]
  · intro seen absent
    rw [leaves, if_neg seen]
    exact ⟨portfolio.find?_lookUp instrumentId absent,
      fun marks method currentTimeNs maxStaleNs fits =>
        finiteSnapshot_lookUp absent marks method currentTimeNs maxStaleNs sqrt fits⟩

/-- The limits of the source's own tests of short sales, without short sales. -/
def longOnly : RiskPortfolio where
  limits := ⟨100, 100, 50000, 50000, 10000, false, false⟩
  specs := SortedMap.empty

def hugePrice : SortedMap ByInstrument Mark := ⟨[(7, .ticks (10 ^ 400))], List.pairwise_singleton _ _⟩

/-- The position that an order has looked up stays, in the portfolio and in its reports, and
so does that of a short sale that is refused. A price that was not read before is then one that
no float holds. -/
theorem validate_order_stores_position :
    (longOnly.validateOrder id 7 1 1 100).2.toOption = some (true, "approved") ∧
    longOnly.positions.entries = [] ∧
    (longOnly.validateOrder id 7 1 1 100).1.positions.entries = [(7, {})] ∧
    (longOnly.snapshot id SortedMap.empty .last none none).toOption.map
      PortfolioSnapshot.positions = some [] ∧
    ((longOnly.validateOrder id 7 1 1 100).1.snapshot id SortedMap.empty .last none
      none).toOption.map PortfolioSnapshot.positions = some [(7, {})] ∧
    (longOnly.finiteSnapshot id hugePrice .last none none).isSome ∧
    (longOnly.validateOrder id 7 1 1 100).1.finiteSnapshot id hugePrice .last none none = none ∧
    (longOnly.applyFill 7 (-1) 1 100).1.positions.entries = [(7, {})] := by
  decide +kernel

theorem rejections_leave_at_most_empty_short :
    ∃ next, longOnly.step id (.applyFill 7 (-1) 1 100 true) =
        some (next, .booked (.error "short_sale_disabled")) ∧
      next.locates = longOnly.locates ∧ next.positions.find? 7 = some {} := by
  have stepped : longOnly.step id (.applyFill 7 (-1) 1 100 true) =
      some (longOnly.lookUp 7, .booked (.error "short_sale_disabled")) := rfl
  have leaves := rejections_leave_at_most_empty longOnly 7 id (Or.inr rfl) stepped
    fun position same => by cases same
  exact ⟨_, stepped, leaves.1.2.2.2.2, (leaves.2.2 (by decide) rfl).1 7⟩

end RiskPortfolio

end Ito
