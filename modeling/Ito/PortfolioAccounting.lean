import Ito.Library.Machine
import Ito.Portfolio
import Mathlib.Tactic.Ring
import Mathlib.Tactic.FieldSimp
import Mathlib.Tactic.Linarith
import Mathlib.Tactic.Positivity

/-! What a position is worth in terms of the fills that were booked into it. -/

namespace Ito

structure FillRecord where
  side : Int
  quantity : Int
  priceTicks : Int
  deriving DecidableEq, Repr

namespace FillRecord

def signed (fill : FillRecord) : Int := fill.side * fill.quantity

/-- What the guard of `apply_fill` lets through. -/
structure Valid (fill : FillRecord) : Prop where
  side : fill.side = -1 ∨ fill.side = 1
  quantity : 0 < fill.quantity
  price : 0 < fill.priceTicks

def net (fills : List FillRecord) : Int := (fills.map signed).sum

/-- The profit of the fills when the instrument trades at `mark`. -/
def worth (fills : List FillRecord) (mark : ℚ) : ℚ :=
  (fills.map fun fill => (fill.signed : ℚ) * (mark - fill.priceTicks)).sum

/-- The net quantity, and the fills since it was last zero or last changed its
sign. The fill that changes the sign is the first of the new ones. -/
def extend (past : Int × List FillRecord) (fill : FillRecord) : Int × List FillRecord :=
  let after := past.1 + fill.signed
  if past.1 = 0 ∨ (0 < past.1 ∧ after < 0) ∨ (past.1 < 0 ∧ 0 < after) then (after, [fill])
  else (after, past.2 ++ [fill])

def episode (fills : List FillRecord) : Int × List FillRecord := fills.foldl extend (0, [])

theorem abs_signed {fill : FillRecord} (valid : fill.Valid) : |fill.signed| = fill.quantity := by
  rw [signed, abs_mul, abs_of_pos valid.quantity]
  rcases valid.side with sell | buy
  · simp [sell]
  · simp [buy]

theorem net_append (fills : List FillRecord) (fill : FillRecord) :
    net (fills ++ [fill]) = net fills + fill.signed := by
  simp [net]

theorem worth_append (fills : List FillRecord) (fill : FillRecord) (mark : ℚ) :
    worth (fills ++ [fill]) mark = worth fills mark + fill.signed * (mark - fill.priceTicks) := by
  simp [worth]

theorem episode_append (fills : List FillRecord) (fill : FillRecord) :
    episode (fills ++ [fill]) = extend (episode fills) fill := by
  simp [episode]

theorem mem_extend {past : Int × List FillRecord} {fill other : FillRecord}
    (member : other ∈ (extend past fill).2) : other ∈ past.2 ∨ other = fill := by
  rw [extend] at member
  split at member
  · right
    simpa using member
  · simpa using member

theorem self_mem_extend (past : Int × List FillRecord) (fill : FillRecord) :
    fill ∈ (extend past fill).2 := by
  rw [extend]
  split <;> simp

@[simp] theorem extend_fst (past : Int × List FillRecord) (fill : FillRecord) :
    (extend past fill).1 = past.1 + fill.signed := by
  rw [extend]
  split <;> rfl

theorem mem_extend_of_mem {past : Int × List FillRecord} {fill other : FillRecord}
    (held : past.1 ≠ 0) (sameSign : 0 ≤ past.1 * (past.1 + fill.signed))
    (member : other ∈ past.2) : other ∈ (extend past fill).2 := by
  have stays : ¬ (past.1 = 0 ∨ (0 < past.1 ∧ past.1 + fill.signed < 0) ∨
      (past.1 < 0 ∧ 0 < past.1 + fill.signed)) := by
    intro broken
    rcases broken with zero | down | up
    · exact held zero
    · have := mul_neg_of_pos_of_neg down.1 down.2
      omega
    · have := mul_neg_of_neg_of_pos up.1 up.2
      omega
  rw [extend, if_neg stays]
  exact List.mem_append_left _ member

end FillRecord

open FillRecord

/-- The position books the fills: its quantity and its worth are theirs, and its
average lies among the prices of the current episode. -/
structure Books (fills : List FillRecord) (position : Position) : Prop where
  quantity : position.quantity = net fills
  worth : ∀ mark : ℚ, position.realizedPnlTicks +
    position.quantity * (mark - position.averagePriceTicks) = worth fills mark
  flat : position.quantity = 0 → position.averagePriceTicks = 0
  between : position.quantity ≠ 0 → ∃ low ∈ (episode fills).2, ∃ high ∈ (episode fills).2,
    (low.priceTicks : ℚ) ≤ position.averagePriceTicks ∧
      position.averagePriceTicks ≤ high.priceTicks
  held : (episode fills).1 = position.quantity
  positive : ∀ fill ∈ (episode fills).2, 0 < fill.priceTicks

namespace Position

variable {position : Position} (spec : InstrumentSpec) {fill : FillRecord}

def moved (position : Position) (spec : InstrumentSpec) (fill : FillRecord) : Position :=
  position.move spec fill.side fill.quantity fill.priceTicks

theorem moved_quantity : (position.moved spec fill).quantity = position.quantity + fill.signed := by
  rw [moved, move]
  split <;> rfl

theorem moved_adding (adding : position.quantity = 0 ∨ 0 < position.quantity * fill.signed) :
    (position.moved spec fill).realizedPnlTicks = position.realizedPnlTicks ∧
    (position.moved spec fill).averagePriceTicks =
      ((|position.quantity| : Int) * position.averagePriceTicks +
        fill.quantity * fill.priceTicks) / ((|position.quantity| + fill.quantity : Int) : ℚ) := by
  have opens : position.quantity = 0 ∨ (0 < position.quantity ∧ 0 < fill.signed) ∨
      (position.quantity < 0 ∧ fill.signed < 0) := by
    rcases adding with zero | same
    · exact Or.inl zero
    · exact Or.inr (mul_pos_iff.mp same)
  simp only [moved, move, signed] at opens ⊢
  rw [if_pos opens]
  simp

theorem adding_or_closing (position : Position) (valid : fill.Valid) :
    (position.quantity = 0 ∨ 0 < position.quantity * fill.signed) ∨
      position.quantity * fill.signed < 0 := by
  have quantity := valid.quantity
  have moves : fill.signed ≠ 0 := by
    rw [← abs_pos, abs_signed valid]
    exact quantity
  by_cases zero : position.quantity = 0
  · exact Or.inl (Or.inl zero)
  · have product := mul_ne_zero zero moves
    omega

theorem quantity_eq_of_adding (valid : fill.Valid)
    (adding : position.quantity = 0 ∨ 0 < position.quantity * fill.signed) :
    position.quantity = fill.side * |position.quantity| := by
  have quantity := valid.quantity
  rcases adding with zero | same
  · simp [zero]
  · rw [signed] at same
    rcases valid.side with sell | buy
    · rw [sell] at same ⊢
      rw [abs_of_neg (by nlinarith)]
      ring
    · rw [buy] at same ⊢
      rw [abs_of_pos (by nlinarith), one_mul]

theorem moved_closing (valid : fill.Valid) (closing : position.quantity * fill.signed < 0) :
    (position.moved spec fill).realizedPnlTicks = position.realizedPnlTicks +
      ((if |position.quantity| < |fill.signed| then position.quantity else -fill.signed : Int) : ℚ) *
        (fill.priceTicks - position.averagePriceTicks) ∧
    (position.moved spec fill).averagePriceTicks =
      if position.quantity + fill.signed = 0 then 0
      else if |position.quantity| < |fill.signed| then (fill.priceTicks : ℚ)
      else position.averagePriceTicks := by
  have closes : ¬ (position.quantity = 0 ∨ (0 < position.quantity ∧ 0 < fill.signed) ∨
      (position.quantity < 0 ∧ fill.signed < 0)) := by
    intro opens
    rcases opens with zero | same
    · simp [zero] at closing
    · have := mul_pos_iff.mpr same
      omega
  have size := abs_signed valid
  have quantity := valid.quantity
  simp only [moved, move, signed] at closes closing size ⊢
  simp only [if_neg closes, size]
  constructor
  · rcases valid.side with sell | buy
    · have long : 0 < position.quantity := by
        rw [sell] at closing
        nlinarith
      simp only [if_pos long, abs_of_pos long, sell]
      split
      · rw [min_eq_left (by omega)]
      · rw [min_eq_right (by omega)]
        push_cast
        ring
    · have short : position.quantity < 0 := by
        rw [buy] at closing
        nlinarith
      have noLong : ¬ 0 < position.quantity := by omega
      simp only [if_neg noLong, abs_of_neg short, buy]
      split
      · rw [min_eq_left (by omega)]
        push_cast
        ring
      · rw [min_eq_right (by omega)]
        push_cast
        ring
  · trivial

theorem total_pos (position : Position) (valid : fill.Valid) :
    0 < ((|position.quantity| + fill.quantity : Int) : ℚ) := by
  have quantity := valid.quantity
  have size := abs_nonneg position.quantity
  have total : 0 < |position.quantity| + fill.quantity := by omega
  exact_mod_cast total

theorem moved_worth (valid : fill.Valid) (mark : ℚ) :
    (position.moved spec fill).realizedPnlTicks + (position.moved spec fill).quantity *
        (mark - (position.moved spec fill).averagePriceTicks) =
      position.realizedPnlTicks + position.quantity * (mark - position.averagePriceTicks) +
        fill.signed * (mark - fill.priceTicks) := by
  rw [moved_quantity]
  rcases adding_or_closing position valid with adding | closing
  · rcases moved_adding spec adding with ⟨realized, average⟩
    have total := (total_pos position valid).ne'
    have whole : ((position.quantity + fill.signed : Int) : ℚ) *
        (position.moved spec fill).averagePriceTicks =
        position.quantity * position.averagePriceTicks + fill.signed * fill.priceTicks := by
      have side := quantity_eq_of_adding valid adding
      have sum : position.quantity + fill.signed =
          fill.side * (|position.quantity| + fill.quantity) := by
        rw [signed, mul_add, ← side]
      rw [average, sum, Int.cast_mul, mul_assoc, mul_div_cancel₀ _ total, signed]
      nth_rewrite 2 [side]
      push_cast
      ring
    rw [realized, mul_sub, whole]
    push_cast
    ring
  · rcases moved_closing spec valid closing with ⟨realized, average⟩
    rw [realized, average]
    by_cases flat : position.quantity + fill.signed = 0
    · have opposite : fill.signed = -position.quantity := by omega
      rw [if_pos flat, opposite]
      simp
      ring
    · rw [if_neg flat]
      split
      · push_cast
        ring
      · push_cast
        ring

theorem moved_average_adding (valid : fill.Valid)
    (adding : position.quantity = 0 ∨ 0 < position.quantity * fill.signed) (bound : ℚ) :
    ((position.quantity ≠ 0 → bound ≤ position.averagePriceTicks) → bound ≤ fill.priceTicks →
      bound ≤ (position.moved spec fill).averagePriceTicks) ∧
    ((position.quantity ≠ 0 → position.averagePriceTicks ≤ bound) → fill.priceTicks ≤ bound →
      (position.moved spec fill).averagePriceTicks ≤ bound) := by
  have total := total_pos position valid
  have quantity : (0 : ℚ) < fill.quantity := by exact_mod_cast valid.quantity
  have size : (0 : ℚ) ≤ (|position.quantity| : Int) := by exact_mod_cast abs_nonneg _
  rw [(moved_adding spec adding).2, le_div_iff₀ total, div_le_iff₀ total]
  push_cast at size ⊢
  by_cases zero : position.quantity = 0
  · rw [zero]
    simp only [Int.cast_zero, abs_zero, zero_add, zero_mul]
    constructor
    · intro _ price
      nlinarith
    · intro _ price
      nlinarith
  · constructor
    · intro average price
      have average := average zero
      nlinarith
    · intro average price
      have average := average zero
      nlinarith

end Position

namespace Books

variable {fills : List FillRecord} {position : Position} {fill : FillRecord}

theorem quantity_moved_ne_zero (valid : fill.Valid) (spec : InstrumentSpec)
    (adding : position.quantity = 0 ∨ 0 < position.quantity * fill.signed) :
    (position.moved spec fill).quantity ≠ 0 := by
  have quantity := valid.quantity
  have size := abs_nonneg position.quantity
  rw [Position.moved_quantity, Position.quantity_eq_of_adding valid adding, signed, ← mul_add]
  apply mul_ne_zero
  · rcases valid.side with sell | buy
    · omega
    · omega
  · omega

theorem between_adding (books : Books fills position) (valid : fill.Valid) (spec : InstrumentSpec)
    (adding : position.quantity = 0 ∨ 0 < position.quantity * fill.signed) :
    ∃ low ∈ (episode (fills ++ [fill])).2, ∃ high ∈ (episode (fills ++ [fill])).2,
      (low.priceTicks : ℚ) ≤ (position.moved spec fill).averagePriceTicks ∧
        (position.moved spec fill).averagePriceTicks ≤ high.priceTicks := by
  rw [episode_append]
  have last := self_mem_extend (episode fills) fill
  have bounds := Position.moved_average_adding spec valid adding
  by_cases zero : position.quantity = 0
  · have skip : ∀ claim : Prop, position.quantity ≠ 0 → claim := fun _ held => absurd zero held
    exact ⟨fill, last, fill, last, (bounds fill.priceTicks).1 (skip _) le_rfl,
      (bounds fill.priceTicks).2 (skip _) le_rfl⟩
  · rcases books.between zero with ⟨low, lowMember, high, highMember, lower, upper⟩
    have stays : ∀ other ∈ (episode fills).2, other ∈ (extend (episode fills) fill).2 := by
      intro other member
      apply mem_extend_of_mem _ _ member
      · rw [books.held]
        exact zero
      · rw [books.held]
        have same := adding.resolve_left zero
        nlinarith [mul_self_nonneg position.quantity]
    have lowest : ∃ low ∈ (extend (episode fills) fill).2,
        (low.priceTicks : ℚ) ≤ (position.moved spec fill).averagePriceTicks := by
      rcases le_total (low.priceTicks : ℚ) fill.priceTicks with below | above
      · exact ⟨low, stays low lowMember, (bounds _).1 (fun _ => lower) below⟩
      · exact ⟨fill, last, (bounds _).1 (fun _ => above.trans lower) le_rfl⟩
    have highest : ∃ high ∈ (extend (episode fills) fill).2,
        (position.moved spec fill).averagePriceTicks ≤ high.priceTicks := by
      rcases le_total (fill.priceTicks : ℚ) high.priceTicks with below | above
      · exact ⟨high, stays high highMember, (bounds _).2 (fun _ => upper) below⟩
      · exact ⟨fill, last, (bounds _).2 (fun _ => upper.trans above) le_rfl⟩
    rcases lowest with ⟨low, lowMember, lower⟩
    rcases highest with ⟨high, highMember, upper⟩
    exact ⟨low, lowMember, high, highMember, lower, upper⟩

/-- A fill that turns the position around starts an episode at its own price; one
that only reduces it leaves the average where it is. -/
theorem between_closing (books : Books fills position) (valid : fill.Valid) (spec : InstrumentSpec)
    (closing : position.quantity * fill.signed < 0)
    (stillHeld : position.quantity + fill.signed ≠ 0) :
    ∃ low ∈ (episode (fills ++ [fill])).2, ∃ high ∈ (episode (fills ++ [fill])).2,
      (low.priceTicks : ℚ) ≤ (position.moved spec fill).averagePriceTicks ∧
        (position.moved spec fill).averagePriceTicks ≤ high.priceTicks := by
  rw [episode_append, (Position.moved_closing spec valid closing).2, if_neg stillHeld]
  by_cases turned : |position.quantity| < |fill.signed|
  · have last := self_mem_extend (episode fills) fill
    rw [if_pos turned]
    exact ⟨fill, last, fill, last, le_rfl, le_rfl⟩
  · have held : position.quantity ≠ 0 := by
      intro zero
      simp [zero] at closing
    have sameSign : 0 ≤ position.quantity * (position.quantity + fill.signed) := by
      rcases mul_neg_iff.mp closing with long | short
      · rw [abs_of_pos long.1, abs_of_neg long.2] at turned
        exact mul_nonneg (by omega) (by omega)
      · rw [abs_of_neg short.1, abs_of_pos short.2] at turned
        exact mul_nonneg_of_nonpos_of_nonpos (by omega) (by omega)
    rw [if_neg turned]
    rw [← books.held] at held sameSign
    rcases books.between (by rwa [← books.held]) with
      ⟨low, lowMember, high, highMember, lower, upper⟩
    exact ⟨low, mem_extend_of_mem held sameSign lowMember, high,
      mem_extend_of_mem held sameSign highMember, lower, upper⟩

theorem moved (books : Books fills position) (valid : fill.Valid) (spec : InstrumentSpec) :
    Books (fills ++ [fill]) (position.moved spec fill) := by
  constructor
  · rw [Position.moved_quantity, net_append, books.quantity]
  · intro mark
    rw [Position.moved_worth spec valid, worth_append, books.worth]
  · intro zero
    rcases Position.adding_or_closing position valid with adding | closing
    · exact absurd zero (quantity_moved_ne_zero valid spec adding)
    · rw [Position.moved_quantity] at zero
      rw [(Position.moved_closing spec valid closing).2, if_pos zero]
  · intro held
    rcases Position.adding_or_closing position valid with adding | closing
    · exact between_adding books valid spec adding
    · rw [Position.moved_quantity] at held
      exact between_closing books valid spec closing held
  · rw [episode_append, extend_fst, books.held, Position.moved_quantity]
  · intro other member
    rw [episode_append] at member
    rcases mem_extend member with earlier | rfl
    · exact books.positive other earlier
    · exact valid.price

theorem charged (books : Books fills position) (spec : InstrumentSpec)
    (last quantity priceTicks : Int) (isTaker : Bool) :
    Books fills ({ position with lastPriceTicks := last }.charge spec quantity priceTicks isTaker) :=
  ⟨books.quantity, books.worth, books.flat, books.between, books.held, books.positive⟩

theorem average_eq_zero_iff (books : Books fills position) :
    position.averagePriceTicks = 0 ↔ position.quantity = 0 := by
  constructor
  · intro zero
    by_contra held
    rcases books.between held with ⟨low, member, _, _, lower, _⟩
    have positive : (0 : ℚ) < low.priceTicks := by exact_mod_cast books.positive low member
    rw [zero] at lower
    exact absurd lower (not_le.mpr positive)
  · exact books.flat

end Books

namespace Portfolio

def acceptedFill (instrumentId : Int) : Op × Output → Option FillRecord
  | (.applyFill instrument side quantity priceTicks _, .booked (.ok _)) =>
      if instrument = instrumentId then some ⟨side, quantity, priceTicks⟩ else none
  | _ => none

def acceptedFills (instrumentId : Int) (log : List (Op × Output)) : List FillRecord :=
  log.filterMap (acceptedFill instrumentId)

theorem position_store (portfolio : Portfolio) (instrumentId other : Int) (position : Position) :
    (portfolio.store instrumentId position).position other =
      if other = instrumentId then position else portfolio.position other := by
  rw [Portfolio.position, store, SortedMap.find?_set]
  split <;> rfl

/-- A fill that raises leaves every position as it was; one that is accepted was
valid and moves the position of its instrument only. -/
theorem applyFill_cases (portfolio : Portfolio) (instrumentId side quantity priceTicks : Int)
    (isTaker : Bool) (next : Portfolio × Except String Position)
    (applied : portfolio.applyFill instrumentId side quantity priceTicks isTaker = next) :
    ((∃ reason, next.2 = .error reason) ∧
      ∀ other, next.1.position other = portfolio.position other) ∨
    ((∃ booked, next.2 = .ok booked) ∧ FillRecord.Valid ⟨side, quantity, priceTicks⟩ ∧
      ∀ other, next.1.position other =
        if other = instrumentId then
          { (portfolio.position instrumentId).moved (portfolio.spec instrumentId)
              ⟨side, quantity, priceTicks⟩ with lastPriceTicks := priceTicks }.charge
            (portfolio.spec instrumentId) quantity priceTicks isTaker
        else portfolio.position other) := by
  subst applied
  rw [applyFill]
  by_cases broken : (side ≠ -1 ∧ side ≠ 1) ∨ quantity ≤ 0 ∨ priceTicks ≤ 0
  · rw [if_pos broken]
    exact Or.inl ⟨⟨_, rfl⟩, fun _ => rfl⟩
  rw [if_neg broken]
  by_cases unnamed : instrumentId ≤ 0
  · rw [if_pos unnamed]
    exact Or.inl ⟨⟨_, rfl⟩, fun _ => rfl⟩
  rw [if_neg unnamed]
  cases located : portfolio.locateShort instrumentId side quantity with
  | error reason =>
      left
      simp only
      constructor
      · exact ⟨reason, rfl⟩
      · intro other
        rw [position_store]
        split
        · rename_i same
          rw [same]
        · rfl
  | ok locates =>
      right
      simp only
      constructor
      · exact ⟨_, rfl⟩
      constructor
      · constructor <;> simp only <;> omega
      · intro other
        exact position_store portfolio instrumentId other _

theorem registerLocate_position (portfolio : Portfolio) (instrumentId quantity other : Int) :
    (portfolio.registerLocate instrumentId quantity).1.position other =
      portfolio.position other := by
  rw [registerLocate]
  split
  · rfl
  · rfl

theorem acceptedFills_append (instrumentId : Int) (log : List (Op × Output)) (op : Op)
    (output : Output) : acceptedFills instrumentId (log ++ [(op, output)]) =
      acceptedFills instrumentId log ++ (acceptedFill instrumentId (op, output)).toList := by
  rw [acceptedFills, List.filterMap_append]
  cases found : acceptedFill instrumentId (op, output) with
  | none => simp [acceptedFills, found]
  | some fill => simp [acceptedFills, found]

theorem step_books {portfolio after : Portfolio} {log : List (Op × Output)} {op : Op}
    {output : Output} (taken : portfolio.step op = some (after, output)) (instrumentId : Int)
    (books : Books (acceptedFills instrumentId log) (portfolio.position instrumentId)) :
    Books (acceptedFills instrumentId (log ++ [(op, output)])) (after.position instrumentId) := by
  rw [acceptedFills_append]
  cases op with
  | registerLocate instrument quantity =>
      simp only [step, Option.some.injEq, Prod.mk.injEq] at taken
      rw [← taken.1, ← taken.2, registerLocate_position]
      simpa [acceptedFill] using books
  | applyFill instrument side quantity priceTicks isTaker =>
      simp only [step, Option.some.injEq, Prod.mk.injEq] at taken
      rw [← taken.1, ← taken.2]
      rcases applyFill_cases portfolio instrument side quantity priceTicks isTaker _ rfl with
        ⟨⟨reason, raised⟩, kept⟩ | ⟨⟨booked, accepted⟩, valid, moved⟩
      · rw [kept, raised]
        simpa [acceptedFill] using books
      · rw [moved, accepted]
        by_cases same : instrumentId = instrument
        · rw [if_pos same, ← same]
          simp only [acceptedFill, if_pos, Option.toList_some]
          exact (books.moved valid _).charged _ _ _ _ _
        · have other : ¬ instrument = instrumentId := fun equal => same equal.symm
          simp only [acceptedFill, if_neg other, if_neg same, Option.toList_none, List.append_nil]
          exact books

theorem unrealizedPnlTicks_eq (position : Position) (mark : ℚ) :
    position.unrealizedPnlTicks mark =
      position.quantity * (mark - position.averagePriceTicks) := by
  rw [Position.unrealizedPnlTicks]
  split
  · rfl
  · split
    · rename_i short
      rw [abs_of_neg short]
      push_cast
      ring
    · have zero : position.quantity = 0 := by omega
      simp [zero]

/-- Whatever was booked, an instrument's position holds the sum of its accepted
fills, is worth what they are worth at every mark, and carries an average among the
prices since it was last flat or turned around. -/
theorem accounting_identity {limits : PortfolioLimits}
    {specs : SortedMap ByInstrument InstrumentSpec} {locates : SortedMap ByInstrument Int}
    {start portfolio : Portfolio} {ops : List Op} {log : List (Op × Output)}
    (created : create limits specs locates = .ok start)
    (ran : Machine.exec step start ops = some (portfolio, log)) (instrumentId : Int) :
    let fills := acceptedFills instrumentId log
    let position := portfolio.position instrumentId
    position.quantity = (fills.map fun fill => fill.side * fill.quantity).sum ∧
    (∀ mark : ℚ, position.realizedPnlTicks +
        position.quantity * (mark - position.averagePriceTicks) =
      (fills.map fun fill =>
        (fill.side : ℚ) * fill.quantity * (mark - fill.priceTicks)).sum) ∧
    (∀ mark : ℚ, position.unrealizedPnlTicks mark =
      position.quantity * (mark - position.averagePriceTicks)) ∧
    (position.averagePriceTicks = 0 ↔ position.quantity = 0) ∧
    (position.quantity ≠ 0 → ∃ low ∈ (episode fills).2, ∃ high ∈ (episode fills).2,
      (low.priceTicks : ℚ) ≤ position.averagePriceTicks ∧
        position.averagePriceTicks ≤ high.priceTicks) := by
  have empty : Books [] (start.position instrumentId) := by
    rw [create] at created
    split at created
    · exact absurd created (by simp)
    · rw [Except.ok.injEq] at created
      rw [← created]
      constructor <;> simp [position, SortedMap.find?, SortedMap.empty, net, worth, episode]
  have books : Books (acceptedFills instrumentId log) (portfolio.position instrumentId) := by
    apply Machine.exec_invariant
      (fun log (state : Portfolio) =>
        Books (acceptedFills instrumentId log) (state.position instrumentId)) _ empty ran
    intro log state op after output books taken
    exact step_books taken instrumentId books
  constructor
  · exact books.quantity
  constructor
  · intro mark
    rw [books.worth mark]
    simp [worth, signed]
  constructor
  · exact unrealizedPnlTicks_eq _
  constructor
  · exact books.average_eq_zero_iff
  · exact books.between

/-- A buy of 10 at 100, an addition of 10 at 104, and a sale of 30 at 110 that turns
the position around. -/
theorem accounting_identity_turned :
    let start : Portfolio := { limits := ⟨100, 100, 100000, 100000, 0, true, false⟩ }
    let ops : List Op := [.applyFill 7 1 10 100 true, .applyFill 7 1 10 104 true,
      .applyFill 7 (-1) 30 110 true]
    ∃ portfolio log, Machine.exec step start ops = some (portfolio, log) ∧
      (acceptedFills 7 log).length = 3 ∧ (portfolio.position 7).quantity = -10 ∧
      (portfolio.position 7).realizedPnlTicks + (portfolio.position 7).quantity *
        (120 - (portfolio.position 7).averagePriceTicks) =
        ((acceptedFills 7 log).map fun fill =>
          (fill.side : ℚ) * fill.quantity * (120 - fill.priceTicks)).sum := by
  intro start ops
  have created : create start.limits = .ok start := by rfl
  cases ran : Machine.exec step start ops with
  | none => exact absurd ran (by decide)
  | some result =>
      have identity := accounting_identity created ran 7
      have three : (Machine.exec step start ops).map (fun result => (acceptedFills 7 result.2).length) =
          some 3 := by decide
      rw [ran, Option.map_some, Option.some.injEq] at three
      have short : (Machine.exec step start ops).map
          (fun result => (result.1.position 7).quantity) = some (-10) := by decide
      rw [ran, Option.map_some, Option.some.injEq] at short
      exact ⟨result.1, result.2, rfl, three, short, identity.2.1 120⟩

end Portfolio

end Ito
