import Ito.ZeroAllocBook
import Ito.Library.CheckedInt
import Ito.Library.Greedy
import Mathlib.Data.List.Infix

/-! Walking the book of fixed depth.

Source: `cpp/ito_execution/zero_alloc_book.hpp`, `walk_book`. A result is `none` where the
arithmetic of the source overflows. -/

namespace Ito.ZeroAllocOrderBook

open CheckedInt FixedArray

variable {maxDepth : Nat}

def midPrice (book : ZeroAllocOrderBook maxDepth) : Option Int64 :=
  if book.bidCount > 0 ∧ book.askCount > 0 then do
    let bid ← book.bids[0]?
    let ask ← book.asks[0]?
    div? (← add? bid.priceTicks ask.priceTicks) 2
  else if book.bidCount > 0 then book.bids[0]?.map BookLevel.priceTicks
  else if book.askCount > 0 then book.asks[0]?.map BookLevel.priceTicks
  else some 0

structure ExecutionWalk where
  executedQuantity : Int64 := 0
  vwapTicks : Int64 := 0
  slippageTicks : Int64 := 0
  levelsConsumed : Int64 := 0
  deriving DecidableEq, Repr

structure Progress where
  remaining : Int64
  totalNotional : Int64 := 0
  executedQuantity : Int64 := 0
  levelsConsumed : Int64 := 0

def takeLevel (walk : Progress) (price fillQty : Int64) : Option Progress := do
  let totalNotional ← add? walk.totalNotional (← mul? fillQty price)
  let remaining ← sub? walk.remaining fillQty
  let executedQuantity ← add? walk.executedQuantity fillQty
  let levelsConsumed ← add? walk.levelsConsumed 1
  return { remaining, totalNotional, executedQuantity, levelsConsumed }

/-- The loop from a level on, with the number of levels from there to the depth. -/
def walkLevels (ladder : Ladder maxDepth) : Nat → Nat → Progress → Option Progress
  | _, 0, walk => some walk
  | i, left + 1, walk =>
      if walk.remaining > 0 then do
        let level ← ladder[i]?
        let fillQty := min walk.remaining level.size
        if fillQty ≤ 0 then walkLevels ladder (i + 1) left walk
        else walkLevels ladder (i + 1) left (← takeLevel walk level.priceTicks fillQty)
      else some walk

def llabs (x : Int64) : Option Int64 := if x < 0 then neg? x else some x

def walkBook (book : ZeroAllocOrderBook maxDepth) (isBuy : Bool) (requestedQuantity : Int64) :
    Option ExecutionWalk :=
  if requestedQuantity ≤ 0 then some {}
  else do
    let ladder := if isBuy then book.asks else book.bids
    let depth := if isBuy then book.askCount else book.bidCount
    let initialMid ← book.midPrice
    let walk ← walkLevels ladder 0 depth { remaining := requestedQuantity }
    if walk.executedQuantity > 0 then
      let vwapTicks ← div? walk.totalNotional walk.executedQuantity
      let slippageTicks ← llabs (← sub? vwapTicks initialMid)
      return ⟨walk.executedQuantity, vwapTicks, slippageTicks, walk.levelsConsumed⟩
    else
      return { executedQuantity := walk.executedQuantity, levelsConsumed := walk.levelsConsumed }

/-! What a walk takes from a side -/

/-- The levels that an order is executed against, the best one first. -/
def side (book : ZeroAllocOrderBook maxDepth) (isBuy : Bool) : List BookLevel :=
  if isBuy then used book.asks book.askCount else used book.bids book.bidCount

abbrev units (level : BookLevel) : Int := level.size.toInt

def depth (levels : List BookLevel) : Int := (levels.map units).sum

def served (book : ZeroAllocOrderBook maxDepth) (isBuy : Bool) (requested : Int64) :
    List (BookLevel × Int) :=
  Greedy.fills units requested.toInt (side book isBuy)

def quantity (fills : List (BookLevel × Int)) : Int := (fills.map Prod.snd).sum

def notional (fills : List (BookLevel × Int)) : Int :=
  (fills.map fun fill => fill.2 * fill.1.priceTicks.toInt).sum

def exactMid (book : ZeroAllocOrderBook maxDepth) : Int :=
  match (used book.bids book.bidCount).head?, (used book.asks book.askCount).head? with
  | some bid, some ask => (bid.priceTicks.toInt + ask.priceTicks.toInt).tdiv 2
  | some bid, none => bid.priceTicks.toInt
  | none, some ask => ask.priceTicks.toInt
  | none, none => 0

structure SumsFit (book : ZeroAllocOrderBook maxDepth) (isBuy : Bool) (requested : Int64) :
    Prop where
  sums : ∀ front ∈ (served book isBuy requested).inits, InRange (notional front)
  mid : ∀ bid ∈ (used book.bids book.bidCount).head?, ∀ ask ∈ (used book.asks book.askCount).head?,
    InRange (bid.priceTicks.toInt + ask.priceTicks.toInt)

/-- So can what is paid at each level, and, where something is executed, the distance of the
average from the middle. -/
structure ResultsFit (book : ZeroAllocOrderBook maxDepth) (isBuy : Bool) (requested : Int64) :
    Prop extends SumsFit book isBuy requested where
  products : ∀ fill ∈ served book isBuy requested, InRange (fill.2 * fill.1.priceTicks.toInt)
  slippage : 0 < quantity (served book isBuy requested) →
    InRange |(notional (served book isBuy requested)).tdiv
      (quantity (served book isBuy requested)) - exactMid book|

def NoBetter (isBuy : Bool) (price other : Int64) : Prop :=
  if isBuy then price ≤ other else other ≤ price

structure Walked (book : ZeroAllocOrderBook maxDepth) (isBuy : Bool) (requested : Int64)
    (walk : ExecutionWalk) : Prop where
  executed : walk.executedQuantity.toInt = min requested.toInt (depth (side book isBuy))
  taken : walk.executedQuantity.toInt = quantity (served book isBuy requested)
  bestFirst : (served book isBuy requested).map Prod.fst =
    (side book isBuy).take walk.levelsConsumed.toInt.toNat
  sorted : (side book isBuy).Pairwise fun level later =>
    Before (!isBuy) level.priceTicks later.priceTicks
  parts : ∀ fill ∈ served book isBuy requested, 0 < fill.2 ∧ fill.2 ≤ units fill.1
  exhausted : ∀ fill ∈ (served book isBuy requested).dropLast, fill.2 = units fill.1
  least : IsLeast {k | walk.executedQuantity.toInt ≤ depth ((side book isBuy).take k)}
    walk.levelsConsumed.toInt.toNat
  vwap : walk.vwapTicks.toInt =
    (notional (served book isBuy requested)).tdiv walk.executedQuantity.toInt
  between : ∀ best ∈ (served book isBuy requested).head?,
    ∀ worst ∈ (served book isBuy requested).getLast?,
      NoBetter isBuy best.1.priceTicks walk.vwapTicks ∧
        NoBetter isBuy walk.vwapTicks worst.1.priceTicks

theorem side_positive {book : ZeroAllocOrderBook maxDepth} (well : WellFormed book)
    (isBuy : Bool) : ∀ level ∈ side book isBuy, 0 < units level := by
  intro level member
  cases isBuy with
  | true => exact pos_iff.mp (well.askSizes level member)
  | false => exact pos_iff.mp (well.bidSizes level member)

theorem side_sorted {book : ZeroAllocOrderBook maxDepth} (well : WellFormed book)
    (isBuy : Bool) : (side book isBuy).Pairwise fun level later =>
      Before (!isBuy) level.priceTicks later.priceTicks := by
  cases isBuy with
  | true => exact well.ascending
  | false => exact well.descending

/-! The middle -/

theorem midPrice_defined {book : ZeroAllocOrderBook maxDepth} (well : WellFormed book)
    (fits : ∀ bid ∈ (used book.bids book.bidCount).head?,
      ∀ ask ∈ (used book.asks book.askCount).head?,
        InRange (bid.priceTicks.toInt + ask.priceTicks.toInt)) :
    ∃ mid, book.midPrice = some mid ∧ mid.toInt = exactMid book := by
  have bidDepth := well.bidDepth
  have askDepth := well.askDepth
  simp only [head?_used] at fits
  simp only [midPrice, exactMid, head?_used]
  by_cases someBid : 0 < book.bidCount
  · have bid : book.bids[0]? = some book.bids[0] := Vector.getElem?_eq_getElem (by omega)
    by_cases someAsk : 0 < book.askCount
    · have ask : book.asks[0]? = some book.asks[0] := Vector.getElem?_eq_getElem (by omega)
      simp only [if_pos someBid, if_pos someAsk, bid, ask] at fits ⊢
      rcases ofInt?_of_inRange (fits _ rfl _ rfl) with ⟨sum, adding, sumEq⟩
      rcases div?_defined (a := sum) (b := 2) (by decide) (inRange_tdiv sum (by decide)) with
        ⟨mid, halving, midEq⟩
      refine ⟨mid, ?_, ?_⟩
      · simp [someBid, someAsk, add?, adding, halving]
      · rw [midEq, sumEq]
        rfl
    · simp [someBid, someAsk, bid]
  · by_cases someAsk : 0 < book.askCount
    · have ask : book.asks[0]? = some book.asks[0] := Vector.getElem?_eq_getElem (by omega)
      simp [someBid, someAsk, ask]
    · simp [someBid, someAsk]

/-! The loop -/

@[simp] theorem notional_cons (fill : BookLevel × Int) (fills : List (BookLevel × Int)) :
    notional (fill :: fills) = fill.2 * fill.1.priceTicks.toInt + notional fills := rfl

@[simp] theorem quantity_cons (fill : BookLevel × Int) (fills : List (BookLevel × Int)) :
    quantity (fill :: fills) = fill.2 + quantity fills := rfl

@[simp] theorem notional_nil : notional [] = 0 := rfl

@[simp] theorem quantity_nil : quantity [] = 0 := rfl

/-- What the loop adds to its variables over the levels from `i` on. -/
structure Advanced (fills : List (BookLevel × Int)) (walk next : Progress) : Prop where
  notional : next.totalNotional.toInt = walk.totalNotional.toInt + notional fills
  executed : next.executedQuantity.toInt = walk.executedQuantity.toInt + quantity fills
  levels : next.levelsConsumed.toInt = walk.levelsConsumed.toInt + fills.length

structure Bounded (walk : Progress) : Prop where
  remaining : 0 ≤ walk.remaining.toInt
  executed : walk.executedQuantity.toInt + walk.remaining.toInt < 2 ^ 63
  levels : 0 ≤ walk.levelsConsumed.toInt
  consumed : walk.levelsConsumed.toInt ≤ walk.executedQuantity.toInt

structure Takes (walk : Progress) (price fillQty : Int64) (next : Progress) : Prop where
  bounded : Bounded next
  remaining : next.remaining.toInt = walk.remaining.toInt - fillQty.toInt
  notional : next.totalNotional.toInt = walk.totalNotional.toInt + fillQty.toInt * price.toInt
  executed : next.executedQuantity.toInt = walk.executedQuantity.toInt + fillQty.toInt
  levels : next.levelsConsumed.toInt = walk.levelsConsumed.toInt + 1

theorem takeLevel_defined {walk : Progress} {price fillQty : Int64} (bounded : Bounded walk)
    (positive : 0 < fillQty.toInt) (within : fillQty.toInt ≤ walk.remaining.toInt)
    (product : InRange (fillQty.toInt * price.toInt))
    (total : InRange (walk.totalNotional.toInt + fillQty.toInt * price.toInt)) :
    ∃ next, takeLevel walk price fillQty = some next ∧ Takes walk price fillQty next := by
  have remainingBound := bounded.remaining
  have executedBound := bounded.executed
  have levelsBound := bounded.levels
  have consumedBound := bounded.consumed
  have one : (1 : Int64).toInt = 1 := rfl
  rcases ofInt?_of_inRange product with ⟨paid, multiplying, paidEq⟩
  rw [← paidEq] at total
  rcases ofInt?_of_inRange total with ⟨totalNotional, adding, totalEq⟩
  rcases sub?_defined (a := walk.remaining) (b := fillQty) (by omega) (by omega) with
    ⟨remaining, taking, remainingEq⟩
  rcases add?_defined (a := walk.executedQuantity) (b := fillQty) (by omega) (by omega) with
    ⟨executedQuantity, executing, executedEq⟩
  rcases add?_defined (a := walk.levelsConsumed) (b := 1) (by omega) (by omega) with
    ⟨levelsConsumed, counting, levelsEq⟩
  refine ⟨⟨remaining, totalNotional, executedQuantity, levelsConsumed⟩, ?_, ?_, remainingEq, ?_,
    executedEq, levelsEq⟩
  · rw [takeLevel, mul?, multiplying, Option.bind_eq_bind, Option.bind_some,
      add?.eq_1 walk.totalNotional, adding]
    simp [taking, executing, counting]
  · constructor <;> simp only <;> omega
  · rw [totalEq, paidEq]

theorem walkLevels_defined {ladder : Ladder maxDepth} {i left : Nat} {walk : Progress}
    (inside : i + left ≤ maxDepth) (bounded : Bounded walk)
    (positive : ∀ level ∈ (used ladder (i + left)).drop i, 0 < units level)
    (products : ∀ fill ∈ Greedy.fills units walk.remaining.toInt ((used ladder (i + left)).drop i),
      InRange (fill.2 * fill.1.priceTicks.toInt))
    (sums : ∀ front ∈ (Greedy.fills units walk.remaining.toInt
      ((used ladder (i + left)).drop i)).inits,
      InRange (walk.totalNotional.toInt + notional front)) :
    ∃ next, walkLevels ladder i left walk = some next ∧
      Advanced (Greedy.fills units walk.remaining.toInt ((used ladder (i + left)).drop i))
        walk next := by
  induction left generalizing i walk with
  | zero =>
      have none : (used ladder (i + 0)).drop i = [] := by
        apply List.drop_of_length_le
        rw [length_used ladder inside, Nat.add_zero]
      rw [none]
      exact ⟨walk, rfl, by simp [Greedy.fills], by simp [Greedy.fills], by simp [Greedy.fills]⟩
  | succ left ih =>
      have read : ladder[i]? = some ladder[i] := Vector.getElem?_eq_getElem (by omega)
      rw [drop_used ladder inside] at positive products sums ⊢
      rcases List.forall_mem_cons.mp positive with ⟨first, others⟩
      rw [walkLevels]
      by_cases more : walk.remaining > 0
      · have open' : 0 < walk.remaining.toInt := pos_iff.mp more
        have part := toInt_min walk.remaining ladder[i].size
        change _ = min walk.remaining.toInt (units ladder[i]) at part
        rw [Greedy.fills, if_pos open', ← part] at products sums ⊢
        -- One level is served, and the loop goes on with what is left of the request.
        rcases List.forall_mem_cons.mp products with ⟨product, laterProducts⟩
        have started := sums [(ladder[i], (min walk.remaining ladder[i].size).toInt)]
          ((List.mem_inits ..).mpr ⟨_, rfl⟩)
        rw [notional_cons, notional_nil, add_zero] at started
        have served' : ¬ min walk.remaining ladder[i].size ≤ 0 := by
          rw [Int64.not_le, pos_iff]
          omega
        rcases takeLevel_defined bounded (by omega) (by omega) product started with
          ⟨middle, taking, takes⟩
        rw [← takes.remaining] at laterProducts sums ⊢
        have laterSums : ∀ front ∈ (Greedy.fills units middle.remaining.toInt
            ((used ladder (i + 1 + left)).drop (i + 1))).inits,
            InRange (middle.totalNotional.toInt + notional front) := by
          intro front member
          have longer := sums (_ :: front) ((List.mem_inits ..).mpr
            (List.cons_prefix_cons.mpr ⟨rfl, (List.mem_inits ..).mp member⟩))
          rw [notional_cons, ← add_assoc, ← takes.notional] at longer
          exact longer
        rcases ih (by omega) takes.bounded others laterProducts laterSums with
          ⟨next, going, advanced⟩
        refine ⟨next, ?_, ?_, ?_, ?_⟩
        · simp [more, read, served', taking, going]
        · rw [advanced.notional, takes.notional, notional_cons, add_assoc]
        · rw [advanced.executed, takes.executed, quantity_cons, add_assoc]
        · have levels := advanced.levels
          have counted := takes.levels
          simp only [List.length_cons, Nat.cast_add, Nat.cast_one]
          omega
      · have done : walk.remaining.toInt ≤ 0 := by
          rw [gt_iff_lt, pos_iff] at more
          omega
        rw [if_neg more, Greedy.fills_of_nonpos done]
        exact ⟨walk, rfl, by simp, by simp, by simp⟩

/-! The walk -/

theorem llabs_defined {x : Int64} (fits : InRange |x.toInt|) : ∃ y, llabs x = some y := by
  have ⟨_, high⟩ := fits
  have negated : |x.toInt| = -x.toInt ∨ 0 ≤ x.toInt := by
    rcases le_total 0 x.toInt with up | down
    · exact Or.inr up
    · exact Or.inl (abs_of_nonpos down)
  rw [llabs]
  split
  case isTrue below =>
    have below' : x.toInt < 0 := Int64.lt_iff_toInt_lt.mp below
    rcases ofInt?_of_inRange (x := -x.toInt) (by constructor <;> omega) with ⟨y, defined, _⟩
    exact ⟨y, defined⟩
  case isFalse => exact ⟨x, rfl⟩

theorem noBetter_iff {isBuy : Bool} {price other : Int64} : NoBetter isBuy price other ↔
    if isBuy then price.toInt ≤ other.toInt else other.toInt ≤ price.toInt := by
  cases isBuy <;> exact Int64.le_iff_toInt_le

theorem noBetter_ends {isBuy : Bool} {levels : List BookLevel} {best worst level : BookLevel}
    (sorted : levels.Pairwise fun level later => Before (!isBuy) level.priceTicks later.priceTicks)
    (first : levels.head? = some best) (last : levels.getLast? = some worst)
    (member : level ∈ levels) :
    NoBetter isBuy best.priceTicks level.priceTicks ∧
      NoBetter isBuy level.priceTicks worst.priceTicks := by
  have weaken : ∀ {price other : Int64}, price = other ∨ Before (!isBuy) price other →
      NoBetter isBuy price other := by
    intro price other either
    rw [noBetter_iff]
    rcases either with rfl | earlier
    · simp
    · cases isBuy with
      | true => exact (Int64.lt_iff_toInt_lt.mp earlier).le
      | false => exact (Int64.lt_iff_toInt_lt.mp earlier).le
  constructor
  · rcases List.head?_eq_some_iff.mp first with ⟨rest, rfl⟩
    apply weaken
    rcases List.mem_cons.mp member with rfl | later
    · exact Or.inl rfl
    · exact Or.inr ((List.pairwise_cons.mp sorted).1 level later)
  · rcases List.getLast?_eq_some_iff.mp last with ⟨front, rfl⟩
    apply weaken
    rcases List.mem_append.mp member with earlier | here
    · exact Or.inr ((List.pairwise_append.mp sorted).2.2 level earlier worst (by simp))
    · rw [List.mem_singleton.mp here]
      exact Or.inl rfl

section Walk

variable {book : ZeroAllocOrderBook maxDepth} {isBuy : Bool} {requested : Int64}

theorem served_eq_take : (served book isBuy requested).map Prod.fst =
    (side book isBuy).take (served book isBuy requested).length :=
  Greedy.fills_eq_take requested.toInt (side book isBuy)

theorem vwap_between (well : WellFormed book) {best worst : BookLevel × Int}
    (first : (served book isBuy requested).head? = some best)
    (last : (served book isBuy requested).getLast? = some worst)
    {vwap : Int} (average : vwap = (notional (served book isBuy requested)).tdiv
      (quantity (served book isBuy requested))) :
    if isBuy then best.1.priceTicks.toInt ≤ vwap ∧ vwap ≤ worst.1.priceTicks.toInt
    else worst.1.priceTicks.toInt ≤ vwap ∧ vwap ≤ best.1.priceTicks.toInt := by
  have sorted : ((served book isBuy requested).map Prod.fst).Pairwise fun level later =>
      Before (!isBuy) level.priceTicks later.priceTicks := by
    rw [served_eq_take]
    exact (side_sorted well isBuy).sublist (List.take_sublist _ _)
  have parts : ∀ fill ∈ served book isBuy requested, 0 < fill.2 ∧ fill.2 ≤ units fill.1 :=
    Greedy.fill_bounds (side_positive well isBuy)
  have positive : 0 < quantity (served book isBuy requested) := by
    apply List.sum_pos
    · intro part member
      rcases List.mem_map.mp member with ⟨fill, among, rfl⟩
      exact (parts fill among).1
    · intro empty
      rw [List.map_eq_nil_iff.mp empty] at first
      cases first
  have ends : ∀ fill ∈ served book isBuy requested,
      NoBetter isBuy best.1.priceTicks fill.1.priceTicks ∧
        NoBetter isBuy fill.1.priceTicks worst.1.priceTicks := by
    intro fill member
    apply noBetter_ends sorted
    · rw [List.head?_map, first, Option.map_some]
    · rw [List.getLast?_map, last, Option.map_some]
    · exact List.mem_map_of_mem member
  simp only [noBetter_iff] at ends
  cases isBuy with
  | true =>
      have each : ∀ fill ∈ served book true requested, 0 ≤ fill.2 ∧ _ ∧ _ := fun fill member =>
        ⟨(parts fill member).1.le, ends fill member⟩
      have ⟨below, above⟩ := Greedy.worth_between
        (fun level : BookLevel => level.priceTicks.toInt) each
      rw [average]
      exact tdiv_between positive below above
  | false =>
      have each : ∀ fill ∈ served book false requested, 0 ≤ fill.2 ∧ _ ∧ _ := fun fill member =>
        ⟨(parts fill member).1.le, (ends fill member).symm⟩
      have ⟨below, above⟩ := Greedy.worth_between
        (fun level : BookLevel => level.priceTicks.toInt) each
      rw [average]
      exact tdiv_between positive below above

theorem depth_nonneg (well : WellFormed book) (isBuy : Bool) : 0 ≤ depth (side book isBuy) := by
  apply List.sum_nonneg
  intro part member
  rcases List.mem_map.mp member with ⟨level, among, rfl⟩
  exact (side_positive well isBuy level among).le

theorem quantity_served (well : WellFormed book) (open' : 0 < requested) :
    quantity (served book isBuy requested) = min requested.toInt (depth (side book isBuy)) :=
  Greedy.sum_fills (side_positive well isBuy) (pos_iff.mp open').le

theorem walkSide_defined (well : WellFormed book) (open' : 0 < requested)
    (fits : ResultsFit book isBuy requested) :
    ∃ walk, walkLevels (if isBuy then book.asks else book.bids) 0
        (if isBuy then book.askCount else book.bidCount) { remaining := requested } = some walk ∧
      Advanced (served book isBuy requested) { remaining := requested } walk := by
  have inside : 0 + (if isBuy then book.askCount else book.bidCount) ≤ maxDepth := by
    have bidDepth := well.bidDepth
    have askDepth := well.askDepth
    cases isBuy <;> simpa
  have same : (used (if isBuy then book.asks else book.bids)
      (0 + if isBuy then book.askCount else book.bidCount)).drop 0 = side book isBuy := by
    rw [List.drop_zero, Nat.zero_add]
    cases isBuy <;> rfl
  have bounded : Bounded { remaining := requested } := by
    have positive := pos_iff.mp open'
    have high := requested.toInt_lt
    constructor <;> simp only [Int64.toInt_zero] <;> omega
  have sums : ∀ front ∈ (Greedy.fills units requested.toInt (side book isBuy)).inits,
      InRange ((0 : Int64).toInt + notional front) := by
    intro front member
    rw [Int64.toInt_zero, Int.zero_add]
    exact fits.sums front member
  have positive := side_positive well isBuy
  have products := fits.products
  rw [served] at products ⊢
  rw [← same] at positive products sums ⊢
  exact walkLevels_defined inside bounded positive products sums

theorem walkBook_defined (well : WellFormed book) (open' : 0 < requested)
    (fits : ResultsFit book isBuy requested) :
    ∃ walk, walkBook book isBuy requested = some walk ∧ Walked book isBuy requested walk := by
  rcases midPrice_defined well fits.mid with ⟨mid, middle, midEq⟩
  rcases walkSide_defined well open' fits with ⟨walk, walking, advanced⟩
  have some' : ¬ requested ≤ 0 := Int64.not_le.mpr open'
  have executed := advanced.executed
  have notional' := advanced.notional
  have levels := advanced.levels
  simp only [Int64.toInt_zero, Int.zero_add] at executed notional' levels
  have consumed : walk.levelsConsumed.toInt.toNat = (served book isBuy requested).length := by
    omega
  -- All but the average is the same whether anything was executed or not.
  have result : ∀ result : ExecutionWalk, result.executedQuantity = walk.executedQuantity →
      result.levelsConsumed = walk.levelsConsumed →
      result.vwapTicks.toInt =
        (notional (served book isBuy requested)).tdiv (quantity (served book isBuy requested)) →
      Walked book isBuy requested result := by
    intro result sameExecuted sameLevels average
    constructor
    · rw [sameExecuted, executed, quantity_served well open']
    · rw [sameExecuted, executed]
    · rw [sameLevels, consumed, served_eq_take]
    · exact side_sorted well isBuy
    · exact Greedy.fill_bounds (side_positive well isBuy)
    · exact fun fill member => Greedy.exhausted_of_mem_dropLast member
    · rw [sameExecuted, executed, sameLevels, consumed]
      exact Greedy.least_cover (side_positive well isBuy)
    · rw [sameExecuted, executed, average]
    · intro best first worst last
      have between := vwap_between well first last average
      simp only [noBetter_iff]
      cases isBuy with
      | true => exact between
      | false => exact between.symm
  by_cases traded : walk.executedQuantity > 0
  · have positive : 0 < walk.executedQuantity.toInt := pos_iff.mp traded
    have nonzero : walk.executedQuantity ≠ 0 := by
      intro zero
      rw [zero, Int64.toInt_zero] at positive
      exact absurd positive (lt_irrefl 0)
    rcases div?_defined nonzero (inRange_tdiv walk.totalNotional positive) with
      ⟨vwap, dividing, vwapEq⟩
    rw [notional', executed] at vwapEq
    have distance := fits.slippage (executed ▸ positive)
    rw [← vwapEq, ← midEq] at distance
    rcases ofInt?_of_inRange (inRange_of_abs distance) with ⟨apart, subtracting, apartEq⟩
    rw [← apartEq] at distance
    rcases llabs_defined distance with ⟨slippage, absolute⟩
    refine ⟨⟨walk.executedQuantity, vwap, slippage, walk.levelsConsumed⟩, ?_,
      result _ rfl rfl vwapEq⟩
    simp [walkBook, some', middle, walking, traded, dividing, sub?, subtracting, absolute]
  · refine ⟨{ executedQuantity := walk.executedQuantity, levelsConsumed := walk.levelsConsumed },
      ?_, result _ rfl rfl ?_⟩
    · simp [walkBook, some', middle, walking, traded]
    · have none : quantity (served book isBuy requested) = 0 := by
        rw [gt_iff_lt, pos_iff, executed, quantity_served well open'] at traded
        rw [quantity_served well open']
        have some'' := pos_iff.mp open'
        have nonneg := depth_nonneg well isBuy
        omega
      rw [none, Int.tdiv_zero]
      rfl

theorem walkBook_nonpos (none : requested ≤ 0) : walkBook book isBuy requested = some {} :=
  if_pos none

theorem reached_wellFormed {ops : List Op} (reached : run maxDepth ops = some book) :
    WellFormed book := by
  rcases run_refines maxDepth ops with ⟨same, ran, refines⟩
  rw [reached, Option.some.injEq] at ran
  rw [ran]
  exact refines.wellFormed

end Walk

section Runs

variable {book : ZeroAllocOrderBook maxDepth} {ops : List Op}

theorem executed_defined (reached : run maxDepth ops = some book) (isBuy : Bool)
    (requested : Int64) (fits : 0 < requested → ResultsFit book isBuy requested) :
    ∃ walk, walkBook book isBuy requested = some walk ∧ walk.executedQuantity.toInt =
      max 0 (min requested.toInt (depth (side book isBuy))) := by
  have well := reached_wellFormed reached
  by_cases open' : 0 < requested
  · rcases walkBook_defined well open' (fits open') with ⟨walk, walking, walked⟩
    refine ⟨walk, walking, ?_⟩
    have executed := walked.executed
    have nonneg := depth_nonneg well isBuy
    have positive := pos_iff.mp open'
    omega
  · refine ⟨{}, walkBook_nonpos (Int64.not_lt.mp open'), ?_⟩
    rw [pos_iff] at open'
    change (0 : Int) = _
    omega

/-- What a walk reports of any book that operations made, where its results can be
represented. -/
theorem walk_reported (reached : run maxDepth ops = some book) (isBuy : Bool) :
    (∀ requested ≤ 0, walkBook book isBuy requested = some {}) ∧
    (∀ requested > 0, ResultsFit book isBuy requested →
      ∃ walk, walkBook book isBuy requested = some walk ∧ Walked book isBuy requested walk) ∧
    ∀ requested more, requested ≤ more →
      (0 < requested → ResultsFit book isBuy requested) →
      (0 < more → ResultsFit book isBuy more) →
      ∃ walk walk', walkBook book isBuy requested = some walk ∧
        walkBook book isBuy more = some walk' ∧
        walk.executedQuantity ≤ walk'.executedQuantity := by
  refine ⟨fun requested none => walkBook_nonpos none, ?_, ?_⟩
  · intro requested open' fits
    exact walkBook_defined (reached_wellFormed reached) open' fits
  · intro requested more order fits fitsMore
    rcases executed_defined reached isBuy requested fits with ⟨walk, walking, executed⟩
    rcases executed_defined reached isBuy more fitsMore with ⟨walk', walking', executed'⟩
    refine ⟨walk, walk', walking, walking', ?_⟩
    rw [Int64.le_iff_toInt_le] at order ⊢
    omega

end Runs

def quotedBook : ZeroAllocOrderBook 16 where
  bidCount := 2
  askCount := 2
  bids := #v[⟨100, 50, 1⟩, ⟨99, 100, 2⟩, {}, {}, {}, {}, {}, {}, {}, {}, {}, {}, {}, {}, {}, {}]
  asks := #v[⟨102, 40, 1⟩, ⟨103, 60, 2⟩, {}, {}, {}, {}, {}, {}, {}, {}, {}, {}, {}, {}, {}, {}]

theorem walk_reported_test :
    run 16 [.updateBid 100 50 1, .updateBid 99 100 2, .updateAsk 102 40 1, .updateAsk 103 60 2] =
        some quotedBook ∧
      walkBook quotedBook true 70 = some ⟨70, 102, 1, 2⟩ ∧
      Walked quotedBook true 70 ⟨70, 102, 1, 2⟩ := by
  have reached : run 16 [.updateBid 100 50 1, .updateBid 99 100 2, .updateAsk 102 40 1,
      .updateAsk 103 60 2] = some quotedBook := by decide +kernel
  have fits : ResultsFit quotedBook true 70 :=
    ⟨⟨by decide +kernel, by decide +kernel⟩, by decide +kernel, by decide +kernel⟩
  have walking : walkBook quotedBook true 70 = some ⟨70, 102, 1, 2⟩ := by decide +kernel
  rcases (walk_reported reached true).2.1 70 (by decide) fits with ⟨walk, same, walked⟩
  rw [walking, Option.some.injEq] at same
  rw [same]
  exact ⟨reached, same ▸ walking, walked⟩

def farBook : ZeroAllocOrderBook 2 where
  askCount := 2
  asks := #v[⟨-2 ^ 63, 1, 1⟩, ⟨2 ^ 63 - 1, 1, 1⟩]

def steepBook : ZeroAllocOrderBook 2 where
  bidCount := 1
  askCount := 2
  bids := #v[⟨2 ^ 63 - 1, 1, 1⟩, {}]
  asks := #v[⟨-2 ^ 63, 1, 1⟩, ⟨2 ^ 62, 2, 1⟩]

/-- Where the sums of a walk can be represented, the distance of the average from the middle
need not be, and neither need the price of what one level gives. -/
theorem walk_overflows :
    (run 2 [.updateAsk (-2 ^ 63) 1 1, .updateAsk (2 ^ 63 - 1) 1 1] = some farBook ∧
      SumsFit farBook true 2 ∧ walkBook farBook true 2 = none) ∧
    (run 2 [.updateBid (2 ^ 63 - 1) 1 1, .updateAsk (-2 ^ 63) 1 1, .updateAsk (2 ^ 62) 2 1] =
        some steepBook ∧
      SumsFit steepBook true 3 ∧ walkBook steepBook true 3 = none) := by
  constructor
  · refine ⟨by decide +kernel, ⟨by decide +kernel, by decide +kernel⟩, by decide +kernel⟩
  · refine ⟨by decide +kernel, ⟨by decide +kernel, by decide +kernel⟩, by decide +kernel⟩

end Ito.ZeroAllocOrderBook
