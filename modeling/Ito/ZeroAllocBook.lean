import Ito.Library.FixedArray
import Ito.Library.SortedMap
import Mathlib.Data.Option.Basic

/-! The order book of fixed depth.

Source: `cpp/ito_execution/zero_alloc_book.hpp`. Each side keeps its levels in the first slots
of an array, the best one first. A result is `none` where an index is out of range. -/

namespace Ito

open FixedArray

structure ZeroAllocOrderBook.BookLevel where
  priceTicks : Int64 := 0
  size : Int64 := 0
  orderCount : UInt32 := 0
  deriving DecidableEq, Repr

structure ZeroAllocOrderBook (maxDepth : Nat) where
  bidCount : Nat := 0
  askCount : Nat := 0
  bids : Vector ZeroAllocOrderBook.BookLevel maxDepth := Vector.replicate maxDepth {}
  asks : Vector ZeroAllocOrderBook.BookLevel maxDepth := Vector.replicate maxDepth {}
  deriving DecidableEq, Repr

namespace ZeroAllocOrderBook

variable {maxDepth : Nat}

abbrev Ladder (maxDepth : Nat) := Vector BookLevel maxDepth

def removeAt (ladder : Ladder maxDepth) (count idx : Nat) : Option (Ladder maxDepth × Nat) := do
  let ladder ← shiftDown idx (count - (idx + 1)) ladder
  -- The count is unsigned: from zero it would go to a slot that no array has.
  guard (count ≠ 0)
  let count := count - 1
  let ladder ← write? ladder count {}
  return (ladder, count)

def removeLevel (ladder : Ladder maxDepth) (count : Nat) (price : Int64) :
    Option (Ladder maxDepth × Nat) := do
  match ← search (fun level => level.priceTicks = price) ladder 0 count with
  | some i => removeAt ladder count i
  | none => return (ladder, count)

def Before (descending : Bool) (price other : Int64) : Prop :=
  if descending then price > other else price < other

instance (descending : Bool) (price other : Int64) : Decidable (Before descending price other) :=
  inferInstanceAs (Decidable (if descending then _ else _))

def updateLevel (ladder : Ladder maxDepth) (count : Nat) (price size : Int64)
    (orderCount : UInt32) (descending : Bool) : Option (Ladder maxDepth × Nat) := do
  match ← search (fun level => level.priceTicks = price) ladder 0 count with
  | some i =>
      if size ≤ 0 then removeAt ladder count i
      else
        let level ← ladder[i]?
        let ladder ← write? ladder i { level with size, orderCount }
        return (ladder, count)
  | none =>
      if size ≤ 0 then return (ladder, count)
      else
        let found ← search (fun level => Before descending price level.priceTicks) ladder 0 count
        let insertPos := found.getD count
        if count < maxDepth then
          let ladder ← shiftUp insertPos count ladder
          let ladder ← write? ladder insertPos ⟨price, size, orderCount⟩
          return (ladder, count + 1)
        else if insertPos < maxDepth then
          let ladder ← shiftUp insertPos (maxDepth - 1) ladder
          let ladder ← write? ladder insertPos ⟨price, size, orderCount⟩
          return (ladder, count)
        else return (ladder, count)

def updateBid (book : ZeroAllocOrderBook maxDepth) (price size : Int64)
    (orderCount : UInt32 := 1) : Option (ZeroAllocOrderBook maxDepth) := do
  let (bids, bidCount) ← updateLevel book.bids book.bidCount price size orderCount true
  return { book with bids, bidCount }

def updateAsk (book : ZeroAllocOrderBook maxDepth) (price size : Int64)
    (orderCount : UInt32 := 1) : Option (ZeroAllocOrderBook maxDepth) := do
  let (asks, askCount) ← updateLevel book.asks book.askCount price size orderCount false
  return { book with asks, askCount }

def removeBid (book : ZeroAllocOrderBook maxDepth) (price : Int64) :
    Option (ZeroAllocOrderBook maxDepth) := do
  let (bids, bidCount) ← removeLevel book.bids book.bidCount price
  return { book with bids, bidCount }

def removeAsk (book : ZeroAllocOrderBook maxDepth) (price : Int64) :
    Option (ZeroAllocOrderBook maxDepth) := do
  let (asks, askCount) ← removeLevel book.asks book.askCount price
  return { book with asks, askCount }

def clear (book : ZeroAllocOrderBook maxDepth) : ZeroAllocOrderBook maxDepth :=
  { book with bidCount := 0, askCount := 0 }

inductive Op
  | updateBid (price size : Int64) (orderCount : UInt32)
  | updateAsk (price size : Int64) (orderCount : UInt32)
  | removeBid (price : Int64)
  | removeAsk (price : Int64)
  | clear
  deriving DecidableEq, Repr

def step (book : ZeroAllocOrderBook maxDepth) : Op → Option (ZeroAllocOrderBook maxDepth)
  | .updateBid price size orderCount => book.updateBid price size orderCount
  | .updateAsk price size orderCount => book.updateAsk price size orderCount
  | .removeBid price => book.removeBid price
  | .removeAsk price => book.removeAsk price
  | .clear => some book.clear

def run (maxDepth : Nat) (ops : List Op) : Option (ZeroAllocOrderBook maxDepth) :=
  ops.foldlM step {}

/-! The book as two sorted maps -/

instance (descending : Bool) : IsStrictTotalOrder Int64 (Before descending) where
  irrefl price := by
    cases descending <;> exact Int64.lt_irrefl
  trans first second third := by
    cases descending
    · exact Int64.lt_trans
    · exact fun above further => Int64.lt_trans further above
  trichotomous first second notBefore notAfter := by
    cases descending
    · exact Int64.le_antisymm (Int64.not_lt.mp notAfter) (Int64.not_lt.mp notBefore)
    · exact Int64.le_antisymm (Int64.not_lt.mp notBefore) (Int64.not_lt.mp notAfter)

structure Quote where
  size : Int64
  orderCount : UInt32
  deriving DecidableEq, Repr

abbrev Prices (descending : Bool) := SortedMap (Before descending) Quote

def levelOf (entry : Int64 × Quote) : BookLevel := ⟨entry.1, entry.2.size, entry.2.orderCount⟩

/-- A size that is positive replaces or inserts the level, and any other size deletes it. -/
def updated {descending : Bool} (maxDepth : Nat) (map : Prices descending) (price size : Int64)
    (orderCount : UInt32) : Prices descending :=
  if size ≤ 0 then map.erase price else (map.set price ⟨size, orderCount⟩).best maxDepth

structure PriceMaps where
  bids : Prices true := SortedMap.empty
  asks : Prices false := SortedMap.empty

/-- What an operation does to the maps, of which only the best levels are kept. -/
def PriceMaps.apply (maxDepth : Nat) (maps : PriceMaps) : Op → PriceMaps
  | .updateBid price size orderCount =>
      { maps with bids := updated maxDepth maps.bids price size orderCount }
  | .updateAsk price size orderCount =>
      { maps with asks := updated maxDepth maps.asks price size orderCount }
  | .removeBid price => { maps with bids := maps.bids.erase price }
  | .removeAsk price => { maps with asks := maps.asks.erase price }
  | .clear => {}

def priceMaps (maxDepth : Nat) (ops : List Op) : PriceMaps :=
  ops.foldl (PriceMaps.apply maxDepth) {}

structure Holds {descending : Bool} (ladder : Ladder maxDepth) (count : Nat)
    (map : Prices descending) : Prop where
  slots : used ladder count = map.entries.map levelOf
  fits : count ≤ maxDepth
  positive : ∀ entry ∈ map.entries, 0 < entry.2.size

structure Refines (book : ZeroAllocOrderBook maxDepth) (maps : PriceMaps) : Prop where
  bids : Holds book.bids book.bidCount maps.bids
  asks : Holds book.asks book.askCount maps.asks

/-! One side -/

section Side

variable {descending : Bool} {ladder : Ladder maxDepth} {count i : Nat} {map : Prices descending}
  {price size : Int64} {orderCount : UInt32}

theorem Holds.length (holds : Holds ladder count map) : map.entries.length = count := by
  rw [← length_used ladder holds.fits, holds.slots, List.length_map]

theorem Holds.search_price (holds : Holds ladder count map) (price : Int64) :
    search (fun level => level.priceTicks = price) ladder 0 count =
      some (map.entries.findIdx? fun entry => entry.1 = price) := by
  rw [search_used ladder _ holds.fits, holds.slots, List.findIdx?_map]
  rfl

theorem Holds.search_before (holds : Holds ladder count map) (price : Int64) :
    search (fun level => Before descending price level.priceTicks) ladder 0 count =
      some (map.entries.findIdx? fun entry => Before descending price entry.1) := by
  rw [search_used ladder _ holds.fits, holds.slots, List.findIdx?_map]
  rfl

theorem Holds.erase (holds : Holds ladder count map) (price : Int64) :
    ∀ entry ∈ (map.erase price).entries, 0 < entry.2.size := by
  intro entry member
  exact holds.positive entry (map.mem_erase.mp member).2

theorem Holds.set (holds : Holds ladder count map) (positive : 0 < size) :
    ∀ entry ∈ (map.set price ⟨size, orderCount⟩).entries, 0 < entry.2.size := by
  intro entry member
  rcases map.mem_set.mp member with ⟨_, same⟩ | ⟨_, old⟩
  · rw [same]
    exact positive
  · exact holds.positive entry old

theorem removeAt_holds (holds : Holds ladder count map)
    (found : map.entries.findIdx? (fun entry => entry.1 = price) = some i) :
    ∃ next, removeAt ladder count i = some (next, count - 1) ∧
      Holds next (count - 1) (map.erase price) := by
  rcases List.findIdx?_eq_some_iff_findIdx_eq.mp found with ⟨inside, index⟩
  rw [holds.length] at inside
  rcases remove_used ladder {} inside holds.fits with
    ⟨moved, next, shifting, writing, left⟩
  have someCount : count ≠ 0 := by omega
  refine ⟨next, ?_, ?_, ?_, holds.erase price⟩
  · simp [removeAt, shifting, writing, someCount]
  · rw [left, holds.slots, map.entries_erase, index, List.eraseIdx_map]
  · have fits := holds.fits
    omega

theorem Holds.erase_absent (holds : Holds ladder count map)
    (absent : map.entries.findIdx? (fun entry => entry.1 = price) = none) :
    Holds ladder count (map.erase price) := by
  have index := List.findIdx?_eq_none_iff_findIdx_eq.mp absent
  refine ⟨?_, holds.fits, holds.erase price⟩
  rw [map.entries_erase, index, List.eraseIdx_of_length_le (le_refl _)]
  exact holds.slots

theorem removeLevel_holds (holds : Holds ladder count map) (price : Int64) :
    ∃ next count', removeLevel ladder count price = some (next, count') ∧
      Holds next count' (map.erase price) := by
  cases found : map.entries.findIdx? (fun entry => entry.1 = price) with
  | some i =>
      rcases removeAt_holds holds found with ⟨next, removing, kept⟩
      refine ⟨next, count - 1, ?_, kept⟩
      simp [removeLevel, holds.search_price, found, removing]
  | none =>
      refine ⟨ladder, count, ?_, holds.erase_absent found⟩
      simp [removeLevel, holds.search_price, found]

theorem replace_holds (holds : Holds ladder count map) (positive : 0 < size) (orderCount : UInt32)
    (found : map.entries.findIdx? (fun entry => entry.1 = price) = some i) :
    ∃ level next, ladder[i]? = some level ∧
      write? ladder i { level with size, orderCount } = some next ∧
      Holds next count ((map.set price ⟨size, orderCount⟩).best maxDepth) := by
  rcases List.findIdx?_eq_some_iff_getElem.mp found with ⟨inside, same, _⟩
  have index := (List.findIdx?_eq_some_iff_findIdx_eq.mp found).2
  have within : i < count := holds.length ▸ inside
  have read : ladder[i]? = some (levelOf map.entries[i]) := by
    have slot := getElem?_used ladder count i
    rw [if_pos within, holds.slots, List.getElem?_map, List.getElem?_eq_getElem inside] at slot
    exact slot.symm
  have written : { levelOf map.entries[i] with size, orderCount } =
      levelOf (price, ⟨size, orderCount⟩) := by
    rw [← of_decide_eq_true same]
    rfl
  rcases write?_used ladder (levelOf (price, ⟨size, orderCount⟩)) within holds.fits with
    ⟨next, writing, slots⟩
  have entries : ((map.set price ⟨size, orderCount⟩).best maxDepth).entries =
      map.entries.set i (price, ⟨size, orderCount⟩) := by
    have replaced := map.entries_set_found ⟨size, orderCount⟩
      ⟨map.entries[i], List.getElem_mem inside, of_decide_eq_true same⟩
    rw [index] at replaced
    rw [SortedMap.entries_best, replaced]
    apply List.take_of_length_le
    rw [List.length_set, holds.length]
    exact holds.fits
  refine ⟨_, next, read, ?_, ?_, holds.fits, ?_⟩
  · rw [written]
    exact writing
  · rw [slots, holds.slots, entries, List.map_set]
  · intro entry member
    exact holds.set positive entry (List.mem_of_mem_take member)

/-- A level that is not there is inserted in front of the first one that it precedes, and a
full side drops what is then too much. -/
theorem insert_holds {top : Nat} (holds : Holds ladder count map) (positive : 0 < size)
    (orderCount : UInt32)
    (absent : map.entries.findIdx? (fun entry => entry.1 = price) = none)
    (last : top + 1 = min (count + 1) maxDepth)
    (below : map.entries.findIdx (fun entry => Before descending price entry.1) ≤ top) :
    ∃ moved next,
      shiftUp (map.entries.findIdx fun entry => Before descending price entry.1) top ladder =
        some moved ∧
      write? moved (map.entries.findIdx fun entry => Before descending price entry.1)
        ⟨price, size, orderCount⟩ = some next ∧
      Holds next (top + 1) ((map.set price ⟨size, orderCount⟩).best maxDepth) := by
  have fresh : ∀ entry ∈ map.entries, entry.1 ≠ price := by
    intro entry member
    exact of_decide_eq_false (List.findIdx?_eq_none_iff.mp absent entry member)
  rcases insert_used ladder (levelOf (price, ⟨size, orderCount⟩)) holds.fits last below with
    ⟨moved, next, shifting, writing, slots⟩
  refine ⟨moved, next, shifting, writing, ?_, by omega, ?_⟩
  · rw [slots, holds.slots, SortedMap.entries_best, map.entries_set_absent fresh, List.map_take,
      List.map_insertIdx]
  · intro entry member
    exact holds.set positive entry (List.mem_of_mem_take member)

theorem drop_holds (holds : Holds ladder count map) (positive : 0 < size)
    (absent : map.entries.findIdx? (fun entry => entry.1 = price) = none)
    (full : count = maxDepth)
    (behind : map.entries.findIdx (fun entry => Before descending price entry.1) = count) :
    Holds ladder count ((map.set price ⟨size, orderCount⟩).best maxDepth) := by
  have fresh : ∀ entry ∈ map.entries, entry.1 ≠ price := by
    intro entry member
    exact of_decide_eq_false (List.findIdx?_eq_none_iff.mp absent entry member)
  refine ⟨?_, holds.fits, ?_⟩
  · rw [SortedMap.entries_best, map.entries_set_absent fresh, behind, ← holds.length,
      List.insertIdx_length_self, List.take_append_of_le_length (by rw [holds.length, full]),
      List.take_of_length_le (by rw [holds.length, full]), holds.length]
    exact holds.slots
  · intro entry member
    exact holds.set positive entry (List.mem_of_mem_take member)

theorem updateLevel_holds (holds : Holds ladder count map) (price size : Int64)
    (orderCount : UInt32) :
    ∃ next count', updateLevel ladder count price size orderCount descending = some (next, count') ∧
      Holds next count' (updated maxDepth map price size orderCount) := by
  have fits := holds.fits
  by_cases deletes : size ≤ 0
  · simp only [updated, if_pos deletes]
    cases found : map.entries.findIdx? (fun entry => entry.1 = price) with
    | some i =>
        rcases removeAt_holds holds found with ⟨next, removing, kept⟩
        refine ⟨next, count - 1, ?_, kept⟩
        simp [updateLevel, holds.search_price, found, deletes, removing]
    | none =>
        refine ⟨ladder, count, ?_, holds.erase_absent found⟩
        simp [updateLevel, holds.search_price, found, deletes]
  · have positive : 0 < size := Int64.not_le.mp deletes
    simp only [updated, if_neg deletes]
    cases found : map.entries.findIdx? (fun entry => entry.1 = price) with
    | some i =>
        rcases replace_holds holds positive orderCount found with
          ⟨level, next, reading, writing, kept⟩
        refine ⟨next, count, ?_, kept⟩
        simp [updateLevel, holds.search_price, found, deletes, reading, writing]
    | none =>
        have position : map.entries.findIdx (fun entry => Before descending price entry.1) =
            (map.entries.findIdx? fun entry => Before descending price entry.1).getD count := by
          rw [List.findIdx_eq_getD_findIdx?, holds.length]
        have bound : map.entries.findIdx (fun entry => Before descending price entry.1) ≤ count :=
          holds.length ▸ List.findIdx_le_length
        by_cases room : count < maxDepth
        · rcases insert_holds holds positive orderCount found
            (show count + 1 = min (count + 1) maxDepth by omega) bound with
            ⟨moved, next, shifting, writing, kept⟩
          refine ⟨next, count + 1, ?_, kept⟩
          simp [updateLevel, holds.search_price, holds.search_before, found, deletes, ← position,
            room, shifting, writing]
        · by_cases within :
            map.entries.findIdx (fun entry => Before descending price entry.1) < maxDepth
          · have whole : maxDepth - 1 + 1 = count := by omega
            rcases insert_holds holds positive orderCount found
              (show maxDepth - 1 + 1 = min (count + 1) maxDepth by omega) (by omega) with
              ⟨moved, next, shifting, writing, kept⟩
            rw [whole] at kept
            refine ⟨next, count, ?_, kept⟩
            simp [updateLevel, holds.search_price, holds.search_before, found, deletes, ← position,
              room, within, shifting, writing]
          · refine ⟨ladder, count, ?_, drop_holds holds positive found (by omega) (by omega)⟩
            simp [updateLevel, holds.search_price, holds.search_before, found, deletes, ← position,
              room, within]

theorem Holds.sorted (holds : Holds ladder count map) :
    (used ladder count).Pairwise fun a b => Before descending a.priceTicks b.priceTicks := by
  rw [holds.slots, List.pairwise_map]
  exact map.sorted

theorem Holds.unique (holds : Holds ladder count map) :
    ((used ladder count).map BookLevel.priceTicks).Nodup := by
  rw [List.Nodup, List.pairwise_map]
  apply holds.sorted.imp
  intro a b earlier same
  rw [same] at earlier
  exact irrefl_of (Before descending) b.priceTicks earlier

theorem Holds.sizes (holds : Holds ladder count map) :
    ∀ level ∈ used ladder count, 0 < level.size := by
  rw [holds.slots]
  intro level member
  rcases List.mem_map.mp member with ⟨entry, among, rfl⟩
  exact holds.positive entry among

end Side

/-! The whole book -/

theorem step_refines {book : ZeroAllocOrderBook maxDepth} {maps : PriceMaps}
    (refines : Refines book maps) (op : Op) :
    ∃ next, book.step op = some next ∧ Refines next (maps.apply maxDepth op) := by
  cases op with
  | updateBid price size orderCount =>
      rcases updateLevel_holds refines.bids price size orderCount with
        ⟨bids, bidCount, updating, kept⟩
      refine ⟨{ book with bids, bidCount }, ?_, kept, refines.asks⟩
      simp [step, updateBid, updating]
  | updateAsk price size orderCount =>
      rcases updateLevel_holds refines.asks price size orderCount with
        ⟨asks, askCount, updating, kept⟩
      refine ⟨{ book with asks, askCount }, ?_, refines.bids, kept⟩
      simp [step, updateAsk, updating]
  | removeBid price =>
      rcases removeLevel_holds refines.bids price with ⟨bids, bidCount, removing, kept⟩
      refine ⟨{ book with bids, bidCount }, ?_, kept, refines.asks⟩
      simp [step, removeBid, removing]
  | removeAsk price =>
      rcases removeLevel_holds refines.asks price with ⟨asks, askCount, removing, kept⟩
      refine ⟨{ book with asks, askCount }, ?_, refines.bids, kept⟩
      simp [step, removeAsk, removing]
  | clear =>
      have empty : ∀ {descending : Bool} (ladder : Ladder maxDepth),
          Holds ladder 0 (SortedMap.empty : Prices descending) := by
        intro descending ladder
        exact ⟨rfl, Nat.zero_le maxDepth, by simp [SortedMap.empty]⟩
      exact ⟨book.clear, rfl, empty book.bids, empty book.asks⟩

theorem foldlM_refines {book : ZeroAllocOrderBook maxDepth} {maps : PriceMaps}
    (refines : Refines book maps) (ops : List Op) :
    ∃ next, ops.foldlM step book = some next ∧
      Refines next (ops.foldl (PriceMaps.apply maxDepth) maps) := by
  induction ops generalizing book maps with
  | nil => exact ⟨book, rfl, refines⟩
  | cons op ops ih =>
      rcases step_refines refines op with ⟨middle, first, kept⟩
      rcases ih kept with ⟨next, later, reached⟩
      refine ⟨next, ?_, reached⟩
      rw [List.foldlM_cons, first]
      exact later

theorem run_refines (maxDepth : Nat) (ops : List Op) :
    ∃ book, run maxDepth ops = some book ∧ Refines book (priceMaps maxDepth ops) := by
  apply foldlM_refines
  constructor
  · exact ⟨rfl, Nat.zero_le maxDepth, by simp [SortedMap.empty]⟩
  · exact ⟨rfl, Nat.zero_le maxDepth, by simp [SortedMap.empty]⟩

/-- The prices of each side run strictly away from the other side, the sizes are positive, and
no side is longer than its array. -/
structure WellFormed (book : ZeroAllocOrderBook maxDepth) : Prop where
  bidDepth : book.bidCount ≤ maxDepth
  askDepth : book.askCount ≤ maxDepth
  descending : (used book.bids book.bidCount).Pairwise fun a b => a.priceTicks > b.priceTicks
  ascending : (used book.asks book.askCount).Pairwise fun a b => a.priceTicks < b.priceTicks
  bidPrices : ((used book.bids book.bidCount).map BookLevel.priceTicks).Nodup
  askPrices : ((used book.asks book.askCount).map BookLevel.priceTicks).Nodup
  bidSizes : ∀ level ∈ used book.bids book.bidCount, 0 < level.size
  askSizes : ∀ level ∈ used book.asks book.askCount, 0 < level.size

theorem Refines.wellFormed {book : ZeroAllocOrderBook maxDepth} {maps : PriceMaps}
    (refines : Refines book maps) : WellFormed book where
  bidDepth := refines.bids.fits
  askDepth := refines.asks.fits
  descending := refines.bids.sorted
  ascending := refines.asks.sorted
  bidPrices := refines.bids.unique
  askPrices := refines.asks.unique
  bidSizes := refines.bids.sizes
  askSizes := refines.asks.sizes

/-- After any operations the first slots of both sides are the levels of the maps, and no index
was out of range. -/
theorem slots_refine (maxDepth : Nat) (ops : List Op) :
    ∃ book, run maxDepth ops = some book ∧
      book.bids.toList.take book.bidCount = (priceMaps maxDepth ops).bids.entries.map levelOf ∧
      book.asks.toList.take book.askCount = (priceMaps maxDepth ops).asks.entries.map levelOf ∧
      WellFormed book := by
  rcases run_refines maxDepth ops with ⟨book, ran, refines⟩
  exact ⟨book, ran, refines.bids.slots, refines.asks.slots, refines.wellFormed⟩

end ZeroAllocOrderBook

end Ito
