import Mathlib.Data.List.Basic
import Mathlib.Tactic.Common

/-! Lists kept in the first cells of an array of fixed length.

Every loop reads and writes one cell at a time, and is `none` where an index is
out of range. -/

namespace FixedArray

variable {α : Type*} {n : Nat}

def write? (cells : Vector α n) (i : Nat) (value : α) : Option (Vector α n) :=
  if inside : i < n then some (cells.set i value inside) else none

def search (test : α → Bool) (cells : Vector α n) : Nat → Nat → Option (Option Nat)
  | _, 0 => some none
  | i, left + 1 =>
      cells[i]?.bind fun cell =>
        if test cell then some (some i) else search test cells (i + 1) left

/-- Every cell down to the stop takes the value of the cell in front of it. -/
def shiftUp (stop : Nat) : Nat → Vector α n → Option (Vector α n)
  | 0, cells => some cells
  | i + 1, cells =>
      if i + 1 > stop then do
        let cell ← cells[i]?
        let cells ← write? cells (i + 1) cell
        shiftUp stop i cells
      else some cells

def shiftDown : Nat → Nat → Vector α n → Option (Vector α n)
  | _, 0, cells => some cells
  | i, left + 1, cells => do
      let cell ← cells[i + 1]?
      let cells ← write? cells i cell
      shiftDown (i + 1) left cells

def used (cells : Vector α n) (count : Nat) : List α := cells.toList.take count

variable (cells : Vector α n) {count i left top : Nat}

theorem getElem?_used (count j : Nat) :
    (used cells count)[j]? = if j < count then cells[j]? else none := by
  rw [used, List.getElem?_take, Vector.getElem?_toList]

theorem length_used (fits : count ≤ n) : (used cells count).length = count := by
  simp [used, fits]

theorem head?_used (count : Nat) :
    (used cells count).head? = if 0 < count then cells[0]? else none := by
  rw [List.head?_eq_getElem?, getElem?_used]

theorem drop_used (fits : i + (left + 1) ≤ n) : (used cells (i + (left + 1))).drop i =
    cells[i] :: (used cells (i + 1 + left)).drop (i + 1) := by
  have within : i < (used cells (i + (left + 1))).length := by
    rw [length_used cells fits]
    omega
  rw [List.drop_eq_getElem_cons within, show i + 1 + left = i + (left + 1) by omega]
  simp [used]

theorem write?_defined (value : α) (inside : i < n) : ∃ next, write? cells i value = some next ∧
    ∀ j, next[j]? = if j = i then some value else cells[j]? := by
  refine ⟨cells.set i value inside, dif_pos inside, ?_⟩
  intro j
  rw [Vector.getElem?_set]
  simp only [eq_comm]

theorem search_eq (test : α → Bool) (fits : i + left ≤ n) : search test cells i left =
    some (((used cells (i + left)).drop i).findIdx? test |>.map (· + i)) := by
  induction left generalizing i with
  | zero => simp [search, used]
  | succ left ih =>
      have inside : i < n := by omega
      have tail := @ih (i + 1) (by omega)
      have read : cells[i]? = some cells[i] := Vector.getElem?_eq_getElem inside
      rw [search, read, Option.bind_some, drop_used cells fits, List.findIdx?_cons]
      cases test cells[i] with
      | true => simp
      | false =>
          rw [if_neg Bool.false_ne_true, if_neg Bool.false_ne_true, tail, Option.map_map]
          congr 1
          apply congrArg (Option.map · _)
          funext k
          simp only [Function.comp_apply]
          omega

theorem search_used (test : α → Bool) (fits : count ≤ n) :
    search test cells 0 count = some ((used cells count).findIdx? test) := by
  have same := search_eq cells test (show 0 + count ≤ n by omega)
  simpa using same

theorem shiftUp_defined (stop : Nat) (fits : top < n) : ∃ next, shiftUp stop top cells = some next ∧
    ∀ j, next[j]? = if stop < j ∧ j ≤ top then cells[j - 1]? else cells[j]? := by
  induction top generalizing cells with
  | zero =>
      refine ⟨cells, rfl, ?_⟩
      intro j
      rw [if_neg (by omega)]
  | succ top ih =>
      rw [shiftUp]
      split
      case isTrue above =>
        have inside : top < n := by omega
        have read : cells[top]? = some cells[top] := Vector.getElem?_eq_getElem inside
        rcases write?_defined cells cells[top] fits with
          ⟨moved, writing, at_moved⟩
        rcases ih moved inside with ⟨next, shifting, at_next⟩
        refine ⟨next, ?_, ?_⟩
        · simp only [read, writing, shifting, Option.bind_eq_bind, Option.bind_some]
        · intro j
          rw [at_next]
          rcases Nat.lt_trichotomy j (top + 1) with lower | same | higher
          · have front : moved[j - 1]? = cells[j - 1]? := by rw [at_moved, if_neg (by omega)]
            have here : moved[j]? = cells[j]? := by rw [at_moved, if_neg (by omega)]
            rw [front, here]
            apply if_congr _ rfl rfl
            omega
          · rw [if_neg (by omega), at_moved, if_pos same, if_pos (by omega), same, ← read]
            rfl
          · rw [if_neg (by omega), at_moved, if_neg (by omega), if_neg (by omega)]
      case isFalse below =>
        refine ⟨cells, rfl, ?_⟩
        intro j
        rw [if_neg (by omega)]

theorem shiftDown_defined (fits : i + left < n) :
    ∃ next, shiftDown i left cells = some next ∧
      ∀ j, next[j]? = if i ≤ j ∧ j < i + left then cells[j + 1]? else cells[j]? := by
  induction left generalizing i cells with
  | zero =>
      refine ⟨cells, rfl, ?_⟩
      intro j
      rw [if_neg (by omega)]
  | succ left ih =>
      have inside : i + 1 < n := by omega
      have read : cells[i + 1]? = some cells[i + 1] := Vector.getElem?_eq_getElem inside
      rcases write?_defined cells cells[i + 1] (show i < n by omega) with
        ⟨moved, writing, at_moved⟩
      rcases @ih moved (i + 1) (by omega) with ⟨next, shifting, at_next⟩
      refine ⟨next, ?_, ?_⟩
      · simp only [shiftDown, read, writing, shifting, Option.bind_eq_bind, Option.bind_some]
      · intro j
        rw [at_next]
        rcases Nat.lt_trichotomy j i with lower | same | higher
        · rw [if_neg (by omega), at_moved, if_neg (by omega), if_neg (by omega)]
        · rw [if_neg (by omega), at_moved, if_pos same, if_pos (by omega), same, ← read]
        · have behind : moved[j + 1]? = cells[j + 1]? := by rw [at_moved, if_neg (by omega)]
          have here : moved[j]? = cells[j]? := by rw [at_moved, if_neg (by omega)]
          rw [behind, here]
          apply if_congr _ rfl rfl
          omega

theorem write?_used (value : α) (inside : i < count) (fits : count ≤ n) :
    ∃ next, write? cells i value = some next ∧
      used next count = (used cells count).set i value := by
  rcases write?_defined cells value (show i < n by omega) with
    ⟨next, writing, at_next⟩
  refine ⟨next, writing, ?_⟩
  apply List.ext_getElem?
  intro j
  rw [List.getElem?_set, length_used cells fits, getElem?_used, getElem?_used, at_next]
  by_cases same : j = i
  · simp [same, inside]
  · simp [same, Ne.symm same]

theorem insert_used (value : α) (fits : count ≤ n) (last : top + 1 = min (count + 1) n)
    (below : i ≤ top) :
    ∃ moved next, shiftUp i top cells = some moved ∧ write? moved i value = some next ∧
      used next (top + 1) = ((used cells count).insertIdx i value).take n := by
  rcases shiftUp_defined cells i (show top < n by omega) with
    ⟨moved, shifting, at_moved⟩
  rcases write?_defined moved value (show i < n by omega) with
    ⟨next, writing, at_next⟩
  refine ⟨moved, next, shifting, writing, ?_⟩
  apply List.ext_getElem?
  intro j
  rw [getElem?_used, List.getElem?_take, at_next, List.getElem?_insertIdx, at_moved,
    length_used cells fits, getElem?_used, getElem?_used]
  rcases Nat.lt_trichotomy j i with lower | same | higher
  · simp only [show j < top + 1 by omega, show j ≠ i by omega, show ¬ i < j by omega, lower,
      show j < n by omega, show j < count by omega, if_true, if_false, false_and]
  · simp only [same, show i < top + 1 by omega, show i < n by omega, Nat.lt_irrefl,
      show i ≤ count by omega, if_true, if_false]
  · by_cases within : j < top + 1
    · simp only [within, show j ≠ i by omega, show ¬ j < i by omega, higher,
        show j ≤ top by omega, show j < n by omega, show j - 1 < count by omega, if_true, if_false,
        true_and]
    · by_cases room : j < n
      · simp only [within, room, show ¬ j < i by omega, show j ≠ i by omega,
          show ¬ j - 1 < count by omega, if_true, if_false]
      · simp only [within, room, if_false]

theorem remove_used (value : α) (inside : i < count) (fits : count ≤ n) :
    ∃ moved next, shiftDown i (count - (i + 1)) cells = some moved ∧
      write? moved (count - 1) value = some next ∧
      used next (count - 1) = (used cells count).eraseIdx i := by
  rcases shiftDown_defined cells (show i + (count - (i + 1)) < n by omega) with
    ⟨moved, shifting, at_moved⟩
  rcases write?_defined moved value (show count - 1 < n by omega) with
    ⟨next, writing, at_next⟩
  refine ⟨moved, next, shifting, writing, ?_⟩
  apply List.ext_getElem?
  intro j
  rw [getElem?_used, List.getElem?_eraseIdx, at_next, at_moved, getElem?_used, getElem?_used]
  by_cases within : j < count - 1
  · by_cases lower : j < i
    · simp only [within, lower, show j ≠ count - 1 by omega, show ¬ i ≤ j by omega,
        show j < count by omega, if_true, if_false, false_and]
    · simp only [within, lower, show j ≠ count - 1 by omega, show i ≤ j by omega,
        show j < i + (count - (i + 1)) by omega, show j + 1 < count by omega, if_true, if_false,
        true_and]
  · simp only [within, show ¬ j < i by omega, show ¬ j + 1 < count by omega, if_false]

end FixedArray
