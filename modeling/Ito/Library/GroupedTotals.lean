import Ito.Library.SortedMap
import Mathlib.Algebra.Order.BigOperators.Group.List
import Mathlib.Algebra.Order.Ring.Int

/-! Values of a map taken together by group, with the total weight of a group.

A table of totals kept beside the map agrees with it when its entry at every
group is that group's total, and is absent exactly where the group is empty. -/

namespace SortedMap

variable {K V G : Type*} {before : K → K → Prop} [DecidableEq G]

def group (map : SortedMap before V) (groupOf : V → G) (name : G) : List V :=
  (map.entries.map Prod.snd).filter fun value => groupOf value = name

def total (map : SortedMap before V) (groupOf : V → G) (weight : V → Int) (name : G) : Int :=
  ((map.group groupOf name).map weight).sum

def nonzero (amount : Int) : Option Int := if amount = 0 then none else some amount

theorem nonzero_inj {first second : Int} : nonzero first = nonzero second ↔ first = second := by
  unfold nonzero
  split <;> split <;> simp <;> omega

theorem getD_nonzero (amount : Int) : (nonzero amount).getD 0 = amount := by
  unfold nonzero
  split
  case isTrue zero => exact zero.symm
  case isFalse => rfl

variable (map : SortedMap before V) (groupOf : V → G) (weight : V → Int)

theorem total_nonneg (positive : ∀ entry ∈ map.entries, 0 < weight entry.2) (name : G) :
    0 ≤ map.total groupOf weight name := by
  apply List.sum_nonneg
  intro amount member
  rcases List.mem_map.mp member with ⟨value, inside, rfl⟩
  rcases List.mem_map.mp (List.mem_filter.mp inside).1 with ⟨entry, present, rfl⟩
  exact (positive entry present).le

theorem total_eq_zero_iff (positive : ∀ entry ∈ map.entries, 0 < weight entry.2) (name : G) :
    map.total groupOf weight name = 0 ↔ map.group groupOf name = [] := by
  have weighty : ∀ value ∈ map.group groupOf name, 0 < weight value := by
    intro value inside
    rcases List.mem_map.mp (List.mem_filter.mp inside).1 with ⟨entry, present, rfl⟩
    exact positive entry present
  unfold total
  cases members : map.group groupOf name with
  | nil => simp
  | cons value rest =>
      rw [members] at weighty
      have first := weighty value List.mem_cons_self
      have others : 0 ≤ (rest.map weight).sum := by
        apply List.sum_nonneg
        intro amount member
        rcases List.mem_map.mp member with ⟨later, inside, rfl⟩
        exact (weighty later (List.mem_cons_of_mem _ inside)).le
      simp only [List.map_cons, List.sum_cons, reduceCtorEq, iff_false]
      omega

def share (value : V) (name : G) : Int := if groupOf value = name then weight value else 0

theorem total_of_perm {first second : SortedMap before V} {key : K} {value : V}
    (perm : first.entries.Perm ((key, value) :: second.entries)) (name : G) :
    first.total groupOf weight name =
      second.total groupOf weight name + share groupOf weight value name := by
  have grouped : (first.group groupOf name).Perm
      (((key, value) :: second.entries).map Prod.snd |>.filter fun v => groupOf v = name) :=
    (perm.map Prod.snd).filter _
  unfold total share
  rw [(grouped.map weight).sum_eq, List.map_cons, List.filter_cons]
  by_cases same : groupOf value = name
  · simp [same, group, add_comm]
  · simp [same, group]

variable [DecidableEq K] [IsStrictTotalOrder K before] {key : K} {value : V}

theorem total_erase (found : map.find? key = some value) (name : G) :
    map.total groupOf weight name =
      (map.erase key).total groupOf weight name + share groupOf weight value name :=
  total_of_perm groupOf weight (map.perm_cons_erase ((find?_eq_some map).mp found)) name

theorem total_set [DecidableRel before] (key : K) (value : V) (name : G) :
    (map.set key value).total groupOf weight name =
      (map.erase key).total groupOf weight name + share groupOf weight value name :=
  total_of_perm groupOf weight map.set_perm_cons_erase name

theorem total_erase_absent (absent : map.find? key = none) (name : G) :
    (map.erase key).total groupOf weight name = map.total groupOf weight name := by
  rw [total, group, map.entries_erase_absent absent, total, group]

end SortedMap
