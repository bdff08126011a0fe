import Mathlib.Algebra.Order.Ring.Int
import Mathlib.Data.List.Range
import Mathlib.Tactic.Common

/-! Tables whose rows are numbered as they come in, and keyed by one of their columns.

A row takes the number after the largest that was ever given. An insertion that is refused gives
its number back. -/

structure NumberedTable (R : Type*) where
  rows : List (Int × R) := []
  /-- The largest number that was given. -/
  counter : Int := 0

namespace NumberedTable

inductive Refusal where
  | full
  | duplicate
  deriving DecidableEq, Repr

variable {R K : Type*} [DecidableEq K] {key : R → K} {limit : Int} {table next : NumberedTable R}
  {row : R}

def last (table : NumberedTable R) : Int := ((table.rows.map Prod.fst).max?).getD 0

def nextNumber (table : NumberedTable R) : Int := max table.counter table.last + 1

def insert (key : R → K) (limit : Int) (table : NumberedTable R) (row : R) :
    Except Refusal (NumberedTable R) :=
  if table.nextNumber > limit then .error .full
  else if table.rows.any fun entry => key entry.2 = key row then .error .duplicate
  else .ok ⟨table.rows ++ [(table.nextNumber, row)], table.nextNumber⟩

def ordered (table : NumberedTable R) : List (Int × R) :=
  table.rows.mergeSort fun first second => first.1 ≤ second.1

def number (rows : List R) : List (Int × R) := rows.mapIdx fun index row => ((index : Int) + 1, row)

/-- The table holds these rows, numbered without a gap, and no two have a key in common. -/
structure Holds (key : R → K) (table : NumberedTable R) (rows : List R) : Prop where
  numbered : table.rows = number rows
  counter : table.counter = rows.length
  distinct : (rows.map key).Nodup

theorem number_concat (rows : List R) (row : R) :
    number (rows ++ [row]) = number rows ++ [((rows.length : Int) + 1, row)] := by
  simp [number, List.mapIdx_append]

theorem map_fst_number (rows : List R) :
    (number rows).map Prod.fst = (List.range rows.length).map fun index : Nat => (index : Int) + 1 := by
  apply List.ext_getElem <;> simp [number]

theorem map_snd_number (rows : List R) : (number rows).map Prod.snd = rows := by
  apply List.ext_getElem <;> simp [number]

theorem number_map {S : Type*} (f : R → S) (rows : List R) :
    number (rows.map f) = (number rows).map fun entry => (entry.1, f entry.2) := by
  apply List.ext_getElem <;> simp [number]

theorem mem_number {rows : List R} {entry : Int × R} (member : entry ∈ number rows) :
    1 ≤ entry.1 ∧ entry.2 ∈ rows := by
  obtain ⟨index, inside, rfl⟩ := List.mem_mapIdx.mp member
  exact ⟨by simp, List.getElem_mem inside⟩

theorem last_number (rows : List R) : (((number rows).map Prod.fst).max?).getD 0 = rows.length := by
  induction rows using List.reverseRec with
  | nil => rfl
  | append_singleton rows row =>
      have largest : ((number (rows ++ [row])).map Prod.fst).max? = some ((rows.length : Int) + 1) := by
        rw [List.max?_eq_some_iff, map_fst_number]
        constructor
        · exact List.mem_map.mpr ⟨rows.length, by simp, rfl⟩
        · intro number member
          obtain ⟨index, inside, rfl⟩ := List.mem_map.mp member
          rw [List.mem_range, List.length_append, List.length_singleton] at inside
          omega
      rw [largest, Option.getD_some, List.length_append, List.length_singleton]
      rfl

omit [DecidableEq K] in
theorem holds_empty (key : R → K) : Holds key ({} : NumberedTable R) [] where
  numbered := rfl
  counter := rfl
  distinct := List.nodup_nil

namespace Holds

variable {rows : List R} (holds : Holds key table rows)

include holds

omit [DecidableEq K] in
theorem last_eq : table.last = rows.length := by
  rw [last, holds.numbered, last_number]

omit [DecidableEq K] in
theorem nextNumber_eq : table.nextNumber = rows.length + 1 := by
  rw [nextNumber, holds.counter, holds.last_eq, max_self]

omit [DecidableEq K] in
theorem ordered_eq : table.ordered = number rows := by
  rw [ordered, holds.numbered]
  apply List.mergeSort_of_pairwise
  rw [number, List.pairwise_iff_getElem]
  intro first second inside inside' earlier
  simp only [List.getElem_mapIdx, decide_eq_true_eq]
  omega

theorem any_key_iff : (table.rows.any fun entry => key entry.2 = key row) = true ↔
    key row ∈ rows.map key := by
  rw [holds.numbered, ← map_snd_number rows, List.map_map, map_snd_number, List.any_eq_true,
    List.mem_map]
  simp

theorem insert_ok (done : insert key limit table row = .ok next) :
    Holds key next (rows ++ [row]) := by
  rw [insert] at done
  split_ifs at done with full present
  rw [holds.any_key_iff] at present
  obtain rfl := Except.ok.inj done
  refine ⟨?_, ?_, ?_⟩
  · rw [number_concat, holds.numbered, holds.nextNumber_eq]
  · rw [holds.nextNumber_eq, List.length_append, List.length_singleton]
    rfl
  · rw [List.map_append, List.map_singleton, List.nodup_append]
    refine ⟨holds.distinct, by simp, ?_⟩
    intro other member last inside same
    rw [List.mem_singleton.mp inside] at same
    exact present (same ▸ member)

omit holds in
theorem find_last (holds : Holds key next (rows ++ [row])) :
    next.rows.find? (fun entry => key entry.2 = key row) = some ((rows.length : Int) + 1, row) := by
  have fresh := holds.distinct
  rw [List.map_append, List.map_singleton, List.nodup_append] at fresh
  have absent : (number rows).find? (fun entry => key entry.2 = key row) = none := by
    rw [List.find?_eq_none]
    intro entry member
    have listed : entry.2 ∈ rows := by
      rw [← map_snd_number rows]
      exact List.mem_map_of_mem member
    rw [decide_eq_true_eq]
    exact fresh.2.2 _ (List.mem_map_of_mem listed) _ List.mem_cons_self
  rw [holds.numbered, number_concat, List.find?_append, absent]
  simp

end Holds

end NumberedTable
