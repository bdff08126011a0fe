import Mathlib.Algebra.Order.Ring.Int
import Mathlib.Algebra.BigOperators.Group.List.Basic
import Mathlib.Algebra.Order.BigOperators.Group.List
import Mathlib.Order.Bounds.Basic
import Mathlib.Tactic.Common

/-! Covering an amount from the front of a queue.

Every element offers its size. The queue is served in order, each element in
full before the next one, until the amount is covered or the queue is empty. -/

namespace Greedy

variable {α : Type*} (size : α → Int) (trim : α → Int → α)

def fills : Int → List α → List (α × Int)
  | _, [] => []
  | amount, x :: queue =>
      if 0 < amount then
        (x, min amount (size x)) :: fills (amount - min amount (size x)) queue
      else []

def left : Int → List α → Int
  | amount, [] => amount
  | amount, x :: queue =>
      if 0 < amount then left (amount - min amount (size x)) queue else amount

def rest : Int → List α → List α
  | _, [] => []
  | amount, x :: queue =>
      if 0 < amount then
        if amount < size x then trim x amount :: queue else rest (amount - size x) queue
      else x :: queue

variable {size trim} {amount : Int} {queue : List α}

theorem fills_of_nonpos (done : amount ≤ 0) : fills size amount queue = [] := by
  cases queue with
  | nil => rfl
  | cons x queue => exact if_neg (by omega)

theorem left_of_nonpos (done : amount ≤ 0) : left size amount queue = amount := by
  cases queue with
  | nil => rfl
  | cons x queue => exact if_neg (by omega)

theorem rest_of_nonpos (done : amount ≤ 0) : rest size trim amount queue = queue := by
  cases queue with
  | nil => rfl
  | cons x queue => exact if_neg (by omega)

/-- In a queue sorted so that whatever follows a refused element is refused too,
the accepted elements are the ones in front. -/
theorem cut_sorted {R : α → α → Prop} {p : α → Bool}
    (closed : ∀ a b, R a b → p a = false → p b = false) (sorted : queue.Pairwise R) :
    queue.takeWhile p = queue.filter p ∧ queue.dropWhile p = queue.filter fun x => !p x := by
  induction queue with
  | nil => exact ⟨rfl, rfl⟩
  | cons x queue ih =>
      rcases List.pairwise_cons.mp sorted with ⟨first, tail⟩
      cases accepted : p x with
      | true => simp [accepted, ih tail]
      | false =>
          have refused : ∀ y ∈ queue, p y = false := fun y member =>
            closed x y (first y member) accepted
          have none : queue.filter p = [] := by
            apply List.filter_eq_nil_iff.mpr
            intro y member
            simp [refused y member]
          have all : queue.filter (fun y => !p y) = queue := by
            apply List.filter_eq_self.mpr
            intro y member
            simp [refused y member]
          simp [accepted, none, all]

section Step

variable {x : α}

theorem part_taken (open' : 0 < amount) (larger : amount < size x) :
    fills size amount (x :: queue) = [(x, amount)] ∧ left size amount (x :: queue) = 0 := by
  have taken : min amount (size x) = amount := min_eq_left larger.le
  have covered : amount - amount ≤ 0 := by omega
  simp only [fills, left, if_pos open', taken]
  rw [fills_of_nonpos covered, left_of_nonpos covered]
  simp

theorem rest_part (open' : 0 < amount) (larger : amount < size x) :
    rest size trim amount (x :: queue) = trim x amount :: queue := by
  rw [rest, if_pos open', if_pos larger]

theorem all_taken (open' : 0 < amount) (smaller : size x ≤ amount) :
    fills size amount (x :: queue) = (x, size x) :: fills size (amount - size x) queue ∧
      left size amount (x :: queue) = left size (amount - size x) queue := by
  have taken : min amount (size x) = size x := min_eq_right smaller
  simp only [fills, left, if_pos open', taken]
  exact ⟨trivial, trivial⟩

theorem rest_all (open' : 0 < amount) (smaller : size x ≤ amount) :
    rest size trim amount (x :: queue) = rest size trim (amount - size x) queue := by
  rw [rest, if_pos open', if_neg (not_lt.mpr smaller)]

end Step

theorem sum_fills_add_left (amount : Int) (queue : List α) :
    ((fills size amount queue).map Prod.snd).sum + left size amount queue = amount := by
  induction queue generalizing amount with
  | nil => simp [fills, left]
  | cons x queue ih =>
      by_cases open' : 0 < amount
      · simp only [fills, left, if_pos open', List.map_cons, List.sum_cons]
        have step := ih (amount - min amount (size x))
        omega
      · simp [fills, left, if_neg open']

theorem left_nonneg (start : 0 ≤ amount) : 0 ≤ left size amount queue := by
  induction queue generalizing amount with
  | nil => exact start
  | cons x queue ih =>
      rw [left]
      split
      · exact ih (by omega)
      · exact start

theorem left_eq (positive : ∀ x ∈ queue, 0 < size x) (start : 0 ≤ amount) :
    left size amount queue = max 0 (amount - (queue.map size).sum) := by
  induction queue generalizing amount with
  | nil => simp [left, start]
  | cons x queue ih =>
      obtain ⟨first, others⟩ := List.forall_mem_cons.mp positive
      have more : 0 ≤ (queue.map size).sum := by
        apply List.sum_nonneg
        intro part member
        obtain ⟨y, among, rfl⟩ := List.mem_map.mp member
        exact (others y among).le
      rw [List.map_cons, List.sum_cons, left]
      split
      case isTrue =>
        rw [ih others (by omega)]
        omega
      case isFalse => omega

theorem fills_eq_nil_iff (open' : 0 < amount) : fills size amount queue = [] ↔ queue = [] := by
  cases queue with
  | nil => simp [fills]
  | cons x queue => simp [fills, open']

theorem fills_eq_take (amount : Int) (queue : List α) :
    (fills size amount queue).map Prod.fst = queue.take (fills size amount queue).length := by
  induction queue generalizing amount with
  | nil => simp [fills]
  | cons x queue ih =>
      by_cases open' : 0 < amount
      · simp [fills, if_pos open', ih]
      · simp [fills, if_neg open']

theorem exhausted_of_mem_dropLast {fill : α × Int}
    (member : fill ∈ (fills size amount queue).dropLast) : fill.2 = size fill.1 := by
  induction queue generalizing amount with
  | nil => simp [fills] at member
  | cons x queue ih =>
      by_cases open' : 0 < amount
      · by_cases larger : amount < size x
        · simp [(part_taken open' larger).1] at member
        · rw [(all_taken open' (by omega)).1] at member
          generalize served : fills size (amount - size x) queue = later at member
          cases later with
          | nil => simp at member
          | cons next later =>
              rw [List.dropLast_cons_cons, List.mem_cons] at member
              rcases member with rfl | member
              · rfl
              · apply ih
                rw [served]
                exact member
      · simp [fills, if_neg open'] at member

theorem fill_bounds (positive : ∀ x ∈ queue, 0 < size x) :
    ∀ fill ∈ fills size amount queue, 0 < fill.2 ∧ fill.2 ≤ size fill.1 := by
  induction queue generalizing amount with
  | nil => simp [fills]
  | cons x queue ih =>
      intro fill member
      rw [fills] at member
      split at member
      case isTrue open' =>
        rcases List.mem_cons.mp member with rfl | later
        · have first := positive x List.mem_cons_self
          exact ⟨lt_min open' first, min_le_right _ _⟩
        · exact ih (fun y among => positive y (List.mem_cons_of_mem _ among)) fill later
      case isFalse => cases member

theorem sum_fills (positive : ∀ x ∈ queue, 0 < size x) (start : 0 ≤ amount) :
    ((fills size amount queue).map Prod.snd).sum = min amount (queue.map size).sum := by
  have whole : ((fills size amount queue).map Prod.snd).sum + left size amount queue = amount :=
    sum_fills_add_left amount queue
  rw [left_eq positive start] at whole
  omega

theorem least_cover (positive : ∀ x ∈ queue, 0 < size x) :
    IsLeast {k | ((fills size amount queue).map Prod.snd).sum ≤ ((queue.take k).map size).sum}
      (fills size amount queue).length := by
  induction queue generalizing amount with
  | nil => exact ⟨by simp [fills], fun k _ => Nat.zero_le k⟩
  | cons x queue ih =>
      obtain ⟨first, others⟩ := List.forall_mem_cons.mp positive
      by_cases open' : 0 < amount
      · have ⟨covers, least⟩ := @ih (amount - min amount (size x)) others
        have later : 0 ≤ ((fills size (amount - min amount (size x)) queue).map Prod.snd).sum := by
          apply List.sum_nonneg
          intro part member
          obtain ⟨fill, among, rfl⟩ := List.mem_map.mp member
          exact (fill_bounds others fill among).1.le
        simp only [fills, if_pos open', List.map_cons, List.sum_cons, List.length_cons]
        constructor
        · simp only [Set.mem_ofPred_eq, List.take_succ_cons, List.map_cons, List.sum_cons] at covers ⊢
          omega
        · intro k enough
          cases k with
          | zero =>
              simp only [Set.mem_ofPred_eq, List.take_zero, List.map_nil, List.sum_nil] at enough
              omega
          | succ k =>
              simp only [Set.mem_ofPred_eq, List.take_succ_cons, List.map_cons, List.sum_cons]
                at enough
              by_cases larger : amount < size x
              · rw [fills_of_nonpos (by omega)]
                simp
              · have rest : ((fills size (amount - min amount (size x)) queue).map Prod.snd).sum ≤
                    ((queue.take k).map size).sum := by omega
                exact Nat.succ_le_succ (least rest)
      · rw [fills_of_nonpos (by omega)]
        exact ⟨by simp, fun k _ => Nat.zero_le k⟩

theorem worth_between {served : List (α × Int)} (value : α → Int) {low high : Int}
    (each : ∀ fill ∈ served, 0 ≤ fill.2 ∧ low ≤ value fill.1 ∧ value fill.1 ≤ high) :
    low * (served.map Prod.snd).sum ≤ (served.map fun fill => fill.2 * value fill.1).sum ∧
      (served.map fun fill => fill.2 * value fill.1).sum ≤ high * (served.map Prod.snd).sum := by
  induction served with
  | nil => simp
  | cons fill served ih =>
      obtain ⟨⟨part, lower, upper⟩, others⟩ := List.forall_mem_cons.mp each
      have ⟨below, above⟩ := ih others
      have least : low * fill.2 ≤ fill.2 * value fill.1 := by
        rw [mul_comm]
        exact Int.mul_le_mul_of_nonneg_left lower part
      have greatest : fill.2 * value fill.1 ≤ high * fill.2 := by
        rw [mul_comm high]
        exact Int.mul_le_mul_of_nonneg_left upper part
      simp only [List.map_cons, List.sum_cons, mul_add]
      exact ⟨add_le_add least below, add_le_add greatest above⟩

theorem turn_of_left {x : α} (remains : 0 < left size amount (x :: queue)) :
    0 < amount ∧ size x ≤ amount ∧ 0 < left size (amount - size x) queue := by
  by_cases open' : 0 < amount
  · by_cases larger : amount < size x
    · rw [(part_taken open' larger).2] at remains
      omega
    · have smaller : size x ≤ amount := by omega
      rw [(all_taken open' smaller).2] at remains
      exact ⟨open', smaller, remains⟩
  · rw [left, if_neg open'] at remains
    exact absurd remains open'

theorem fills_of_left (remains : 0 < left size amount queue) :
    fills size amount queue = queue.map fun x => (x, size x) := by
  induction queue generalizing amount with
  | nil => rfl
  | cons x queue ih =>
      rcases turn_of_left remains with ⟨open', smaller, behind⟩
      rw [(all_taken open' smaller).1, ih behind, List.map_cons]

theorem rest_of_left (remains : 0 < left size amount queue) : rest size trim amount queue = [] := by
  induction queue generalizing amount with
  | nil => rfl
  | cons x queue ih =>
      rcases turn_of_left remains with ⟨open', smaller, behind⟩
      rw [rest_all open' smaller, ih behind]

theorem mem_rest_of_not_served {x : α} (member : x ∈ queue)
    (skipped : ∀ part, (x, part) ∉ fills size amount queue) : x ∈ rest size trim amount queue := by
  induction queue generalizing amount with
  | nil => exact member
  | cons y queue ih =>
      by_cases open' : 0 < amount
      · have served : x ≠ y := by
          intro same
          apply skipped (min amount (size y))
          rw [fills, if_pos open', same]
          exact List.mem_cons_self
        have later : x ∈ queue := (List.mem_cons.mp member).resolve_left served
        by_cases larger : amount < size y
        · rw [rest_part open' larger]
          exact List.mem_cons_of_mem _ later
        · have smaller : size y ≤ amount := by omega
          rw [rest_all open' smaller]
          apply ih later
          intro part taken
          apply skipped part
          rw [(all_taken open' smaller).1]
          exact List.mem_cons_of_mem _ taken
      · rw [rest_of_nonpos (by omega)]
        exact member

theorem mem_rest {y : α} (member : y ∈ rest size trim amount queue) :
    y ∈ queue ∨ ∃ x ∈ queue, ∃ part, 0 < part ∧ part < size x ∧ y = trim x part := by
  induction queue generalizing amount with
  | nil => exact Or.inl member
  | cons x queue ih =>
      rw [rest] at member
      split at member
      case isTrue open' =>
        split at member
        case isTrue larger =>
          rcases List.mem_cons.mp member with rfl | later
          · exact Or.inr ⟨x, List.mem_cons_self, amount, open', larger, rfl⟩
          · exact Or.inl (List.mem_cons_of_mem _ later)
        case isFalse =>
          rcases ih member with old | ⟨z, among, trimmed⟩
          · exact Or.inl (List.mem_cons_of_mem _ old)
          · exact Or.inr ⟨z, List.mem_cons_of_mem _ among, trimmed⟩
      case isFalse => exact Or.inl member

theorem sum_fills_add_rest (p : α → Prop) [DecidablePred p]
    (kind : ∀ x part, p (trim x part) ↔ p x)
    (size_trim : ∀ x part, x ∈ queue → 0 < part → part < size x →
      size (trim x part) = size x - part) :
    (queue.map fun x => if p x then size x else 0).sum =
      ((fills size amount queue).map fun fill => if p fill.1 then fill.2 else 0).sum +
        ((rest size trim amount queue).map fun x => if p x then size x else 0).sum := by
  induction queue generalizing amount with
  | nil => simp [fills, rest]
  | cons x queue ih =>
      by_cases open' : 0 < amount
      · by_cases larger : amount < size x
        · rw [(part_taken open' larger).1, rest_part open' larger]
          have trimmed := size_trim x amount List.mem_cons_self open' larger
          simp only [List.map_cons, List.sum_cons, List.map_nil, List.sum_nil, kind, trimmed]
          split <;> omega
        · have smaller : size x ≤ amount := by omega
          have tail := @ih (amount - size x) fun y part among =>
            size_trim y part (List.mem_cons_of_mem _ among)
          rw [(all_taken open' smaller).1, rest_all open' smaller]
          simp only [List.map_cons, List.sum_cons]
          omega
      · rw [fills_of_nonpos (by omega), rest_of_nonpos (by omega)]
        simp

end Greedy
