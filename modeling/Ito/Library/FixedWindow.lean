import Mathlib.Data.List.Infix
import Mathlib.Tactic.Common

/-! Limiters that count in windows, where a window is opened by the grant that finds none open.

Windows of a fixed length may begin at any time, so a period of that length may touch two. -/

namespace FixedWindow

structure Grant where
  time : Nat
  opens : Bool
  deriving DecidableEq, Repr

def Windowed (limit : Nat) (grants : List Grant) : Prop :=
  ∀ front window back, grants = front ++ window ++ back →
    (∀ grant ∈ window.tail, grant.opens = false) → window.length ≤ limit

def Spaced (period : Nat) (grants : List Grant) : Prop :=
  grants.Pairwise fun first second =>
    first.opens = true → second.opens = true → first.time + period ≤ second.time

def Timely (grants : List Grant) : Prop :=
  grants.Pairwise fun first second => first.time ≤ second.time

def within (period start : Nat) (grants : List Grant) : List Grant :=
  grants.filter fun grant => start ≤ grant.time ∧ grant.time < start + period

variable {limit period : Nat} {grants : List Grant}

/-- The grants before a time come first. -/
theorem Timely.split (timely : Timely grants) (time : Nat) :
    ∃ front back, grants = front ++ back ∧ (∀ grant ∈ front, grant.time < time) ∧
      ∀ grant ∈ back, time ≤ grant.time := by
  induction grants with
  | nil => exact ⟨[], [], rfl, by simp, by simp⟩
  | cons grant grants ih =>
      obtain ⟨before, later⟩ := List.pairwise_cons.mp timely
      by_cases early : grant.time < time
      · obtain ⟨front, back, split, low, high⟩ := ih later
        refine ⟨grant :: front, back, by rw [split]; rfl, ?_, high⟩
        exact List.forall_mem_cons.mpr ⟨early, low⟩
      · refine ⟨[], grant :: grants, rfl, by simp, ?_⟩
        rw [List.forall_mem_cons]
        exact ⟨by omega, fun other member => by have order := before other member; omega⟩

theorem Timely.within_infix (timely : Timely grants) (start : Nat) :
    ∃ front back, grants = front ++ within period start grants ++ back := by
  obtain ⟨front, rest, split, early, started⟩ := timely.split start
  have timelyRest : Timely rest := by
    rw [split] at timely
    exact (List.pairwise_append.mp timely).2.1
  obtain ⟨middle, back, splitRest, inside, late⟩ := timelyRest.split (start + period)
  refine ⟨front, back, ?_⟩
  have none : within period start front = [] := by
    rw [within, List.filter_eq_nil_iff]
    intro grant member
    have before := early grant member
    simp only [decide_eq_true_eq]
    omega
  have ended : within period start back = [] := by
    rw [within, List.filter_eq_nil_iff]
    intro grant member
    have after := late grant member
    simp only [decide_eq_true_eq]
    omega
  have all : within period start middle = middle := by
    rw [within, List.filter_eq_self]
    intro grant member
    have below := inside grant member
    have above := started grant (by rw [splitRest]; exact List.mem_append_left _ member)
    simp only [decide_eq_true_eq]
    omega
  have whole : within period start grants = middle := by
    rw [split, splitRest, within, List.filter_append, List.filter_append]
    change within period start front ++ (within period start middle ++ within period start back) = _
    rw [none, ended, all, List.append_nil, List.nil_append]
  rw [whole, split, splitRest, List.append_assoc]

/-- Less than a period sees at most one window opened, so it can be cut in two. -/
theorem Spaced.cut (spaced : Spaced period grants)
    (short : ∀ first ∈ grants, ∀ second ∈ grants, second.time < first.time + period) :
    ∃ front back, grants = front ++ back ∧ (∀ grant ∈ front, grant.opens = false) ∧
      ∀ grant ∈ back.tail, grant.opens = false := by
  induction grants with
  | nil => exact ⟨[], [], rfl, by simp, by simp⟩
  | cons grant grants ih =>
      obtain ⟨ahead, later⟩ := List.pairwise_cons.mp spaced
      cases opens : grant.opens with
      | true =>
          refine ⟨[], grant :: grants, rfl, by simp, ?_⟩
          intro other member
          cases again : other.opens with
          | false => rfl
          | true =>
              have apart := ahead other member opens again
              have near := short grant List.mem_cons_self other (List.mem_cons_of_mem _ member)
              omega
      | false =>
          obtain ⟨front, back, split, closed, tail⟩ := ih later
            fun first member second member' =>
              short first (List.mem_cons_of_mem _ member) second (List.mem_cons_of_mem _ member')
          refine ⟨grant :: front, back, by rw [split]; rfl, ?_, tail⟩
          exact List.forall_mem_cons.mpr ⟨opens, closed⟩

theorem within_le (windowed : Windowed limit grants) (spaced : Spaced period grants)
    (timely : Timely grants) (start : Nat) :
    (within period start grants).length ≤ 2 * limit := by
  obtain ⟨front, back, whole⟩ :
      ∃ front back, grants = front ++ within period start grants ++ back :=
    timely.within_infix start
  have sub : (within period start grants).Sublist grants := List.filter_sublist
  have short : ∀ first ∈ within period start grants, ∀ second ∈ within period start grants,
      second.time < first.time + period := by
    intro first member second member'
    have low := (List.mem_filter.mp member).2
    have high := (List.mem_filter.mp member').2
    simp only [decide_eq_true_eq] at low high
    omega
  have apart : Spaced period (within period start grants) := spaced.sublist sub
  obtain ⟨early, late, cut, closed, tail⟩ := apart.cut short
  rw [cut] at whole
  have first : early.length ≤ limit := by
    apply windowed front early (late ++ back) (by rw [whole]; simp)
    intro grant member
    exact closed grant (List.mem_of_mem_tail member)
  have second : late.length ≤ limit :=
    windowed (front ++ early) late back (by rw [whole]; simp) tail
  rw [cut, List.length_append]
  omega

/-! The limiter, one grant after the other -/

/-- The open window was opened at this time and has no more than this many grants. -/
structure Tracks (limit period count opened : Nat) (grants : List Grant) : Prop where
  windowed : Windowed limit grants
  spaced : Spaced period grants
  current : ∀ front window, grants = front ++ window →
    (∀ grant ∈ window.tail, grant.opens = false) → window.length ≤ count
  latest : ∀ grant ∈ grants, grant.opens = true → grant.time ≤ opened
  bound : count ≤ limit

variable {count opened time : Nat}

theorem tracks_empty (bound : count ≤ limit) : Tracks limit period count opened [] where
  windowed := by
    intro front window back split _
    have empty : window = [] := by
      simp only [List.nil_eq, List.append_eq_nil_iff] at split
      exact split.1.2
    simp [empty]
  spaced := List.Pairwise.nil
  current := by
    intro front window split _
    have empty : window = [] := by
      simp only [List.nil_eq, List.append_eq_nil_iff] at split
      exact split.2
    simp [empty]
  latest := by simp
  bound := bound

theorem concat_eq_append {grant : Grant} {front window : List Grant}
    (split : grants ++ [grant] = front ++ window) :
    window = [] ∨ ∃ rest, window = rest ++ [grant] ∧ grants = front ++ rest := by
  obtain rfl | ⟨rest, last, rfl⟩ := window.eq_nil_or_concat
  · exact Or.inl rfl
  · rw [List.concat_eq_append, ← List.append_assoc, List.append_singleton_inj] at split
    obtain ⟨split, rfl⟩ := split
    exact Or.inr ⟨rest, List.concat_eq_append, split⟩

/-- Windows of a longer list are those that were there and those that end with what was added. -/
theorem Windowed.concat {grant : Grant} (windowed : Windowed limit grants)
    (current : ∀ front window, grants ++ [grant] = front ++ window →
      (∀ grant ∈ window.tail, grant.opens = false) → window.length ≤ limit) :
    Windowed limit (grants ++ [grant]) := by
  intro front window back split closed
  obtain rfl | ⟨rest, rfl, before⟩ := concat_eq_append split
  · rw [List.append_nil] at split
    exact current front window split closed
  · exact windowed front window rest before closed

namespace Tracks

variable (tracks : Tracks limit period count opened grants)

include tracks

/-- A grant in the open window. -/
theorem counted (room : count < limit) (time : Nat) :
    Tracks limit period (count + 1) opened (grants ++ [⟨time, false⟩]) := by
  have current : ∀ front window, grants ++ [⟨time, false⟩] = front ++ window →
      (∀ grant ∈ window.tail, grant.opens = false) → window.length ≤ count + 1 := by
    intro front window split closed
    obtain rfl | ⟨rest, rfl, before⟩ := concat_eq_append split
    · exact Nat.zero_le _
    · have below : rest.length ≤ count := by
        apply tracks.current front rest before
        intro grant member
        apply closed grant
        cases rest with
        | nil => cases member
        | cons first rest => exact List.mem_append_left _ member
      rw [List.length_append, List.length_singleton]
      omega
  refine ⟨?_, ?_, current, ?_, room⟩
  · apply tracks.windowed.concat
    intro front window split closed
    exact (current front window split closed).trans room
  · rw [Spaced, List.pairwise_append]
    refine ⟨tracks.spaced, List.pairwise_singleton .., ?_⟩
    intro first _ second member _ opens
    rw [List.mem_singleton.mp member] at opens
    cases opens
  · intro grant member opens
    rcases List.mem_append.mp member with old | new
    · exact tracks.latest grant old opens
    · rw [List.mem_singleton.mp new] at opens
      cases opens

theorem open' (positive : 0 < limit)
    (apart : ∀ grant ∈ grants, grant.opens = true → opened + period ≤ time) :
    Tracks limit period 1 time (grants ++ [⟨time, true⟩]) := by
  have current : ∀ front window, grants ++ [⟨time, true⟩] = front ++ window →
      (∀ grant ∈ window.tail, grant.opens = false) → window.length ≤ 1 := by
    intro front window split closed
    obtain rfl | ⟨rest, rfl, _⟩ := concat_eq_append split
    · exact Nat.zero_le _
    · cases rest with
      | nil => exact le_rfl
      | cons first rest =>
          have impossible := closed ⟨time, true⟩ (by simp)
          cases impossible
  refine ⟨?_, ?_, current, ?_, positive⟩
  · apply tracks.windowed.concat
    intro front window split closed
    exact (current front window split closed).trans positive
  · rw [Spaced, List.pairwise_append]
    refine ⟨tracks.spaced, List.pairwise_singleton .., ?_⟩
    intro first member second new opens _
    rw [List.mem_singleton.mp new]
    have before := tracks.latest first member opens
    have later := apart first member opens
    change first.time + period ≤ time
    omega
  · intro grant member opens
    rcases List.mem_append.mp member with old | new
    · have before := tracks.latest grant old opens
      have later := apart grant old opens
      omega
    · rw [List.mem_singleton.mp new]

end Tracks

end FixedWindow
