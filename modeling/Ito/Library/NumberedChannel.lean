import Mathlib.Data.List.Infix
import Mathlib.Order.Basic

/-! A receiver that takes only the message with the next number, over a channel that may lose,
repeat and reorder what was sent. -/

namespace NumberedChannel

variable {M : Type*} (takes : Int → M → Bool)

/-- What the receiver accepts of a sequence of deliveries. Each acceptance raises the number that
it waits for. -/
def accepted : Int → List M → List M
  | _, [] => []
  | expected, message :: delivered =>
      if takes expected message then message :: accepted (expected + 1) delivered
      else accepted expected delivered

/-- From `start` on the numbers tell the delivered messages apart: the receiver takes a message at
a number exactly if it is the one that was sent with it. -/
def Numbered (start : Int) (sent delivered : List M) : Prop :=
  ∀ message ∈ delivered, ∀ index : ℕ,
    takes (start + index) message = true ↔ sent[index]? = some message

variable {takes} {start : Int} {sent delivered : List M} {message : M}

theorem Numbered.skip (numbered : Numbered takes start sent (message :: delivered)) :
    Numbered takes start sent delivered :=
  (List.forall_mem_cons.mp numbered).2

/-- What the receiver takes is the first message that is still to come. -/
theorem Numbered.head (numbered : Numbered takes start sent (message :: delivered)) :
    takes start message = true ↔ ∃ later, sent = message :: later := by
  have first := (List.forall_mem_cons.mp numbered).1 0
  have same : start + ((0 : ℕ) : Int) = start := by omega
  rw [same] at first
  rw [first]
  cases sent with
  | nil => simp
  | cons next later => simp [eq_comm]

theorem Numbered.tail (numbered : Numbered takes start (message :: sent) (message :: delivered)) :
    Numbered takes (start + 1) sent delivered := by
  intro other member index
  have shifted := numbered.skip other member (index + 1)
  have same : start + ((index + 1 : ℕ) : Int) = start + 1 + index := by omega
  rw [List.getElem?_cons_succ, same] at shifted
  exact shifted

theorem accepted_sublist (expected : Int) (delivered : List M) :
    (accepted takes expected delivered).Sublist delivered := by
  induction delivered generalizing expected with
  | nil => exact List.Sublist.slnil
  | cons message delivered ih =>
      rw [accepted]
      split
      · exact (ih (expected + 1)).cons_cons message
      · exact (ih expected).cons message

theorem accepted_front (numbered : Numbered takes start sent delivered) :
    accepted takes start delivered <+: sent := by
  induction delivered generalizing start sent with
  | nil => exact List.nil_prefix
  | cons message delivered ih =>
      rw [accepted]
      split
      case isTrue taken =>
        rcases numbered.head.mp taken with ⟨later, rfl⟩
        exact (List.prefix_cons_inj message).mpr (ih numbered.tail)
      case isFalse => exact ih numbered.skip

theorem accepted_complete (numbered : Numbered takes start sent delivered) {front : List M}
    (opens : front <+: sent) (arrives : front.Sublist delivered) :
    front <+: accepted takes start delivered := by
  induction delivered generalizing start sent front with
  | nil =>
      rw [List.sublist_nil.mp arrives]
      exact List.nil_prefix
  | cons message delivered ih =>
      cases front with
      | nil => exact List.nil_prefix
      | cons first front =>
          rcases opens with ⟨rest, same⟩
          rw [List.cons_append] at same
          subst same
          rw [accepted]
          split
          case isTrue taken =>
            rcases numbered.head.mp taken with ⟨later, same⟩
            rcases List.cons.inj same with ⟨rfl, -⟩
            exact (List.prefix_cons_inj first).mpr
              (ih numbered.tail (List.prefix_append front rest)
                (List.cons_sublist_cons.mp arrives))
          case isFalse other =>
            have apart : first ≠ message := by
              rintro rfl
              exact other (numbered.head.mpr ⟨_, rfl⟩)
            have later : (first :: front).Sublist delivered := by
              cases arrives with
              | cons _ later => exact later
              | cons_cons => exact absurd rfl apart
            exact ih numbered.skip (List.prefix_append (first :: front) rest) later

end NumberedChannel
