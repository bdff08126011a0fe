import Mathlib.Algebra.Order.Ring.Int
import Mathlib.Tactic.Common

/-! A quantity that waits behind a queue, and volumes that pass one after another. Each
volume serves the queue first and gives what is left over to the quantity. -/

namespace QueueFlow

def given (quantity queue volume : Int) : Int := min quantity (max 0 (volume - queue))

def shortened (queue volume : Int) : Int := max 0 (queue - volume)

def gifts (advance : Int → Int → Int) : Int → Int → List Int → List Int
  | _, _, [] => []
  | quantity, queue, volume :: volumes =>
      given quantity queue volume ::
        gifts advance (quantity - given quantity queue volume) (advance queue volume) volumes

def served (quantity queue total : Int) : Int := min quantity (max 0 (total - queue))

def increments (quantity queue : Int) : Int → List Int → List Int
  | _, [] => []
  | total, volume :: volumes =>
      (served quantity queue (total + volume) - served quantity queue total) ::
        increments quantity queue (total + volume) volumes

theorem given_nothing (queue volume : Int) : given 0 queue volume = 0 := by
  rw [given]
  omega

theorem given_bounds {quantity : Int} (nonneg : 0 ≤ quantity) (queue volume : Int) :
    0 ≤ given quantity queue volume ∧ given quantity queue volume ≤ quantity := by
  rw [given]
  omega

theorem gifts_nothing (advance : Int → Int → Int) (queue : Int) (volumes : List Int) :
    gifts advance 0 queue volumes = volumes.map fun _ => 0 := by
  induction volumes generalizing queue with
  | nil => rfl
  | cons volume volumes ih =>
      rw [gifts, given_nothing, Int.sub_zero, ih]
      rfl

theorem gifts_shortened {quantity queue : Int} (volumes : List Int)
    (positive : ∀ volume ∈ volumes, 0 < volume) {total : Int} (nonneg : 0 ≤ total) :
    gifts shortened (quantity - served quantity queue total) (shortened queue total) volumes =
      increments quantity queue total volumes := by
  induction volumes generalizing total with
  | nil => rfl
  | cons volume volumes ih =>
      have more : 0 < volume := positive volume List.mem_cons_self
      have gift : given (quantity - served quantity queue total) (shortened queue total) volume =
          served quantity queue (total + volume) - served quantity queue total := by
        rw [given, served, served, shortened]
        omega
      have left : quantity - served quantity queue total -
          (served quantity queue (total + volume) - served quantity queue total) =
            quantity - served quantity queue (total + volume) := by
        omega
      have ahead : shortened (shortened queue total) volume = shortened queue (total + volume) := by
        rw [shortened, shortened, shortened]
        omega
      rw [gifts, increments, gift, left, ahead]
      congr 1
      apply ih
      · intro later member
        exact positive later (List.mem_cons_of_mem _ member)
      · omega

theorem gifts_eq_increments {quantity queue : Int} (waits : 0 ≤ quantity) (nonneg : 0 ≤ queue)
    {volumes : List Int} (positive : ∀ volume ∈ volumes, 0 < volume) :
    gifts shortened quantity queue volumes = increments quantity queue 0 volumes := by
  have none : served quantity queue 0 = 0 := by
    rw [served]
    omega
  have whole : shortened queue 0 = queue := by
    rw [shortened]
    omega
  calc
    _ = gifts shortened (quantity - served quantity queue 0) (shortened queue 0) volumes := by
      rw [none, whole, Int.sub_zero]
    _ = _ := gifts_shortened volumes positive le_rfl

end QueueFlow
