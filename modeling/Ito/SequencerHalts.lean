import Ito.Library.Resettable
import Ito.OrderSequencer

/-! The order sequencer with halts and resets.

Source: `rtl/order_sequencer/order_sequencer.sv`. A halt drops the order that waits, unless the
transmitter takes it on that very edge; a reset drops it in any case. -/

namespace Ito.Rtl.OrderSequencer

open Clocked

variable {w : Nat}

/-- One edge, `none` with `rst_n` low. -/
def edge : OrderSequencer w → Option (Input w) → OrderSequencer w :=
  Clocked.edge (fun _ => reset) clock

inductive Fate where
  | transmitted
  | dropped
  deriving DecidableEq, Repr

def accepted (cycle : OrderSequencer w × Option (Input w)) : List (Order w) :=
  match cycle.2 with
  | none => []
  | some input => if input.halt then [] else captured (cycle.1, input)

def settled (cycle : OrderSequencer w × Option (Input w)) : List (Order w × Fate) :=
  match cycle.2 with
  | none => (pending cycle.1).map fun order => (order, .dropped)
  | some input =>
      if cycle.1.txValid && input.txReady then [(outputs cycle.1, .transmitted)]
      else if input.halt then (pending cycle.1).map fun order => (order, .dropped)
      else []

/-- The order that the transmitter takes on a cycle: both wires of its handshake are high. -/
def transmitted (cycle : OrderSequencer w × Option (Input w)) : List (Order w) :=
  match cycle.2 with
  | none => []
  | some input => delivered (cycle.1, input)

theorem edge_valid (sequencer : OrderSequencer w) (input : Option (Input w))
    (valid : sequencer.txValid = sequencer.busy) :
    (edge sequencer input).txValid = (edge sequencer input).busy := by
  cases input with
  | none => rfl
  | some input => exact clock_valid sequencer input valid

theorem clock_halted (sequencer : OrderSequencer w) {input : Input w} (halted : input.halt = true) :
    clock sequencer input = { sequencer with txValid := false, busy := false } := by
  rw [clock, if_pos halted]

theorem settled_halted {sequencer : OrderSequencer w} {input : Input w}
    (valid : sequencer.txValid = sequencer.busy) (halted : input.halt = true) :
    settled (sequencer, some input) = (pending sequencer).map fun order =>
      (order, if input.txReady then .transmitted else .dropped) := by
  simp only [settled, valid, halted, pending]
  cases sequencer.busy <;> cases input.txReady <;> rfl

theorem settled_running (sequencer : OrderSequencer w) {input : Input w}
    (running : input.halt = false) :
    settled (sequencer, some input) =
      (delivered (sequencer, input)).map fun order => (order, .transmitted) := by
  simp only [settled, running, delivered]
  cases sequencer.txValid && input.txReady <;> rfl

theorem edge_balance {cycle : OrderSequencer w × Option (Input w)}
    (valid : cycle.1.txValid = cycle.1.busy) :
    pending cycle.1 ++ accepted cycle =
      (settled cycle).map Prod.fst ++ pending (next edge cycle) := by
  rcases cycle with ⟨sequencer, _ | input⟩
  · have cleared : pending (next edge (sequencer, none)) = [] := rfl
    rw [cleared, accepted, settled, List.map_map]
    exact congrArg (· ++ []) (List.map_id _).symm
  · cases halted : input.halt with
    | true =>
        have cleared : pending (next edge (sequencer, some input)) = [] := by
          change pending (clock sequencer input) = []
          rw [clock_halted sequencer halted]
          rfl
        have none : accepted (sequencer, some input) = [] := if_pos halted
        rw [cleared, none, settled_halted valid halted, List.map_map]
        exact congrArg (· ++ []) (List.map_id _).symm
    | false =>
        have captures : accepted (sequencer, some input) = captured (sequencer, input) :=
          if_neg (by rw [halted]; decide)
        rw [captures, settled_running sequencer halted, List.map_map]
        exact (clock_balance valid halted).trans (congrArg (· ++ _) (List.map_id _).symm)

theorem settled_transmitted {cycle : OrderSequencer w × Option (Input w)}
    (valid : cycle.1.txValid = cycle.1.busy) :
    ((settled cycle).filter fun order => order.2 = .transmitted).map Prod.fst =
      transmitted cycle := by
  rcases cycle with ⟨sequencer, _ | input⟩
  · rw [settled, transmitted, List.filter_map]
    simp
  · have sends : transmitted (sequencer, some input) = delivered (sequencer, input) := rfl
    cases halted : input.halt with
    | true =>
        rw [settled_halted valid halted, sends, delivered, pending, valid]
        cases sequencer.busy <;> cases input.txReady <;> simp
    | false =>
        rw [settled_running sequencer halted, sends, List.filter_map]
        simp [Function.comp_def]

theorem settled_dropped {cycle : OrderSequencer w × Option (Input w)} {order : Order w}
    (valid : cycle.1.txValid = cycle.1.busy) (dropped : (order, Fate.dropped) ∈ settled cycle) :
    pending cycle.1 = [order] ∧
      ∀ input, cycle.2 = some input → input.halt = true ∧ input.txReady = false := by
  have waited : order ∈ pending cycle.1 → pending cycle.1 = [order] := by
    rw [pending]
    split
    · intro member
      rw [List.mem_singleton.mp member]
    · intro member
      cases member
  rcases cycle with ⟨sequencer, _ | input⟩
  · rcases List.mem_map.mp dropped with ⟨held, member, same⟩
    cases same
    exact ⟨waited member, fun input none => by cases none⟩
  · cases halted : input.halt with
    | true =>
        rw [settled_halted valid halted] at dropped
        rcases List.mem_map.mp dropped with ⟨held, member, same⟩
        rcases Prod.mk.inj same with ⟨rfl, fate⟩
        have stalled : input.txReady = false := by
          cases ready : input.txReady with
          | false => rfl
          | true => simp [ready] at fate
        refine ⟨waited member, ?_⟩
        rintro _ ⟨rfl⟩
        exact ⟨halted, stalled⟩
    | false =>
        rw [settled_running sequencer halted] at dropped
        rcases List.mem_map.mp dropped with ⟨held, -, same⟩
        cases (Prod.mk.inj same).2

/-- Over every run from a reset on, with halts and resets anywhere in it, the orders taken in are
those that left, in the same order, and the one that still waits. Those that left transmitted are
exactly the ones the transmitter has taken, each once; each of the others waited when it was
dropped, by a reset or by a halt on which the transmitter was not ready. -/
theorem sequencer_accounts (edges : List (Option (Input w))) :
    let run := cycles edge reset edges
    run.flatMap accepted =
        (run.flatMap settled).map Prod.fst ++ pending (Clocked.run edge reset edges) ∧
      ((run.flatMap settled).filter fun order => order.2 = .transmitted).map Prod.fst =
        run.flatMap transmitted ∧
      (∀ cycle ∈ run, ∀ order, (order, Fate.dropped) ∈ settled cycle →
        pending cycle.1 = [order] ∧
          ∀ input, cycle.2 = some input → input.halt = true ∧ input.txReady = false) := by
  intro run
  have idle : (reset : OrderSequencer w).txValid = (reset : OrderSequencer w).busy := rfl
  have valid : ∀ cycle ∈ run, cycle.1.txValid = cycle.1.busy := fun cycle member =>
    ((invariant (I := fun sequencer : OrderSequencer w => sequencer.txValid = sequencer.busy)
      (A := fun _ => True) (fun sequencer input held _ => edge_valid sequencer input held) idle
      fun _ _ => trivial).1 cycle member).1
  refine ⟨?_, ?_, ?_⟩
  · rw [List.map_flatMap]
    exact flatMap_balance pending accepted (fun cycle => (settled cycle).map Prod.fst)
      fun cycle member => edge_balance (valid cycle member)
  · rw [List.filter_flatMap, List.map_flatMap]
    exact List.flatMap_congr fun cycle member => settled_transmitted (valid cycle member)
  · exact fun cycle member order dropped => settled_dropped (valid cycle member) dropped

end Ito.Rtl.OrderSequencer
