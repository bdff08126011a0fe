import Mathlib.Data.List.ReduceOption

/-! A pure function behind two registers.

The first register samples the request of an edge, if there is one; the second
takes the answer to what the first held and keeps it until the next answer. -/

namespace Delay

variable {α β : Type*}

structure Registers (α β : Type*) where
  stage : Option α
  valid : Bool
  out : β

def clock (f : α → β) (held : Registers α β) (request : Option α) : Registers α β :=
  { stage := request
    valid := held.stage.isSome
    out := (held.stage.map f).getD held.out }

def shown (held : Registers α β) : Option β := if held.valid then some held.out else none

def trace (f : α → β) : Registers α β → List (Option α) → List (Option β)
  | _, [] => []
  | held, request :: requests =>
      shown (clock f held request) :: trace f (clock f held request) requests

theorem shown_clock (f : α → β) (held : Registers α β) (request : Option α) :
    shown (clock f held request) = held.stage.map f := by
  cases stage : held.stage with
  | none => simp [shown, clock, stage]
  | some order => simp [shown, clock, stage]

theorem trace_eq (f : α → β) (held : Registers α β) (requests : List (Option α)) :
    trace f held requests = (held.stage :: requests).dropLast.map (Option.map f) := by
  induction requests generalizing held with
  | nil => rfl
  | cons request requests ih =>
      have staged : (clock f held request).stage = request := rfl
      rw [trace, shown_clock, ih, staged, List.dropLast_cons_of_ne_nil (List.cons_ne_nil _ _),
        List.map_cons]

theorem out_run (f : α → β) (held : Registers α β) (requests : List (Option α)) :
    (requests.foldl (clock f) held).out =
      (((held.stage :: requests).dropLast.reduceOption).map f).getLastD held.out := by
  induction requests generalizing held with
  | nil => rfl
  | cons request requests ih =>
      have staged : (clock f held request).stage = request := rfl
      rw [List.foldl_cons, ih, staged, List.dropLast_cons_of_ne_nil (List.cons_ne_nil _ _)]
      cases stage : held.stage with
      | none => simp [clock, stage]
      | some order =>
          rw [List.reduceOption_cons_of_some, List.map_cons, List.getLastD_cons]
          simp [clock, stage]

/-- From an empty stage the answers are those to the requests, in order, without
the request that the last edge has only sampled. -/
theorem reduceOption_trace (f : α → β) {held : Registers α β} (empty : held.stage = none)
    (requests : List (Option α)) :
    (trace f held requests).reduceOption = requests.dropLast.reduceOption.map f := by
  rw [trace_eq, empty]
  cases requests with
  | nil => rfl
  | cons request requests =>
      rw [List.dropLast_cons_of_ne_nil (List.cons_ne_nil _ _), List.map_cons, Option.map_none,
        List.reduceOption_cons_of_none, List.reduceOption_map]

end Delay
