import Ito.GateEquivalence
import Ito.HardwareFrame
import Ito.Library.Resettable

/-! The hardware path over whole runs: frames into the bridge, decisions out of the accelerator.

A run mixes frames, idle cycles, frames with reserved bits set and resets in any order. -/

namespace Ito.Rtl

open Clocked

variable {w : Nat}

def taken (frame : FrameInput w) : Option (GateOrder w) :=
  if frame.valid && frameParityOk frame then some (OrderFrameBridge.reset.clock frame).order
  else none

def OrderFrameBridge.presented (bridge : OrderFrameBridge w) : Option (GateOrder w) :=
  request (bridge.requestValid, bridge.order)

namespace Pipeline

/-- One edge, `none` with `rst_n` low. -/
def edge : Pipeline w → Option (FrameInput w) → Pipeline w := Clocked.edge reset clock

def answer (pipe : Pipeline w) : Option (Bool × BitVec 4) := pipe.gate.shown

/-- The registers `approved` and `reason_code`. -/
def held (pipe : Pipeline w) : Bool × BitVec 4 := (pipe.gate.approved, pipe.gate.reasonCode)

theorem presented_clock (bridge : OrderFrameBridge w) (frame : FrameInput w) :
    (bridge.clock frame).presented = taken frame := by
  rw [OrderFrameBridge.presented, taken, OrderFrameBridge.clock, OrderFrameBridge.clock]
  split <;> rfl

theorem shown_delay (gate : RiskAccelerator w) : gate.shown = Delay.shown gate.delay := rfl

theorem delay_clock {pipe : Pipeline w} (captured : pipe.gate.Captured) (frame : FrameInput w) :
    (pipe.clock frame).gate.delay =
      Delay.clock gateDecision pipe.gate.delay pipe.bridge.presented :=
  RiskAccelerator.delay_clock captured (pipe.bridge.requestValid, pipe.bridge.order)

/-- Where the frames of the last cycles are: the newest in the bridge, the one before it in the
stage of the accelerator, the decision on the third on the outputs. -/
structure Holds (pipe : Pipeline w) (recent : List (FrameInput w)) : Prop where
  captured : pipe.gate.Captured
  bridge : pipe.bridge.presented = recent[0]?.bind taken
  stage : pipe.gate.delay.stage = recent[1]?.bind taken
  answer : pipe.answer = (recent[2]?.bind taken).map gateDecision
  held : pipe.held = (((recent.drop 2).findSome? taken).map gateDecision).getD (false, 1)

theorem holds_reset (pipe : Pipeline w) : Holds pipe.reset [] where
  captured := RiskAccelerator.captured_reset pipe.gate
  bridge := rfl
  stage := rfl
  answer := rfl
  held := rfl

theorem findSome?_drop (recent : List (FrameInput w)) :
    (recent.drop 1).findSome? taken =
      (recent[1]?.bind taken).or ((recent.drop 2).findSome? taken) := by
  match recent with
  | [] => rfl
  | [_] => rfl
  | _ :: second :: rest =>
      rw [List.drop_succ_cons, List.drop_zero, List.findSome?_cons]
      cases hit : taken second <;> simp [hit]

theorem holds_clock {pipe : Pipeline w} {recent : List (FrameInput w)} (holds : Holds pipe recent)
    (frame : FrameInput w) : Holds (pipe.clock frame) (frame :: recent) := by
  have delayed := delay_clock holds.captured frame
  refine ⟨?_, ?_, ?_, ?_, ?_⟩
  · exact RiskAccelerator.captured_clock pipe.gate (pipe.bridge.requestValid, pipe.bridge.order)
  · exact presented_clock pipe.bridge frame
  · rw [delayed, Delay.clock, holds.bridge]
    rfl
  · rw [answer, shown_delay, delayed, Delay.shown_clock, holds.stage]
    rfl
  · have out : (pipe.clock frame).held = (pipe.gate.delay.stage.map gateDecision).getD pipe.held :=
      congrArg Delay.Registers.out delayed
    rw [out, holds.stage, holds.held, List.drop_succ_cons, findSome?_drop]
    cases recent[1]?.bind taken <;> rfl

/-- After any run the response is the decision on the frame of the third last edge, if that was
a frame the bridge takes and no reset has come since, and there is no other response; between
responses the outputs hold the decision on the newest answered frame, and refuse before the first
one. -/
theorem pipeline_answers (pipe : Pipeline w) (edges : List (Option (FrameInput w))) :
    (Clocked.run edge pipe.reset edges).answer =
        ((sinceReset edges)[2]?.bind taken).map gateDecision ∧
      (Clocked.run edge pipe.reset edges).held =
        ((((sinceReset edges).drop 2).findSome? taken).map gateDecision).getD (false, 1) := by
  have holds := history (I := Holds) holds_reset (fun _ _ frame holds => holds_clock holds frame)
    pipe edges
  exact ⟨holds.answer, holds.held⟩

/-! The path driven by the risk service, which writes a frame for each request. -/

section Service

open RiskService

/-- The wires on a cycle in which the service has a request to send, or none. -/
def sent : Option RiskRequest → FrameInput 64
  | none => idleFrame
  | some request => ((encodeFrame (toFpgaFrame request)).map wires).getD idleFrame

theorem taken_sent (cycle : Option RiskRequest) : taken (sent cycle) = cycle.map orderOf := by
  cases cycle with
  | none => rfl
  | some request =>
      have onWires : sent (some request) = present (toFpgaFrame request) := by
        rw [sent, encodeFrame_eq, Option.map_some, Option.getD_some, wires_eq, readFrame_layout]
      have valid : (present (toFpgaFrame request)).valid = true := rfl
      rw [onWires, taken, valid, frameParityOk_request, bridge_captures]
      rfl

theorem gateDecision_approved (digest : RiskRequest → String) (request : RiskRequest) :
    (gateDecision (orderOf request)).1 = true ↔
      (evaluate digest request).decision = .approved ∨
        (Admissible (orderOf request) ∧ ¬ SumFits (orderOf request)) := by
  have software : (evaluate digest request).decision = .approved ↔
      Admissible (orderOf request) ∧
        (exactPosition (orderOf request)).natAbs ≤ (orderOf request).maxNetPosition.toNat :=
    decisionOf_approved request
  rw [software, gateDecision, decisionComb_approved, within_nextPosition, SumFits, not_lt,
    ← and_or_left]

/-- The last request but two of the link, if one was sent there and no reset has come since. -/
def answered (edges : List (Option (Option RiskRequest))) : Option RiskRequest :=
  (sinceReset edges)[2]?.join

def lastAnswered (edges : List (Option (Option RiskRequest))) : Option RiskRequest :=
  ((sinceReset edges).drop 2).findSome? id

theorem bind_taken_sent (cycles : List (Option RiskRequest)) (n : Nat) :
    (cycles.map sent)[n]?.bind taken = (cycles[n]?.join).map orderOf := by
  rw [List.getElem?_map]
  cases cycles[n]? with
  | none => rfl
  | some cycle => exact taken_sent cycle

theorem findSome?_taken_sent (cycles : List (Option RiskRequest)) :
    (cycles.map sent).findSome? taken = (cycles.findSome? id).map orderOf := by
  induction cycles with
  | nil => rfl
  | cons cycle cycles ih =>
      rw [List.map_cons, List.findSome?_cons, List.findSome?_cons, taken_sent, ih]
      cases cycle <;> rfl

/-- However requests, idle cycles and resets follow each other, each request is answered on the
third edge, and approved there exactly when the software approves it or an admissible sum wraps.
The `approved` output is high only while the newest answered request is such a one. -/
theorem service_answered (digest : RiskRequest → String) (pipe : Pipeline 64)
    (edges : List (Option (Option RiskRequest))) :
    let approves := fun request =>
      (evaluate digest request).decision = .approved ∨
        (Admissible (orderOf request) ∧ ¬ SumFits (orderOf request))
    let driven := Clocked.run edge pipe.reset (edges.map (Option.map sent))
    driven.answer = (answered edges).map (fun request => gateDecision (orderOf request)) ∧
      (∀ request, answered edges = some request →
        (driven.held.1 = true ↔ approves request)) ∧
      (driven.held.1 = true ↔ ∃ request, lastAnswered edges = some request ∧ approves request) := by
  intro approves driven
  rcases pipeline_answers pipe (edges.map (Option.map sent)) with ⟨shown, held⟩
  rw [sinceReset_map] at shown held
  rw [bind_taken_sent, Option.map_map] at shown
  rw [← List.map_drop, findSome?_taken_sent, Option.map_map] at held
  have newest : driven.held.1 = true ↔
      ∃ request, lastAnswered edges = some request ∧ approves request := by
    rw [held]
    cases last : lastAnswered edges with
    | none =>
        have unanswered : ((sinceReset edges).drop 2).findSome? id = none := last
        simp [unanswered]
    | some request =>
        have found : ((sinceReset edges).drop 2).findSome? id = some request := last
        rw [found]
        simpa using gateDecision_approved digest request
  refine ⟨shown, ?_, newest⟩
  intro request now
  have last : lastAnswered edges = some request := by
    rw [answered, Option.join_eq_some_iff] at now
    rw [lastAnswered, ← List.cons_getElem_drop_succ (h := (List.getElem?_eq_some_iff.mp now).1),
      (List.getElem?_eq_some_iff.mp now).2]
    rfl
  rw [newest, last]
  simp

end Service

end Pipeline

end Ito.Rtl
