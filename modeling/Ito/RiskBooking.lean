import Ito.RiskEvaluate
import Mathlib.Algebra.BigOperators.Group.List.Basic

/-! Booking the fills of approved orders.

The engine approves an order against the position booked so far and keeps no
record of the orders it approved. `Desk` adds that record, so that a run can be
restricted to fills of approved orders. -/

namespace Ito.RiskBooking

open RiskEngine

structure Desk where
  engine : RiskEngine
  journal : EventJournal
  working : List (Side × Int)

inductive Op where
  | evaluate (intent : OrderIntent) (nowNs : UInt64)
  | fill (order : Nat) (quantity : Int64)
  | setHealth (health : Health)

inductive Output where
  | none
  | decided (decision : RiskDecision)
  | filled (side : Side) (quantity : Int64) (booked : Bool)
  deriving DecidableEq

/-- The output of a fill that `apply_fill` refused. -/
def Output.refusedFill : Output → Bool
  | .filled _ _ booked => !booked
  | _ => false

/-- A fill names an approved order and takes at most what is left of it. Any
other fill is not delivered. -/
def step (desk : Desk) : Op → Option (Desk × Output)
  | .evaluate intent nowNs =>
      (desk.engine.evaluate desk.journal intent nowNs).map fun next =>
        (⟨next.1, next.2.1,
          if next.2.2.status = .approved then
            desk.working ++ [(intent.side, intent.quantity.toInt)]
          else desk.working⟩, .decided next.2.2)
  | .fill order quantity =>
      match desk.working[order]? with
      | some (side, left) =>
          if 0 < quantity.toInt ∧ quantity.toInt ≤ left then
            (desk.engine.applyFill desk.journal side quantity).map fun next =>
              (⟨next.1, next.2.1, desk.working.set order (side, left - quantity.toInt)⟩,
                .filled side quantity next.2.2)
          else some (desk, .none)
      | none => some (desk, .none)
  | .setHealth health => some ({ desk with engine := desk.engine.setHealth health }, .none)

def openOn (side : Side) (working : List (Side × Int)) : Int :=
  (working.map fun order => if order.1 = side then order.2 else 0).sum

/-- The limits still hold when every working order fills completely. -/
def Within (limits : LimitSnapshot) (position : PositionSnapshot) (working : List (Side × Int)) :
    Prop :=
  position.netPosition.toInt + openOn .buy working ≤ limits.maxNetPosition.toInt ∧
    -limits.maxNetPosition.toInt ≤ position.netPosition.toInt - openOn .sell working ∧
    position.grossPosition.toInt + openOn .buy working + openOn .sell working ≤
      limits.maxGrossPosition.toInt

def Reserved (desk : Desk) (intent : OrderIntent) : Prop :=
  Within desk.engine.limits desk.engine.position
    (desk.working ++ [(intent.side, intent.quantity.toInt)])

def signedFill : Op × Output → Int
  | (_, .filled side quantity _) => side.sign * quantity.toInt
  | _ => 0

def bookedFill : Op × Output → Int
  | (_, .filled side quantity true) => side.sign * quantity.toInt
  | _ => 0

def Sound (working : List (Side × Int)) : Prop :=
  ∀ order ∈ working, order.1 ≠ .unnamed ∧ 0 ≤ order.2

theorem openOn_cons (side : Side) (order : Side × Int) (working : List (Side × Int)) :
    openOn side (order :: working) =
      (if order.1 = side then order.2 else 0) + openOn side working := by
  simp [openOn]

theorem openOn_nonneg (side : Side) {working : List (Side × Int)} (sound : Sound working) :
    0 ≤ openOn side working := by
  induction working with
  | nil => simp [openOn]
  | cons order working ih =>
      have rest := ih (fun other member => sound other (List.mem_cons_of_mem _ member))
      have here := (sound order List.mem_cons_self).2
      rw [openOn_cons]
      split <;> omega

theorem left_le_openOn {working : List (Side × Int)} (sound : Sound working) {order : Nat}
    {side : Side} {left : Int} (present : working[order]? = some (side, left)) :
    left ≤ openOn side working := by
  induction working generalizing order with
  | nil => simp at present
  | cons first working ih =>
      have tail : Sound working := fun other member => sound other (List.mem_cons_of_mem _ member)
      have rest := openOn_nonneg side tail
      have here := (sound first List.mem_cons_self).2
      rw [openOn_cons]
      cases order with
      | zero =>
          simp only [List.getElem?_cons_zero, Option.some.injEq] at present
          rw [present, if_pos rfl]
          omega
      | succ order =>
          have inside := ih tail (by simpa using present)
          split <;> omega

theorem openOn_set (target : Side) {working : List (Side × Int)} {order : Nat} {side : Side}
    {left : Int} (present : working[order]? = some (side, left)) (taken : Int) :
    openOn target (working.set order (side, left - taken)) =
      openOn target working - if side = target then taken else 0 := by
  induction working generalizing order with
  | nil => simp at present
  | cons first working ih =>
      cases order with
      | zero =>
          simp only [List.getElem?_cons_zero, Option.some.injEq] at present
          simp only [List.set_cons_zero, openOn_cons, present]
          split <;> omega
      | succ order =>
          have inside := ih (by simpa using present)
          simp only [List.set_cons_succ, openOn_cons, inside]
          omega

theorem sound_set {working : List (Side × Int)} (sound : Sound working) {order : Nat} {side : Side}
    {left taken : Int} (present : working[order]? = some (side, left)) (enough : taken ≤ left) :
    Sound (working.set order (side, left - taken)) := by
  intro other member
  rcases List.mem_or_eq_of_mem_set member with old | rfl
  · exact sound other old
  · have named := (sound (side, left) (List.mem_of_getElem? present)).1
    exact ⟨named, by simp only; omega⟩

theorem bookable_of_within {engine : RiskEngine} {working : List (Side × Int)}
    (sound : Sound working) (within : Within engine.limits engine.position working)
    {order : Nat} {side : Side} {left : Int} (present : working[order]? = some (side, left))
    {quantity : Int64} (positive : 0 < quantity.toInt) (enough : quantity.toInt ≤ left) :
    engine.Bookable side quantity := by
  have share := left_le_openOn sound present
  have buys := openOn_nonneg .buy sound
  have sells := openOn_nonneg .sell sound
  have named := (sound (side, left) (List.mem_of_getElem? present)).1
  rcases within with ⟨upper, lower, gross⟩
  cases side with
  | buy => exact ⟨named, positive, by omega, by simp only [Side.sign]; omega,
      by simp only [Side.sign]; omega⟩
  | sell => exact ⟨named, positive, by omega, by simp only [Side.sign]; omega,
      by simp only [Side.sign]; omega⟩
  | unnamed => exact absurd rfl named

inductive Effect (desk : Desk) : Op → Desk → Output → Prop where
  | idle {op : Op} {next : Desk} (position : next.engine.position = desk.engine.position)
      (working : next.working = desk.working) : Effect desk op next .none
  | refused {intent : OrderIntent} {nowNs : UInt64} {next : Desk} {decision : RiskDecision}
      (position : next.engine.position = desk.engine.position)
      (working : next.working = desk.working) :
      Effect desk (.evaluate intent nowNs) next (.decided decision)
  | approved {intent : OrderIntent} {nowNs : UInt64} {next : Desk} {decision : RiskDecision}
      (approved : decision.status = .approved) (approvable : desk.engine.Approvable intent nowNs)
      (position : next.engine.position = desk.engine.position)
      (working : next.working = desk.working ++ [(intent.side, intent.quantity.toInt)]) :
      Effect desk (.evaluate intent nowNs) next (.decided decision)
  | filled {order : Nat} {quantity : Int64} {side : Side} {left : Int} {next : Desk} {booked : Bool}
      (present : desk.working[order]? = some (side, left))
      (positive : 0 < quantity.toInt) (enough : quantity.toInt ≤ left)
      (bookable : booked = true ↔ desk.engine.Bookable side quantity)
      (net : next.engine.position.netPosition.toInt = desk.engine.position.netPosition.toInt +
        if booked then side.sign * quantity.toInt else 0)
      (gross : next.engine.position.grossPosition.toInt =
        desk.engine.position.grossPosition.toInt + if booked then quantity.toInt else 0)
      (working : next.working = desk.working.set order (side, left - quantity.toInt)) :
      Effect desk (.fill order quantity) next (.filled side quantity booked)

theorem step_effect {desk : Desk} (ledger : desk.engine.position.Ledger) (op : Op) :
    ∃ next output, step desk op = some (next, output) ∧ next.engine.position.Ledger ∧
      next.engine.limits = desk.engine.limits ∧ Effect desk op next output := by
  cases op with
  | setHealth health => exact ⟨_, _, rfl, ledger, rfl, .idle rfl rfl⟩
  | evaluate intent nowNs =>
      obtain ⟨engine, journal, decision, evaluated, exact', limits, position⟩ :=
        evaluate_spec ledger desk.journal intent nowNs
      have kept : engine.position.Ledger := by
        rw [position]
        exact ledger
      by_cases approved : decision.status = .approved
      · refine ⟨⟨engine, journal, desk.working ++ [(intent.side, intent.quantity.toInt)]⟩,
          .decided decision, by simp only [step, evaluated, Option.map_some, if_pos approved], kept,
          limits, ?_⟩
        exact .approved approved (exact'.mp approved) position rfl
      · refine ⟨⟨engine, journal, desk.working⟩, .decided decision,
          by simp only [step, evaluated, Option.map_some, if_neg approved], kept, limits, ?_⟩
        exact .refused position rfl
  | fill order quantity =>
      cases present : desk.working[order]? with
      | none => exact ⟨desk, .none, by simp only [step, present], ledger, rfl, .idle rfl rfl⟩
      | some found =>
          rcases found with ⟨side, left⟩
          by_cases legal : 0 < quantity.toInt ∧ quantity.toInt ≤ left
          · obtain ⟨position, evaluated, values⟩ :=
              applyFill_eq ledger desk.journal side quantity
            obtain ⟨engine, journal, booked, same, kept, limits⟩ :=
              applyFill_keeps ledger desk.journal side quantity
            refine ⟨⟨engine, journal, desk.working.set order (side, left - quantity.toInt)⟩,
              .filled side quantity booked, ?_, kept, limits, ?_⟩
            · simp only [step, present, if_pos legal, same, Option.map_some]
            · rw [evaluated, Option.some.injEq] at same
              by_cases fits : desk.engine.Bookable side quantity
              · rw [if_pos fits, Prod.mk.injEq, Prod.mk.injEq] at same
                rcases same with ⟨rfl, _, rfl⟩
                have moved := values fits
                exact .filled present legal.1 legal.2 (by simp [fits]) (by simp [moved.1])
                  (by simp [moved.2]) rfl
              · rw [if_neg fits, Prod.mk.injEq, Prod.mk.injEq] at same
                rcases same with ⟨rfl, _, rfl⟩
                exact .filled present legal.1 legal.2 (by simp [fits]) (by simp) (by simp) rfl
          · exact ⟨desk, .none, by simp only [step, present, if_neg legal], ledger, rfl,
              .idle rfl rfl⟩

theorem effect_of_step {desk next : Desk} {op : Op} {output : Output}
    (ledger : desk.engine.position.Ledger) (ran : step desk op = some (next, output)) :
    next.engine.position.Ledger ∧ next.engine.limits = desk.engine.limits ∧
      Effect desk op next output := by
  rcases step_effect ledger op with ⟨next', output', same, facts⟩
  rw [ran, Option.some.injEq, Prod.mk.injEq] at same
  rw [same.1, same.2]
  exact facts

theorem exec_defined (start : Desk) (ledger : start.engine.position.Ledger) (ops : List Op) :
    ∃ desk log, Machine.exec step start ops = some (desk, log) := by
  have progress : ∀ (desk : Desk) (op : Op), desk.engine.position.Ledger →
      ∃ next output, step desk op = some (next, output) ∧ next.engine.position.Ledger := by
    intro desk op kept
    rcases step_effect kept op with ⟨next, output, first, after, _⟩
    exact ⟨next, output, first, after⟩
  rcases Machine.exec_defined _ progress ledger ops with ⟨desk, log, ran, _⟩
  exact ⟨desk, log, ran⟩

theorem net_of_exec (start : Desk) {desk : Desk} {ops : List Op} {log : List (Op × Output)}
    (ledger : start.engine.position.Ledger) (ran : Machine.exec step start ops = some (desk, log)) :
    desk.engine.position.netPosition.toInt =
      start.engine.position.netPosition.toInt + (log.map bookedFill).sum := by
  have both : desk.engine.position.Ledger ∧ desk.engine.position.netPosition.toInt =
      start.engine.position.netPosition.toInt + (log.map bookedFill).sum := by
    apply Machine.exec_invariant (fun log (desk : Desk) => desk.engine.position.Ledger ∧
      desk.engine.position.netPosition.toInt =
        start.engine.position.netPosition.toInt + (log.map bookedFill).sum) ?_ ⟨ledger, by simp⟩ ran
    intro log desk op next output holds first
    rcases effect_of_step holds.1 first with ⟨kept, _, effect⟩
    refine ⟨kept, ?_⟩
    have past := holds.2
    rw [List.map_append, List.sum_append, List.map_singleton, List.sum_singleton]
    cases effect with
    | idle position => rw [position, past]; simp [bookedFill]
    | refused position => rw [position, past]; simp [bookedFill]
    | approved _ _ position => rw [position, past]; simp [bookedFill]
    | @filled _ quantity side _ _ booked _ _ _ _ net _ _ =>
        rw [net, past]
        cases booked <;> simp [bookedFill, Int.add_assoc]
  exact both.2

/-- What reserving keeps: either nothing was ever approved, or the limits hold
even when all working orders fill. -/
def Covered (desk : Desk) : Prop :=
  desk.engine.position.Ledger ∧ Sound desk.working ∧
    (desk.working = [] ∨ Within desk.engine.limits desk.engine.position desk.working)

theorem covered_step {desk next : Desk} {op : Op} {output : Output} (covered : Covered desk)
    (ran : step desk op = some (next, output))
    (reserved : ∀ intent nowNs decision, op = .evaluate intent nowNs →
      output = .decided decision → decision.status = .approved → Reserved desk intent) :
    output.refusedFill = false ∧ Covered next := by
  rcases covered with ⟨ledger, sound, room⟩
  rcases effect_of_step ledger ran with ⟨kept, limits, effect⟩
  cases effect with
  | idle position working =>
      refine ⟨rfl, kept, ?_⟩
      rw [position, working, limits]
      exact ⟨sound, room⟩
  | refused position working =>
      refine ⟨rfl, kept, ?_⟩
      rw [position, working, limits]
      exact ⟨sound, room⟩
  | @approved intent nowNs _ decision approved approvable position working =>
      refine ⟨rfl, kept, ?_⟩
      rw [position, working, limits]
      refine ⟨?_, .inr (reserved intent nowNs decision rfl rfl approved)⟩
      intro order member
      rcases List.mem_append.mp member with old | new
      · exact sound order old
      · rw [List.mem_singleton] at new
        subst new
        have positive := approvable.size.quantity.1
        refine ⟨?_, by simp only; omega⟩
        rcases approvable.side with buy | sell
        · simp [buy]
        · simp [sell]
  | @filled order quantity side left _ booked present positive enough bookable net gross working =>
      have nonempty : desk.working ≠ [] := by
        intro empty
        simp [empty] at present
      have within := room.resolve_left nonempty
      have taken := bookable.mpr (bookable_of_within sound within present positive enough)
      refine ⟨by simp [Output.refusedFill, taken], kept, ?_, .inr ?_⟩
      · rw [working]
        exact sound_set sound present enough
      · rcases within with ⟨upper, lower, total⟩
        rw [taken, if_pos rfl] at net gross
        rw [Within]
        rw [working, limits, openOn_set .buy present, openOn_set .sell present, net, gross]
        cases side with
        | buy => simp [Side.sign]; omega
        | sell => simp [Side.sign]; omega
        | unnamed => exact absurd rfl (sound _ (List.mem_of_getElem? present)).1

/-- Each fill returns true exactly when the position after it respects the limits. -/
def ReturnsBookable (before : Desk) (_ : Op) (output : Output) (_ : Desk) : Prop :=
  ∀ side quantity booked, output = .filled side quantity booked →
    (booked = true ↔ before.engine.Bookable side quantity)

/-- An order is approved only with room for it on top of all orders that are still working. -/
def ReservesRoom (before : Desk) (op : Op) (output : Output) (_ : Desk) : Prop :=
  ∀ intent nowNs decision, op = .evaluate intent nowNs → output = .decided decision →
    decision.status = .approved → Reserved before intent

theorem along_returnsBookable (start : Desk) (ledger : start.engine.position.Ledger)
    (ops : List Op) : Machine.Along step ReturnsBookable start ops := by
  apply Machine.along_of_invariant (fun desk : Desk => desk.engine.position.Ledger) _ ledger
  intro before op output next kept first
  rcases effect_of_step kept first with ⟨after, _, effect⟩
  refine ⟨?_, after⟩
  intro side quantity booked same
  subst same
  cases effect with
  | filled _ _ _ bookable => exact bookable

theorem log_booked {start desk : Desk} (covered : Covered start) {ops : List Op}
    {log : List (Op × Output)} (ran : Machine.exec step start ops = some (desk, log))
    (reserved : Machine.Along step ReservesRoom start ops) :
    ∀ entry ∈ log, entry.2.refusedFill = false := by
  have along : Machine.Along step (fun _ _ output _ => output.refusedFill = false) start ops := by
    apply Machine.along_of_keep Covered ?_ covered (fun _ _ => trivial) reserved
    intro before op output next held _ first met
    exact covered_step held first met
  exact Machine.log_of_along ran along

theorem bookedFill_eq_signedFill {log : List (Op × Output)}
    (booked : ∀ entry ∈ log, entry.2.refusedFill = false) :
    log.map bookedFill = log.map signedFill := by
  apply List.map_congr_left
  intro entry member
  rcases entry with ⟨op, output⟩
  cases output with
  | none => rfl
  | decided decision => rfl
  | filled side quantity taken =>
      have fact := booked _ member
      simp only [Output.refusedFill, Bool.not_eq_false'] at fact
      rw [fact]
      rfl

/-- Fills of approved orders. A fill returns true exactly when the position after
it respects the limits, the tracked position is the start position plus the
fills that returned true, and when every order was approved on top of all orders
still working, every fill returns true. -/
theorem approved_fills (engine : RiskEngine) (journal : EventJournal)
    (ledger : engine.position.Ledger) (ops : List Op) :
    ∃ desk log, Machine.exec step ⟨engine, journal, []⟩ ops = some (desk, log) ∧
      desk.engine.position.netPosition.toInt =
        engine.position.netPosition.toInt + (log.map bookedFill).sum ∧
      Machine.Along step ReturnsBookable ⟨engine, journal, []⟩ ops ∧
      (Machine.Along step ReservesRoom ⟨engine, journal, []⟩ ops →
        (∀ entry ∈ log, entry.2.refusedFill = false) ∧
          desk.engine.position.netPosition.toInt =
            engine.position.netPosition.toInt + (log.map signedFill).sum) := by
  rcases exec_defined ⟨engine, journal, []⟩ ledger ops with ⟨desk, log, ran⟩
  have net := net_of_exec ⟨engine, journal, []⟩ ledger ran
  refine ⟨desk, log, ran, net, along_returnsBookable ⟨engine, journal, []⟩ ledger ops, ?_⟩
  intro reserved
  have start : Covered ⟨engine, journal, []⟩ := ⟨ledger, by simp [Sound], .inl rfl⟩
  have booked := log_booked start ran reserved
  refine ⟨booked, ?_⟩
  rw [net, bookedFill_eq_signedFill booked]

def sampleEngine : RiskEngine :=
  { limits := ⟨1, 10000000000, 100, 1000000, 10, 100, 5, true⟩, health := .healthy }

def sampleBuy (correlationId : UInt64) : OrderIntent :=
  ⟨1, correlationId, 7, 11, 21, 101, 5, 33, .buy, .limit, .day, 100, 10, 1⟩

/-- Two orders of ten lots are approved against the same flat position, and the
second one cannot be booked. -/
def twoApprovals : List Op :=
  [.evaluate (sampleBuy 1) 2, .evaluate (sampleBuy 2) 3, .fill 0 10, .fill 1 10]

theorem approved_fill_refused :
    ¬ ∀ (engine : RiskEngine) (journal : EventJournal), engine.limits.Valid →
      engine.position.Ledger → ∀ (ops : List Op) (desk : Desk) (log : List (Op × Output)),
        Machine.exec step ⟨engine, journal, []⟩ ops = some (desk, log) →
          ∀ entry ∈ log, entry.2.refusedFill = false := by
  intro always
  have valid : sampleEngine.limits.Valid := by constructor <;> decide
  have refused : (Machine.exec step ⟨sampleEngine, {}, []⟩ twoApprovals).map
      (fun result => result.2.map fun entry => entry.2.refusedFill) =
        some [false, false, false, true] := by decide +kernel
  cases ran : Machine.exec step ⟨sampleEngine, {}, []⟩ twoApprovals with
  | none => simp [ran] at refused
  | some result =>
      have booked := always sampleEngine {} valid (by decide) twoApprovals result.1 result.2 ran
      have outputs : result.2.map (fun entry => entry.2.refusedFill) =
          [false, false, false, true] := by simpa [ran] using refused
      have last : true ∈ result.2.map (fun entry => entry.2.refusedFill) := by simp [outputs]
      rcases List.mem_map.mp last with ⟨entry, member, lost⟩
      rw [booked entry member] at lost
      cases lost

theorem approved_fills_two_parts :
    ∃ desk log, Machine.exec step ⟨sampleEngine, {}, []⟩
        [.evaluate (sampleBuy 1) 2, .fill 0 4, .fill 0 6] = some (desk, log) ∧
      (∀ entry ∈ log, entry.2.refusedFill = false) ∧
      desk.engine.position.netPosition.toInt = (log.map signedFill).sum := by
  obtain ⟨desk, log, ran, _, _, reserved⟩ := approved_fills sampleEngine {} (by decide)
    [.evaluate (sampleBuy 1) 2, .fill 0 4, .fill 0 6]
  have fits : Reserved ⟨sampleEngine, {}, []⟩ (sampleBuy 1) := by
    rw [Reserved, Within]
    decide
  obtain ⟨booked, net⟩ := reserved <| by
    intro next output _
    refine ⟨?_, fun _ _ _ => ⟨?_, fun _ _ _ => ⟨?_, trivial⟩⟩⟩ <;>
      intro intent nowNs decision same _ _
    · cases same
      exact fits
    · cases same
    · cases same
  exact ⟨desk, log, ran, booked, by simpa [sampleEngine] using net⟩

end Ito.RiskBooking
