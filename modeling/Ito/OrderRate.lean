import Ito.RiskEvaluate
import Ito.Library.FixedWindow

/-! How many orders the risk engine approves in a time.

Source: `cpp/ito_risk/risk_engine.cpp`. A window begins with the first order that passes every
other check, and it ends when an order comes a second later or more. -/

namespace Ito.RiskEngine

open FixedWindow

def Resets (engine : RiskEngine) : Op → Prop
  | .evaluate intent nowNs => engine.refusal intent nowNs = some none ∧
      (engine.secondEpochNs = 0 ∨ nowNs < engine.secondEpochNs ∨
        nowNs - engine.secondEpochNs ≥ 1000000000)
  | _ => False

instance (engine : RiskEngine) : (op : Op) → Decidable (engine.Resets op)
  | .evaluate _ _ => inferInstanceAs (Decidable (_ ∧ _))
  | .setLimits _ | .setPosition _ | .setHealth _ | .applyFill _ _ => isFalse id

def observed (state : RiskEngine × EventJournal) (op : Op) :
    Option ((RiskEngine × EventJournal) × Output × Bool) :=
  (step state op).map fun next => (next.1, next.2, decide (state.1.Resets op))

def grantOf : Op × Output × Bool → Option Grant
  | (.evaluate _ nowNs, .decided decision, resets) =>
      if decision.status = .approved then some ⟨nowNs.toNat, resets⟩ else none
  | _ => none

def grants (log : List (Op × Output × Bool)) : List Grant := log.filterMap grantOf

def timeOf : Op → Option UInt64
  | .evaluate _ nowNs => some nowNs
  | _ => none

def times (ops : List Op) : List UInt64 := ops.filterMap timeOf

/-! One call -/

inductive RateEffect (engine : RiskEngine) (op : Op) (output : Output) (next : RiskEngine) : Prop
  | limited (limits : LimitSnapshot) (same : op = .setLimits limits)
      (installed : next.limits = limits) (empty : next.ordersThisSecond = 0)
  | quiet (limits : next.limits = engine.limits)
      (count : next.ordersThisSecond = engine.ordersThisSecond)
      (epoch : next.secondEpochNs = engine.secondEpochNs)
      (none : ∀ resets, grantOf (op, output, resets) = none)
  | counted (nowNs : UInt64) (time : timeOf op = some nowNs) (limits : next.limits = engine.limits)
      (room : engine.ordersThisSecond < engine.limits.maxOrdersPerSecond)
      (count : next.ordersThisSecond = engine.ordersThisSecond + 1)
      (epoch : next.secondEpochNs = engine.secondEpochNs) (stays : ¬ engine.Resets op)
      (granted : ∀ resets, grantOf (op, output, resets) = some ⟨nowNs.toNat, resets⟩)
  | opened (nowNs : UInt64) (time : timeOf op = some nowNs) (limits : next.limits = engine.limits)
      (positive : engine.limits.maxOrdersPerSecond ≠ 0) (ended : ¬ engine.InWindow nowNs)
      (count : next.ordersThisSecond = 1) (epoch : next.secondEpochNs = nowNs)
      (resets : engine.Resets op)
      (granted : ∀ resets, grantOf (op, output, resets) = some ⟨nowNs.toNat, resets⟩)

theorem evaluate_rate {engine next : RiskEngine} {journal journal' : EventJournal}
    {intent : OrderIntent} {nowNs : UInt64} {decision : RiskDecision}
    (ledger : engine.position.Ledger)
    (evaluated : engine.evaluate journal intent nowNs = some (next, journal', decision)) :
    RateEffect engine (.evaluate intent nowNs) (.decided decision) next := by
  obtain ⟨reason, defined, meaning⟩ := refusal_spec ledger intent nowNs
  rw [evaluate, Option.bind_eq_bind, defined, Option.bind_some] at evaluated
  cases reason with
  | some code =>
      obtain ⟨rfl, _, rfl⟩ := evaluated
      exact .quiet rfl rfl rfl fun _ => rfl
  | none =>
      have valid := (meaning.mp rfl).2.1
      by_cases current : engine.InWindow nowNs
      · have stays : engine.rollWindow nowNs = engine := by
          rw [rollWindow, if_neg ((inWindow_iff engine nowNs).mp current)]
        have noReset : ¬ engine.Resets (.evaluate intent nowNs) := fun resets =>
          (inWindow_iff engine nowNs).mp current resets.2
        simp only [stays, Option.pure_def] at evaluated
        split at evaluated
        · obtain ⟨rfl, _, rfl⟩ := evaluated
          exact .quiet rfl rfl rfl fun _ => rfl
        · rename_i room
          obtain ⟨rfl, _, rfl⟩ := evaluated
          exact .counted nowNs rfl rfl (UInt64.not_le.mp room) rfl rfl noReset fun _ => rfl
      · have ended := current
        rw [inWindow_iff, not_not] at ended
        have fresh : engine.rollWindow nowNs =
            { engine with secondEpochNs := nowNs, ordersThisSecond := 0 } := by
          rw [rollWindow, if_pos ended]
        have empty : ¬ (0 : UInt64) ≥ engine.limits.maxOrdersPerSecond :=
          UInt64.not_le.mpr (UInt64.pos_iff_ne_zero.mpr valid.rate)
        simp only [fresh, Option.pure_def, if_neg empty] at evaluated
        obtain ⟨rfl, _, rfl⟩ := evaluated
        exact .opened nowNs rfl rfl valid.rate current rfl rfl ⟨defined, ended⟩ fun _ => rfl

theorem step_rate {engine next : RiskEngine} {journal journal' : EventJournal} {op : Op}
    {output : Output} (ledger : engine.position.Ledger)
    (stepped : step (engine, journal) op = some ((next, journal'), output)) :
    RateEffect engine op output next := by
  cases op with
  | setLimits limits =>
      obtain ⟨rfl, rfl⟩ := stepped
      exact .limited limits rfl rfl rfl
  | setPosition position =>
      rw [step, setPosition_eq, Option.map_some] at stepped
      obtain ⟨rfl, rfl⟩ := stepped
      split
      · exact .quiet rfl rfl rfl fun _ => rfl
      · exact .quiet rfl rfl rfl fun _ => rfl
  | setHealth health =>
      obtain ⟨rfl, rfl⟩ := stepped
      exact .quiet rfl rfl rfl fun _ => rfl
  | applyFill side quantity =>
      obtain ⟨position, called, _⟩ := applyFill_eq ledger journal side quantity
      rw [step, called, Option.map_some] at stepped
      split at stepped
      · obtain ⟨rfl, rfl⟩ := stepped
        exact .quiet rfl rfl rfl fun _ => rfl
      · obtain ⟨rfl, rfl⟩ := stepped
        exact .quiet rfl rfl rfl fun _ => rfl
  | evaluate intent nowNs =>
      rw [step, Option.map_eq_some_iff] at stepped
      obtain ⟨⟨engine', journal'', decision⟩, evaluated, same⟩ := stepped
      obtain ⟨rfl, rfl⟩ := same
      exact evaluate_rate ledger evaluated

/-! Every run -/

theorem toNat_succ {count bound : UInt64} (room : count < bound) :
    (count + 1).toNat = count.toNat + 1 := by
  rw [UInt64.lt_iff_toNat_lt] at room
  have top := bound.toNat_lt
  have one : (1 : UInt64).toNat = 1 := rfl
  rw [UInt64.toNat_add, one]
  omega

theorem exec_count {journal journal' : EventJournal} {ops : List Op} {engine : RiskEngine}
    {log : List (Op × Output)}
    (ran : Machine.exec step ({}, journal) ops = some ((engine, journal'), log)) :
    engine.position.Ledger ∧
      engine.ordersThisSecond.toNat ≤ engine.limits.maxOrdersPerSecond.toNat := by
  apply Machine.exec_invariant (s := (({}, journal) : RiskEngine × EventJournal))
    (fun _ (state : RiskEngine × EventJournal) => state.1.position.Ledger ∧
      state.1.ordersThisSecond.toNat ≤ state.1.limits.maxOrdersPerSecond.toNat) _
    ⟨initial_ledger, Nat.zero_le _⟩ ran
  rintro _ ⟨before, entries⟩ op ⟨after, entries'⟩ output ⟨ledger, bound⟩ stepped
  obtain ⟨next, output', first, kept, _⟩ := step_spec ledger entries op
  rw [stepped, Option.some.injEq, Prod.mk.injEq] at first
  refine ⟨by rw [← first.1] at kept; exact kept, ?_⟩
  cases step_rate ledger stepped with
  | limited _ _ _ empty =>
      rw [empty]
      exact Nat.zero_le _
  | quiet limits count =>
      rw [limits, count]
      exact bound
  | counted _ _ limits room count =>
      rw [limits, count, toNat_succ room]
      exact UInt64.lt_iff_toNat_lt.mp room
  | opened _ _ limits positive _ count =>
      rw [limits, count]
      exact UInt64.lt_iff_toNat_lt.mp (UInt64.pos_iff_ne_zero.mpr positive)

/-- The clock starts at one or later and never goes back, and the limits stay. -/
structure Clocked (ops : List Op) : Prop where
  ordered : (times ops).Pairwise (· ≤ ·)
  started : ∀ nowNs ∈ times ops, 1 ≤ nowNs
  fixed : ∀ op ∈ ops, ∀ limits, op ≠ .setLimits limits

theorem times_append (front back : List Op) : times (front ++ back) = times front ++ times back :=
  List.filterMap_append

theorem Clocked.front {front back : List Op} (clocked : Clocked (front ++ back)) :
    Clocked front := by
  obtain ⟨ordered, started, fixed⟩ := clocked
  rw [times_append] at ordered started
  exact ⟨(List.pairwise_append.mp ordered).1, (List.forall_mem_append.mp started).1,
    (List.forall_mem_append.mp fixed).1⟩

structure Paced (limits : LimitSnapshot) (log : List (Op × Output × Bool)) (engine : RiskEngine) :
    Prop where
  ledger : engine.position.Ledger
  installed : engine.limits = limits
  tracks : Tracks limits.maxOrdersPerSecond.toNat (10 ^ 9) engine.ordersThisSecond.toNat
    engine.secondEpochNs.toNat (grants log)
  epoch : ∀ grant ∈ grants log, grant.opens = true →
    engine.secondEpochNs ∈ times (log.map Prod.fst)

theorem grants_concat (log : List (Op × Output × Bool)) (entry : Op × Output × Bool) :
    grants (log ++ [entry]) = grants log ++ (grantOf entry).toList := by
  rw [grants, List.filterMap_append]
  cases found : grantOf entry <;> simp [grants, found]

theorem step_paced {limits : LimitSnapshot} {log : List (Op × Output × Bool)}
    {engine next : RiskEngine} {journal journal' : EventJournal} {op : Op} {output : Output}
    (paced : Paced limits log engine) (clocked : Clocked (log.map Prod.fst ++ [op]))
    (stepped : step (engine, journal) op = some ((next, journal'), output)) :
    Paced limits (log ++ [(op, output, decide (engine.Resets op))]) next := by
  obtain ⟨state, output', first, ledger, _⟩ := step_spec paced.ledger journal op
  rw [stepped, Option.some.injEq, Prod.mk.injEq] at first
  rw [← first.1] at ledger
  have calls : times ((log ++ [(op, output, decide (engine.Resets op))]).map Prod.fst) =
      times (log.map Prod.fst) ++ times [op] := by
    rw [List.map_append, times_append]
    rfl
  have installed := paced.installed
  have tracks := paced.tracks
  cases step_rate paced.ledger stepped with
  | limited limits same => exact absurd same (clocked.fixed op (by simp) limits)
  | quiet same count epoch none =>
      have unchanged : grants (log ++ [(op, output, decide (engine.Resets op))]) = grants log := by
        rw [grants_concat, none, Option.toList_none, List.append_nil]
      refine ⟨ledger, same.trans installed, ?_, ?_⟩
      · rw [unchanged, count, epoch]
        exact tracks
      · rw [unchanged, epoch, calls]
        intro grant member opens
        exact List.mem_append_left _ (paced.epoch grant member opens)
  | counted nowNs _ same room count epoch stays granted =>
      have more : grants (log ++ [(op, output, decide (engine.Resets op))]) =
          grants log ++ [⟨nowNs.toNat, false⟩] := by
        rw [grants_concat, granted, decide_eq_false stays, Option.toList_some]
      refine ⟨ledger, same.trans installed, ?_, ?_⟩
      · rw [more, count, epoch, toNat_succ room]
        rw [installed, UInt64.lt_iff_toNat_lt] at room
        exact tracks.counted room nowNs.toNat
      · rw [more, epoch, calls]
        intro grant member opens
        rcases List.mem_append.mp member with old | new
        · exact List.mem_append_left _ (paced.epoch grant old opens)
        · rw [List.mem_singleton.mp new] at opens
          cases opens
  | opened nowNs time same positive ended count epoch resets granted =>
      have now : times [op] = [nowNs] := by rw [times, List.filterMap_cons, time]; rfl
      have more : grants (log ++ [(op, output, decide (engine.Resets op))]) =
          grants log ++ [⟨nowNs.toNat, true⟩] := by
        rw [grants_concat, granted, decide_eq_true resets, Option.toList_some]
      refine ⟨ledger, same.trans installed, ?_, ?_⟩
      · rw [more, count, epoch]
        rw [installed] at positive
        apply tracks.open' (UInt64.lt_iff_toNat_lt.mp (UInt64.pos_iff_ne_zero.mpr positive))
        intro grant member opens
        -- the window that is over was opened by an earlier call, so the clock has passed its start
        have earlier := paced.epoch grant member opens
        obtain ⟨ordered, started, _⟩ := clocked
        rw [times_append, now] at ordered started
        have passed := (List.pairwise_append.mp ordered).2.2 _ earlier nowNs (by simp)
        have begun := started _ (List.mem_append_left _ earlier)
        have nonzero : engine.secondEpochNs ≠ 0 := by
          intro zero
          rw [zero] at begun
          exact absurd begun (by decide)
        by_contra early
        exact ended ⟨nonzero, UInt64.le_iff_toNat_le.mp passed, by omega⟩
      · rw [epoch, calls, now]
        intro grant _ _
        exact List.mem_append_right _ List.mem_cons_self

theorem grantOf_time {op : Op} {output : Output} {resets : Bool} {grant : Grant}
    (found : grantOf (op, output, resets) = some grant) :
    ∃ nowNs, timeOf op = some nowNs ∧ nowNs.toNat = grant.time := by
  unfold grantOf at found
  split at found
  case h_1 nowNs decision _ same =>
    obtain ⟨rfl, _⟩ := Prod.mk.inj same
    split at found
    · obtain rfl := Option.some.inj found
      exact ⟨nowNs, rfl, rfl⟩
    · cases found
  case h_2 => cases found

theorem times_grants (log : List (Op × Output × Bool)) :
    ((grants log).map Grant.time).Sublist ((times (log.map Prod.fst)).map UInt64.toNat) := by
  induction log with
  | nil => exact List.Sublist.refl _
  | cons entry log ih =>
      obtain ⟨op, output, resets⟩ := entry
      rw [List.map_cons, grants, times, List.filterMap_cons, List.filterMap_cons]
      cases found : grantOf (op, output, resets) with
      | none =>
          cases timeOf op with
          | none => exact ih
          | some nowNs => exact ih.cons _
      | some grant =>
          obtain ⟨nowNs, time, same⟩ := grantOf_time found
          simp only [time, List.map_cons, same]
          exact ih.cons_cons _

theorem timely_grants {log : List (Op × Output × Bool)} (clocked : Clocked (log.map Prod.fst)) :
    Timely (grants log) := by
  have ordered : ((times (log.map Prod.fst)).map UInt64.toNat).Pairwise (· ≤ ·) := by
    rw [List.pairwise_map]
    exact clocked.ordered.imp UInt64.le_iff_toNat_le.mp
  exact List.pairwise_map.mp (ordered.sublist (times_grants log))

theorem observed_eq_some {state next : RiskEngine × EventJournal} {op : Op} {output : Output}
    {resets : Bool} : observed state op = some (next, output, resets) ↔
      step state op = some (next, output) ∧ decide (state.1.Resets op) = resets := by
  rw [observed, Option.map_eq_some_iff]
  constructor
  · rintro ⟨⟨next, output⟩, stepped, same⟩
    obtain ⟨rfl, rfl, rfl⟩ := same
    exact ⟨stepped, rfl⟩
  · rintro ⟨stepped, rfl⟩
    exact ⟨(next, output), stepped, rfl⟩

theorem exec_paced {engine : RiskEngine} (ledger : engine.position.Ledger)
    (bound : engine.ordersThisSecond.toNat ≤ engine.limits.maxOrdersPerSecond.toNat)
    {journal : EventJournal} {ops : List Op} (clocked : Clocked ops)
    {final : RiskEngine × EventJournal} {log : List (Op × Output × Bool)}
    (ran : Machine.exec observed (engine, journal) ops = some (final, log)) :
    Paced engine.limits log final.1 := by
  have start : Paced engine.limits [] engine :=
    ⟨ledger, rfl, tracks_empty bound, by simp [grants]⟩
  have paced := Machine.exec_invariant
    (fun log (state : RiskEngine × EventJournal) => Clocked (log.map Prod.fst) →
      Paced engine.limits log state.1) ?_ (fun _ => start) ran
  · rw [Machine.exec_inputs ran] at paced
    exact paced clocked
  · rintro log ⟨before, entries⟩ op ⟨after, entries'⟩ ⟨output, resets⟩ held stepped clocked
    obtain ⟨once, rfl⟩ := observed_eq_some.mp stepped
    rw [List.map_append] at clocked
    exact step_paced (held clocked.front) clocked once

theorem exec_observed {engine : RiskEngine} (ledger : engine.position.Ledger)
    (journal : EventJournal) (ops : List Op) :
    ∃ final log, Machine.exec observed (engine, journal) ops = some (final, log) := by
  have progress : ∀ (state : RiskEngine × EventJournal) (op : Op), state.1.position.Ledger →
      ∃ next seen, observed state op = some (next, seen) ∧ next.1.position.Ledger := by
    rintro ⟨engine, journal⟩ op ledger
    obtain ⟨next, output, stepped, kept, _⟩ := step_spec ledger journal op
    have seen := observed_eq_some.mpr ⟨stepped, Eq.refl (decide (engine.Resets op))⟩
    exact ⟨next, (output, decide (engine.Resets op)), seen, kept⟩
  obtain ⟨final, log, ran, _⟩ := Machine.exec_defined (s := (engine, journal))
    (fun state : RiskEngine × EventJournal => state.1.position.Ledger) progress ledger ops
  exact ⟨final, log, ran⟩

/-- With a clock that does not go back and limits that stay, no window has more approvals than the
limit, and no second more than twice as many. -/
theorem rate_bounded (journal : EventJournal) (past ops : List Op) (clocked : Clocked ops) :
    ∃ start earlier final log, Machine.exec step ({}, journal) past = some (start, earlier) ∧
      Machine.exec observed start ops = some (final, log) ∧
      (∀ front window back, grants log = front ++ window ++ back →
        (∀ grant ∈ window.tail, grant.opens = false) →
        window.length ≤ start.1.limits.maxOrdersPerSecond.toNat) ∧
      ∀ from', (within (10 ^ 9) from' (grants log)).length ≤
        2 * start.1.limits.maxOrdersPerSecond.toNat := by
  obtain ⟨⟨engine, entries⟩, earlier, reached, _⟩ := exec_ledger journal past
  obtain ⟨ledger, bound⟩ := exec_count reached
  obtain ⟨final, log, ran⟩ := exec_observed ledger entries ops
  have tracks := (exec_paced ledger bound clocked ran).tracks
  refine ⟨_, earlier, final, log, reached, ran, tracks.windowed, ?_⟩
  rw [← Machine.exec_inputs ran] at clocked
  exact within_le tracks.windowed tracks.spaced (timely_grants clocked)

/-! The test of the repository: two orders a second, four attempts -/

def testIntent : OrderIntent :=
  ⟨1, 5001, 7, 11, 21, 101, 5, 33, .buy, .limit, .day, 100, 10, 1⟩

def testSetup : List Op :=
  [.setLimits ⟨1, 10000000000, 100, 1000, 100, 200, 2, true⟩, .setPosition ⟨0, 0⟩,
    .setHealth .healthy]

def attempts : List Op :=
  [.evaluate testIntent 2, .evaluate testIntent 3, .evaluate testIntent 4,
    .evaluate testIntent 2000000000]

example : ((Machine.exec step ({}, {}) testSetup).bind fun state =>
    (Machine.exec observed state.1 attempts).map fun run => grants run.2) =
      some [⟨2, true⟩, ⟨3, false⟩, ⟨2000000000, true⟩] := by decide +kernel

theorem rate_bounded_attempts :
    ∃ start earlier final log, Machine.exec step ({}, {}) testSetup = some (start, earlier) ∧
      Machine.exec observed start attempts = some (final, log) ∧
      (∀ front window back, grants log = front ++ window ++ back →
        (∀ grant ∈ window.tail, grant.opens = false) →
        window.length ≤ start.1.limits.maxOrdersPerSecond.toNat) ∧
      ∀ from', (within (10 ^ 9) from' (grants log)).length ≤
        2 * start.1.limits.maxOrdersPerSecond.toNat := by
  have clocked : Clocked attempts := by
    refine ⟨by decide, by simp [attempts, times, timeOf], ?_⟩
    intro op member limits same
    rw [same] at member
    simp [attempts] at member
  exact rate_bounded {} testSetup attempts clocked

end Ito.RiskEngine
