import Ito.ExecutionBreaker
import Ito.ExecutionLimits

/-! The states the circuit breaker can reach.

A circuit that is not closed has counted its failures to the threshold, and the
count survives the cooldown. So a half open circuit opens again at the first
failure, and the submission that made it half open is the only one it lets
through. -/

namespace Ito.ExecutionEngine

def Reachable (engine : ExecutionEngine) : Prop :=
  ∃ journal risk ops log, risk.position.Ledger ∧
    Machine.exec step (create journal risk) ops = some (engine, log)

structure BreakerInvariant (engine : ExecutionEngine) : Prop where
  failures : engine.circuitState ≠ .closed → kCircuitFailureThreshold ≤ engine.circuitFailures
  inFlight : engine.circuitState = .halfOpen → engine.halfOpenInFlight = true

theorem coolDown_closed_iff (engine : ExecutionEngine) (nowNs : UInt64) :
    (engine.coolDown nowNs).circuitState = .closed ↔ engine.circuitState = .closed := by
  simp only [coolDown]
  split
  case isTrue cooled => simp [cooled.1]
  case isFalse => exact Iff.rfl

theorem countFailure_opens {engine : ExecutionEngine} (nowNs : UInt64)
    (counted : engine.circuitState ≠ .closed →
      kCircuitFailureThreshold ≤ engine.circuitFailures)
    (away : engine.circuitState ≠ .closed) :
    (engine.countFailure nowNs).circuitState = .open := by
  have reached := counted away
  rw [countFailure_circuitState, if_pos (by omega)]

theorem countFailure_invariant {engine next : ExecutionEngine} {nowNs : UInt64}
    (counted : engine.circuitState ≠ .closed →
      kCircuitFailureThreshold ≤ engine.circuitFailures)
    (same : (engine.countFailure nowNs).SameBreaker next) : next.BreakerInvariant := by
  have circuit := same.circuitState
  have failures := same.circuitFailures
  rw [countFailure_circuitFailures] at failures
  by_cases closed : engine.circuitState = .closed
  · rw [countFailure_circuitState, closed] at circuit
    split at circuit
    case isTrue reached =>
      constructor
      · intro _
        omega
      · intro half
        rw [circuit] at half
        cases half
    case isFalse =>
      constructor
      · intro away
        exact absurd circuit away
      · intro half
        rw [circuit] at half
        cases half
  · have reached := counted closed
    rw [countFailure_opens nowNs counted closed] at circuit
    constructor
    · intro _
      omega
    · intro half
      rw [circuit] at half
      cases half

theorem step_invariant {engine next : ExecutionEngine} {op : Op} {output : Output}
    (held : engine.BreakerInvariant) (ran : engine.step op = some (next, output)) :
    next.BreakerInvariant := by
  have cooled : ∀ nowNs, (engine.coolDown nowNs).circuitState ≠ .closed →
      kCircuitFailureThreshold ≤ engine.circuitFailures := by
    intro nowNs away
    exact held.failures fun closed => away ((coolDown_closed_iff engine nowNs).mpr closed)
  cases step_breaker ran with
  | unchanged _ _ same =>
      constructor
      · rw [same.circuitState, same.circuitFailures]
        exact held.failures
      · rw [same.circuitState, same.halfOpenInFlight]
        exact held.inFlight
  | @probing intent nowNs _ half inFlight same =>
      constructor
      · rw [same.circuitState, same.circuitFailures, coolDown_circuitFailures]
        exact cooled nowNs
      · intro _
        rw [same.halfOpenInFlight, coolDown_halfOpenInFlight]
        exact inFlight
  | @failed intent nowNs _ _ _ same =>
      apply countFailure_invariant _ same
      rw [coolDown_circuitFailures]
      exact cooled nowNs
  | @sent intent nowNs event _ _ circuit failures inFlight =>
      constructor
      · rw [circuit, failures]
        exact cooled nowNs
      · intro half
        exact inFlight.mpr (.inr half)
  | recovered _ _ circuit =>
      constructor
      · intro away
        exact absurd circuit away
      · simp [circuit]
  | acknowledged _ _ same =>
      constructor
      · rw [same.circuitState, same.circuitFailures]
        exact held.failures
      · rw [same.circuitState, same.halfOpenInFlight]
        exact held.inFlight
  | mismatched _ same => exact countFailure_invariant held.failures same
  | reset circuit =>
      constructor
      · intro away
        exact absurd circuit away
      · simp [circuit]

theorem reachable_invariant {engine : ExecutionEngine} (reached : engine.Reachable) :
    engine.BreakerInvariant ∧ engine.riskEngine.position.Ledger := by
  rcases reached with ⟨journal, risk, ops, log, ledger, ran⟩
  apply Machine.exec_invariant (fun _ (engine : ExecutionEngine) =>
    engine.BreakerInvariant ∧ engine.riskEngine.position.Ledger) ?_ ?_ ran
  · intro log before op after output held first
    exact ⟨step_invariant held.1 first, (step_spec_of held.2 first).1⟩
  · constructor
    · constructor <;> simp [create]
    · exact ledger

theorem circuitFailures_le {journal : EventJournal} {risk : RiskEngine} {ops : List Op}
    {engine : ExecutionEngine} {log : List (Op × Output)}
    (ran : Machine.exec step (create journal risk) ops = some (engine, log)) :
    engine.circuitFailures ≤ log.length := by
  apply Machine.exec_invariant (fun log (engine : ExecutionEngine) =>
    engine.circuitFailures ≤ log.length) ?_ (Nat.le_refl 0) ran
  intro log before op after output held first
  rw [List.length_append, List.length_singleton]
  cases step_breaker first with
  | unchanged _ _ same =>
      have failures := same.circuitFailures
      omega
  | probing _ _ _ same =>
      have failures := same.circuitFailures
      rw [coolDown_circuitFailures] at failures
      omega
  | failed _ _ _ same =>
      have failures := same.circuitFailures
      rw [countFailure_circuitFailures, coolDown_circuitFailures] at failures
      omega
  | sent _ _ _ failures => omega
  | recovered _ _ _ failures => omega
  | acknowledged _ _ same =>
      have failures := same.circuitFailures
      omega
  | mismatched _ same =>
      have failures := same.circuitFailures
      rw [countFailure_circuitFailures] at failures
      omega
  | reset _ failures => omega

theorem halfOpen_silent {engine next : ExecutionEngine} {op : Op} {output : Output}
    (held : engine.BreakerInvariant) (half : engine.circuitState = .halfOpen)
    (ran : engine.step op = some (next, output)) : sentId op output = none := by
  cases step_breaker ran with
  | unchanged _ silent => exact silent
  | @sent intent nowNs event _ passes =>
      have admits := passes.1
      rw [coolDown_of_ne_open nowNs (by rw [half]; decide)] at admits
      exact absurd ⟨half, held.inFlight half⟩ admits.2
  | probing => rfl
  | failed => rfl
  | recovered => rfl
  | acknowledged => rfl
  | mismatched => rfl
  | reset => rfl

/-- The correlation ids that the entries of a log name, in order. -/
def collect (named : Op → Output → Option UInt64) (log : List (Op × Output)) : List UInt64 :=
  log.filterMap fun entry => named entry.1 entry.2

theorem collect_append (named : Op → Output → Option UInt64) (front back : List (Op × Output)) :
    collect named (front ++ back) = collect named front ++ collect named back :=
  List.filterMap_append

theorem collect_singleton (named : Op → Output → Option UInt64) (op : Op) (output : Output) :
    collect named [(op, output)] = (named op output).toList := by
  cases found : named op output with
  | none => simp [collect, found]
  | some correlationId => simp [collect, found]

def sentIds (log : List (Op × Output)) : List UInt64 := collect sentId log

theorem halfOpen_run_silent {engine final : ExecutionEngine} {ops : List Op} {last : Op}
    {log : List (Op × Output)} (held : engine.BreakerInvariant)
    (half : engine.circuitState = .halfOpen)
    (stays : Machine.Along step (fun _ _ _ after => after.circuitState = .halfOpen) engine ops)
    (ran : Machine.exec step engine (ops ++ [last]) = some (final, log)) : sentIds log = [] := by
  induction ops generalizing engine log with
  | nil =>
      rcases Machine.exec_cons_eq_some.mp ran with ⟨next, output, rest, first, run, rfl⟩
      simp only [Machine.exec_nil, Option.some.injEq, Prod.mk.injEq] at run
      rw [← run.2, sentIds, collect_singleton, halfOpen_silent held half first, Option.toList_none]
  | cons op ops ih =>
      rcases Machine.exec_cons_eq_some.mp ran with ⟨next, output, rest, first, run, rfl⟩
      rcases stays next output first with ⟨still, later⟩
      have silent := ih (step_invariant held first) still later run
      rw [sentIds] at silent ⊢
      rw [← List.singleton_append, collect_append, collect_singleton,
        halfOpen_silent held half first, silent, Option.toList_none, List.append_nil]

theorem visit_sends_at_most_one {engine final : ExecutionEngine} {ops : List Op} {last : Op}
    {log : List (Op × Output)} (held : engine.BreakerInvariant)
    (stays : Machine.Along step (fun _ _ _ after => after.circuitState = .halfOpen) engine ops)
    (ran : Machine.exec step engine (ops ++ [last]) = some (final, log)) :
    (sentIds log).length ≤ 1 := by
  have one : ∀ entry : Op × Output, (sentIds [entry]).length ≤ 1 := by
    intro entry
    exact List.length_filterMap_le _ _
  cases ops with
  | nil =>
      rcases Machine.exec_cons_eq_some.mp ran with ⟨next, output, rest, first, run, rfl⟩
      simp only [Machine.exec_nil, Option.some.injEq, Prod.mk.injEq] at run
      rw [← run.2]
      exact one (last, output)
  | cons op ops =>
      rcases Machine.exec_cons_eq_some.mp ran with ⟨next, output, rest, first, run, rfl⟩
      rcases stays next output first with ⟨half, later⟩
      have silent := halfOpen_run_silent (step_invariant held first) half later run
      calc
        (sentIds ((op, output) :: rest)).length
            = (sentIds [(op, output)] ++ sentIds rest).length := by
          rw [sentIds, sentIds, sentIds, ← collect_append, List.singleton_append]
        _ = (sentIds [(op, output)]).length := by rw [silent, List.append_nil]
        _ ≤ 1 := one (op, output)

theorem failed_probe_opens {engine next : ExecutionEngine} {nowNs : UInt64}
    (held : engine.BreakerInvariant) (away : engine.circuitState ≠ .closed)
    (same : ((engine.coolDown nowNs).countFailure nowNs).SameBreaker next) :
    next.circuitState = .open := by
  have counted : (engine.coolDown nowNs).circuitState ≠ .closed →
      kCircuitFailureThreshold ≤ (engine.coolDown nowNs).circuitFailures := by
    intro _
    rw [coolDown_circuitFailures]
    exact held.failures away
  rw [same.circuitState]
  exact countFailure_opens nowNs counted fun closed =>
    away ((coolDown_closed_iff engine nowNs).mp closed)

theorem submit_failing_opens {engine : ExecutionEngine} {intent : OrderIntent} {nowNs : UInt64}
    (held : engine.BreakerInvariant) (ledger : engine.riskEngine.position.Ledger)
    (fresh : engine.Fresh intent.correlationId)
    (half : (engine.coolDown nowNs).circuitState = .halfOpen)
    (admits : (engine.coolDown nowNs).BreakerAdmits)
    (cause : engine.Blocked ∨ engine.riskApproves intent nowNs = false) :
    ∃ next, engine.submit intent nowNs = some (next, none) ∧ next.circuitState = .open := by
  rcases submit_defined ledger intent nowNs with ⟨next, result, ran⟩
  have away : engine.circuitState ≠ .closed := by
    intro closed
    rw [(coolDown_closed_iff engine nowNs).mpr closed] at half
    cases half
  cases submit_breaker ran with
  | unchanged _ _ _ _ waiting => exact absurd (waiting intent nowNs rfl fresh) admits.1
  | probing _ _ inFlight =>
      rw [← coolDown_halfOpenInFlight engine nowNs] at inFlight
      exact absurd ⟨half, inFlight⟩ admits.2
  | failed _ _ _ same => exact ⟨next, ran, failed_probe_opens held away same⟩
  | sent _ passes =>
      rcases cause with blocked | rejected
      · exact absurd blocked passes.2.1
      · rw [passes.2.2] at rejected
        cases rejected

theorem acknowledge_mismatch_opens {engine : ExecutionEngine} {correlationId : UInt64}
    {venueOrderId : Nat} (nowNs : UInt64) (held : engine.BreakerInvariant)
    (half : engine.circuitState = .halfOpen)
    (unknown : engine.awaits correlationId venueOrderId = false) :
    (engine.acknowledge correlationId venueOrderId nowNs).1.circuitState = .open := by
  have effect := acknowledge_breaker engine correlationId venueOrderId nowNs
  generalize engine.acknowledge correlationId venueOrderId nowNs = outcome at effect
  rcases outcome with ⟨next, matched⟩
  cases effect with
  | unchanged plain => exact plain.elim
  | recovered awaited =>
      rw [unknown] at awaited
      cases awaited
  | acknowledged awaited =>
      rw [unknown] at awaited
      cases awaited
  | mismatched _ same =>
      rw [same.circuitState]
      apply countFailure_opens nowNs held.failures
      rw [half]
      decide

/-- The breaker counts to its threshold before it leaves closed, opens again at
any failure while half open, and lets one order through per visit to half open. -/
theorem breaker_counts_and_probes_once (engine : ExecutionEngine) (reached : engine.Reachable) :
    (engine.circuitState = .open ∨ engine.circuitState = .halfOpen →
      5 ≤ engine.circuitFailures) ∧
    (∀ (intent : OrderIntent) (nowNs : UInt64), engine.Fresh intent.correlationId →
      (engine.coolDown nowNs).circuitState = .halfOpen → (engine.coolDown nowNs).BreakerAdmits →
      (engine.Blocked ∨ engine.riskApproves intent nowNs = false) →
        ∃ next, engine.submit intent nowNs = some (next, none) ∧ next.circuitState = .open) ∧
    (∀ (correlationId : UInt64) (venueOrderId : Nat) (nowNs : UInt64),
      engine.circuitState = .halfOpen → engine.awaits correlationId venueOrderId = false →
        (engine.acknowledge correlationId venueOrderId nowNs).1.circuitState = .open) ∧
    (∀ (ops : List Op) (last : Op) (final : ExecutionEngine) (log : List (Op × Output)),
      engine.circuitState ≠ .halfOpen →
      Machine.Along step (fun _ _ _ after => after.circuitState = .halfOpen) engine ops →
      Machine.exec step engine (ops ++ [last]) = some (final, log) →
        (sentIds log).length ≤ 1) := by
  rcases reachable_invariant reached with ⟨held, ledger⟩
  constructor
  · intro away
    apply held.failures
    intro closed
    simp [closed] at away
  constructor
  · intro intent nowNs fresh half admits cause
    exact submit_failing_opens held ledger fresh half admits cause
  constructor
  · intro correlationId venueOrderId nowNs half unknown
    exact acknowledge_mismatch_opens nowNs held half unknown
  · intro ops last final log _ stays ran
    exact visit_sends_at_most_one held stays ran

/-- Five unknown acknowledgments at clock 100 open the circuit. -/
def trips : List Op :=
  [.setGatewayState .ready, .setHalted false] ++ List.replicate 5 (.acknowledge 999 999 100)

def trippedEngine : ExecutionEngine :=
  (List.replicate 5 ()).foldl (fun engine _ => (engine.acknowledge 999 999 100).1)
    (((create {} sampleRisk).setGatewayState .ready).setHalted false)

theorem tripped_reachable : trippedEngine.Reachable :=
  ⟨{}, sampleRisk, trips, _, by decide, rfl⟩

theorem tripped_probe_reopens :
    ∃ next, trippedEngine.submit sampleIntent 30000000100 = some (next, none) ∧
      next.circuitState = .open :=
  (breaker_counts_and_probes_once trippedEngine tripped_reachable).2.1 sampleIntent 30000000100
    (by decide +kernel) (by decide +kernel) (by decide +kernel) (by decide +kernel)

/-- The clock reads before the opening, the unsigned difference passes the
cooldown, and the circuit no longer stops the order. -/
def CooldownSlips (engine : ExecutionEngine) (intent : OrderIntent) (nowNs : UInt64) : Prop :=
  engine.Fresh intent.correlationId ∧ nowNs.toNat < engine.circuitOpenedAtNs.toNat ∧
    engine.circuitOpenedAtNs.toNat + 30000000000 ≤ nowNs.toNat + 2 ^ 64 ∧
    (engine.halfOpenInFlight = true ∨
      ¬ engine.Blocked ∧ engine.riskApproves intent nowNs = true)

instance (engine : ExecutionEngine) (intent : OrderIntent) (nowNs : UInt64) :
    Decidable (engine.CooldownSlips intent nowNs) :=
  inferInstanceAs (Decidable (_ ∧ _ ∧ _ ∧ (_ ∨ _ ∧ _)))

theorem cooled_early_iff {opened now : UInt64} (early : now.toNat < opened.toNat + 30000000000) :
    now - opened ≥ kCircuitCooldownNs ↔
      now.toNat < opened.toNat ∧ opened.toNat + 30000000000 ≤ now.toNat + 2 ^ 64 := by
  have below := now.toNat_lt
  have above := opened.toNat_lt
  have cooldown : kCircuitCooldownNs.toNat = 30000000000 := by decide
  rw [ge_iff_le, UInt64.le_iff_toNat_le, UInt64.toNat_sub, cooldown]
  omega

theorem coolDown_early {engine : ExecutionEngine} {nowNs : UInt64}
    (opened : engine.circuitState = .open)
    (early : nowNs.toNat < engine.circuitOpenedAtNs.toNat + 30000000000) :
    (engine.coolDown nowNs).circuitState =
      if nowNs.toNat < engine.circuitOpenedAtNs.toNat ∧
        engine.circuitOpenedAtNs.toNat + 30000000000 ≤ nowNs.toNat + 2 ^ 64 then .halfOpen
      else .open := by
  rw [coolDown]
  simp only [opened, true_and, cooled_early_iff early]
  split
  · rfl
  · exact opened

/-- Within the cooldown a submission is refused and the circuit stays open,
unless the clock went back far enough for the difference to wrap. -/
theorem cooldown_kept_iff (engine : ExecutionEngine) (reached : engine.Reachable)
    (opened : engine.circuitState = .open) (intent : OrderIntent) (nowNs : UInt64)
    (early : nowNs.toNat < engine.circuitOpenedAtNs.toNat + 30000000000) :
    ∃ next result, engine.submit intent nowNs = some (next, result) ∧
      ((result = none ∧ next.circuitState = .open) ↔ ¬ engine.CooldownSlips intent nowNs) := by
  rcases reachable_invariant reached with ⟨held, ledger⟩
  rcases submit_defined ledger intent nowNs with ⟨next, result, ran⟩
  have cooled := coolDown_early opened early
  have away : engine.circuitState ≠ .closed := by
    rw [opened]
    decide
  -- A circuit that the cooldown did not leave open was reached by the wrap.
  have wrapped : (engine.coolDown nowNs).circuitState ≠ .open →
      nowNs.toNat < engine.circuitOpenedAtNs.toNat ∧
        engine.circuitOpenedAtNs.toNat + 30000000000 ≤ nowNs.toNat + 2 ^ 64 := by
    intro left
    rw [cooled] at left
    by_contra steady
    exact left (if_neg steady)
  refine ⟨next, result, ran, ?_⟩
  cases submit_breaker ran with
  | unchanged _ silent same _ waiting =>
      apply iff_of_true
      · constructor
        · cases result with
          | none => rfl
          | some event => cases silent
        · rw [same.circuitState]
          exact opened
      · intro slips
        have still := waiting intent nowNs rfl slips.1
        rw [cooled, if_pos ⟨slips.2.1, slips.2.2.1⟩] at still
        cases still
  | probing fresh half inFlight same =>
      apply iff_of_false
      · intro kept
        rw [same.circuitState, half] at kept
        cases kept.2
      · have wrap := wrapped (by rw [half]; decide)
        exact not_not_intro ⟨fresh, wrap.1, wrap.2, .inl inFlight⟩
  | failed fresh admits cause same =>
      apply iff_of_true
      · exact ⟨rfl, failed_probe_opens held away same⟩
      · intro slips
        rcases slips.2.2.2 with inFlight | ⟨ready, approved⟩
        · apply admits.2
          rw [cooled, if_pos ⟨slips.2.1, slips.2.2.1⟩, coolDown_halfOpenInFlight]
          exact ⟨rfl, inFlight⟩
        · rcases cause with blocked | rejected
          · exact ready blocked
          · rw [approved] at rejected
            cases rejected
  | sent fresh passes =>
      apply iff_of_false
      · intro kept
        cases kept.1
      · have wrap := wrapped passes.1.1
        exact not_not_intro ⟨fresh, wrap.1, wrap.2, .inr ⟨passes.2.1, passes.2.2⟩⟩

def rearmedEngine : ExecutionEngine := (trippedEngine.setHalted true).setHalted false

theorem rearmed_reachable : rearmedEngine.Reachable :=
  ⟨{}, sampleRisk, trips ++ [.setHalted true, .setHalted false], _, by decide, rfl⟩

/-- A circuit opened at clock 100 lets an order stamped 50 through. -/
theorem early_clock_ends_cooldown :
    ¬ ∀ (engine : ExecutionEngine), engine.Reachable → engine.circuitState = .open →
      ∀ (intent : OrderIntent) (nowNs : UInt64),
        nowNs.toNat < engine.circuitOpenedAtNs.toNat + 30000000000 →
        ∃ next result, engine.submit intent nowNs = some (next, result) ∧
          result = none ∧ next.circuitState = .open := by
  intro always
  rcases always rearmedEngine rearmed_reachable (by decide +kernel) sampleIntent 50
    (by decide +kernel) with ⟨next, result, ran, refused, _⟩
  have sends : ((rearmedEngine.submit sampleIntent 50).map fun next => next.2.isSome) =
      some true := by decide +kernel
  rw [ran, Option.map_some, refused] at sends
  cases sends

theorem cooldown_kept_forward :
    ∃ next, rearmedEngine.submit sampleIntent 200 = some (next, none) ∧
      next.circuitState = .open := by
  rcases cooldown_kept_iff rearmedEngine rearmed_reachable (by decide +kernel) sampleIntent 200
    (by decide +kernel) with ⟨next, result, ran, kept⟩
  rcases kept.mpr (by decide +kernel) with ⟨refused, still⟩
  rw [refused] at ran
  exact ⟨next, ran, still⟩

end Ito.ExecutionEngine
