import Ito.ExecutionEngine
import Ito.RiskEvaluate

/-! What each call on the execution engine can do: one case lemma per call. -/

namespace Ito.ExecutionEngine

section Frame

variable (engine : ExecutionEngine) (nowNs : UInt64)

@[simp] theorem countFailure_active : (engine.countFailure nowNs).active = engine.active := by
  simp only [countFailure]
  split <;> rfl

@[simp] theorem countFailure_gatewayState :
    (engine.countFailure nowNs).gatewayState = engine.gatewayState := by
  simp only [countFailure]
  split <;> rfl

@[simp] theorem countFailure_halted : (engine.countFailure nowNs).halted = engine.halted := by
  simp only [countFailure]
  split <;> rfl

@[simp] theorem countFailure_riskEngine :
    (engine.countFailure nowNs).riskEngine = engine.riskEngine := by
  simp only [countFailure]
  split <;> rfl

@[simp] theorem coolDown_active : (engine.coolDown nowNs).active = engine.active := by
  simp only [coolDown]
  split <;> rfl

@[simp] theorem coolDown_gatewayState :
    (engine.coolDown nowNs).gatewayState = engine.gatewayState := by
  simp only [coolDown]
  split <;> rfl

@[simp] theorem coolDown_halted : (engine.coolDown nowNs).halted = engine.halted := by
  simp only [coolDown]
  split <;> rfl

@[simp] theorem coolDown_riskEngine : (engine.coolDown nowNs).riskEngine = engine.riskEngine := by
  simp only [coolDown]
  split <;> rfl

@[simp] theorem coolDown_journal : (engine.coolDown nowNs).journal = engine.journal := by
  simp only [coolDown]
  split <;> rfl

@[simp] theorem coolDown_halfOpenInFlight :
    (engine.coolDown nowNs).halfOpenInFlight = engine.halfOpenInFlight := by
  simp only [coolDown]
  split <;> rfl

end Frame

def Blocked (engine : ExecutionEngine) : Prop :=
  engine.halted = true ∨ engine.gatewayState ≠ .ready

instance (engine : ExecutionEngine) : Decidable engine.Blocked :=
  inferInstanceAs (Decidable (_ ∨ _))

/-- All that `submit` can do. -/
inductive SubmitEffect (engine : ExecutionEngine) (intent : OrderIntent) (nowNs : UInt64) :
    ExecutionEngine → Option ExecutionEvent → Prop where
  | refused {next : ExecutionEngine} (active : next.active = engine.active)
      (risk : next.riskEngine = engine.riskEngine ∨ ∃ journal' decision,
        engine.riskEngine.evaluate engine.journal intent nowNs =
          some (next.riskEngine, journal', decision)) :
      SubmitEffect engine intent nowNs next none
  | sent {next : ExecutionEngine} {event : ExecutionEvent} {journal' : EventJournal}
      {decision : RiskDecision} (fresh : intent.correlationId ∉ engine.active)
      (open' : ¬ engine.Blocked)
      (evaluated : engine.riskEngine.evaluate engine.journal intent nowNs =
        some (next.riskEngine, journal', decision))
      (approved : decision.status = .approved)
      (price : event.priceTicks = intent.priceTicks)
      (quantity : event.quantity = intent.quantity)
      (active : next.active = engine.active.insert intent.correlationId event) :
      SubmitEffect engine intent nowNs next (some event)

theorem submit_refused {engine held next : ExecutionEngine} {intent : OrderIntent} {nowNs : UInt64}
    {result : Option ExecutionEvent} {code : Nat}
    (ran : some (held.refuse intent.correlationId code) = some (next, result))
    (gateway : held.gatewayState = engine.gatewayState) (halted : held.halted = engine.halted)
    (active : held.active = engine.active) (risk : held.riskEngine = engine.riskEngine) :
    next.gatewayState = engine.gatewayState ∧ next.halted = engine.halted ∧
      SubmitEffect engine intent nowNs next result := by
  rcases Prod.mk.inj (Option.some.inj ran) with ⟨rfl, rfl⟩
  exact ⟨gateway, halted, .refused active (.inl risk)⟩

theorem submit_cases {engine next : ExecutionEngine} {intent : OrderIntent} {nowNs : UInt64}
    {result : Option ExecutionEvent} (ran : engine.submit intent nowNs = some (next, result)) :
    next.gatewayState = engine.gatewayState ∧ next.halted = engine.halted ∧
      SubmitEffect engine intent nowNs next result := by
  rw [submit] at ran
  split at ran
  case isTrue => exact submit_refused ran rfl rfl rfl rfl
  case isFalse fresh =>
    simp only at ran
    split at ran
    case isTrue => exact submit_refused ran (by simp) (by simp) (by simp) (by simp)
    case isFalse =>
      split at ran
      case isTrue => exact submit_refused ran (by simp) (by simp) (by simp) (by simp)
      case isFalse =>
        split at ran
        case isTrue => exact submit_refused ran (by simp) (by simp) (by simp) (by simp)
        case isFalse ready =>
          simp only [coolDown_riskEngine, coolDown_journal, coolDown_halted,
            coolDown_gatewayState] at ran ready
          rcases Option.map_eq_some_iff.mp ran with ⟨⟨risk, journal', decision⟩, evaluated, final⟩
          simp only at final
          split at final
          case isTrue =>
            simp only [refuse, Prod.mk.injEq] at final
            rcases final with ⟨rfl, rfl⟩
            refine ⟨by simp, by simp, .refused (by simp) (.inr ⟨journal', decision, ?_⟩)⟩
            simpa using evaluated
          case isFalse approved =>
            simp only [send, Prod.mk.injEq] at final
            rcases final with ⟨rfl, rfl⟩
            exact ⟨by simp, by simp, .sent (fun member => fresh (.inr member)) ready evaluated
              (by simpa using approved) rfl rfl (by simp)⟩

theorem submit_defined {engine : ExecutionEngine}
    (ledger : engine.riskEngine.position.Ledger) (intent : OrderIntent) (nowNs : UInt64) :
    ∃ next result, engine.submit intent nowNs = some (next, result) := by
  obtain ⟨risk, journal', decision, evaluated, _⟩ :=
    RiskEngine.evaluate_spec ledger engine.journal intent nowNs
  have possible : ∃ outcome, engine.submit intent nowNs = some outcome := by
    simp only [submit, coolDown_riskEngine, coolDown_journal, evaluated, Option.map_some]
    split
    · exact ⟨_, rfl⟩
    · split
      · exact ⟨_, rfl⟩
      · split
        · exact ⟨_, rfl⟩
        · split <;> exact ⟨_, rfl⟩
  rcases possible with ⟨outcome, ran⟩
  exact ⟨outcome.1, outcome.2, ran⟩

/-- All that `cancel_replace` can do. -/
inductive ReplaceEffect (engine : ExecutionEngine) (correlationId : UInt64)
    (newPrice newQuantity : Int64) : ExecutionEngine → Option ExecutionEvent → Prop where
  | refused (cause : correlationId ∉ engine.active ∨ newPrice.toInt ≤ 0 ∨ newQuantity.toInt ≤ 0 ∨
      engine.Blocked) : ReplaceEffect engine correlationId newPrice newQuantity engine none
  | replaced {next : ExecutionEngine} {order event : ExecutionEvent}
      (present : engine.active.lookup correlationId = some order)
      (pricePositive : 0 < newPrice.toInt) (quantityPositive : 0 < newQuantity.toInt)
      (open' : ¬ engine.Blocked)
      (price : event.priceTicks = newPrice) (quantity : event.quantity = newQuantity)
      (active : next.active = engine.active.insert correlationId event)
      (risk : next.riskEngine = engine.riskEngine)
      (gateway : next.gatewayState = engine.gatewayState) (halted : next.halted = engine.halted) :
      ReplaceEffect engine correlationId newPrice newQuantity next (some event)

theorem cancelReplace_cases (engine : ExecutionEngine) (correlationId : UInt64)
    (newPrice newQuantity : Int64) (nowNs : UInt64) :
    ReplaceEffect engine correlationId newPrice newQuantity
      (engine.cancelReplace correlationId newPrice newQuantity nowNs).1
      (engine.cancelReplace correlationId newPrice newQuantity nowNs).2 := by
  rw [cancelReplace]
  split
  case h_1 absent => exact .refused (.inl (Finmap.lookup_eq_none.mp absent))
  case h_2 order present =>
    simp only [Int64.le_iff_toInt_le, Int64.toInt_zero]
    split
    case isTrue cause => exact .refused (.inr cause)
    case isFalse clear =>
      simp only [not_or, Int.not_le] at clear
      refine .replaced present clear.1 clear.2.1 ?_ rfl rfl rfl rfl rfl rfl
      intro blocked
      rcases blocked with halted | away
      · exact clear.2.2.1 halted
      · exact clear.2.2.2 away

/-- All that `acknowledge` can do. -/
inductive AckEffect (engine : ExecutionEngine) (correlationId : UInt64) :
    ExecutionEngine → Bool → Prop where
  | matched {next : ExecutionEngine} (active : next.active = engine.active.erase correlationId)
      (gateway : next.gatewayState = engine.gatewayState) :
      AckEffect engine correlationId next true
  | uncertain {next : ExecutionEngine} (active : next.active = engine.active)
      (gateway : next.gatewayState = .uncertain) :
      AckEffect engine correlationId next false

theorem acknowledge_cases (engine : ExecutionEngine) (correlationId : UInt64) (venueOrderId : Nat)
    (nowNs : UInt64) :
    (engine.acknowledge correlationId venueOrderId nowNs).1.riskEngine = engine.riskEngine ∧
      (engine.acknowledge correlationId venueOrderId nowNs).1.halted = engine.halted ∧
      AckEffect engine correlationId (engine.acknowledge correlationId venueOrderId nowNs).1
        (engine.acknowledge correlationId venueOrderId nowNs).2 := by
  rw [acknowledge]
  simp only
  split
  case isTrue =>
    split <;> exact ⟨rfl, rfl, .matched rfl rfl⟩
  case isFalse =>
    exact ⟨by simp, by simp, .uncertain (by simp) (by simp)⟩

@[simp] theorem setGatewayState_active (engine : ExecutionEngine) (state : GatewayState) :
    (engine.setGatewayState state).active = engine.active := by
  rw [setGatewayState]
  split <;> rfl

@[simp] theorem setGatewayState_riskEngine (engine : ExecutionEngine) (state : GatewayState) :
    (engine.setGatewayState state).riskEngine = engine.riskEngine := by
  rw [setGatewayState]
  split <;> rfl

@[simp] theorem setGatewayState_gatewayState (engine : ExecutionEngine) (state : GatewayState) :
    (engine.setGatewayState state).gatewayState = state := by
  rw [setGatewayState]
  split <;> rfl

@[simp] theorem setHalted_active (engine : ExecutionEngine) (halted : Bool) :
    (engine.setHalted halted).active = engine.active := by
  rw [setHalted]
  split
  · rfl
  · split <;> rfl

@[simp] theorem setHalted_riskEngine (engine : ExecutionEngine) (halted : Bool) :
    (engine.setHalted halted).riskEngine = engine.riskEngine := by
  rw [setHalted]
  split
  · rfl
  · split <;> rfl

theorem risk_step {engine next : ExecutionEngine} {op : RiskEngine.Op} {output : Output}
    (ran : engine.step (.risk op) = some (next, output)) :
    next.active = engine.active ∧ next.gatewayState = engine.gatewayState ∧
      next.halted = engine.halted ∧
      ∃ result, RiskEngine.step (engine.riskEngine, engine.journal) op =
        some ((next.riskEngine, next.journal), result) := by
  simp only [step, Option.map_eq_some_iff, Prod.mk.injEq] at ran
  rcases ran with ⟨⟨⟨risk, journal⟩, result⟩, stepped, rfl, rfl⟩
  exact ⟨rfl, rfl, rfl, result, stepped⟩

/-- The run never changes the limits unless the risk engine is told to. -/
def KeepsLimits (op : Op) : Prop := ∀ limits, op ≠ .risk (.setLimits limits)

theorem step_spec {engine : ExecutionEngine} (ledger : engine.riskEngine.position.Ledger)
    (op : Op) :
    ∃ next output, engine.step op = some (next, output) ∧ next.riskEngine.position.Ledger ∧
      (KeepsLimits op → next.riskEngine.limits = engine.riskEngine.limits) := by
  cases op with
  | submit intent nowNs =>
      rcases submit_defined ledger intent nowNs with ⟨next, result, ran⟩
      refine ⟨next, .event result, by simp only [step, ran, Option.map_some], ?_⟩
      obtain ⟨risk, journal', decision, evaluated, _, limits, position⟩ :=
        RiskEngine.evaluate_spec ledger engine.journal intent nowNs
      have unchanged : next.riskEngine = engine.riskEngine ∨ next.riskEngine = risk := by
        cases (submit_cases ran).2.2 with
        | refused _ cause =>
            rcases cause with same | ⟨journal'', decision', again⟩
            · exact .inl same
            · rw [evaluated, Option.some.injEq, Prod.mk.injEq] at again
              exact .inr again.1.symm
        | sent _ _ again =>
            rw [evaluated, Option.some.injEq, Prod.mk.injEq] at again
            exact .inr again.1.symm
      rcases unchanged with same | same
      · rw [same]
        exact ⟨ledger, fun _ => rfl⟩
      · rw [same, position, limits]
        exact ⟨ledger, fun _ => rfl⟩
  | cancelReplace correlationId newPrice newQuantity nowNs =>
      refine ⟨_, _, rfl, ?_⟩
      have effect := cancelReplace_cases engine correlationId newPrice newQuantity nowNs
      generalize engine.cancelReplace correlationId newPrice newQuantity nowNs = outcome at effect
      rcases outcome with ⟨next, result⟩
      cases effect with
      | refused cause => exact ⟨ledger, fun _ => rfl⟩
      | replaced _ _ _ _ _ _ _ risk _ _ =>
          simp only at risk ⊢
          rw [risk]
          exact ⟨ledger, fun _ => rfl⟩
  | acknowledge correlationId venueOrderId nowNs =>
      refine ⟨_, _, rfl, ?_⟩
      simp only [(acknowledge_cases engine correlationId venueOrderId nowNs).1]
      exact ⟨ledger, fun _ => trivial⟩
  | setGatewayState state =>
      exact ⟨engine.setGatewayState state, .done, rfl, by simpa using ledger, fun _ => by simp⟩
  | setHalted halted =>
      exact ⟨engine.setHalted halted, .done, rfl, by simpa using ledger, fun _ => by simp⟩
  | risk op =>
      obtain ⟨next, output, stepped, kept, limits⟩ :=
        RiskEngine.step_spec ledger engine.journal op
      refine ⟨{ engine with riskEngine := next.1, journal := next.2 }, .done,
        by simp only [step, stepped, Option.map_some], kept, ?_⟩
      intro fixed
      exact limits fun snapshot same => fixed snapshot (by rw [same])

theorem step_spec_of {engine next : ExecutionEngine} {op : Op} {output : Output}
    (ledger : engine.riskEngine.position.Ledger) (ran : engine.step op = some (next, output)) :
    next.riskEngine.position.Ledger ∧
      (KeepsLimits op → next.riskEngine.limits = engine.riskEngine.limits) := by
  rcases step_spec ledger op with ⟨next', output', same, facts⟩
  rw [ran, Option.some.injEq, Prod.mk.injEq] at same
  rw [same.1]
  exact facts

theorem exec_defined (engine : ExecutionEngine) (ledger : engine.riskEngine.position.Ledger)
    (ops : List Op) : ∃ final log, Machine.exec step engine ops = some (final, log) := by
  have progress : ∀ (before : ExecutionEngine) (op : Op), before.riskEngine.position.Ledger →
      ∃ next output, before.step op = some (next, output) ∧ next.riskEngine.position.Ledger := by
    intro before op kept
    rcases step_spec kept op with ⟨next, output, first, after, _⟩
    exact ⟨next, output, first, after⟩
  rcases Machine.exec_defined _ progress ledger ops with ⟨final, log, ran, _⟩
  exact ⟨final, log, ran⟩

end Ito.ExecutionEngine
