import Ito.ExecutionEffects

/-! What each call on the execution engine does to its circuit breaker and to
the set of active orders.

A submission may change the breaker twice: the cooldown moves an open circuit to
half open before the checks run, and a failed check may open it again within the
same call. -/

namespace Ito.ExecutionEngine

structure SameBreaker (engine next : ExecutionEngine) : Prop where
  circuitState : next.circuitState = engine.circuitState
  circuitFailures : next.circuitFailures = engine.circuitFailures
  circuitOpenedAtNs : next.circuitOpenedAtNs = engine.circuitOpenedAtNs
  halfOpenInFlight : next.halfOpenInFlight = engine.halfOpenInFlight

/-- The correlation id is neither zero nor that of an active order. -/
def Fresh (engine : ExecutionEngine) (correlationId : UInt64) : Prop :=
  correlationId ≠ 0 ∧ correlationId ∉ engine.active

/-- The circuit lets a submission through to the gateway and risk checks. -/
def BreakerAdmits (engine : ExecutionEngine) : Prop :=
  engine.circuitState ≠ .open ∧ ¬ (engine.circuitState = .halfOpen ∧ engine.halfOpenInFlight = true)

def riskApproves (engine : ExecutionEngine) (intent : OrderIntent) (nowNs : UInt64) : Bool :=
  match engine.riskEngine.evaluate engine.journal intent nowNs with
  | none => false
  | some decided => decided.2.2.status == .approved

instance (engine : ExecutionEngine) (correlationId : UInt64) :
    Decidable (engine.Fresh correlationId) :=
  inferInstanceAs (Decidable (_ ∧ _))

instance (engine : ExecutionEngine) : Decidable engine.BreakerAdmits :=
  inferInstanceAs (Decidable (_ ∧ _))

/-- The order passes the circuit, the gateway and the risk checks. -/
def Passes (engine : ExecutionEngine) (intent : OrderIntent) (nowNs : UInt64) : Prop :=
  (engine.coolDown nowNs).BreakerAdmits ∧ ¬ engine.Blocked ∧ engine.riskApproves intent nowNs = true

instance (engine : ExecutionEngine) (intent : OrderIntent) (nowNs : UInt64) :
    Decidable (engine.Passes intent nowNs) :=
  inferInstanceAs (Decidable (_ ∧ _))

def sentId : Op → Output → Option UInt64
  | .submit intent _, .event (some _) => some intent.correlationId
  | _, _ => none

/-- The call neither acknowledges an order nor makes the gateway ready. -/
def Plain : Op → Prop
  | .acknowledge _ _ _ => False
  | .setGatewayState .ready => False
  | _ => True

inductive BreakerEffect (engine next : ExecutionEngine) : Op → Output → Prop where
  | unchanged {op : Op} {output : Output} (plain : Plain op) (silent : sentId op output = none)
      (same : engine.SameBreaker next)
      (active : ∀ correlationId, correlationId ∈ next.active ↔ correlationId ∈ engine.active)
      (cause : ∀ intent nowNs, op = .submit intent nowNs → engine.Fresh intent.correlationId →
        (engine.coolDown nowNs).circuitState = .open) :
      BreakerEffect engine next op output
  | probing {intent : OrderIntent} {nowNs : UInt64} (fresh : engine.Fresh intent.correlationId)
      (half : (engine.coolDown nowNs).circuitState = .halfOpen)
      (inFlight : engine.halfOpenInFlight = true)
      (same : (engine.coolDown nowNs).SameBreaker next) (active : next.active = engine.active) :
      BreakerEffect engine next (.submit intent nowNs) (.event none)
  | failed {intent : OrderIntent} {nowNs : UInt64} (fresh : engine.Fresh intent.correlationId)
      (admits : (engine.coolDown nowNs).BreakerAdmits)
      (cause : engine.Blocked ∨ engine.riskApproves intent nowNs = false)
      (same : ((engine.coolDown nowNs).countFailure nowNs).SameBreaker next)
      (active : next.active = engine.active) :
      BreakerEffect engine next (.submit intent nowNs) (.event none)
  | sent {intent : OrderIntent} {nowNs : UInt64} {event : ExecutionEvent}
      (fresh : engine.Fresh intent.correlationId) (passes : engine.Passes intent nowNs)
      (circuitState : next.circuitState = (engine.coolDown nowNs).circuitState)
      (circuitFailures : next.circuitFailures = engine.circuitFailures)
      (halfOpenInFlight : next.halfOpenInFlight = true ↔
        engine.halfOpenInFlight = true ∨ next.circuitState = .halfOpen)
      (active : next.active = engine.active.insert intent.correlationId event) :
      BreakerEffect engine next (.submit intent nowNs) (.event (some event))
  | recovered {correlationId : UInt64} {venueOrderId : Nat} {nowNs : UInt64}
      (awaited : engine.awaits correlationId venueOrderId = true)
      (half : engine.circuitState = .halfOpen) (circuitState : next.circuitState = .closed)
      (circuitFailures : next.circuitFailures = 0)
      (halfOpenInFlight : next.halfOpenInFlight = false)
      (active : next.active = engine.active.erase correlationId) :
      BreakerEffect engine next (.acknowledge correlationId venueOrderId nowNs) (.acknowledged true)
  | acknowledged {correlationId : UInt64} {venueOrderId : Nat} {nowNs : UInt64}
      (awaited : engine.awaits correlationId venueOrderId = true)
      (away : engine.circuitState ≠ .halfOpen) (same : engine.SameBreaker next)
      (active : next.active = engine.active.erase correlationId) :
      BreakerEffect engine next (.acknowledge correlationId venueOrderId nowNs) (.acknowledged true)
  | mismatched {correlationId : UInt64} {venueOrderId : Nat} {nowNs : UInt64}
      (unknown : engine.awaits correlationId venueOrderId = false)
      (same : (engine.countFailure nowNs).SameBreaker next) (active : next.active = engine.active) :
      BreakerEffect engine next (.acknowledge correlationId venueOrderId nowNs)
        (.acknowledged false)
  | reset (circuitState : next.circuitState = .closed) (circuitFailures : next.circuitFailures = 0)
      (halfOpenInFlight : next.halfOpenInFlight = engine.halfOpenInFlight)
      (active : next.active = engine.active) :
      BreakerEffect engine next (.setGatewayState .ready) .done

theorem sameBreaker_refl (engine : ExecutionEngine) : engine.SameBreaker engine :=
  ⟨rfl, rfl, rfl, rfl⟩

@[simp] theorem coolDown_circuitFailures (engine : ExecutionEngine) (nowNs : UInt64) :
    (engine.coolDown nowNs).circuitFailures = engine.circuitFailures := by
  simp only [coolDown]
  split <;> rfl

@[simp] theorem countFailure_halfOpenInFlight (engine : ExecutionEngine) (nowNs : UInt64) :
    (engine.countFailure nowNs).halfOpenInFlight = engine.halfOpenInFlight := by
  simp only [countFailure]
  split <;> rfl

@[simp] theorem countFailure_circuitFailures (engine : ExecutionEngine) (nowNs : UInt64) :
    (engine.countFailure nowNs).circuitFailures = engine.circuitFailures + 1 := by
  simp only [countFailure]
  split <;> rfl

theorem countFailure_circuitState (engine : ExecutionEngine) (nowNs : UInt64) :
    (engine.countFailure nowNs).circuitState =
      if kCircuitFailureThreshold ≤ engine.circuitFailures + 1 then .open
      else engine.circuitState := by
  simp only [countFailure]
  split <;> rfl

theorem coolDown_of_open {engine : ExecutionEngine} {nowNs : UInt64}
    (still : (engine.coolDown nowNs).circuitState = .open) : engine.coolDown nowNs = engine := by
  simp only [coolDown] at still ⊢
  split
  case isTrue cooled =>
    rw [if_pos cooled] at still
    cases still
  case isFalse => rfl

theorem coolDown_of_ne_open {engine : ExecutionEngine} (nowNs : UInt64)
    (away : engine.circuitState ≠ .open) : engine.coolDown nowNs = engine := by
  rw [coolDown, if_neg]
  intro cooled
  exact away cooled.1

theorem submit_breaker {engine next : ExecutionEngine} {intent : OrderIntent} {nowNs : UInt64}
    {result : Option ExecutionEvent} (ran : engine.submit intent nowNs = some (next, result)) :
    BreakerEffect engine next (.submit intent nowNs) (.event result) := by
  rw [submit] at ran
  split at ran
  case isTrue known =>
    simp only [refuse, Option.some.injEq, Prod.mk.injEq] at ran
    rcases ran with ⟨rfl, rfl⟩
    have stale : ¬ engine.Fresh intent.correlationId := fun fresh => not_or.mpr fresh known
    refine .unchanged trivial rfl ⟨rfl, rfl, rfl, rfl⟩ (fun _ => Iff.rfl) ?_
    intro intent' nowNs' same fresh
    cases same
    exact absurd fresh stale
  case isFalse unknown =>
    have fresh : engine.Fresh intent.correlationId := not_or.mp unknown
    simp only at ran
    split at ran
    case isTrue waiting =>
      simp only [refuse, Option.some.injEq, Prod.mk.injEq] at ran
      rcases ran with ⟨rfl, rfl⟩
      rw [coolDown_of_open waiting]
      refine .unchanged trivial rfl ⟨rfl, rfl, rfl, rfl⟩ (fun _ => Iff.rfl) ?_
      intro intent' nowNs' same _
      cases same
      exact waiting
    case isFalse notOpen =>
      split at ran
      case isTrue inFlight =>
        simp only [refuse, Option.some.injEq, Prod.mk.injEq] at ran
        rcases ran with ⟨rfl, rfl⟩
        exact .probing fresh inFlight.1 (by simpa using inFlight.2) ⟨rfl, rfl, rfl, rfl⟩ (by simp)
      case isFalse idle =>
        have admits : (engine.coolDown nowNs).BreakerAdmits := ⟨notOpen, idle⟩
        split at ran
        case isTrue blocked =>
          simp only [refuse, Option.some.injEq, Prod.mk.injEq] at ran
          rcases ran with ⟨rfl, rfl⟩
          exact .failed fresh admits (.inl (by simpa [Blocked] using blocked))
            ⟨rfl, rfl, rfl, rfl⟩ (by simp)
        case isFalse ready =>
          simp only [coolDown_riskEngine, coolDown_journal, coolDown_halted,
            coolDown_gatewayState] at ran ready
          rcases Option.map_eq_some_iff.mp ran with ⟨⟨risk, journal', decision⟩, evaluated, final⟩
          simp only at final
          split at final
          case isTrue rejected =>
            simp only [refuse, Prod.mk.injEq] at final
            rcases final with ⟨rfl, rfl⟩
            refine .failed fresh admits (.inr ?_) ⟨?_, ?_, ?_, ?_⟩ (by simp)
            · simp [riskApproves, evaluated, rejected]
            · simp [countFailure_circuitState]
            · simp
            · simp only [countFailure]
              split <;> rfl
            · simp
          case isFalse approved =>
            simp only [send, Prod.mk.injEq] at final
            rcases final with ⟨rfl, rfl⟩
            refine .sent fresh ⟨admits, ready, ?_⟩ rfl (by simp) (by simp) (by simp)
            simpa [riskApproves, evaluated] using approved

theorem acknowledge_breaker (engine : ExecutionEngine) (correlationId : UInt64)
    (venueOrderId : Nat) (nowNs : UInt64) :
    BreakerEffect engine (engine.acknowledge correlationId venueOrderId nowNs).1
      (.acknowledge correlationId venueOrderId nowNs)
      (.acknowledged (engine.acknowledge correlationId venueOrderId nowNs).2) := by
  rw [acknowledge]
  split
  case isTrue awaited =>
    simp only
    split
    case isTrue half => exact .recovered awaited half rfl rfl rfl rfl
    case isFalse away => exact .acknowledged awaited away ⟨rfl, rfl, rfl, rfl⟩ rfl
  case isFalse unknown =>
    refine .mismatched (by simpa using unknown) ⟨?_, ?_, ?_, ?_⟩ (by simp)
    · simp [countFailure_circuitState]
    · simp
    · simp only [countFailure]
      split <;> rfl
    · simp

theorem cancelReplace_members (engine : ExecutionEngine) (correlationId : UInt64)
    (newPrice newQuantity : Int64) (nowNs : UInt64) (other : UInt64) :
    other ∈ (engine.cancelReplace correlationId newPrice newQuantity nowNs).1.active ↔
      other ∈ engine.active := by
  have effect := cancelReplace_cases engine correlationId newPrice newQuantity nowNs
  generalize engine.cancelReplace correlationId newPrice newQuantity nowNs = outcome at effect
  rcases outcome with ⟨next, result⟩
  cases effect with
  | refused cause => exact Iff.rfl
  | replaced present _ _ _ _ _ active _ _ _ =>
      simp only at active ⊢
      rw [active, Finmap.mem_insert]
      constructor
      · intro either
        rcases either with rfl | member
        · exact Finmap.mem_of_lookup_eq_some present
        · exact member
      · intro member
        exact Or.inr member

theorem cancelReplace_sameBreaker (engine : ExecutionEngine) (correlationId : UInt64)
    (newPrice newQuantity : Int64) (nowNs : UInt64) :
    engine.SameBreaker (engine.cancelReplace correlationId newPrice newQuantity nowNs).1 := by
  rw [cancelReplace]
  split
  · exact sameBreaker_refl engine
  · split <;> exact ⟨rfl, rfl, rfl, rfl⟩

theorem step_breaker {engine next : ExecutionEngine} {op : Op} {output : Output}
    (ran : engine.step op = some (next, output)) : BreakerEffect engine next op output := by
  cases op with
  | submit intent nowNs =>
      rcases Option.map_eq_some_iff.mp ran with ⟨⟨after, result⟩, submitted, same⟩
      cases same
      exact submit_breaker submitted
  | cancelReplace correlationId newPrice newQuantity nowNs =>
      cases ran
      exact .unchanged trivial rfl (cancelReplace_sameBreaker ..)
        (cancelReplace_members _ _ _ _ _) (by simp)
  | acknowledge correlationId venueOrderId nowNs =>
      cases ran
      exact acknowledge_breaker engine correlationId venueOrderId nowNs
  | setGatewayState state =>
      cases ran
      cases state with
      | ready => exact .reset rfl rfl rfl rfl
      | _ => exact .unchanged trivial rfl ⟨rfl, rfl, rfl, rfl⟩ (fun _ => Iff.rfl) (by simp)
  | setHalted halted =>
      cases ran
      refine .unchanged trivial rfl ?_ (fun _ => by simp) (by simp)
      rw [setHalted]
      split
      · exact ⟨rfl, rfl, rfl, rfl⟩
      · split <;> exact ⟨rfl, rfl, rfl, rfl⟩
  | risk op =>
      simp only [step, Option.map_eq_some_iff, Prod.mk.injEq] at ran
      rcases ran with ⟨_, _, rfl, rfl⟩
      exact .unchanged trivial rfl ⟨rfl, rfl, rfl, rfl⟩ (fun _ => Iff.rfl) (by simp)

end Ito.ExecutionEngine
