import Ito.ExecutionEffects

/-! The gateway after a mismatched acknowledgment.

`acknowledge` marks the gateway uncertain. The mark is a value of the gateway
state, and a halt overwrites it: clearing that halt makes the gateway ready
without any reconciliation. -/

namespace Ito.ExecutionEngine

def ClearsHalt (engine : ExecutionEngine) (op : Op) : Prop :=
  op = .setHalted false ∧ engine.gatewayState = .halted

instance (engine : ExecutionEngine) : (op : Op) → Decidable (ClearsHalt engine op)
  | .setHalted false =>
      decidable_of_iff (engine.gatewayState = .halted) (by simp [ClearsHalt])
  | .setHalted true => isFalse (by simp [ClearsHalt])
  | .submit _ _ => isFalse (by simp [ClearsHalt])
  | .cancelReplace _ _ _ _ => isFalse (by simp [ClearsHalt])
  | .acknowledge _ _ _ => isFalse (by simp [ClearsHalt])
  | .setGatewayState _ => isFalse (by simp [ClearsHalt])
  | .risk _ => isFalse (by simp [ClearsHalt])

def NoEvent : Output → Prop
  | .event (some _) => False
  | _ => True

instance : (output : Output) → Decidable (NoEvent output)
  | .done => isTrue trivial
  | .event none => isTrue trivial
  | .event (some _) => isFalse id
  | .acknowledged _ => isTrue trivial

theorem blocked_step {engine next : ExecutionEngine} {op : Op} {output : Output}
    (away : engine.gatewayState ≠ .ready) (other : op ≠ .setGatewayState .ready)
    (ran : engine.step op = some (next, output)) :
    NoEvent output ∧ (next.Blocked ↔ ¬ ClearsHalt engine op) ∧
      (¬ ClearsHalt engine op → next.gatewayState ≠ .ready) := by
  have blocked : engine.Blocked := .inr away
  have stays : next.gatewayState ≠ .ready → ¬ ClearsHalt engine op →
      (next.Blocked ↔ ¬ ClearsHalt engine op) ∧
        (¬ ClearsHalt engine op → next.gatewayState ≠ .ready) := by
    intro still calm
    exact ⟨iff_of_true (.inr still) calm, fun _ => still⟩
  cases op with
  | submit intent nowNs =>
      rcases Option.map_eq_some_iff.mp ran with ⟨⟨after, result⟩, submitted, same⟩
      cases same
      rcases submit_cases submitted with ⟨gateway, _, effect⟩
      refine ⟨?_, stays (by rw [gateway]; exact away) (by simp [ClearsHalt])⟩
      cases effect with
      | refused => trivial
      | sent _ open' => exact absurd blocked open'
  | cancelReplace correlationId newPrice newQuantity nowNs =>
      have effect := cancelReplace_cases engine correlationId newPrice newQuantity nowNs
      simp only [step, Option.some.injEq, Prod.mk.injEq] at ran
      rw [ran.1] at effect
      rw [← ran.2]
      generalize (engine.cancelReplace correlationId newPrice newQuantity nowNs).2 = result at effect
      cases effect with
      | refused cause => exact ⟨trivial, stays away (by simp [ClearsHalt])⟩
      | replaced _ _ _ open' => exact absurd blocked open'
  | acknowledge correlationId venueOrderId nowNs =>
      have effect := (acknowledge_cases engine correlationId venueOrderId nowNs).2.2
      simp only [step, Option.some.injEq, Prod.mk.injEq] at ran
      rw [ran.1] at effect
      rw [← ran.2]
      generalize (engine.acknowledge correlationId venueOrderId nowNs).2 = matched at effect
      refine ⟨trivial, stays ?_ (by simp [ClearsHalt])⟩
      cases effect with
      | matched _ gateway => rw [gateway]; exact away
      | uncertain _ gateway => simp [gateway]
  | setGatewayState state =>
      cases ran
      refine ⟨trivial, stays ?_ (by simp [ClearsHalt])⟩
      rw [setGatewayState_gatewayState]
      intro ready
      exact other (by rw [ready])
  | setHalted halted =>
      cases ran
      refine ⟨trivial, ?_⟩
      cases halted with
      | true => exact stays (by simp [setHalted]) (by simp [ClearsHalt])
      | false =>
          by_cases standing : engine.gatewayState = .halted
          · have clears : ClearsHalt engine (.setHalted false) := ⟨rfl, standing⟩
            refine ⟨iff_of_false ?_ (not_not_intro clears), fun calm => absurd clears calm⟩
            simp [Blocked, setHalted, standing]
          · exact stays (by simpa [setHalted, standing] using away) (by simp [ClearsHalt, standing])
  | risk op =>
      rcases risk_step ran with ⟨_, gateway, _, _⟩
      refine ⟨?_, stays (by rw [gateway]; exact away) (by simp [ClearsHalt])⟩
      simp only [step, Option.map_eq_some_iff, Prod.mk.injEq] at ran
      rcases ran with ⟨_, _, _, rfl⟩
      trivial

theorem acknowledge_failed {engine : ExecutionEngine} {correlationId : UInt64} {venueOrderId : Nat}
    {nowNs : UInt64} (failed : (engine.acknowledge correlationId venueOrderId nowNs).2 = false) :
    (engine.acknowledge correlationId venueOrderId nowNs).1.gatewayState ≠ .ready := by
  have effect := (acknowledge_cases engine correlationId venueOrderId nowNs).2.2
  rw [failed] at effect
  cases effect with
  | uncertain _ gateway => simp [gateway]

/-- After a failed acknowledgment and without an explicit ready, the gateway
stays blocked as long as no halt is cleared, no order goes out in that time, and
clearing a halt is what ends it. -/
theorem uncertain_stays_blocked (engine : ExecutionEngine) (correlationId : UInt64)
    (venueOrderId : Nat) (nowNs : UInt64)
    (failed : (engine.acknowledge correlationId venueOrderId nowNs).2 = false)
    (ops : List Op) (unresolved : ∀ op ∈ ops, op ≠ .setGatewayState .ready) :
    (Machine.Along step (fun before op _ _ => ¬ ClearsHalt before op)
        (engine.acknowledge correlationId venueOrderId nowNs).1 ops →
      Machine.Along step (fun _ _ output _ => NoEvent output)
        (engine.acknowledge correlationId venueOrderId nowNs).1 ops) ∧
    (Machine.Along step (fun _ _ _ after => after.Blocked)
        (engine.acknowledge correlationId venueOrderId nowNs).1 ops ↔
      Machine.Along step (fun before op _ _ => ¬ ClearsHalt before op)
        (engine.acknowledge correlationId venueOrderId nowNs).1 ops) := by
  have away := acknowledge_failed failed
  generalize (engine.acknowledge correlationId venueOrderId nowNs).1 = start at away
  constructor
  · intro calm
    apply Machine.along_of_keep (fun held : ExecutionEngine => held.gatewayState ≠ .ready)
      ?_ away unresolved calm
    intro before op output after held other first calmly
    rcases blocked_step held other first with ⟨silent, _, still⟩
    exact ⟨silent, still calmly⟩
  · apply Machine.along_iff (fun held : ExecutionEngine => held.gatewayState ≠ .ready)
      ?_ away unresolved
    intro before op output after held other first
    exact (blocked_step held other first).2

def uncertainRisk : RiskEngine :=
  { limits := ⟨1, 10000000000, 100, 1000, 100, 200, 2, true⟩, health := .healthy }

def uncertainIntent : OrderIntent :=
  ⟨1, 5001, 7, 11, 21, 101, 5, 33, .buy, .limit, .day, 100, 10, 1⟩

def readyEngine : ExecutionEngine :=
  ((create {} uncertainRisk).setGatewayState .ready).setHalted false

/-- An unknown acknowledgment, a halt, its clearing, and an order that goes out. -/
theorem halt_clears_uncertainty :
    ¬ ∀ (journal : EventJournal) (risk : RiskEngine) (before : List Op) (engine : ExecutionEngine)
      (log : List (Op × Output)),
      Machine.exec step (create journal risk) before = some (engine, log) →
      ∀ (correlationId : UInt64) (venueOrderId : Nat) (nowNs : UInt64),
      (engine.acknowledge correlationId venueOrderId nowNs).2 = false →
      ∀ ops : List Op, (∀ op ∈ ops, op ≠ .setGatewayState .ready) →
        Machine.Along step (fun _ _ output _ => NoEvent output)
          (engine.acknowledge correlationId venueOrderId nowNs).1 ops := by
  intro always
  have along := always {} uncertainRisk [.setGatewayState .ready, .setHalted false] readyEngine _ rfl
    999 999 2 (by decide +kernel) [.setHalted true, .setHalted false, .submit uncertainIntent 3]
    (by simp)
  have broken : ¬ Machine.Along step (fun _ _ output _ => NoEvent output)
      (readyEngine.acknowledge 999 999 2).1
      [.setHalted true, .setHalted false, .submit uncertainIntent 3] := by decide +kernel
  exact broken along

theorem uncertain_blocks_submit :
    Machine.Along step (fun _ _ output _ => NoEvent output)
      (readyEngine.acknowledge 999 999 2).1
      [.setHalted false, .submit uncertainIntent 3, .setHalted true] := by
  apply (uncertain_stays_blocked readyEngine 999 999 2 (by decide +kernel) _ (by simp)).1 ?_
  decide +kernel

end Ito.ExecutionEngine
