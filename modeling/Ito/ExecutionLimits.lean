import Ito.ExecutionEffects

/-! Per-order limits on active orders.

`submit` asks the risk engine before an order becomes active; `cancel_replace`
rewrites an active order without asking it. -/

namespace Ito.ExecutionEngine

def OrderWithin (limits : LimitSnapshot) (order : ExecutionEvent) : Prop :=
  0 < order.priceTicks.toInt ∧ 0 < order.quantity.toInt ∧
    order.quantity.toInt ≤ limits.maxOrderQuantity.toInt ∧
    order.priceTicks.toInt * order.quantity.toInt ≤ limits.maxOrderNotionalTicks.toInt

def ActiveWithin (engine : ExecutionEngine) : Prop :=
  ∀ correlationId order, engine.active.lookup correlationId = some order →
    OrderWithin engine.riskEngine.limits order

/-- A replacement that takes effect stays within the per-order limits. -/
def ReplacesWithin (engine : ExecutionEngine) (op : Op) : Prop :=
  ∀ correlationId newPrice newQuantity nowNs,
    op = .cancelReplace correlationId newPrice newQuantity nowNs →
    correlationId ∈ engine.active → 0 < newPrice.toInt → 0 < newQuantity.toInt →
    ¬ engine.Blocked →
      newQuantity.toInt ≤ engine.riskEngine.limits.maxOrderQuantity.toInt ∧
        newPrice.toInt * newQuantity.toInt ≤
          engine.riskEngine.limits.maxOrderNotionalTicks.toInt

instance (engine : ExecutionEngine) : (op : Op) → Decidable (engine.ReplacesWithin op)
  | .cancelReplace correlationId newPrice newQuantity nowNs =>
      decidable_of_iff (correlationId ∈ engine.active → 0 < newPrice.toInt →
          0 < newQuantity.toInt → ¬ engine.Blocked →
          newQuantity.toInt ≤ engine.riskEngine.limits.maxOrderQuantity.toInt ∧
            newPrice.toInt * newQuantity.toInt ≤
              engine.riskEngine.limits.maxOrderNotionalTicks.toInt) <| by
        constructor
        · intro fits correlationId' newPrice' newQuantity' nowNs' same
          cases same
          exact fits
        · intro replaces
          exact replaces correlationId newPrice newQuantity nowNs rfl
  | .submit _ _ => isTrue fun _ _ _ _ same => nomatch same
  | .acknowledge _ _ _ => isTrue fun _ _ _ _ same => nomatch same
  | .setGatewayState _ => isTrue fun _ _ _ _ same => nomatch same
  | .setHalted _ => isTrue fun _ _ _ _ same => nomatch same
  | .risk _ => isTrue fun _ _ _ _ same => nomatch same

theorem within_insert {engine : ExecutionEngine} (within : engine.ActiveWithin)
    {next : ExecutionEngine} (limits : next.riskEngine.limits = engine.riskEngine.limits)
    {correlationId : UInt64} {event : ExecutionEvent}
    (active : next.active = engine.active.insert correlationId event) :
    next.ActiveWithin ↔ OrderWithin engine.riskEngine.limits event := by
  rw [ActiveWithin, limits, active]
  constructor
  · intro all
    exact all correlationId event (Finmap.lookup_insert _)
  · intro fits other order found
    by_cases same : other = correlationId
    · subst same
      rw [Finmap.lookup_insert, Option.some.injEq] at found
      rw [← found]
      exact fits
    · rw [Finmap.lookup_insert_of_ne _ same] at found
      exact within other order found

theorem within_of_active {engine next : ExecutionEngine} (within : engine.ActiveWithin)
    (limits : next.riskEngine.limits = engine.riskEngine.limits)
    (kept : ∀ correlationId order, next.active.lookup correlationId = some order →
      engine.active.lookup correlationId = some order) : next.ActiveWithin := by
  intro correlationId order found
  rw [limits]
  exact within correlationId order (kept correlationId order found)

theorem replaces_of_other {engine : ExecutionEngine} {op : Op}
    (other : ∀ correlationId newPrice newQuantity nowNs,
      op ≠ .cancelReplace correlationId newPrice newQuantity nowNs) :
    engine.ReplacesWithin op := by
  intro correlationId newPrice newQuantity nowNs same
  exact absurd same (other correlationId newPrice newQuantity nowNs)

theorem within_submit {engine next : ExecutionEngine} {intent : OrderIntent} {nowNs : UInt64}
    {result : Option ExecutionEvent} (ledger : engine.riskEngine.position.Ledger)
    (within : engine.ActiveWithin) (limits : next.riskEngine.limits = engine.riskEngine.limits)
    (submitted : engine.submit intent nowNs = some (next, result)) : next.ActiveWithin := by
  cases (submit_cases submitted).2.2 with
  | refused active _ =>
      apply within_of_active within limits
      rw [active]
      exact fun _ _ found => found
  | sent fresh open' evaluated approved price quantity active =>
      rw [within_insert within limits active, OrderWithin, price, quantity]
      obtain ⟨risk, journal', decision, evaluated', exact', _⟩ :=
        RiskEngine.evaluate_spec ledger engine.journal intent nowNs
      rw [evaluated, Option.some.injEq, Prod.mk.injEq, Prod.mk.injEq] at evaluated'
      rcases evaluated' with ⟨rfl, rfl, rfl⟩
      have size := (exact'.mp approved).size
      exact ⟨size.price, size.quantity.1, size.quantity.2, size.notional⟩

/-- `cancel_replace` asks nobody: the limits hold afterwards if the caller kept them. -/
theorem within_cancelReplace {engine : ExecutionEngine} (within : engine.ActiveWithin)
    (correlationId : UInt64) (newPrice newQuantity : Int64) (nowNs : UInt64)
    (limits : (engine.cancelReplace correlationId newPrice newQuantity nowNs).1.riskEngine.limits =
      engine.riskEngine.limits) :
    (engine.cancelReplace correlationId newPrice newQuantity nowNs).1.ActiveWithin ↔
      engine.ReplacesWithin (.cancelReplace correlationId newPrice newQuantity nowNs) := by
  have effect := cancelReplace_cases engine correlationId newPrice newQuantity nowNs
  generalize (engine.cancelReplace correlationId newPrice newQuantity nowNs).1 = next
    at effect limits
  generalize (engine.cancelReplace correlationId newPrice newQuantity nowNs).2 = result at effect
  cases effect with
  | refused cause =>
      apply iff_of_true within ?_
      intro correlationId' newPrice' newQuantity' nowNs' same member price quantity open'
      cases same
      rcases cause with absent | low | small | blocked
      · exact absurd member absent
      · omega
      · omega
      · exact absurd blocked open'
  | replaced present pricePositive quantityPositive open' price quantity active _ _ _ =>
      rw [within_insert within limits active, OrderWithin, price, quantity]
      constructor
      · intro fits correlationId' newPrice' newQuantity' nowNs' same _ _ _ _
        cases same
        exact fits.2.2
      · intro replaces
        have member := Finmap.mem_of_lookup_eq_some present
        exact ⟨pricePositive, quantityPositive,
          replaces _ _ _ _ rfl member pricePositive quantityPositive open'⟩

theorem acknowledge_active {engine : ExecutionEngine} (correlationId : UInt64) (venueOrderId : Nat)
    (nowNs : UInt64) {other : UInt64} {order : ExecutionEvent}
    (found : (engine.acknowledge correlationId venueOrderId nowNs).1.active.lookup other =
      some order) : engine.active.lookup other = some order := by
  have effect := (acknowledge_cases engine correlationId venueOrderId nowNs).2.2
  generalize (engine.acknowledge correlationId venueOrderId nowNs).2 = matched at effect
  cases effect with
  | matched active _ =>
      rw [active] at found
      by_cases same : other = correlationId
      · rw [same, Finmap.lookup_erase] at found
        cases found
      · rwa [Finmap.lookup_erase_ne same] at found
  | uncertain active _ => rwa [active] at found

theorem within_step {engine next : ExecutionEngine} {op : Op} {output : Output}
    (ledger : engine.riskEngine.position.Ledger) (within : engine.ActiveWithin)
    (fixed : KeepsLimits op) (ran : engine.step op = some (next, output)) :
    next.ActiveWithin ↔ engine.ReplacesWithin op := by
  have limits := (step_spec_of ledger ran).2 fixed
  cases op with
  | submit intent nowNs =>
      rcases Option.map_eq_some_iff.mp ran with ⟨⟨after, result⟩, submitted, same⟩
      cases same
      exact iff_of_true (within_submit ledger within limits submitted) (replaces_of_other (by simp))
  | cancelReplace correlationId newPrice newQuantity nowNs =>
      cases ran
      exact within_cancelReplace within correlationId newPrice newQuantity nowNs limits
  | acknowledge correlationId venueOrderId nowNs =>
      apply iff_of_true ?_ (replaces_of_other (by simp))
      cases ran
      apply within_of_active within limits
      intro other order
      exact acknowledge_active correlationId venueOrderId nowNs
  | setGatewayState state =>
      apply iff_of_true ?_ (replaces_of_other (by simp))
      cases ran
      exact within_of_active within limits (by simp)
  | setHalted halted =>
      apply iff_of_true ?_ (replaces_of_other (by simp))
      cases ran
      exact within_of_active within limits (by simp)
  | risk op =>
      apply iff_of_true ?_ (replaces_of_other (by simp))
      apply within_of_active within limits
      rw [(risk_step ran).1]
      exact fun _ _ found => found

theorem create_within (journal : EventJournal) (risk : RiskEngine) :
    (create journal risk).ActiveWithin := by
  intro correlationId order found
  simp [create] at found

/-- Over every run of the engine the active orders stay within the per-order
limits if and only if every replacement that takes effect does. -/
theorem active_within_iff (journal : EventJournal) (risk : RiskEngine)
    (ledger : risk.position.Ledger) (ops : List Op) (fixed : ∀ op ∈ ops, KeepsLimits op) :
    (∃ engine log, Machine.exec step (create journal risk) ops = some (engine, log)) ∧
      (Machine.Along step (fun _ _ _ after => after.ActiveWithin) (create journal risk) ops ↔
        Machine.Along step (fun before op _ _ => before.ReplacesWithin op)
          (create journal risk) ops) := by
  have start : (create journal risk).riskEngine.position.Ledger ∧
      (create journal risk).ActiveWithin := ⟨ledger, create_within journal risk⟩
  refine ⟨exec_defined (create journal risk) start.1 ops, ?_⟩
  apply Machine.along_iff (fun engine : ExecutionEngine =>
    engine.riskEngine.position.Ledger ∧ engine.ActiveWithin) ?_ start fixed
  intro before op output after held keeps first
  have same := within_step held.1 held.2 keeps first
  exact ⟨same, fun met => ⟨(step_spec_of held.1 first).1, same.mpr met⟩⟩

def sampleRisk : RiskEngine :=
  { limits := ⟨1, 10000000000, 100, 1000, 100, 200, 2, true⟩, health := .healthy }

def sampleIntent : OrderIntent :=
  ⟨1, 5001, 7, 11, 21, 101, 5, 33, .buy, .limit, .day, 100, 10, 1⟩

def oversizedReplace : List Op :=
  [.setGatewayState .ready, .setHalted false, .submit sampleIntent 2,
    .cancelReplace 5001 100 1000000 3]

theorem oversized_replace_stays_active :
    ¬ ∀ (journal : EventJournal) (risk : RiskEngine), risk.limits.Valid → risk.position.Ledger →
      ∀ ops : List Op, (∀ op ∈ ops, KeepsLimits op) →
        Machine.Along step (fun _ _ _ after => after.ActiveWithin) (create journal risk) ops := by
  intro always
  have valid : sampleRisk.limits.Valid := by constructor <;> decide
  have fixed : ∀ op ∈ oversizedReplace, KeepsLimits op := by
    simp [oversizedReplace, KeepsLimits]
  have along := always {} sampleRisk valid (by decide) oversizedReplace fixed
  rcases exec_defined (create {} sampleRisk) (by decide) oversizedReplace with ⟨engine, log, ran⟩
  have within : engine.ActiveWithin :=
    Machine.last_of_along (create_within {} sampleRisk) along ran
  have result : (Machine.exec step (create {} sampleRisk) oversizedReplace).map (fun final =>
      (final.1.riskEngine.limits.maxOrderQuantity.toInt,
        (final.1.active.lookup 5001).map fun order => order.quantity.toInt)) =
      some (100, some 1000000) := by decide +kernel
  rw [ran, Option.map_some, Option.some.injEq, Prod.mk.injEq] at result
  rcases Option.map_eq_some_iff.mp result.2 with ⟨order, found, quantity⟩
  have bound := (within 5001 order found).2.2.1
  rw [quantity, result.1] at bound
  omega

theorem active_within_small_replace :
    Machine.Along step (fun _ _ _ after => after.ActiveWithin) (create {} sampleRisk)
      [.setGatewayState .ready, .setHalted false, .submit sampleIntent 2,
        .cancelReplace 5001 100 8 3] := by
  apply ((active_within_iff {} sampleRisk (by decide) _ ?_).2).mpr ?_
  · simp [KeepsLimits]
  · decide +kernel

end Ito.ExecutionEngine
