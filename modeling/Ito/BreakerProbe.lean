import Ito.BreakerInvariant

/-! The probe of the half open circuit.

`submit` raises the in-flight flag for the one order it lets through a half open
circuit, and a correct acknowledgment that finds the circuit half open lowers
it. `set_gateway_state` closes the circuit and leaves the flag; so does an
acknowledgment of the probe that comes while the circuit is open. -/

namespace Ito.ExecutionEngine

structure Watched where
  engine : ExecutionEngine
  probe : Option UInt64 := none

/-- A step of the engine, noting the order that was sent into a half open circuit. -/
def watch (watched : Watched) (op : Op) : Option (Watched × Output) :=
  (watched.engine.step op).map fun next =>
    let probe := if next.1.circuitState = .halfOpen then (sentId op next.2).or watched.probe
      else watched.probe
    (⟨next.1, probe⟩, next.2)

/-- The watched runs are the runs of the engine. -/
theorem watch_exec (watched : Watched) (ops : List Op) (final : ExecutionEngine)
    (log : List (Op × Output)) :
    Machine.exec step watched.engine ops = some (final, log) ↔
      ∃ probe, Machine.exec watch watched ops = some (⟨final, probe⟩, log) := by
  induction ops generalizing watched log with
  | nil =>
      simp only [Machine.exec_nil, Option.some.injEq, Prod.mk.injEq]
      constructor
      · intro same
        exact ⟨watched.probe, by rw [← same.1], same.2⟩
      · intro found
        rcases found with ⟨probe, same, empty⟩
        exact ⟨by rw [same], empty⟩
  | cons op ops ih =>
      simp only [Machine.exec_cons_eq_some, watch, Option.map_eq_some_iff, Prod.mk.injEq]
      constructor
      · intro ran
        rcases ran with ⟨next, output, rest, first, run, rfl⟩
        rcases (ih ⟨next, _⟩ rest).mp run with ⟨probe, later⟩
        exact ⟨probe, _, output, rest, ⟨(next, output), first, rfl, rfl⟩, later, rfl⟩
      · intro ran
        rcases ran with ⟨probe, _, output, rest, ⟨next, first, rfl, rfl⟩, later, rfl⟩
        exact ⟨next.1, next.2, rest, first, (ih _ rest).mpr ⟨probe, later⟩, rfl⟩

def Awaited (engine : ExecutionEngine) (correlationId : UInt64) : Prop :=
  correlationId ∈ engine.active ∧
    (engine.circuitState = .halfOpen → ∃ venueOrderId, ∀ nowNs,
      (engine.acknowledge correlationId venueOrderId nowNs).2 = true ∧
        (engine.acknowledge correlationId venueOrderId nowNs).1.halfOpenInFlight = false)

/-- A raised flag belongs to a circuit that is not closed and to an active probe. -/
def ProbeHeld (watched : Watched) : Prop :=
  watched.engine.halfOpenInFlight = true →
    (watched.engine.circuitState = .halfOpen ∨ watched.engine.circuitState = .open) ∧
      ∃ correlationId, watched.probe = some correlationId ∧ watched.engine.Awaited correlationId

/-- Half open, with the flag raised, and no order whose acknowledgment could lower it. -/
def LockedOut (engine : ExecutionEngine) : Prop :=
  engine.circuitState = .halfOpen ∧ engine.halfOpenInFlight = true ∧ engine.active = ∅

/-- With the flag raised, the gateway is made ready, or the probe is acknowledged
while the circuit is not half open. -/
def LosesProbe (watched : Watched) : Op → Prop
  | .setGatewayState .ready => watched.engine.halfOpenInFlight = true
  | .acknowledge correlationId venueOrderId _ =>
      watched.engine.halfOpenInFlight = true ∧ watched.engine.circuitState ≠ .halfOpen ∧
        watched.probe = some correlationId ∧
        watched.engine.awaits correlationId venueOrderId = true
  | _ => False

instance (watched : Watched) : (op : Op) → Decidable (LosesProbe watched op)
  | .setGatewayState .ready => inferInstanceAs (Decidable (_ = _))
  | .acknowledge _ _ _ => inferInstanceAs (Decidable (_ ∧ _ ∧ _ ∧ _))
  | .setGatewayState .disconnected => isFalse id
  | .setGatewayState .halted => isFalse id
  | .setGatewayState .uncertain => isFalse id
  | .submit _ _ => isFalse id
  | .cancelReplace _ _ _ _ => isFalse id
  | .setHalted _ => isFalse id
  | .risk _ => isFalse id

theorem awaited_iff_mem (engine : ExecutionEngine) (correlationId : UInt64) :
    engine.Awaited correlationId ↔ correlationId ∈ engine.active := by
  constructor
  · intro awaited
    exact awaited.1
  · intro member
    rcases Finmap.mem_iff.mp member with ⟨order, found⟩
    have matches' : engine.awaits correlationId order.venueOrderId = true := by
      simp [awaits, found]
    constructor
    · exact member
    · intro half
      exact ⟨order.venueOrderId, fun nowNs => by simp [acknowledge, matches', half]⟩

theorem plain_keeps_probe (watched : Watched) {op : Op} (plain : Plain op) :
    ¬ LosesProbe watched op := by
  cases op with
  | acknowledge => exact plain.elim
  | setGatewayState state =>
      cases state with
      | ready => exact plain.elim
      | _ => exact id
  | _ => exact id

theorem admits_closed {engine : ExecutionEngine} {nowNs : UInt64}
    (inFlight : engine.halfOpenInFlight = true) (admits : (engine.coolDown nowNs).BreakerAdmits) :
    engine.circuitState = .closed := by
  rw [← coolDown_closed_iff engine nowNs]
  cases state : (engine.coolDown nowNs).circuitState with
  | closed => rfl
  | halfOpen =>
      rw [← coolDown_halfOpenInFlight engine nowNs] at inFlight
      exact absurd ⟨state, inFlight⟩ admits.2
  | «open» => exact absurd state admits.1

/-- What is held before a call that changes neither the probe nor the flag is
held after it, if the circuit does not close and the probe stays active. -/
theorem held_of_same {watched : Watched} {next : ExecutionEngine} (held : ProbeHeld watched)
    (flag : next.halfOpenInFlight = watched.engine.halfOpenInFlight)
    (circuit : watched.engine.circuitState ≠ .closed → next.circuitState ≠ .closed)
    (active : ∀ correlationId, correlationId ∈ watched.engine.active →
      correlationId ∈ next.active) : ProbeHeld ⟨next, watched.probe⟩ := by
  intro raised
  rcases held (flag.symm.trans raised) with ⟨away, correlationId, probe, awaited⟩
  constructor
  · have notClosed : next.circuitState ≠ .closed := by
      apply circuit
      intro closed
      simp [closed] at away
    cases state : next.circuitState with
    | closed => exact absurd state notClosed
    | halfOpen => exact Or.inl rfl
    | «open» => exact Or.inr rfl
  · have member := active correlationId ((awaited_iff_mem _ _).mp awaited)
    exact ⟨correlationId, probe, (awaited_iff_mem _ _).mpr member⟩

theorem acknowledged_held_iff {watched : Watched} {next : ExecutionEngine}
    {correlationId : UInt64} {venueOrderId : Nat} (nowNs : UInt64) (held : ProbeHeld watched)
    (awaited : watched.engine.awaits correlationId venueOrderId = true)
    (away : watched.engine.circuitState ≠ .halfOpen) (same : watched.engine.SameBreaker next)
    (active : next.active = watched.engine.active.erase correlationId) :
    ProbeHeld ⟨next, watched.probe⟩ ↔
      ¬ LosesProbe watched (.acknowledge correlationId venueOrderId nowNs) := by
  constructor
  · intro after loses
    rcases after (same.halfOpenInFlight.trans loses.1) with ⟨_, probed, probe, still⟩
    have probe' : some correlationId = some probed := loses.2.2.1.symm.trans probe
    rw [awaited_iff_mem, ← Option.some.inj probe'] at still
    simp only [active, Finmap.mem_erase] at still
    exact still.1 rfl
  · intro keeps raised
    have before : watched.engine.halfOpenInFlight = true :=
      same.halfOpenInFlight.symm.trans raised
    rcases held before with ⟨state, probed, probe, still⟩
    have other : probed ≠ correlationId := by
      intro equal
      exact keeps ⟨before, away, by rw [probe, equal], awaited⟩
    constructor
    · simp only [same.circuitState]
      exact state
    · refine ⟨probed, probe, (awaited_iff_mem _ _).mpr ?_⟩
      simp only [active]
      exact Finmap.mem_erase.mpr ⟨other, (awaited_iff_mem _ _).mp still⟩

theorem watch_held_iff {watched after : Watched} {op : Op} {output : Output}
    (held : ProbeHeld watched) (ran : watch watched op = some (after, output)) :
    ProbeHeld after ↔ ¬ LosesProbe watched op := by
  rcases Option.map_eq_some_iff.mp ran with ⟨⟨next, output'⟩, stepped, same⟩
  simp only [Prod.mk.injEq] at same
  rcases same with ⟨rfl, rfl⟩
  -- Where nothing was sent the probe is the one before.
  have kept : sentId op output' = none →
      (if next.circuitState = .halfOpen then (sentId op output').or watched.probe
        else watched.probe) = watched.probe := by
    intro silent
    rw [silent, Option.none_or, ite_self]
  cases step_breaker stepped with
  | unchanged plain silent same active =>
      rw [kept silent]
      apply iff_of_true _ (plain_keeps_probe watched plain)
      apply held_of_same held same.halfOpenInFlight
      · rw [same.circuitState]
        exact id
      · intro correlationId member
        exact (active correlationId).mpr member
  | @probing intent nowNs _ half _ same active =>
      rw [kept rfl]
      apply iff_of_true _ id
      apply held_of_same held
      · rw [same.halfOpenInFlight, coolDown_halfOpenInFlight]
      · intro _
        rw [same.circuitState, half]
        decide
      · rw [active]
        exact fun _ => id
  | failed _ admits _ same =>
      apply iff_of_true _ id
      intro raised
      rw [same.halfOpenInFlight, countFailure_halfOpenInFlight, coolDown_halfOpenInFlight] at raised
      have state := (held raised).1
      simp [admits_closed raised admits] at state
  | @sent intent nowNs event _ passes circuit _ flag active =>
      apply iff_of_true _ id
      intro raised
      rcases flag.mp raised with before | half
      · have state := (held before).1
        simp [admits_closed before passes.1] at state
      · simp only [half, if_true, sentId, Option.some_or]
        refine ⟨Or.inl trivial, intent.correlationId, rfl, (awaited_iff_mem _ _).mpr ?_⟩
        rw [active]
        exact Finmap.mem_insert.mpr (Or.inl rfl)
  | recovered _ half _ _ flag =>
      apply iff_of_true
      · intro raised
        rw [flag] at raised
        cases raised
      · intro loses
        exact loses.2.1 half
  | @acknowledged correlationId venueOrderId nowNs awaited away same active =>
      rw [kept rfl]
      exact acknowledged_held_iff nowNs held awaited away same active
  | @mismatched correlationId venueOrderId nowNs unknown same active =>
      rw [kept rfl]
      apply iff_of_true
      · apply held_of_same held
        · rw [same.halfOpenInFlight, countFailure_halfOpenInFlight]
        · intro away
          rw [same.circuitState, countFailure_circuitState]
          split
          · decide
          · exact away
        · rw [active]
          exact fun _ => id
      · intro loses
        have awaited := loses.2.2.2
        rw [unknown] at awaited
        cases awaited
  | reset circuit _ flag =>
      constructor
      · intro after loses
        have state := (after (flag.trans loses)).1
        simp [circuit] at state
      · intro keeps raised
        exact absurd (flag.symm.trans raised) keeps

theorem held_not_lockedOut {watched : Watched} (held : ProbeHeld watched) :
    ¬ watched.engine.LockedOut := by
  intro locked
  rcases (held locked.2.1).2 with ⟨correlationId, _, awaited⟩
  have member := (awaited_iff_mem _ _).mp awaited
  rw [locked.2.2] at member
  exact Finmap.notMem_empty member

/-- Along every run from a new engine the probe is held if and only if no call
loses it, and then no state is locked out. -/
theorem probe_held_iff (journal : EventJournal) (risk : RiskEngine)
    (ledger : risk.position.Ledger) (ops : List Op) :
    (∃ watched log, Machine.exec watch ⟨create journal risk, none⟩ ops = some (watched, log)) ∧
    (Machine.Along watch (fun _ _ _ after => ProbeHeld after) ⟨create journal risk, none⟩ ops ↔
      Machine.Along watch (fun before op _ _ => ¬ LosesProbe before op)
        ⟨create journal risk, none⟩ ops) ∧
    (Machine.Along watch (fun before op _ _ => ¬ LosesProbe before op)
        ⟨create journal risk, none⟩ ops →
      Machine.Along watch (fun _ _ _ after => ¬ after.engine.LockedOut)
        ⟨create journal risk, none⟩ ops) := by
  have start : ProbeHeld ⟨create journal risk, none⟩ := by
    intro raised
    cases raised
  constructor
  · rcases exec_defined (create journal risk) ledger ops with ⟨engine, log, ran⟩
    rcases (watch_exec ⟨create journal risk, none⟩ ops engine log).mp ran with ⟨probe, watched⟩
    exact ⟨⟨engine, probe⟩, log, watched⟩
  constructor
  · apply Machine.along_iff ProbeHeld ?_ start (A := fun _ => True) (fun _ _ => trivial)
    intro before op output after held _ first
    have same := watch_held_iff held first
    exact ⟨same, same.mpr⟩
  · apply Machine.along_of_keep ProbeHeld ?_ start (A := fun _ => True) (fun _ _ => trivial)
    intro before op output after held _ first keeps
    have after' := (watch_held_iff held first).mpr keeps
    exact ⟨held_not_lockedOut after', after'⟩

def patientRisk : RiskEngine :=
  { sampleRisk with limits := { sampleRisk.limits with expiresNs := 1000000000000 } }

/-- A probe is sent, the gateway is made ready, and the probe is acknowledged
while the circuit is closed; then the circuit trips and cools down again. -/
def lockout : List Op :=
  trips ++ [.setHalted true, .setHalted false, .submit sampleIntent 30000000100,
    .setGatewayState .ready, .acknowledge 5001 1 30000000200] ++
  List.replicate 5 (.acknowledge 999 999 30000000300) ++
  [.submit { sampleIntent with correlationId := 5002 } 60000000300]

theorem lockout_reached : ∃ engine : ExecutionEngine, engine.Reachable ∧ engine.LockedOut := by
  rcases exec_defined (create {} patientRisk) (by decide) lockout with ⟨engine, log, ran⟩
  have final : (Machine.exec step (create {} patientRisk) lockout).map (fun final =>
      (final.1.circuitState, final.1.halfOpenInFlight, final.1.active.keys.card)) =
      some (.halfOpen, true, 0) := by decide +kernel
  rw [ran, Option.map_some, Option.some.injEq, Prod.mk.injEq, Prod.mk.injEq] at final
  have none : engine.active = ∅ := by
    apply Finmap.ext_lookup
    intro correlationId
    rw [Finmap.lookup_empty, Finmap.lookup_eq_none, ← Finmap.mem_keys,
      Finset.card_eq_zero.mp final.2.2]
    exact Finset.notMem_empty correlationId
  exact ⟨engine, ⟨{}, patientRisk, lockout, log, by decide, ran⟩, final.1, final.2.1, none⟩

theorem probe_held_recovery :
    Machine.Along watch (fun _ _ _ after => ProbeHeld after) ⟨create {} patientRisk, none⟩
      (trips ++ [.setHalted true, .setHalted false, .submit sampleIntent 30000000100,
        .acknowledge 5001 1 30000000200, .setGatewayState .ready]) :=
  (probe_held_iff {} patientRisk (by decide) _).2.1.mpr (by decide +kernel)

end Ito.ExecutionEngine
