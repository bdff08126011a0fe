import Ito.BreakerInvariant

/-! The correlation ids a run of the execution engine sends.

`submit` looks for duplicates among the active orders only, and a matching
acknowledgment takes its order out of them. From then on the correlation id
counts as new. -/

namespace Ito.ExecutionEngine

def releasedId : Op → Output → Option UInt64
  | .acknowledge correlationId _ _, .acknowledged true => some correlationId
  | _, _ => none

def releasedIds (log : List (Op × Output)) : List UInt64 := collect releasedId log

def SentOnce (log : List (Op × Output)) : Prop :=
  (sentIds log).Nodup ∧ 0 ∉ sentIds log

/-- The call submits an order that passes every check under a released correlation id. -/
def Reuses (engine : ExecutionEngine) (past : List (Op × Output)) : Op → Prop
  | .submit intent nowNs =>
      engine.Passes intent nowNs ∧ intent.correlationId ∈ releasedIds past
  | _ => False

instance (engine : ExecutionEngine) (past : List (Op × Output)) :
    (op : Op) → Decidable (engine.Reuses past op)
  | .submit _ _ => inferInstanceAs (Decidable (_ ∧ _))
  | .cancelReplace _ _ _ _ => isFalse id
  | .acknowledge _ _ _ => isFalse id
  | .setGatewayState _ => isFalse id
  | .setHalted _ => isFalse id
  | .risk _ => isFalse id

theorem sentIds_snoc (log : List (Op × Output)) (op : Op) (output : Output) :
    sentIds (log ++ [(op, output)]) = sentIds log ++ (sentId op output).toList := by
  rw [sentIds, collect_append, collect_singleton, sentIds]

theorem releasedIds_snoc (log : List (Op × Output)) (op : Op) (output : Output) :
    releasedIds (log ++ [(op, output)]) = releasedIds log ++ (releasedId op output).toList := by
  rw [releasedIds, collect_append, collect_singleton, releasedIds]

structure Accounted (engine : ExecutionEngine) (log : List (Op × Output)) : Prop where
  sent : ∀ correlationId, correlationId ∈ sentIds log ↔
    correlationId ∈ engine.active ∨ correlationId ∈ releasedIds log
  apart : ∀ correlationId, correlationId ∈ engine.active → correlationId ∉ releasedIds log
  once : SentOnce log

theorem accounted_idle {engine next : ExecutionEngine} {log : List (Op × Output)} {op : Op}
    {output : Output} (held : engine.Accounted log) (silent : sentId op output = none)
    (quiet : releasedId op output = none)
    (active : ∀ correlationId, correlationId ∈ next.active ↔ correlationId ∈ engine.active) :
    next.Accounted (log ++ [(op, output)]) := by
  have same : sentIds (log ++ [(op, output)]) = sentIds log := by
    rw [sentIds_snoc, silent, Option.toList_none, List.append_nil]
  have released : releasedIds (log ++ [(op, output)]) = releasedIds log := by
    rw [releasedIds_snoc, quiet, Option.toList_none, List.append_nil]
  constructor
  · intro correlationId
    rw [same, released, active]
    exact held.sent correlationId
  · intro correlationId member
    rw [released]
    exact held.apart correlationId ((active correlationId).mp member)
  · rw [SentOnce, same]
    exact held.once

theorem accounted_released {engine next : ExecutionEngine} {log : List (Op × Output)}
    {correlationId : UInt64} {venueOrderId : Nat} {nowNs : UInt64} (held : engine.Accounted log)
    (awaited : engine.awaits correlationId venueOrderId = true)
    (active : next.active = engine.active.erase correlationId) :
    next.Accounted (log ++ [(.acknowledge correlationId venueOrderId nowNs, .acknowledged true)]) := by
  have present : correlationId ∈ engine.active := by
    rw [awaits] at awaited
    split at awaited
    · cases awaited
    · next order found => exact Finmap.mem_of_lookup_eq_some found
  have same : sentIds (log ++ [(.acknowledge correlationId venueOrderId nowNs,
      .acknowledged true)]) = sentIds log := by
    rw [sentIds_snoc]
    exact List.append_nil _
  have released : ∀ other, other ∈ releasedIds (log ++
      [(.acknowledge correlationId venueOrderId nowNs, .acknowledged true)]) ↔
      other ∈ releasedIds log ∨ other = correlationId := by
    intro other
    rw [releasedIds_snoc, releasedId, Option.toList_some, List.mem_append, List.mem_singleton]
  constructor
  · intro other
    rw [same, released, active, Finmap.mem_erase, held.sent]
    by_cases equal : other = correlationId
    · rw [equal]
      simp [present]
    · simp [equal]
  · intro other member
    rw [active, Finmap.mem_erase] at member
    rw [released]
    intro either
    rcases either with before | equal
    · exact held.apart other member.2 before
    · exact member.1 equal
  · rw [SentOnce, same]
    exact held.once

theorem accounted_sent {engine next : ExecutionEngine} {log : List (Op × Output)}
    {intent : OrderIntent} {nowNs : UInt64} {event : ExecutionEvent} (held : engine.Accounted log)
    (fresh : engine.Fresh intent.correlationId)
    (active : next.active = engine.active.insert intent.correlationId event) :
    (SentOnce (log ++ [(.submit intent nowNs, .event (some event))]) ↔
      intent.correlationId ∉ releasedIds log) ∧
    (intent.correlationId ∉ releasedIds log →
      next.Accounted (log ++ [(.submit intent nowNs, .event (some event))])) := by
  have grown : sentIds (log ++ [(.submit intent nowNs, .event (some event))]) =
      sentIds log ++ [intent.correlationId] := sentIds_snoc _ _ _
  have released : releasedIds (log ++ [(.submit intent nowNs, .event (some event))]) =
      releasedIds log := by
    rw [releasedIds_snoc]
    exact List.append_nil _
  have new : intent.correlationId ∉ sentIds log ↔ intent.correlationId ∉ releasedIds log := by
    rw [held.sent]
    simp [fresh.2]
  have once : SentOnce (log ++ [(.submit intent nowNs, .event (some event))]) ↔
      intent.correlationId ∉ releasedIds log := by
    rw [SentOnce, grown, ← new, List.nodup_append]
    constructor
    · intro both member
      exact both.1.2.2 _ member _ (List.mem_singleton.mpr rfl) rfl
    · intro absent
      constructor
      · have apart : ∀ first ∈ sentIds log, ∀ second ∈ [intent.correlationId],
            first ≠ second := by
          intro first member second only equal
          rw [equal, List.mem_singleton.mp only] at member
          exact absent member
        exact ⟨held.once.1, List.nodup_singleton _, apart⟩
      · rw [List.mem_append, List.mem_singleton]
        intro zero
        rcases zero with before | now
        · exact held.once.2 before
        · exact fresh.1 now.symm
  constructor
  · exact once
  · intro unreleased
    constructor
    · intro other
      rw [grown, released, active, Finmap.mem_insert, List.mem_append, List.mem_singleton,
        held.sent, or_comm, or_assoc]
    · intro other member
      rw [active, Finmap.mem_insert] at member
      rw [released]
      rcases member with equal | before
      · rw [equal]
        exact unreleased
      · exact held.apart other before
    · exact once.mpr unreleased

theorem unreleased_of_stale {engine : ExecutionEngine} {log : List (Op × Output)}
    {correlationId : UInt64} (held : engine.Accounted log)
    (stale : ¬ engine.Fresh correlationId) : correlationId ∉ releasedIds log := by
  intro released
  apply stale
  constructor
  · intro zero
    rw [zero] at released
    exact held.once.2 ((held.sent 0).mpr (.inr released))
  · intro member
    exact held.apart correlationId member released

theorem step_accounted {engine next : ExecutionEngine} {log : List (Op × Output)} {op : Op}
    {output : Output} (held : engine.Accounted log) (ran : engine.step op = some (next, output)) :
    (SentOnce (log ++ [(op, output)]) ↔ ¬ engine.Reuses log op) ∧
      (¬ engine.Reuses log op → next.Accounted (log ++ [(op, output)])) := by
  -- A call that is no reuse and keeps the account.
  have keeps : ¬ engine.Reuses log op → next.Accounted (log ++ [(op, output)]) →
      (SentOnce (log ++ [(op, output)]) ↔ ¬ engine.Reuses log op) ∧
        (¬ engine.Reuses log op → next.Accounted (log ++ [(op, output)])) := by
    intro new accounted
    exact ⟨iff_of_true accounted.once new, fun _ => accounted⟩
  cases step_breaker ran with
  | unchanged plain silent _ active waiting =>
      apply keeps
      · cases op with
        | submit intent nowNs =>
            intro reuses
            apply unreleased_of_stale held _ reuses.2
            intro fresh
            exact reuses.1.1.1 (waiting intent nowNs rfl fresh)
        | _ => exact id
      · apply accounted_idle held silent _ active
        cases op with
        | acknowledge => exact plain.elim
        | _ => rfl
  | probing _ half inFlight _ active =>
      apply keeps
      · intro reuses
        apply reuses.1.1.2
        rw [coolDown_halfOpenInFlight]
        exact ⟨half, inFlight⟩
      · exact accounted_idle held rfl rfl (by simp [active])
  | failed _ _ cause _ active =>
      apply keeps
      · intro reuses
        rcases cause with blocked | rejected
        · exact reuses.1.2.1 blocked
        · rw [reuses.1.2.2] at rejected
          cases rejected
      · exact accounted_idle held rfl rfl (by simp [active])
  | @sent intent nowNs event fresh passes _ _ _ active =>
      have same : ¬ engine.Reuses log (.submit intent nowNs) ↔
          intent.correlationId ∉ releasedIds log := by
        simp only [Reuses, passes, true_and]
      rw [same]
      exact accounted_sent held fresh active
  | recovered awaited _ _ _ _ active => exact keeps id (accounted_released held awaited active)
  | acknowledged awaited _ _ active => exact keeps id (accounted_released held awaited active)
  | mismatched _ _ active => exact keeps id (accounted_idle held rfl rfl (by simp [active]))
  | reset _ _ _ active => exact keeps id (accounted_idle held rfl rfl (by simp [active]))

theorem sentOnce_shorter (front back : List (Op × Output)) (whole : SentOnce (front ++ back)) :
    SentOnce front := by
  rw [SentOnce, sentIds, collect_append] at whole
  constructor
  · exact (List.nodup_append.mp whole.1).1
  · intro zero
    exact whole.2 (List.mem_append_left _ zero)

/-- A run sends no correlation id twice if and only if no submission that passes
the checks carries one that a matching acknowledgment has released. -/
theorem sent_once_iff (journal : EventJournal) (risk : RiskEngine)
    (ledger : risk.position.Ledger) (ops : List Op) :
    ∃ engine log, Machine.exec step (create journal risk) ops = some (engine, log) ∧
      ((sentIds log).Nodup ∧ 0 ∉ sentIds log ↔
        Machine.Along (Machine.logged step) (fun before op _ _ => ¬ before.1.Reuses before.2 op)
          (create journal risk, []) ops) := by
  rcases exec_defined (create journal risk) ledger ops with ⟨engine, log, ran⟩
  have empty : SentOnce [] := by simp [SentOnce, sentIds, collect]
  have start : (create journal risk).Accounted [] := by
    constructor
    · simp [sentIds, releasedIds, collect, create, Finmap.notMem_empty]
    · simp [releasedIds, collect]
    · exact empty
  refine ⟨engine, log, ran, ?_⟩
  calc
    SentOnce log ↔ Machine.Along (Machine.logged step) (fun _ _ _ after => SentOnce after.2)
        (create journal risk, []) ops := (Machine.along_logged_iff sentOnce_shorter empty ran).symm
    _ ↔ _ := by
      apply Machine.along_iff (fun state : ExecutionEngine × List (Op × Output) =>
        state.1.Accounted state.2) ?_ start (A := fun _ => True) (fun _ _ => trivial)
      intro before op output after held _ first
      rcases before with ⟨before, past⟩
      rcases after with ⟨after, log'⟩
      rcases Machine.logged_eq_some.mp first with ⟨stepped, rfl⟩
      exact step_accounted held stepped

def resubmission : List Op :=
  [.setGatewayState .ready, .setHalted false, .submit sampleIntent 2, .acknowledge 5001 1 3,
    .submit sampleIntent 4]

theorem acknowledged_order_sent_again :
    ¬ ∀ (journal : EventJournal) (risk : RiskEngine), risk.position.Ledger →
      ∀ (ops : List Op) (engine : ExecutionEngine) (log : List (Op × Output)),
        Machine.exec step (create journal risk) ops = some (engine, log) →
        (sentIds log).Nodup ∧ 0 ∉ sentIds log := by
  intro always
  rcases exec_defined (create {} sampleRisk) (by decide) resubmission with ⟨engine, log, ran⟩
  have once := always {} sampleRisk (by decide) resubmission engine log ran
  have twice : (Machine.exec step (create {} sampleRisk) resubmission).map
      (fun final => sentIds final.2) = some [5001, 5001] := by decide +kernel
  rw [ran, Option.map_some, Option.some.injEq] at twice
  rw [twice] at once
  exact absurd once.1 (by decide)

theorem sent_once_active :
    ∃ engine log, Machine.exec step (create {} sampleRisk)
        [.setGatewayState .ready, .setHalted false, .submit sampleIntent 2, .submit sampleIntent 3,
          .acknowledge 5001 1 4] = some (engine, log) ∧
      (sentIds log).Nodup ∧ 0 ∉ sentIds log := by
  rcases sent_once_iff {} sampleRisk (by decide) [.setGatewayState .ready, .setHalted false,
    .submit sampleIntent 2, .submit sampleIntent 3, .acknowledge 5001 1 4] with
    ⟨engine, log, ran, same⟩
  exact ⟨engine, log, ran, same.mpr (by decide +kernel)⟩

end Ito.ExecutionEngine
