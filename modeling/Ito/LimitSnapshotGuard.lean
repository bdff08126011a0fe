import Ito.Library.Clocked
import Ito.RiskEngine

/-! The guard that limits pass on their way to the risk engine.

Source: `cpp/ito_risk/limit_snapshot.cpp`. -/

namespace Ito

structure LimitSnapshotGuard where
  active : LimitSnapshot := ⟨0, 0, 0, 0, 0, 0, 0, false⟩
  initialized : Bool := false
  deriving DecidableEq, Repr

namespace LimitSnapshotGuard

open Clocked

def activate (guard : LimitSnapshotGuard) (snapshot : LimitSnapshot) (nowNs : UInt64) :
    LimitSnapshotGuard × Bool :=
  if snapshot.version = 0 ∨ snapshot.expiresNs ≤ nowNs ∨ snapshot.maxOrderQuantity ≤ 0 ∨
      snapshot.maxOrderNotionalTicks ≤ 0 ∨ snapshot.maxNetPosition ≤ 0 ∨
      snapshot.maxOrdersPerSecond = 0 ∨ !snapshot.tradingEnabled then
    (guard, false)
  else if guard.initialized ∧ snapshot.version ≤ guard.active.version then (guard, false)
  else ({ active := snapshot, initialized := true }, true)

def valid (guard : LimitSnapshotGuard) (nowNs : UInt64) : Bool :=
  guard.initialized && guard.active.tradingEnabled && nowNs < guard.active.expiresNs

def status (guard : LimitSnapshotGuard) (nowNs : UInt64) : String :=
  if !guard.initialized then "uninitialized"
  else if guard.active.expiresNs ≤ nowNs then "expired"
  else if !guard.active.tradingEnabled then "disabled"
  else "valid"

/-- A call of `activate`: the snapshot and its time. -/
abbrev Call := LimitSnapshot × UInt64

def step (guard : LimitSnapshotGuard) (call : Call) : LimitSnapshotGuard :=
  (guard.activate call.1 call.2).1

structure Proper (call : Call) : Prop where
  version : call.1.version ≠ 0
  unexpired : call.2 < call.1.expiresNs
  orderQuantity : 0 < call.1.maxOrderQuantity
  orderNotional : 0 < call.1.maxOrderNotionalTicks
  netPosition : 0 < call.1.maxNetPosition
  rate : call.1.maxOrdersPerSecond ≠ 0
  enabled : call.1.tradingEnabled = true

theorem proper_iff (call : Call) : Proper call ↔
    ¬ (call.1.version = 0 ∨ call.1.expiresNs ≤ call.2 ∨ call.1.maxOrderQuantity ≤ 0 ∨
      call.1.maxOrderNotionalTicks ≤ 0 ∨ call.1.maxNetPosition ≤ 0 ∨
      call.1.maxOrdersPerSecond = 0 ∨ !call.1.tradingEnabled) := by
  simp only [not_or, UInt64.not_le, Int64.not_le, Bool.not_eq_true', Bool.not_eq_false]
  constructor
  · rintro ⟨version, unexpired, quantity, notional, net, rate, enabled⟩
    exact ⟨version, unexpired, quantity, notional, net, rate, enabled⟩
  · rintro ⟨version, unexpired, quantity, notional, net, rate, enabled⟩
    exact ⟨version, unexpired, quantity, notional, net, rate, enabled⟩

theorem activate_eq_true {guard : LimitSnapshotGuard} {call : Call} :
    (guard.activate call.1 call.2).2 = true ↔
      Proper call ∧ (guard.initialized = true → guard.active.version < call.1.version) := by
  rw [activate]
  split
  case isTrue fault =>
    constructor
    · intro taken
      cases taken
    · rintro ⟨proper, -⟩
      exact absurd fault ((proper_iff call).mp proper)
  case isFalse proper =>
    rw [proper_iff]
    split
    case isTrue stale => simp [stale.1, stale.2]
    case isFalse newer =>
      rw [not_and, UInt64.not_le] at newer
      simp only [true_iff]
      exact ⟨proper, newer⟩

theorem step_eq (guard : LimitSnapshotGuard) (call : Call) :
    step guard call =
      if (guard.activate call.1 call.2).2 then { active := call.1, initialized := true } else guard := by
  rw [step, activate]
  split
  case isTrue => rfl
  case isFalse =>
    split
    case isTrue => rfl
    case isFalse => rfl

/-- The guard after these calls: nothing proper has come, or it holds the newest of what came, and
of several of its version the first. -/
inductive Follows (calls : List Call) (guard : LimitSnapshotGuard) : Prop
  | nothing (fresh : guard = {}) (none : ∀ call ∈ calls, ¬ Proper call)
  | newest (front : List Call) (call : Call) (back : List Call) (split : calls = front ++ call :: back)
      (proper : Proper call) (held : guard = { active := call.1, initialized := true })
      (before : ∀ other ∈ front, Proper other → other.1.version < call.1.version)
      (after : ∀ other ∈ back, Proper other → other.1.version ≤ call.1.version)

theorem follows_step {calls : List Call} {guard : LimitSnapshotGuard} (follows : Follows calls guard)
    (call : Call) : Follows (calls ++ [call]) (step guard call) := by
  rw [step_eq]
  cases follows with
  | nothing fresh none =>
      subst fresh
      split
      case isTrue taken =>
        have proper := (activate_eq_true.mp taken).1
        exact .newest calls call [] rfl proper rfl (fun other member isProper =>
          absurd isProper (none other member)) (by simp)
      case isFalse refused =>
        refine .nothing rfl ?_
        intro other member isProper
        rcases List.mem_append.mp member with earlier | last
        · exact none other earlier isProper
        · rw [List.mem_singleton.mp last] at isProper
          exact refused (activate_eq_true.mpr ⟨isProper, by simp⟩)
  | newest front newest back split proper held before after =>
      subst held
      split
      case isTrue taken =>
        rcases activate_eq_true.mp taken with ⟨isProper, newer⟩
        have above : newest.1.version < call.1.version := newer rfl
        refine .newest calls call [] rfl isProper rfl ?_ (by simp)
        intro other member otherProper
        rw [split] at member
        rcases List.mem_append.mp member with earlier | later
        · exact UInt64.lt_trans (before other earlier otherProper) above
        · rcases List.mem_cons.mp later with rfl | later
          · exact above
          · exact UInt64.lt_of_le_of_lt (after other later otherProper) above
      case isFalse refused =>
        refine .newest front newest (back ++ [call]) (by rw [split]; simp) proper rfl before ?_
        intro other member otherProper
        rcases List.mem_append.mp member with earlier | last
        · exact after other earlier otherProper
        · rw [List.mem_singleton.mp last] at otherProper ⊢
          by_contra above
          rw [UInt64.not_le] at above
          exact refused (activate_eq_true.mpr ⟨otherProper, fun _ => above⟩)

theorem follows_run {seen : List Call} {guard : LimitSnapshotGuard} (follows : Follows seen guard)
    (calls : List Call) : Follows (seen ++ calls) (run step guard calls) := by
  induction calls generalizing seen guard with
  | nil => simpa [run] using follows
  | cons call calls ih =>
      have later := ih (follows_step follows call)
      rw [List.append_assoc, List.singleton_append] at later
      exact later

theorem follows_new (calls : List Call) : Follows calls (run step {} calls) := by
  have fresh : Follows [] {} := .nothing rfl (by simp)
  exact follows_run fresh calls

/-- A call is accepted exactly if its snapshot is proper and newer than every proper one before. -/
theorem activate_accepted_iff (calls : List Call) (call : Call) :
    ((run step {} calls).activate call.1 call.2).2 = true ↔
      Proper call ∧ ∀ other ∈ calls, Proper other → other.1.version < call.1.version := by
  rw [activate_eq_true, and_congr_right_iff]
  intro proper
  rcases follows_new calls with ⟨fresh, none⟩ | ⟨front, newest, back, split, isProper, held, before, after⟩
  · rw [fresh]
    constructor
    · intro _ other member otherProper
      exact absurd otherProper (none other member)
    · intro _ initialized
      cases initialized
  · rw [held, split]
    constructor
    · intro newer other member otherProper
      have above : newest.1.version < call.1.version := newer rfl
      rcases List.mem_append.mp member with earlier | later
      · exact UInt64.lt_trans (before other earlier otherProper) above
      · rcases List.mem_cons.mp later with rfl | later
        · exact above
        · exact UInt64.lt_of_le_of_lt (after other later otherProper) above
    · intro newer _
      exact newer newest (by simp) isProper

/-! The risk engine under the active limits -/

section Engine

variable {engine : RiskEngine} {intent : OrderIntent} {nowNs : UInt64}

open RiskEngine

theorem sizeRefusal_reason {limits : LimitSnapshot} {position : PositionSnapshot} {reason : UInt16}
    (refused : sizeRefusal limits position intent = some (some reason)) :
    reason = kQuantity ∨ reason = kOverflow ∨ reason = kNotional ∨ reason = kPosition := by
  simp only [sizeRefusal, Option.bind_eq_bind] at refused
  split at refused
  case isTrue =>
    cases refused
    exact Or.inl rfl
  case isFalse =>
    rcases Option.bind_eq_some_iff.mp refused with ⟨overflows, -, refused⟩
    split at refused
    case isTrue =>
      cases refused
      exact Or.inr (Or.inl rfl)
    case isFalse =>
      rcases Option.bind_eq_some_iff.mp refused with ⟨notional, -, refused⟩
      split at refused
      case isTrue =>
        cases refused
        exact Or.inr (Or.inr (Or.inl rfl))
      case isFalse =>
        rcases Option.bind_eq_some_iff.mp refused with ⟨signed, -, refused⟩
        rcases Option.bind_eq_some_iff.mp refused with ⟨net, -, refused⟩
        split at refused
        case isTrue =>
          cases refused
          exact Or.inr (Or.inr (Or.inr rfl))
        case isFalse =>
          rcases Option.bind_eq_some_iff.mp refused with ⟨gross, -, refused⟩
          split at refused
          case isTrue =>
            cases refused
            exact Or.inr (Or.inr (Or.inr rfl))
          case isFalse => cases refused

def Invalid (limits : LimitSnapshot) : Prop :=
  limits.version = 0 ∨ limits.expiresNs = 0 ∨ limits.maxOrderQuantity ≤ 0 ∨
    limits.maxOrderNotionalTicks ≤ 0 ∨ limits.maxNetPosition < 0 ∨ limits.maxGrossPosition < 0 ∨
    limits.maxOrdersPerSecond = 0

structure RefusedFor (limits : LimitSnapshot) (nowNs : UInt64) (reason : Option UInt16) : Prop where
  notEnabled : reason = some kNotEnabled ↔ limits.tradingEnabled = false
  invalid : reason = some kInvalidLimits ↔ limits.tradingEnabled = true ∧ Invalid limits
  expired : reason = some kExpiredLimits ↔
    limits.tradingEnabled = true ∧ ¬ Invalid limits ∧ limits.expiresNs ≤ nowNs

theorem refusedFor_other {limits : LimitSnapshot} {reason : Option UInt16}
    (enabled : limits.tradingEnabled = true) (isValid : ¬ Invalid limits)
    (unexpired : ¬ limits.expiresNs ≤ nowNs)
    (other : ∀ code, reason = some code →
      code = kQuantity ∨ code = kOverflow ∨ code = kNotional ∨ code = kPosition ∨
        code = kUnhealthy ∨ code = kInvalidOrder ∨ code = kRate ∨ code = 0) :
    RefusedFor limits nowNs reason where
  notEnabled := by
    simp only [enabled, Bool.true_eq_false, iff_false]
    intro same
    exact absurd (other _ same) (by decide)
  invalid := by
    simp only [isValid, and_false, iff_false]
    intro same
    exact absurd (other _ same) (by decide)
  expired := by
    simp only [unexpired, and_false, iff_false]
    intro same
    exact absurd (other _ same) (by decide)

theorem refusal_refusedFor {reason : Option UInt16}
    (defined : engine.refusal intent nowNs = some reason) :
    RefusedFor engine.limits nowNs reason := by
  rw [refusal] at defined
  split at defined
  case isTrue disabled =>
    cases defined
    rw [Bool.not_eq_true'] at disabled
    exact ⟨by simp [disabled], by simp [disabled, kNotEnabled, kInvalidLimits],
      by simp [disabled, kNotEnabled, kExpiredLimits]⟩
  case isFalse enabled =>
    rw [Bool.not_eq_true', Bool.not_eq_false] at enabled
    split at defined
    case isTrue invalid =>
      cases defined
      have isInvalid : Invalid engine.limits := invalid
      exact ⟨by simp [enabled, kNotEnabled, kInvalidLimits], by simp [enabled, isInvalid],
        by simp [isInvalid, kExpiredLimits, kInvalidLimits]⟩
    case isFalse isValid =>
      have isValid : ¬ Invalid engine.limits := isValid
      split at defined
      case isTrue expired =>
        cases defined
        exact ⟨by simp [enabled, kNotEnabled, kExpiredLimits],
          by simp [isValid, kExpiredLimits, kInvalidLimits], by simp [enabled, isValid, expired]⟩
      case isFalse unexpired =>
        apply refusedFor_other enabled isValid unexpired
        intro code same
        subst same
        split at defined
        case isTrue =>
          cases defined
          simp
        case isFalse =>
          split at defined
          case isTrue =>
            cases defined
            simp
          case isFalse =>
            rcases sizeRefusal_reason defined with same | same | same | same <;> simp [same]

theorem evaluate_refusedFor {journal : EventJournal}
    {next : RiskEngine × EventJournal × RiskDecision}
    (evaluated : engine.evaluate journal intent nowNs = some next) :
    RefusedFor engine.limits nowNs (some next.2.2.reasonCode) := by
  rcases Option.bind_eq_some_iff.mp evaluated with ⟨reason, refused, decided⟩
  have table := refusal_refusedFor refused
  cases reason with
  | some reason =>
      cases decided
      exact table
  | none =>
      have enabled : engine.limits.tradingEnabled = true := by
        have notEnabled := table.notEnabled
        simpa using notEnabled
      have isValid : ¬ Invalid engine.limits := by
        have invalid := table.invalid
        simpa [enabled] using invalid
      have unexpired : ¬ engine.limits.expiresNs ≤ nowNs := by
        have expired := table.expired
        simpa [enabled, isValid] using expired
      apply refusedFor_other enabled isValid unexpired
      intro code same
      rw [Option.some.injEq] at same
      subst same
      change (if _ then _ else _) = _ at decided
      split at decided
      case isTrue =>
        cases decided
        simp [reject]
      case isFalse =>
        cases decided
        simp

theorem evaluate_approved {journal : EventJournal}
    {next : RiskEngine × EventJournal × RiskDecision}
    (evaluated : engine.evaluate journal intent nowNs = some next)
    (approved : next.2.2.status = .approved) :
    next.2.2.reasonCode = 0 ∧ next.2.2.limitVersion = engine.limits.version := by
  rcases Option.bind_eq_some_iff.mp evaluated with ⟨reason, -, decided⟩
  cases reason with
  | some reason =>
      cases decided
      cases approved
  | none =>
      change (if _ then _ else _) = _ at decided
      split at decided
      case isTrue =>
        cases decided
        cases approved
      case isFalse =>
        cases decided
        refine ⟨rfl, ?_⟩
        change (rollWindow engine nowNs).limits.version = _
        rw [rollWindow]
        split <;> rfl

theorem refusedFor_active {limits : LimitSnapshot} {reason : UInt16} {call : Call}
    (proper : Proper call) (same : limits = call.1)
    (refused : RefusedFor limits nowNs (some reason)) :
    reason ≠ kNotEnabled ∧ (reason = kInvalidLimits ↔ limits.maxGrossPosition < 0) ∧
      (reason = kExpiredLimits ↔ limits.expiresNs ≤ nowNs ∧ ¬ limits.maxGrossPosition < 0) := by
  subst same
  have lasting : call.1.expiresNs ≠ 0 := by
    intro zero
    have unexpired := proper.unexpired
    rw [zero] at unexpired
    exact absurd unexpired (UInt64.not_lt.mpr (UInt64.zero_le))
  have isInvalid : Invalid call.1 ↔ call.1.maxGrossPosition < 0 := by
    have net : ¬ call.1.maxNetPosition < 0 := Int64.not_lt.mpr (Int64.le_of_lt proper.netPosition)
    have quantity : ¬ call.1.maxOrderQuantity ≤ 0 := Int64.not_le.mpr proper.orderQuantity
    have notional : ¬ call.1.maxOrderNotionalTicks ≤ 0 := Int64.not_le.mpr proper.orderNotional
    simp only [Invalid, proper.version, lasting, quantity, notional, net, proper.rate, false_or,
      or_false]
  have notEnabled := refused.notEnabled
  have invalid := refused.invalid
  have expired := refused.expired
  simp only [Option.some.injEq, proper.enabled, isInvalid, Bool.true_eq_false, iff_false,
    true_and] at notEnabled invalid expired
  exact ⟨notEnabled, invalid, expired.trans and_comm⟩

end Engine

/-- Whatever snapshots have been offered, the guard and a risk engine under its active limits say
the same: not enabled while none was accepted, expired when the guard is, and no other reason of
the limits' own, but for a negative gross limit, which only the engine looks at. It approves under
valid limits only, and names their version. -/
theorem guard_and_engine_agree (calls : List Call) (engine : RiskEngine) (journal : EventJournal)
    (intent : OrderIntent) (nowNs : UInt64) :
    let guard := run step {} calls
    (guard.valid nowNs = true ↔ guard.status nowNs = "valid") ∧
      guard.status nowNs ≠ "disabled" ∧
      ∀ next, (engine.setLimits guard.active).evaluate journal intent nowNs = some next →
        (next.2.2.reasonCode = RiskEngine.kNotEnabled ↔ guard.status nowNs = "uninitialized") ∧
        (next.2.2.reasonCode = RiskEngine.kInvalidLimits ↔ guard.active.maxGrossPosition < 0) ∧
        (next.2.2.reasonCode = RiskEngine.kExpiredLimits ↔
          guard.status nowNs = "expired" ∧ ¬ guard.active.maxGrossPosition < 0) ∧
        (next.2.2.status = .approved →
          guard.valid nowNs = true ∧ next.2.2.limitVersion = guard.active.version) := by
  intro guard
  have follows : Follows calls guard := follows_new calls
  clear_value guard
  rcases follows with ⟨rfl, -⟩ | ⟨front, call, back, -, proper, held, -, -⟩
  · have status : ({} : LimitSnapshotGuard).status nowNs = "uninitialized" := rfl
    refine ⟨by simp [status, valid], by simp [status], fun next evaluated => ?_⟩
    have refused := evaluate_refusedFor evaluated
    have code : next.2.2.reasonCode = RiskEngine.kNotEnabled :=
      Option.some.inj (refused.notEnabled.mpr rfl)
    refine ⟨by simp [status, code], ?_, ?_, ?_⟩
    · rw [code]
      decide
    · rw [code, status]
      decide
    · intro approved
      rw [(evaluate_approved evaluated approved).1] at code
      exact absurd code (by decide)
  · have enabled := proper.enabled
    have status : guard.status nowNs =
        if guard.active.expiresNs ≤ nowNs then "expired" else "valid" := by
      rw [LimitSnapshotGuard.status, held]
      simp [enabled]
    have isValid : guard.valid nowNs = true ↔ ¬ guard.active.expiresNs ≤ nowNs := by
      rw [LimitSnapshotGuard.valid, held, UInt64.not_le]
      simp [enabled]
    have same : guard.active = call.1 := by rw [held]
    refine ⟨?_, ?_, fun next evaluated => ?_⟩
    · rw [isValid, status]
      split <;> simp_all
    · rw [status]
      split <;> simp
    · have refused := evaluate_refusedFor evaluated
      rcases refusedFor_active proper same refused with ⟨notEnabled, invalid, expired⟩
      refine ⟨?_, invalid, ?_, ?_⟩
      · rw [status]
        simp only [notEnabled, false_iff]
        split <;> simp
      · rw [expired, status]
        split <;> simp_all
      · intro approved
        rcases evaluate_approved evaluated approved with ⟨code, version⟩
        refine ⟨?_, version⟩
        rw [isValid]
        intro late
        by_cases gross : guard.active.maxGrossPosition < 0
        · rw [invalid.mpr gross] at code
          exact absurd code (by decide)
        · rw [expired.mpr ⟨late, gross⟩] at code
          exact absurd code (by decide)

end LimitSnapshotGuard

end Ito
