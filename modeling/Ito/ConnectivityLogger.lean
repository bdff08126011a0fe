import Ito.Library.Clocked
import Mathlib.Data.List.Nodup

/-! The audit log and the message rate of the connectivity guard, which its threads share.

Source: `log_event`, `AuditEntry`, `RateStats` and the audit file of
`rust/connectivity_guard/src/lib.rs`. A call of `log_event` takes three steps that others can come
between: it draws a number from the shared counter, it writes a line while it holds the lock of the
file, and it counts the message while it holds the lock of the rate. -/

namespace Ito.ConnectivityGuard

open Clocked

inductive AuthorizationFailure where
  | venueNotAllowed
  | branchMismatch
  | entityMismatch
  | liveDisabled
  | sessionNotReady
  | leaseExpired
  | leaseOwnerMismatch
  | rateExceeded
  | jsonParseError
  | configMissing
  | tlsHandshakeFailed
  | connectionPoolExhausted
  | protocolViolation
  | sequenceOutOfOrder
  | payloadSizeExceeded
  | signatureVerificationFailed
  deriving DecidableEq, Repr

def AuthorizationFailure.display : AuthorizationFailure → String
  | venueNotAllowed => "venue_not_allowed"
  | branchMismatch => "branch_mismatch"
  | entityMismatch => "entity_mismatch"
  | liveDisabled => "live_disabled"
  | sessionNotReady => "session_not_ready"
  | leaseExpired => "lease_expired"
  | leaseOwnerMismatch => "lease_owner_mismatch"
  | rateExceeded => "rate_exceeded"
  | jsonParseError => "json_parse_error"
  | configMissing => "config_missing"
  | tlsHandshakeFailed => "tls_handshake_failed"
  | connectionPoolExhausted => "connection_pool_exhausted"
  | protocolViolation => "protocol_violation"
  | sequenceOutOfOrder => "sequence_out_of_order"
  | payloadSizeExceeded => "payload_size_exceeded"
  | signatureVerificationFailed => "signature_verification_failed"

inductive ConnectionEvent where
  | connectAttempt (host : String) (port : UInt16) (success : Bool)
  | connectionEstablished (venueId : UInt16) (durationNs : UInt64)
  | connectionClosed (venueId : UInt16) (reason : String)
  | messageReceived (venueId messageType : UInt16) (size : Nat)
  | messageSent (venueId : UInt16) (size : Nat)
  | authorization (venueId : UInt16) (success : Bool) (failureReason : Option AuthorizationFailure)
  | poolFull
  | poolReused
  deriving DecidableEq, Repr

def ConnectionEvent.details : ConnectionEvent → String
  | connectAttempt host port success =>
      "connect_attempt:" ++ host ++ " " ++ toString port.toNat ++ " " ++ toString success
  | connectionEstablished venueId durationNs =>
      "connected:venue_" ++ toString venueId.toNat ++ " duration_" ++ toString durationNs.toNat
  | connectionClosed venueId reason =>
      "closed:venue_" ++ toString venueId.toNat ++ " reason:" ++ reason
  | messageReceived venueId messageType size =>
      "received:venue_" ++ toString venueId.toNat ++ " type_" ++ toString messageType.toNat ++
        " size_" ++ toString size
  | messageSent venueId size =>
      "sent:venue_" ++ toString venueId.toNat ++ " size_" ++ toString size
  | authorization venueId success failureReason =>
      "auth:venue_" ++ toString venueId.toNat ++ " success:" ++ toString success ++ " reason:" ++
        (failureReason.map AuthorizationFailure.display).getD "unknown"
  | poolFull => "pool_full"
  | poolReused => "pool_reused"

structure AuditEntry where
  eventId : UInt64
  timestampNs : UInt64
  eventType : String
  details : String
  deriving DecidableEq, Repr

structure RateStats where
  messagesPerSecond : UInt64 := 0
  messagesTotal : UInt64 := 0
  lastResetNs : UInt64
  deriving DecidableEq, Repr

/-- Sums wrap around, as they do without overflow checks. -/
def RateStats.record (stats : RateStats) (now : UInt64) : RateStats :=
  if now / 1000000000 > stats.lastResetNs / 1000000000 then
    { messagesTotal := stats.messagesTotal + 1, messagesPerSecond := 1, lastResetNs := now }
  else
    { stats with
      messagesTotal := stats.messagesTotal + 1
      messagesPerSecond := stats.messagesPerSecond + 1 }

/-- How far a thread is with its call. -/
inductive Phase where
  | idle
  | numbered (entry : AuditEntry)
  | written
  deriving DecidableEq, Repr

variable (Thread Path : Type)

/-- A line of an audit file, with the thread that wrote it. -/
structure Line where
  path : Path
  thread : Thread
  entry : AuditEntry

structure Shared where
  eventId : UInt64 := 1
  auditLog : Option Path := none
  lines : List (Line Thread Path) := []
  rate : RateStats
  phase : Thread → Phase := fun _ => .idle

/-- What a scheduler can choose to happen next. Opening and writing may fail; a failed write is
ignored. -/
inductive Action where
  | number (thread : Thread) (event : ConnectionEvent) (now : UInt64)
  | write (thread : Thread) (succeeds : Bool)
  | count (thread : Thread) (now : UInt64)
  | initAuditLogger (path : Path) (opens : Bool)
  | shutdownAuditLogger

variable {Thread Path} [DecidableEq Thread]

namespace Shared

def setPhase (shared : Shared Thread Path) (thread : Thread) (phase : Phase) :
    Shared Thread Path :=
  { shared with phase := fun other => if other = thread then phase else shared.phase other }

/-- `AuditEntry::new`. -/
def number (shared : Shared Thread Path) (thread : Thread) (event : ConnectionEvent)
    (now : UInt64) : Shared Thread Path :=
  { shared with eventId := shared.eventId + 1 }.setPhase thread <|
    .numbered {
      eventId := shared.eventId, timestampNs := now, eventType := event.details, details := "" }

/-- `AuditEntry::log`. -/
def write (shared : Shared Thread Path) (thread : Thread) (entry : AuditEntry) (succeeds : Bool) :
    Shared Thread Path :=
  let shared := shared.setPhase thread .written
  match shared.auditLog with
  | some path =>
      if succeeds then { shared with lines := shared.lines ++ [⟨path, thread, entry⟩] } else shared
  | none => shared

/-- A step that its thread is not at does not happen. -/
def step (shared : Shared Thread Path) : Action Thread Path → Shared Thread Path
  | .number thread event now =>
      match shared.phase thread with
      | .idle => shared.number thread event now
      | _ => shared
  | .write thread succeeds =>
      match shared.phase thread with
      | .numbered entry => shared.write thread entry succeeds
      | _ => shared
  | .count thread now =>
      match shared.phase thread with
      | .written => { shared with rate := shared.rate.record now }.setPhase thread .idle
      | _ => shared
  | .initAuditLogger path opens =>
      if shared.auditLog = none ∧ opens then { shared with auditLog := some path } else shared
  | .shutdownAuditLogger => { shared with auditLog := none }

def starts (cycle : Shared Thread Path × Action Thread Path) : Bool :=
  match cycle.2 with
  | .number thread _ _ => cycle.1.phase thread = .idle
  | _ => false

def finishes (cycle : Shared Thread Path × Action Thread Path) : Bool :=
  match cycle.2 with
  | .count thread _ => cycle.1.phase thread = .written
  | _ => false

end Shared

namespace Shared

variable {shared : Shared Thread Path} {n : ℕ} {action : Action Thread Path}

/-- The line was written by the thread. -/
def isOf (thread : Thread) (line : Line Thread Path) : Bool := line.thread = thread

def number? (line : Line Thread Path) : ℕ := line.entry.eventId.toNat

/-- After `n` numbers were drawn. -/
structure Sound (n : ℕ) (shared : Shared Thread Path) : Prop where
  next : shared.eventId.toNat = (n + 1) % 2 ^ 64
  drawn : ∀ thread entry, shared.phase thread = .numbered entry →
    1 ≤ entry.eventId.toNat ∧ entry.eventId.toNat ≤ n
  apart : ∀ thread other entry entry', shared.phase thread = .numbered entry →
    shared.phase other = .numbered entry' → entry.eventId.toNat = entry'.eventId.toNat →
    thread = other
  lines : ∀ line ∈ shared.lines, 1 ≤ number? line ∧ number? line ≤ n
  distinct : (shared.lines.map number?).Nodup
  fresh : ∀ thread entry, shared.phase thread = .numbered entry → ∀ line ∈ shared.lines,
    number? line ≠ entry.eventId.toNat
  ordered : ∀ thread, ((shared.lines.filter (isOf thread)).map number?).Pairwise (· < ·)
  last : ∀ thread entry, shared.phase thread = .numbered entry → ∀ line ∈ shared.lines,
    line.thread = thread → number? line < entry.eventId.toNat

/-- The numbers stay right as long as no thread gets a new one. -/
theorem Sound.keep (sound : Sound n shared) {next : Shared Thread Path}
    (sameId : next.eventId = shared.eventId) (sameLines : next.lines = shared.lines)
    (phases : ∀ thread entry, next.phase thread = .numbered entry →
      shared.phase thread = .numbered entry) : Sound n next where
  next := by rw [sameId, sound.next]
  drawn thread entry at' := sound.drawn thread entry (phases thread entry at')
  apart thread other entry entry' at' at'' same :=
    sound.apart thread other entry entry' (phases _ _ at') (phases _ _ at'') same
  lines := by
    rw [sameLines]
    exact sound.lines
  distinct := by
    rw [sameLines]
    exact sound.distinct
  fresh thread entry at' := by
    rw [sameLines]
    exact sound.fresh thread entry (phases _ _ at')
  ordered := by
    rw [sameLines]
    exact sound.ordered
  last thread entry at' := by
    rw [sameLines]
    exact sound.last thread entry (phases _ _ at')

theorem setPhase_numbered {thread other : Thread} {phase : Phase} {entry : AuditEntry}
    (at' : (shared.setPhase thread phase).phase other = .numbered entry) :
    (other = thread ∧ phase = .numbered entry) ∨
      (other ≠ thread ∧ shared.phase other = .numbered entry) := by
  simp only [setPhase] at at'
  split at at'
  case isTrue same => exact .inl ⟨same, at'⟩
  case isFalse differ => exact .inr ⟨differ, at'⟩

theorem Sound.number (sound : Sound n shared) (room : n + 1 < 2 ^ 64) (thread : Thread)
    (event : ConnectionEvent) (now : UInt64) :
    Sound (n + 1) (shared.number thread event now) := by
  have own : shared.eventId.toNat = n + 1 := sound.next.trans (Nat.mod_eq_of_lt room)
  have below : ∀ other entry, (shared.number thread event now).phase other = .numbered entry →
      (other = thread ∧ entry.eventId.toNat = n + 1) ∨
        (other ≠ thread ∧ shared.phase other = .numbered entry) := by
    intro other entry at'
    rcases setPhase_numbered at' with ⟨same, new⟩ | old
    · cases new
      exact .inl ⟨same, own⟩
    · exact .inr old
  constructor
  · change (shared.eventId + 1).toNat = (n + 2) % 2 ^ 64
    rw [UInt64.toNat_add, own]
    rfl
  · intro other entry at'
    rcases below other entry at' with ⟨-, new⟩ | ⟨-, old⟩
    · omega
    · have drawn := sound.drawn other entry old
      omega
  · intro first second entry entry' at' at'' same
    rcases below first entry at' with ⟨here, new⟩ | ⟨-, old⟩ <;>
      rcases below second entry' at'' with ⟨here', new'⟩ | ⟨-, old'⟩
    · rw [here, here']
    · have drawn := sound.drawn second entry' old'
      omega
    · have drawn := sound.drawn first entry old
      omega
    · exact sound.apart first second entry entry' old old' same
  · intro line member
    have drawn := sound.lines line member
    omega
  · exact sound.distinct
  · intro other entry at' line member
    rcases below other entry at' with ⟨-, new⟩ | ⟨-, old⟩
    · have drawn := sound.lines line member
      omega
    · exact sound.fresh other entry old line member
  · exact sound.ordered
  · intro other entry at' line member by'
    rcases below other entry at' with ⟨-, new⟩ | ⟨-, old⟩
    · have drawn := sound.lines line member
      omega
    · exact sound.last other entry old line member by'

/-- A line is added under the number of the thread that writes it. -/
theorem Sound.append (sound : Sound n shared) {thread : Thread} {entry : AuditEntry}
    (numbered : shared.phase thread = .numbered entry) (path : Path) :
    Sound n { shared.setPhase thread .written with
      lines := shared.lines ++ [⟨path, thread, entry⟩] } := by
  have own := sound.drawn thread entry numbered
  have others : ∀ other entry', (shared.setPhase thread .written).phase other = .numbered entry' →
      other ≠ thread ∧ shared.phase other = .numbered entry' := by
    intro other entry' at'
    rcases setPhase_numbered at' with ⟨-, impossible⟩ | old
    · cases impossible
    · exact old
  constructor
  · exact sound.next
  · exact fun other entry' at' => sound.drawn other entry' (others other entry' at').2
  · exact fun first second entry' entry'' at' at'' same =>
      sound.apart first second entry' entry'' (others _ _ at').2 (others _ _ at'').2 same
  · intro line member
    rcases List.mem_append.mp member with old | new
    · exact sound.lines line old
    · rw [List.mem_singleton.mp new]
      exact own
  · rw [List.map_append, List.map_singleton, ← List.concat_eq_append, List.nodup_concat]
    refine ⟨fun member => ?_, sound.distinct⟩
    rcases List.mem_map.mp member with ⟨line, inside, same⟩
    exact sound.fresh thread entry numbered line inside same
  · intro other entry' at' line member
    rcases others other entry' at' with ⟨differ, old⟩
    rcases List.mem_append.mp member with before | new
    · exact sound.fresh other entry' old line before
    · rw [List.mem_singleton.mp new]
      exact fun same => differ (sound.apart thread other entry entry' numbered old same).symm
  · intro other
    rw [List.filter_append, List.map_append, List.pairwise_append]
    refine ⟨sound.ordered other, ?_, ?_⟩
    · rw [List.filter_singleton]
      cases isOf other (⟨path, thread, entry⟩ : Line Thread Path) <;> simp
    · intro low member high new
      rcases List.mem_map.mp member with ⟨line, inside, rfl⟩
      rcases List.mem_map.mp new with ⟨added, there, rfl⟩
      rcases List.mem_filter.mp inside with ⟨early, by'⟩
      rcases List.mem_filter.mp there with ⟨only, by''⟩
      rw [List.mem_singleton] at only
      subst only
      simp only [isOf, decide_eq_true_eq] at by' by''
      exact sound.last thread entry numbered line early (by'.trans by''.symm)
  · intro other entry' at' line member by'
    rcases others other entry' at' with ⟨differ, old⟩
    rcases List.mem_append.mp member with before | new
    · exact sound.last other entry' old line before by'
    · rw [List.mem_singleton.mp new] at by'
      exact absurd by'.symm differ

theorem step_sound (sound : Sound n shared)
    (room : starts (shared, action) = true → n + 1 < 2 ^ 64) :
    Sound (n + (starts (shared, action)).toNat) (step shared action) := by
  cases action with
  | number thread event now =>
      simp only [step, starts] at room ⊢
      split
      case h_1 idle =>
        rw [idle] at room ⊢
        exact sound.number (room (by simp)) thread event now
      case h_2 busy =>
        have none : decide (shared.phase thread = .idle) = false := decide_eq_false busy
        rw [none]
        exact sound
  | write thread succeeds =>
      simp only [step, starts, Bool.toNat_false, Nat.add_zero]
      split
      case h_1 entry numbered =>
        have quiet : Sound n (shared.setPhase thread .written) := by
          refine sound.keep rfl rfl fun other entry' at' => ?_
          rcases setPhase_numbered at' with ⟨-, impossible⟩ | ⟨-, old⟩
          · cases impossible
          · exact old
        simp only [write]
        split
        case h_1 path _ =>
          split
          · exact sound.append numbered path
          · exact quiet
        case h_2 => exact quiet
      case h_2 => exact sound
  | count thread now =>
      simp only [step, starts, Bool.toNat_false, Nat.add_zero]
      split
      case h_1 =>
        refine sound.keep rfl rfl fun other entry at' => ?_
        rcases setPhase_numbered at' with ⟨-, impossible⟩ | ⟨-, old⟩
        · cases impossible
        · exact old
      case h_2 => exact sound
  | initAuditLogger path opens =>
      simp only [step, starts, Bool.toNat_false, Nat.add_zero]
      split
      · exact sound.keep rfl rfl fun _ _ at' => at'
      · exact sound
  | shutdownAuditLogger => exact sound.keep rfl rfl fun _ _ at' => at'

/-! Runs -/

def new (lastResetNs : UInt64) : Shared Thread Path := { rate := { lastResetNs } }

theorem sound_new (lastResetNs : UInt64) : Sound 0 (new lastResetNs : Shared Thread Path) where
  next := rfl
  drawn _ _ at' := by cases at'
  apart _ _ _ _ at' := by cases at'
  lines _ member := by cases member
  distinct := List.nodup_nil
  fresh _ _ at' := by cases at'
  ordered _ := List.Pairwise.nil
  last _ _ at' := by cases at'

theorem run_sound {actions : List (Action Thread Path)} (sound : Sound n shared)
    (few : n + (cycles step shared actions).countP starts < 2 ^ 64) :
    Sound (n + (cycles step shared actions).countP starts) (run step shared actions) := by
  induction actions generalizing n shared with
  | nil => exact sound
  | cons action actions ih =>
      rw [cycles, List.countP_cons] at few ⊢
      have same : (if starts (shared, action) = true then 1 else 0) =
          (starts (shared, action)).toNat := by cases starts (shared, action) <;> rfl
      rw [same] at few ⊢
      have first : Sound (n + (starts (shared, action)).toNat) (step shared action) := by
        refine step_sound sound fun started => ?_
        rw [started] at few
        change n + (_ + 1) < _ at few
        omega
      have later := ih first (by omega)
      rw [Nat.add_assoc, Nat.add_comm (starts (shared, action)).toNat] at later
      exact later

def isBy (thread : Thread) (cycle : Shared Thread Path × Action Thread Path) : Bool :=
  match cycle.2 with
  | .number other _ _ => other = thread
  | .write other _ => other = thread
  | .count other _ => other = thread
  | _ => false

theorem step_number (shared : Shared Thread Path) (thread : Thread) (event : ConnectionEvent)
    (now : UInt64) :
    step shared (.number thread event now) =
      if shared.phase thread = .idle then shared.number thread event now else shared := by
  simp only [step]
  split
  case h_1 idle => rw [if_pos idle]
  case h_2 busy => rw [if_neg busy]

theorem step_count (shared : Shared Thread Path) (thread : Thread) (now : UInt64) :
    step shared (.count thread now) =
      if shared.phase thread = .written then
        { shared with rate := shared.rate.record now }.setPhase thread .idle
      else shared := by
  simp only [step]
  split
  case h_1 written => rw [if_pos written]
  case h_2 other => rw [if_neg other]

theorem calls_balance (thread : Thread) (shared : Shared Thread Path)
    (actions : List (Action Thread Path)) :
    (decide (shared.phase thread ≠ .idle)).toNat +
        (cycles step shared actions).countP (fun cycle => starts cycle && isBy thread cycle) =
      (cycles step shared actions).countP (fun cycle => finishes cycle && isBy thread cycle) +
        (decide ((run step shared actions).phase thread ≠ .idle)).toNat := by
  rw [countP_eq_sum, countP_eq_sum]
  refine sum_balance (fun shared : Shared Thread Path =>
    (decide (shared.phase thread ≠ .idle)).toNat) _ _ fun cycle _ => ?_
  rcases cycle with ⟨shared, action⟩
  have moved : ∀ (other : Thread) (phase : Phase) (next : Shared Thread Path),
      (next.setPhase other phase).phase thread =
        if thread = other then phase else next.phase thread := fun _ _ _ => rfl
  cases action with
  | number other event now =>
      simp only [starts, finishes, isBy, next, step_number]
      by_cases idle : shared.phase other = .idle
      · rw [if_pos idle, number, moved]
        by_cases same : thread = other
        · simp [same, idle]
        · simp [same, Ne.symm same]
      · simp [idle]
  | write other succeeds =>
      have kept : ∀ entry, shared.phase other = .numbered entry →
          ((shared.write other entry succeeds).phase thread ≠ .idle ↔ shared.phase thread ≠ .idle) := by
        intro entry numbered
        have phases : (shared.write other entry succeeds).phase =
            (shared.setPhase other .written).phase := by
          simp only [write]
          split
          · split <;> rfl
          · rfl
        rw [phases, moved]
        by_cases same : thread = other
        · simp [same, numbered]
        · rw [if_neg same]
      have still : (step shared (.write other succeeds)).phase thread ≠ .idle ↔
          shared.phase thread ≠ .idle := by
        simp only [step]
        split
        case h_1 entry numbered => exact kept entry numbered
        case h_2 => exact Iff.rfl
      simp only [starts, finishes, next, still, Bool.false_and, Bool.toNat_false, Nat.add_zero,
        Nat.zero_add]
  | count other now =>
      simp only [starts, finishes, isBy, next, step_count]
      by_cases written : shared.phase other = .written
      · rw [if_pos written, moved]
        by_cases same : thread = other
        · simp [same, written]
        · simp [same, Ne.symm same]
      · simp [written]
  | initAuditLogger path opens =>
      have still : (step shared (.initAuditLogger path opens)).phase = shared.phase := by
        simp only [step]
        split <;> rfl
      simp only [starts, finishes, next, still, Bool.false_and, Bool.toNat_false, Nat.add_zero,
        Nat.zero_add]
  | shutdownAuditLogger => exact Nat.add_comm _ _

def counted (cycle : Shared Thread Path × Action Thread Path) : Option UInt64 :=
  match cycle.2 with
  | .count thread now => if cycle.1.phase thread = .written then some now else none
  | _ => none

theorem run_rate (shared : Shared Thread Path) (actions : List (Action Thread Path)) :
    (run step shared actions).rate =
      ((cycles step shared actions).filterMap counted).foldl RateStats.record shared.rate := by
  induction actions generalizing shared with
  | nil => rfl
  | cons action actions ih =>
      change (run step (step shared action) actions).rate = _
      rw [ih, cycles, List.filterMap_cons]
      have first : (step shared action).rate =
          (counted (shared, action)).elim shared.rate shared.rate.record := by
        cases action with
        | number thread event now =>
            simp only [step, counted]
            split <;> rfl
        | write thread succeeds =>
            simp only [step, counted]
            split
            · simp only [write]
              split
              · split <;> rfl
              · rfl
            · rfl
        | count thread now =>
            simp only [step, counted]
            cases shared.phase thread <;> rfl
        | initAuditLogger path opens =>
            simp only [step, counted]
            split <;> rfl
        | shutdownAuditLogger => rfl
      rw [first]
      cases counted (shared, action) <;> rfl

theorem lines_closed {shared : Shared Thread Path} {actions : List (Action Thread Path)}
    (closed : shared.auditLog = none ∧ shared.lines = [])
    (never : ∀ path, Action.initAuditLogger path true ∉ actions) :
    (run step shared actions).lines = [] := by
  have keep : ∀ (shared : Shared Thread Path) (action : Action Thread Path),
      shared.auditLog = none ∧ shared.lines = [] → (∀ path, action ≠ .initAuditLogger path true) →
        (step shared action).auditLog = none ∧ (step shared action).lines = [] := by
    intro shared action closed other
    cases action with
    | number thread event now =>
        simp only [step]
        split
        · exact closed
        · exact closed
    | write thread succeeds =>
        simp only [step]
        split
        · simp only [write, setPhase, closed.1]
          exact ⟨trivial, closed.2⟩
        · exact closed
    | count thread now =>
        simp only [step]
        split
        · exact closed
        · exact closed
    | initAuditLogger path opens =>
        cases opens with
        | true => exact absurd rfl (other path)
        | false => simpa [step] using closed
    | shutdownAuditLogger => exact ⟨rfl, closed.2⟩
  refine (invariant keep closed fun action member path same => ?_).2.2
  exact never path (same ▸ member)

/-- In every interleaving of calls with fewer than 2^64 numbers drawn: the numbers are 1, 2, 3 and
so on; every line has its own one, and the lines of one thread go up, whatever files they went to;
every thread has finished each call it began but the one it is in; and nothing is written unless an
audit file has been opened. -/
theorem audit_log_sound (lastResetNs : UInt64) (actions : List (Action Thread Path))
    (few : (cycles step (new lastResetNs) actions).countP starts < 2 ^ 64) :
    let run := cycles step (new lastResetNs) actions
    let shared := Clocked.run step (new lastResetNs) actions
    shared.eventId.toNat = (run.countP starts + 1) % 2 ^ 64 ∧
      (∀ line ∈ shared.lines, 1 ≤ number? line ∧ number? line ≤ run.countP starts) ∧
      (shared.lines.map number?).Nodup ∧
      (∀ thread, ((shared.lines.filter (isOf thread)).map number?).Pairwise (· < ·)) ∧
      (∀ thread, run.countP (fun cycle => starts cycle && isBy thread cycle) =
        run.countP (fun cycle => finishes cycle && isBy thread cycle) +
          (decide (shared.phase thread ≠ .idle)).toNat) ∧
      ((∀ path, Action.initAuditLogger path true ∉ actions) → shared.lines = []) := by
  intro run shared
  have sound : Sound (0 + run.countP starts) shared :=
    run_sound (sound_new lastResetNs) (by rw [Nat.zero_add]; exact few)
  rw [Nat.zero_add] at sound
  refine ⟨sound.next, sound.lines, sound.distinct, sound.ordered, fun thread => ?_, ?_⟩
  · have balance := calls_balance thread (new lastResetNs) actions
    have idle : (decide ((new lastResetNs : Shared Thread Path).phase thread ≠ .idle)).toNat = 0 :=
      rfl
    rwa [idle, Nat.zero_add] at balance
  · exact lines_closed ⟨rfl, rfl⟩

theorem audit_log_sound_overtaken :
    let actions : List (Action Bool String) :=
      [.initAuditLogger "audit.log" true, .number false .poolFull 10, .number true .poolReused 11,
        .write true true, .write false true, .count false 12]
    let shared := Clocked.run step (new 0) actions
    shared.lines.map number? = [2, 1] ∧ (shared.lines.map number?).Nodup ∧
      shared.eventId.toNat = ((cycles step (new 0) actions).countP starts + 1) % 2 ^ 64 := by
  intro actions shared
  have few : (cycles step (new 0) actions).countP starts < 2 ^ 64 := by
    have two : (cycles step (new 0) actions).countP starts = 2 := by decide
    rw [two]
    decide
  have sound := audit_log_sound 0 actions few
  exact ⟨by decide, sound.2.2.1, sound.1⟩

/-! The rate -/

def second (time : UInt64) : ℕ := time.toNat / 1000000000

theorem second_mono {early late : UInt64} (before : early ≤ late) : second early ≤ second late :=
  Nat.div_le_div_right (UInt64.le_iff_toNat_le.mp before)

theorem record_eq (stats : RateStats) (now : UInt64) :
    stats.record now =
      if second stats.lastResetNs < second now then
        { messagesTotal := stats.messagesTotal + 1, messagesPerSecond := 1, lastResetNs := now }
      else
        { stats with
          messagesTotal := stats.messagesTotal + 1
          messagesPerSecond := stats.messagesPerSecond + 1 } := by
  have newer : now / 1000000000 > stats.lastResetNs / 1000000000 ↔
      second stats.lastResetNs < second now := by
    rw [gt_iff_lt, UInt64.lt_iff_toNat_lt, UInt64.toNat_div, UInt64.toNat_div]
    rfl
  simp only [RateStats.record, newer]

theorem toNat_bump {count : UInt64} (room : count.toNat + 1 < 2 ^ 64) :
    (count + 1).toNat = count.toNat + 1 := by
  rw [UInt64.toNat_add]
  exact Nat.mod_eq_of_lt room

/-- Over times that do not go back, the count is that of the second of the last time, and takes up
what was there if the second has not changed. -/
theorem records_exact {stats : RateStats} {times : List UInt64}
    (forward : (stats.lastResetNs :: times).Pairwise (· ≤ ·))
    (room : stats.messagesPerSecond.toNat + times.length < 2 ^ 64) :
    let final := times.foldl RateStats.record stats
    second final.lastResetNs = second (times.getLast?.getD stats.lastResetNs) ∧
      second stats.lastResetNs ≤ second final.lastResetNs ∧
      final.messagesPerSecond.toNat =
        (if second stats.lastResetNs = second final.lastResetNs then stats.messagesPerSecond.toNat
          else 0) +
        times.countP fun time => second time = second final.lastResetNs := by
  induction times generalizing stats with
  | nil => simp
  | cons time times ih =>
      rcases List.pairwise_cons.mp forward with ⟨above, later⟩
      rcases List.pairwise_cons.mp later with ⟨next, others⟩
      have here := second_mono (above time List.mem_cons_self)
      have last : (time :: times).getLast?.getD stats.lastResetNs = times.getLast?.getD time := by
        rw [List.getLast?_cons, Option.getD_some]
      rw [List.length_cons] at room
      rw [List.foldl_cons, last, record_eq]
      split
      case isTrue newer =>
        have one : (1 : UInt64).toNat + times.length < 2 ^ 64 := by
          change 1 + times.length < 2 ^ 64
          omega
        rcases @ih { messagesTotal := stats.messagesTotal + 1, messagesPerSecond := 1
                     lastResetNs := time } later one with ⟨same, up, count⟩
        refine ⟨same, here.trans up, ?_⟩
        rw [count, if_neg (lt_of_lt_of_le newer up).ne, List.countP_cons]
        simp only [decide_eq_true_eq]
        split
        · change 1 + _ = 0 + (_ + 1)
          omega
        · omega
      case isFalse older =>
        have same : second time = second stats.lastResetNs := le_antisymm (not_lt.mp older) here
        have bump := toNat_bump (show stats.messagesPerSecond.toNat + 1 < 2 ^ 64 by omega)
        have sorted : (stats.lastResetNs :: times).Pairwise (· ≤ ·) :=
          List.pairwise_cons.mpr ⟨fun t member => above t (List.mem_cons_of_mem _ member), others⟩
        have room' : (stats.messagesPerSecond + 1).toNat + times.length < 2 ^ 64 := by omega
        rcases @ih { stats with
          messagesTotal := stats.messagesTotal + 1
          messagesPerSecond := stats.messagesPerSecond + 1 } sorted room' with ⟨ends, up, count⟩
        refine ⟨?_, up, ?_⟩
        · rw [ends]
          cases times.getLast? with
          | none => exact same.symm
          | some => rfl
        · rw [count, List.countP_cons, same, bump]
          simp only [decide_eq_true_eq]
          split <;> omega

theorem records_total {stats : RateStats} {times : List UInt64}
    (room : stats.messagesTotal.toNat + times.length < 2 ^ 64) :
    (times.foldl RateStats.record stats).messagesTotal.toNat =
      stats.messagesTotal.toNat + times.length := by
  induction times generalizing stats with
  | nil => rfl
  | cons time times ih =>
      rw [List.length_cons] at room
      have total : (stats.record time).messagesTotal = stats.messagesTotal + 1 := by
        rw [RateStats.record]
        split <;> rfl
      have bump := toNat_bump (show stats.messagesTotal.toNat + 1 < 2 ^ 64 by omega)
      rw [List.foldl_cons, ih (by rw [total, bump]; omega), total, bump, List.length_cons]
      omega

/-- In every interleaving whose messages are counted at times that do not go back, the total is
the number of the messages counted, and the rate the number of those in the second of the last. -/
theorem rate_counts_second (lastResetNs : UInt64) (actions : List (Action Thread Path)) :
    let times := (cycles step (new lastResetNs) actions).filterMap counted
    let rate := (run step (new lastResetNs) actions).rate
    (lastResetNs :: times).Pairwise (· ≤ ·) → times.length < 2 ^ 64 →
      rate.messagesTotal.toNat = times.length ∧
        rate.messagesPerSecond.toNat =
          times.countP fun time => second time = second (times.getLast?.getD lastResetNs) := by
  intro times rate forward few
  have same : rate = times.foldl RateStats.record { lastResetNs } := run_rate _ _
  have zero : (0 : UInt64).toNat = 0 := rfl
  have room : (0 : UInt64).toNat + times.length < 2 ^ 64 := by rwa [zero, Nat.zero_add]
  rcases @records_exact { lastResetNs } times forward room with ⟨ends, -, count⟩
  constructor
  · rw [same, records_total room, zero, Nat.zero_add]
  · rw [same, count, ← ends, zero, ite_self, Nat.zero_add]

theorem rate_counts_second_new :
    let calls : List (Action Bool String) :=
      [.number false .poolFull 0, .number true .poolFull 0, .write false true, .write true true,
        .count true 999999999, .count false 999999999, .number true .poolFull 0, .write true true,
        .count true 1000000000]
    (run step (new 0) calls).rate.messagesTotal.toNat = 3 ∧
      (run step (new 0) calls).rate.messagesPerSecond.toNat = 1 := by
  intro calls
  have times : (cycles step (new 0) calls).filterMap counted =
      [999999999, 999999999, 1000000000] := by decide
  have rate := rate_counts_second 0 calls (by rw [times]; decide) (by rw [times]; decide)
  rw [times] at rate
  exact ⟨rate.1, rate.2.trans (by decide)⟩

end Shared

end Ito.ConnectivityGuard
