import Ito.Library.Clocked
import Ito.Library.Json
import Ito.Library.NumberedChannel
import Ito.Library.PythonText

/-! The session with a venue that the certification gate simulates.

Source: `VenueSession` of `scripts/operations/production_gate_simulations.py`. A dict is the
function that its `get` is. -/

namespace Ito.Gate

open Clocked NumberedChannel

inductive OrderState where
  | accepted
  | cancelled
  deriving DecidableEq, Repr

inductive Kind where
  | ack
  | cancelled
  | replaced
  | heartbeat
  | dropCopy
  | cancelReject
  | replaceReject
  | duplicateReject
  | throttleReject
  deriving DecidableEq, Repr

def Kind.word : Kind → String
  | ack => "ACK"
  | cancelled => "CANCELLED"
  | replaced => "REPLACED"
  | heartbeat => "HEARTBEAT"
  | dropCopy => "DROP_COPY"
  | cancelReject => "CANCEL_REJECT"
  | replaceReject => "REPLACE_REJECT"
  | duplicateReject => "DUPLICATE_REJECT"
  | throttleReject => "THROTTLE_REJECT"

def Kind.all : List Kind :=
  [.ack, .cancelled, .replaced, .heartbeat, .dropCopy, .cancelReject, .replaceReject,
    .duplicateReject, .throttleReject]

structure Reply where
  kind : Kind
  sequence : Nat
  clientOrderId : Nat
  deriving DecidableEq, Repr

/-- `f"{kind}|{sequence}|{client_order_id}"`. -/
def Reply.text (reply : Reply) : List Char :=
  reply.kind.word.toList ++
    '|' :: (Nat.toDigits 10 reply.sequence ++ '|' :: Nat.toDigits 10 reply.clientOrderId)

structure VenueSession where
  sequence : Nat := 0
  connected : Bool := false
  orders : Nat → Option OrderState := fun _ => none
  messagesInWindow : Int := 0
  throttlePerSecond : Int := 4

inductive Call where
  | connect (credentials : String) (live : Bool)
  | disconnect
  | reconnect (credentials : String) (expectedSequence : Int)
  | send (clientOrderId : Int) (action : String)
  /-- `messages_in_window = 0`, which the driver does at the start of a second. -/
  | newWindow
  deriving DecidableEq, Repr

def Call.keepsConnection : Call → Bool
  | .connect _ _ => false
  | .reconnect _ _ => false
  | _ => true

def Call.keepsWindow : Call → Bool
  | .newWindow => false
  | call => call.keepsConnection

namespace VenueSession

def setOrder (session : VenueSession) (clientOrderId : Nat) (state : OrderState) : VenueSession :=
  { session with
    orders := fun other => if other = clientOrderId then some state else session.orders other }

def connect (session : VenueSession) (credentials : String) (live : Bool) :
    VenueSession × Except String Unit :=
  if credentials = "" ∨ live then (session, .error "live_session_guard_failed")
  else ({ session with connected := true, sequence := 0, messagesInWindow := 0 }, .ok ())

def disconnect (session : VenueSession) : VenueSession := { session with connected := false }

def reconnect (session : VenueSession) (credentials : String) (expectedSequence : Int) :
    VenueSession × Except String Unit :=
  match session.connect credentials false with
  | (session, .error error) => (session, .error error)
  | (session, .ok ()) =>
      if expectedSequence < 0 then (session, .error "reconnect_sequence_invalid")
      else ({ session with sequence := expectedSequence.toNat }, .ok ())

def actions : List String := ["new", "cancel", "replace", "heartbeat", "drop_copy"]

def serve (session : VenueSession) (clientOrderId : Nat) (action : String) :
    VenueSession × Reply :=
  let reply kind : Reply := { kind, sequence := session.sequence, clientOrderId }
  if action = "new" then
    if (session.orders clientOrderId).isSome then (session, reply .duplicateReject)
    else (session.setOrder clientOrderId .accepted, reply .ack)
  else if action = "cancel" then
    if session.orders clientOrderId ≠ some .accepted then (session, reply .cancelReject)
    else (session.setOrder clientOrderId .cancelled, reply .cancelled)
  else if action = "replace" then
    if session.orders clientOrderId ≠ some .accepted then (session, reply .replaceReject)
    else (session, reply .replaced)
  else if action = "drop_copy" then (session, reply .dropCopy)
  else (session, { kind := .heartbeat, sequence := session.sequence, clientOrderId := 0 })

/-- `send`, before its reply is written out. -/
def respond (session : VenueSession) (clientOrderId : Int) (action : String) :
    VenueSession × Except String Reply :=
  if session.connected = false ∨ clientOrderId < 0 ∨ action ∉ actions then
    (session, .error "venue_session_request_failed")
  else if session.messagesInWindow ≥ session.throttlePerSecond then
    let session := { session with sequence := session.sequence + 1 }
    (session, .ok {
      kind := .throttleReject, sequence := session.sequence, clientOrderId := clientOrderId.toNat })
  else
    let session := { session with
      messagesInWindow := session.messagesInWindow + 1, sequence := session.sequence + 1 }
    let served := session.serve clientOrderId.toNat action
    (served.1, .ok served.2)

def send (session : VenueSession) (clientOrderId : Int) (action : String) :
    VenueSession × Except String (List Char) :=
  let responded := session.respond clientOrderId action
  (responded.1, responded.2.map Reply.text)

def receive (message : List Char) (expectedSequence : Int) : Except String Bool :=
  match message.splitOn '|' with
  | [kind, sequence, orderId] =>
      match PythonText.intOfText (Json.codes sequence), PythonText.intOfText (Json.codes orderId) with
      | some sequence, some orderId =>
          if sequence ≠ expectedSequence ∨ orderId < 0 then .error "venue_sequence_gap"
          else .ok (Kind.all.any fun known => kind = known.word.toList)
      | _, _ => .error "venue_message_invalid"
  | _ => .error "venue_message_malformed"

/-! Runs -/

def step (session : VenueSession) : Call → VenueSession
  | .connect credentials live => (session.connect credentials live).1
  | .disconnect => session.disconnect
  | .reconnect credentials expectedSequence =>
      (session.reconnect credentials expectedSequence).1
  | .send clientOrderId action => (session.respond clientOrderId action).1
  | .newWindow => { session with messagesInWindow := 0 }

def answer (cycle : VenueSession × Call) : Option Reply :=
  match cycle.2 with
  | .send clientOrderId action => (cycle.1.respond clientOrderId action).2.toOption
  | _ => none

def replies (session : VenueSession) (calls : List Call) : List Reply :=
  (cycles step session calls).filterMap answer

/-- What `send` returned along a run. -/
def messages (session : VenueSession) (calls : List Call) : List (List Char) :=
  (cycles step session calls).filterMap fun cycle =>
    match cycle.2 with
    | .send clientOrderId action => (cycle.1.send clientOrderId action).2.toOption
    | _ => none

theorem messages_eq (session : VenueSession) (calls : List Call) :
    messages session calls = (replies session calls).map Reply.text := by
  rw [messages, replies, List.map_filterMap]
  refine List.filterMap_congr fun cycle _ => ?_
  rcases cycle with ⟨session, call⟩
  cases call with
  | send clientOrderId action =>
      simp only [answer, send]
      cases (session.respond clientOrderId action).2 <;> rfl
  | _ => rfl

/-! The receiver of a reply -/

theorem bar_not_mem_toDigits (n : Nat) : '|' ∉ Nat.toDigits 10 n := by
  intro member
  have digit := Nat.isDigit_of_mem_toDigits (by omega) (by omega) member
  exact absurd digit (by decide)

theorem bar_not_mem_word (kind : Kind) : '|' ∉ kind.word.toList := by
  cases kind <;> decide

theorem receive_text (reply : Reply) (expectedSequence : Int) :
    receive reply.text expectedSequence =
      if (reply.sequence : Int) = expectedSequence then .ok true
      else .error "venue_sequence_gap" := by
  have fields : reply.text.splitOn '|' =
      [reply.kind.word.toList, Nat.toDigits 10 reply.sequence,
        Nat.toDigits 10 reply.clientOrderId] := by
    rw [Reply.text, List.splitOn_append_cons_self_of_not_mem (bar_not_mem_word _),
      List.splitOn_append_cons_self_of_not_mem (bar_not_mem_toDigits _),
      List.splitOn_eq_singleton (bar_not_mem_toDigits _)]
  have known : (Kind.all.any fun known => reply.kind.word.toList = known.word.toList) = true :=
    List.any_eq_true.mpr ⟨reply.kind, by cases reply.kind <;> decide, decide_eq_true rfl⟩
  have sequence : PythonText.intOfText (Json.codes (Nat.toDigits 10 reply.sequence)) =
      some (reply.sequence : Int) := PythonText.intOfText_toDigits _
  have order : PythonText.intOfText (Json.codes (Nat.toDigits 10 reply.clientOrderId)) =
      some (reply.clientOrderId : Int) := PythonText.intOfText_toDigits _
  have nonneg : ¬ (reply.clientOrderId : Int) < 0 := by omega
  simp only [receive, fields, sequence, order, known, nonneg, or_false, ne_eq, ite_not]

/-! What one call does -/

/-- The state of an order after a reply that names it; `none` where no such reply is possible. -/
def lifecycle : Option OrderState → Kind → Option (Option OrderState)
  | none, .ack => some (some .accepted)
  | some state, .duplicateReject => some (some state)
  | some .accepted, .cancelled => some (some .cancelled)
  | some .accepted, .replaced => some (some .accepted)
  | some .accepted, .cancelReject => none
  | some .accepted, .replaceReject => none
  | state, .cancelReject => some state
  | state, .replaceReject => some state
  | state, .heartbeat => some state
  | state, .dropCopy => some state
  | state, .throttleReject => some state
  | _, _ => none

structure Answers (before : VenueSession) (reply : Reply) (after : VenueSession) : Prop where
  number : reply.sequence = before.sequence + 1 ∧ after.sequence = before.sequence + 1
  limit : after.throttlePerSecond = before.throttlePerSecond
  order : lifecycle (before.orders reply.clientOrderId) reply.kind =
    some (after.orders reply.clientOrderId)
  others : ∀ other ≠ reply.clientOrderId, after.orders other = before.orders other
  window : (reply.kind = .throttleReject ∧ before.throttlePerSecond ≤ before.messagesInWindow ∧
      after.messagesInWindow = before.messagesInWindow) ∨
    (reply.kind ≠ .throttleReject ∧ before.messagesInWindow < before.throttlePerSecond ∧
      after.messagesInWindow = before.messagesInWindow + 1)

theorem lifecycle_rejected {state : Option OrderState} {kind : Kind}
    (closed : state ≠ some .accepted) (rejects : kind = .cancelReject ∨ kind = .replaceReject) :
    lifecycle state kind = some state := by
  rcases rejects with rfl | rfl
  · rcases state with _ | _ | _
    · rfl
    · exact absurd rfl closed
    · rfl
  · rcases state with _ | _ | _
    · rfl
    · exact absurd rfl closed
    · rfl

theorem lifecycle_neutral (state : Option OrderState) {kind : Kind}
    (neutral : kind ∈ [Kind.heartbeat, .dropCopy, .throttleReject]) :
    lifecycle state kind = some state := by
  simp only [List.mem_cons, List.not_mem_nil, or_false] at neutral
  rcases neutral with rfl | rfl | rfl <;> rcases state with _ | _ | _ <;> rfl

theorem serve_orders (session : VenueSession) (clientOrderId : Nat) (action : String) :
    ∃ orders reply, session.serve clientOrderId action = ({ session with orders }, reply) ∧
      reply.sequence = session.sequence ∧ reply.kind ≠ .throttleReject ∧
      lifecycle (session.orders reply.clientOrderId) reply.kind =
        some (orders reply.clientOrderId) ∧
      ∀ other ≠ reply.clientOrderId, orders other = session.orders other := by
  rw [serve]
  dsimp only
  split
  · split
    case isTrue known =>
      refine ⟨session.orders, _, rfl, rfl, by simp, ?_, fun _ _ => rfl⟩
      rcases Option.isSome_iff_exists.mp known with ⟨state, found⟩
      rw [found]
      cases state <;> rfl
    case isFalse fresh =>
      refine ⟨_, _, rfl, rfl, by simp, ?_, fun other apart => if_neg apart⟩
      rw [Option.not_isSome_iff_eq_none.mp fresh, if_pos rfl]
      rfl
  · split
    · split
      case isTrue closed =>
        exact ⟨session.orders, _, rfl, rfl, by simp, lifecycle_rejected closed (.inl rfl),
          fun _ _ => rfl⟩
      case isFalse opened =>
        refine ⟨_, _, rfl, rfl, by simp, ?_, fun other apart => if_neg apart⟩
        rw [not_not.mp opened, if_pos rfl]
        rfl
    · split
      · split
        case isTrue closed =>
          exact ⟨session.orders, _, rfl, rfl, by simp, lifecycle_rejected closed (.inr rfl),
            fun _ _ => rfl⟩
        case isFalse opened =>
          refine ⟨session.orders, _, rfl, rfl, by simp, ?_, fun _ _ => rfl⟩
          rw [not_not.mp opened]
          rfl
      · split
        · exact ⟨session.orders, _, rfl, rfl, by simp, lifecycle_neutral _ (by simp),
            fun _ _ => rfl⟩
        · exact ⟨session.orders, _, rfl, rfl, by simp, lifecycle_neutral _ (by simp),
            fun _ _ => rfl⟩

theorem respond_cases (session : VenueSession) (clientOrderId : Int) (action : String) :
    session.respond clientOrderId action = (session, .error "venue_session_request_failed") ∨
      ∃ reply after, session.respond clientOrderId action = (after, .ok reply) ∧
        Answers session reply after := by
  rw [respond]
  split
  case isTrue => exact .inl rfl
  case isFalse =>
    refine .inr ?_
    split
    case isTrue full =>
      exact ⟨_, _, rfl, ⟨⟨rfl, rfl⟩, rfl, lifecycle_neutral _ (by simp), fun _ _ => rfl,
        .inl ⟨rfl, full, rfl⟩⟩⟩
    case isFalse room =>
      dsimp only
      rcases serve_orders
        { session with
          messagesInWindow := session.messagesInWindow + 1, sequence := session.sequence + 1 }
        clientOrderId.toNat action with ⟨orders, reply, served, number, kind, order, others⟩
      rw [served]
      exact ⟨_, _, rfl, ⟨⟨number, rfl⟩, rfl, order, others, .inr ⟨kind, not_le.mp room, rfl⟩⟩⟩

theorem step_cases (session : VenueSession) (call : Call) :
    (answer (session, call) = none ∧ (step session call).orders = session.orders ∧
      (step session call).throttlePerSecond = session.throttlePerSecond ∧
      (call.keepsConnection → (step session call).sequence = session.sequence) ∧
      (call.keepsWindow → (step session call).messagesInWindow = session.messagesInWindow)) ∨
    ∃ reply, answer (session, call) = some reply ∧ Answers session reply (step session call) := by
  cases call with
  | connect credentials live =>
      refine .inl ⟨rfl, ?_⟩
      rw [step, connect]
      split <;> simp [Call.keepsConnection, Call.keepsWindow]
  | disconnect => exact .inl ⟨rfl, rfl, rfl, fun _ => rfl, fun _ => rfl⟩
  | reconnect credentials expectedSequence =>
      refine .inl ⟨rfl, ?_⟩
      rw [step, reconnect, connect]
      split
      case h_1 same =>
        split at same
        · cases same
          simp [Call.keepsConnection, Call.keepsWindow]
        · cases same
      case h_2 same =>
        split at same
        · cases same
        · cases same
          split <;> simp [Call.keepsConnection, Call.keepsWindow]
  | newWindow => exact .inl ⟨rfl, rfl, rfl, fun _ => rfl, by simp [Call.keepsWindow]⟩
  | send clientOrderId action =>
      rcases respond_cases session clientOrderId action with refused | ⟨reply, after, same, answers⟩
      · have kept : step session (.send clientOrderId action) = session :=
          congrArg Prod.fst refused
        refine .inl ⟨congrArg (fun responded => responded.2.toOption) refused, ?_⟩
        rw [kept]
        exact ⟨rfl, rfl, fun _ => rfl, fun _ => rfl⟩
      · have next : step session (.send clientOrderId action) = after := congrArg Prod.fst same
        rw [next]
        exact .inr ⟨reply, congrArg (fun responded => responded.2.toOption) same, answers⟩

/-! Runs -/

theorem replies_cons (session : VenueSession) (call : Call) (calls : List Call) :
    replies session (call :: calls) =
      (answer (session, call)).toList ++ replies (step session call) calls := by
  rw [replies, cycles, List.filterMap_cons]
  cases answer (session, call) <;> rfl

theorem replies_numbered {session : VenueSession} {calls : List Call}
    (kept : ∀ call ∈ calls, call.keepsConnection = true) {index : ℕ} {reply : Reply}
    (found : (replies session calls)[index]? = some reply) :
    reply.sequence = session.sequence + 1 + index := by
  induction calls generalizing session index with
  | nil => cases found
  | cons call calls ih =>
      rcases List.forall_mem_cons.mp kept with ⟨first, others⟩
      rw [replies_cons] at found
      rcases step_cases session call with ⟨silent, -, -, same, -⟩ | ⟨answered, answers, told⟩
      · rw [silent] at found
        rw [ih others found, same first]
      · rw [answers, Option.toList_some, List.singleton_append] at found
        cases index with
        | zero =>
            rw [List.getElem?_cons_zero, Option.some.injEq] at found
            rw [← found, told.number.1, add_zero]
        | succ index =>
            rw [List.getElem?_cons_succ] at found
            rw [ih others found, told.number.2]
            omega

def kindsOf (clientOrderId : Nat) (replies : List Reply) : List Kind :=
  (replies.filter fun reply => reply.clientOrderId = clientOrderId).map Reply.kind

theorem orders_follow (session : VenueSession) (calls : List Call) (clientOrderId : Nat) :
    (kindsOf clientOrderId (replies session calls)).foldlM lifecycle
        (session.orders clientOrderId) =
      some ((run step session calls).orders clientOrderId) := by
  induction calls generalizing session with
  | nil => rfl
  | cons call calls ih =>
      have later := ih (step session call)
      rw [replies_cons, kindsOf, List.filter_append, List.map_append, List.foldlM_append]
      change _ = some ((run step (step session call) calls).orders clientOrderId)
      rw [← later]
      rcases step_cases session call with ⟨silent, same, -⟩ | ⟨reply, answers, told⟩
      · rw [silent, same]
        rfl
      · rw [answers, Option.toList_some, List.filter_singleton]
        by_cases named : reply.clientOrderId = clientOrderId
        · subst named
          simp only [decide_true, cond_true, List.map_singleton, List.foldlM_cons, List.foldlM_nil,
            told.order]
          rfl
        · rw [told.others clientOrderId (Ne.symm named)]
          simp only [named, decide_false, cond_false, List.map_nil, List.foldlM_nil]
          rfl

theorem window_served (session : VenueSession) {calls : List Call}
    (kept : ∀ call ∈ calls, call.keepsWindow = true) :
    (∀ reply ∈ (replies session calls).take
        (session.throttlePerSecond - session.messagesInWindow).toNat,
      reply.kind ≠ .throttleReject) ∧
    ∀ reply ∈ (replies session calls).drop
        (session.throttlePerSecond - session.messagesInWindow).toNat,
      reply.kind = .throttleReject := by
  induction calls generalizing session with
  | nil => simp [replies, cycles]
  | cons call calls ih =>
      rcases List.forall_mem_cons.mp kept with ⟨first, others⟩
      have later := ih (step session call) others
      rw [replies_cons]
      rcases step_cases session call with ⟨silent, -, limit, -, window⟩ | ⟨reply, answers, told⟩
      · rw [limit, window first] at later
        rw [silent]
        exact later
      · rw [answers, Option.toList_some, List.singleton_append]
        rcases told.window with ⟨throttled, full, window⟩ | ⟨served, room, window⟩
        · have none : (session.throttlePerSecond - session.messagesInWindow).toNat = 0 := by omega
          rw [told.limit, window, none] at later
          rw [none]
          exact ⟨by simp, List.forall_mem_cons.mpr ⟨throttled, later.2⟩⟩
        · have one : (session.throttlePerSecond - session.messagesInWindow).toNat =
              (session.throttlePerSecond - (session.messagesInWindow + 1)).toNat + 1 := by omega
          rw [told.limit, window] at later
          rw [one]
          exact ⟨List.forall_mem_cons.mpr ⟨served, later.1⟩, later.2⟩

theorem lifecycle_counts {kinds : List Kind} {before after : Option OrderState}
    (possible : kinds.foldlM lifecycle before = some after) :
    kinds.count .ack + before.isSome.toNat = after.isSome.toNat ∧
      kinds.count .cancelled + (decide (before = some .cancelled)).toNat =
        (decide (after = some .cancelled)).toNat := by
  induction kinds generalizing before with
  | nil =>
      cases possible
      exact ⟨Nat.zero_add _, Nat.zero_add _⟩
  | cons kind kinds ih =>
      rw [List.foldlM_cons, Option.bind_eq_bind, Option.bind_eq_some_iff] at possible
      rcases possible with ⟨between, first, rest⟩
      have later := ih rest
      have now : (if kind = .ack then 1 else 0) + before.isSome.toNat = between.isSome.toNat ∧
          (if kind = .cancelled then 1 else 0) + (decide (before = some .cancelled)).toNat =
            (decide (between = some .cancelled)).toNat := by
        revert first
        rcases before with _ | _ | _ <;> cases kind <;> intro first <;> cases first <;> decide
      simp only [List.count_cons, beq_iff_eq]
      omega

/-- A client that waits for one number after the other, on a connection that is kept: whatever the
network delivers of the messages that were sent, in any order, repeated or lost, the client accepts
the longest beginning of what was sent that the deliveries have as a subsequence. -/
theorem client_accepts (session : VenueSession) {calls : List Call}
    (kept : ∀ call ∈ calls, call.keepsConnection = true) {delivered : List (List Char)}
    (genuine : ∀ message ∈ delivered, message ∈ messages session calls) :
    let accepts := accepted (fun expected message => (receive message expected).toOption == some true)
      (session.sequence + 1) delivered
    accepts <+: messages session calls ∧ accepts.Sublist delivered ∧
      ∀ front, front <+: messages session calls → front.Sublist delivered → front <+: accepts := by
  intro accepts
  have received : ∀ (reply : Reply) (expected : Int),
      ((receive reply.text expected).toOption == some true) = true ↔
        (reply.sequence : Int) = expected := by
    intro reply expected
    rw [receive_text]
    split <;> simp [Except.toOption, *]
  have numbered : Numbered
      (fun expected message => (receive message expected).toOption == some true)
      (session.sequence + 1) (messages session calls) delivered := by
    intro message member index
    have sent := genuine message member
    rw [messages_eq] at sent ⊢
    rcases List.mem_map.mp sent with ⟨reply, inside, rfl⟩
    rcases List.mem_iff_getElem?.mp inside with ⟨position, found⟩
    have number := replies_numbered kept found
    rw [received, List.getElem?_map, Option.map_eq_some_iff]
    constructor
    · intro same
      have here : position = index := by omega
      exact ⟨reply, here ▸ found, rfl⟩
    · rintro ⟨other, there, alike⟩
      have otherNumber := replies_numbered kept there
      have both := (received other reply.sequence).mp (alike ▸ (received reply _).mpr rfl)
      omega
  exact ⟨accepted_front numbered, accepted_sublist _ _, fun front opens arrives =>
    accepted_complete numbered opens arrives⟩

/-- A reordered delivery with a repetition: the client takes the first two messages and stops at
the third, which is lost. -/
theorem client_accepts_reordered :
    let session : VenueSession := { connected := true }
    let calls : List Call := [.send 1001 "new", .send 1001 "cancel", .send 1001 "new"]
    let ack := "ACK|1|1001".toList
    let cancelled := "CANCELLED|2|1001".toList
    let accepts := accepted
      (fun expected message => (receive message expected).toOption == some true) 1
      [cancelled, ack, ack, cancelled]
    messages session calls = [ack, cancelled, "DUPLICATE_REJECT|3|1001".toList] ∧
      accepts <+: messages session calls ∧ [ack, cancelled] <+: accepts := by
  intro session calls ack cancelled accepts
  have sent : messages session calls = [ack, cancelled, "DUPLICATE_REJECT|3|1001".toList] := by
    decide +kernel
  have genuine : ∀ message ∈ [cancelled, ack, ack, cancelled],
      message ∈ messages session calls := by
    rw [sent]
    simp
  have client := client_accepts session (by decide : ∀ call ∈ calls, _) genuine
  refine ⟨sent, client.1, client.2.2 [ack, cancelled] ?_ ?_⟩
  · rw [sent]
    exact ⟨["DUPLICATE_REJECT|3|1001".toList], rfl⟩
  · exact ((List.Sublist.refl [ack, cancelled]).cons ack).cons cancelled

/-- Over every run of a new session: the replies that name an order tell its state, by the rules of
its life; they acknowledge it once if it is known and cancel it once if it is cancelled. In every
window after the run, the throttle lets through as many messages as it has left, the first ones,
and refuses all others. -/
theorem session_lifecycle (throttlePerSecond : Int) (calls : List Call) :
    let session : VenueSession := { throttlePerSecond }
    let orders := (run step session calls).orders
    (∀ clientOrderId,
      let kinds := kindsOf clientOrderId (replies session calls)
      kinds.foldlM lifecycle none = some (orders clientOrderId) ∧
        kinds.count .ack = (orders clientOrderId).isSome.toNat ∧
        kinds.count .cancelled = (decide (orders clientOrderId = some .cancelled)).toNat) ∧
    ∀ window : List Call, (∀ call ∈ window, call.keepsWindow = true) →
      let before := run step session calls
      let free := (throttlePerSecond - before.messagesInWindow).toNat
      (∀ reply ∈ (replies before window).take free, reply.kind ≠ .throttleReject) ∧
        ∀ reply ∈ (replies before window).drop free, reply.kind = .throttleReject := by
  intro session orders
  refine ⟨fun clientOrderId => ?_, ?_⟩
  · intro kinds
    have follows := orders_follow session calls clientOrderId
    exact ⟨follows, lifecycle_counts follows⟩
  · intro window kept before free
    have limit : before.throttlePerSecond = throttlePerSecond := by
      have same : ∀ call session,
          (step session call).throttlePerSecond = session.throttlePerSecond := by
        intro call session
        rcases step_cases session call with ⟨-, -, limit, -⟩ | ⟨reply, -, told⟩
        · exact limit
        · exact told.limit
      have start : session.throttlePerSecond = throttlePerSecond := rfl
      exact (invariant (I := fun session => session.throttlePerSecond = throttlePerSecond)
        (A := fun _ => True) (fun session call limit _ => (same call session).trans limit) start
        fun _ _ => trivial).2
    have served := window_served before kept
    rw [limit] at served
    exact served

end VenueSession

end Ito.Gate
