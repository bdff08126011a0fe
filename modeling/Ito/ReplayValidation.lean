import Ito.Replay
import Mathlib.Data.Finset.Dedup
import Mathlib.Data.Finset.Card
import Mathlib.Data.Finset.SDiff

/-! What an empty validation says of a replayed journal, and what the duplicates add up to. -/

namespace Ito.Replay

/-- The event takes its place in a journal that goes on from a sequence number. -/
def InPlace (start : Int) (events : List Event) : Prop :=
  ∀ (i : Nat) (event : Event), events[i]? = some event → event.sequence = start + i

def Event.Identified (event : Event) : Prop := 0 < event.eventId ∧ 0 ≤ event.correlationId

variable {event : Event} {events : List Event} {expected : Int} {eventIds : List Int}

theorem inPlace_cons : InPlace expected (event :: events) ↔
    event.sequence = expected ∧ InPlace (expected + 1) events := by
  constructor
  · intro placed
    refine ⟨(placed 0 event rfl).trans (Int.add_zero expected), fun i later found => ?_⟩
    have next := placed (i + 1) later found
    push_cast at next
    omega
  · rintro ⟨first, rest⟩ i later found
    cases i with
    | zero =>
        rcases Option.some.inj found with rfl
        exact first.trans (Int.add_zero expected).symm
    | succ i =>
        have next := rest i later found
        push_cast
        omega

theorem failuresFrom_cons_eq_nil : failuresFrom expected eventIds (event :: events) = [] ↔
    event.Identified ∧ event.eventId ∉ eventIds ∧ event.sequence = expected ∧
      failuresFrom (expected + 1) (event.eventId :: eventIds) events = [] := by
  rw [failuresFrom, Event.Identified]
  simp only [List.append_eq_nil_iff]
  by_cases same : event.sequence = expected
  · rw [same, if_pos le_rfl, if_neg (not_not_intro rfl)]
    by_cases old : event.eventId ∈ eventIds <;>
      by_cases bad : event.eventId ≤ 0 ∨ event.correlationId < 0 <;> simp [old, bad] <;> omega
  · simp [same]

theorem failuresFrom_eq_nil_iff : failuresFrom expected eventIds events = [] ↔
    InPlace expected events ∧ (∀ event ∈ events, event.Identified) ∧
      (events.map Event.eventId).Nodup ∧ ∀ event ∈ events, event.eventId ∉ eventIds := by
  induction events generalizing expected eventIds with
  | nil => simp [failuresFrom, InPlace]
  | cons event events ih =>
      rw [failuresFrom_cons_eq_nil, ih, inPlace_cons, List.map_cons, List.nodup_cons,
        List.forall_mem_cons, List.forall_mem_cons]
      have apart : (∀ later ∈ events, later.eventId ∉ event.eventId :: eventIds) ↔
          event.eventId ∉ events.map Event.eventId ∧
            ∀ later ∈ events, later.eventId ∉ eventIds := by
        simp only [List.mem_cons, not_or, List.mem_map, not_exists, not_and]
        constructor
        · exact fun each => ⟨fun later member same => (each later member).1 same,
            fun later member => (each later member).2⟩
        · exact fun both later member => ⟨both.1 later member, both.2 later member⟩
      rw [apart]
      tauto

/-! Duplicates -/

def Failure.isDuplicate : Failure → Bool
  | .duplicateEventId _ => true
  | _ => false

theorem prefix_message (failure : Failure) :
    "duplicate_event_id:".toList <+: failure.message.toList ↔ failure.isDuplicate = true := by
  cases failure with
  | identifierInvalid eventId correlationId =>
      change _ <+: ("identifier_invalid:" ++ toString eventId ++ ":" ++
        toString correlationId).toList ↔ false = true
      simp only [String.toList_append, List.append_assoc]
      simp
  | duplicateEventId eventId =>
      change _ <+: ("duplicate_event_id:" ++ toString eventId).toList ↔ true = true
      rw [String.toList_append]
      exact iff_of_true (List.prefix_append _ _) rfl
  | sequenceGap expected sequence =>
      change _ <+: ("sequence_gap:" ++ toString expected ++ ":" ++
        toString sequence).toList ↔ false = true
      simp only [String.toList_append, List.append_assoc]
      simp

theorem countP_failuresFrom_cons : (failuresFrom expected eventIds (event :: events)).countP
      Failure.isDuplicate =
    (if event.eventId ∈ eventIds then 1 else 0) +
      (failuresFrom (if expected ≤ event.sequence then event.sequence + 1 else expected)
        (event.eventId :: eventIds) events).countP Failure.isDuplicate := by
  rw [failuresFrom, List.countP_append, List.countP_append, List.countP_append]
  have invalid : (if event.eventId ≤ 0 ∨ event.correlationId < 0 then
      [Failure.identifierInvalid event.eventId event.correlationId] else []).countP
        Failure.isDuplicate = 0 := by
    split <;> rfl
  have gap : (if event.sequence ≠ expected then
      [Failure.sequenceGap expected event.sequence] else []).countP Failure.isDuplicate = 0 := by
    split <;> rfl
  rw [invalid, gap]
  split <;> simp [Failure.isDuplicate]

theorem duplicates_add_distinct :
    (failuresFrom expected eventIds events).countP Failure.isDuplicate +
      ((events.map Event.eventId).toFinset \ eventIds.toFinset).card = events.length := by
  induction events generalizing expected eventIds with
  | nil => simp [failuresFrom]
  | cons event events ih =>
      have rest := @ih (if expected ≤ event.sequence then event.sequence + 1 else expected)
        (event.eventId :: eventIds)
      rw [List.toFinset_cons] at rest
      rw [countP_failuresFrom_cons, List.map_cons, List.toFinset_cons, List.length_cons]
      by_cases old : event.eventId ∈ eventIds
      · have seen : event.eventId ∈ eventIds.toFinset := List.mem_toFinset.mpr old
        rw [Finset.insert_eq_of_mem seen] at rest
        rw [if_pos old, Finset.insert_sdiff_of_mem _ seen]
        omega
      · have fresh : event.eventId ∉ eventIds.toFinset :=
          fun seen => old (List.mem_toFinset.mp seen)
        have brought :
            insert event.eventId (events.map Event.eventId).toFinset \ eventIds.toFinset =
              insert event.eventId ((events.map Event.eventId).toFinset \
                insert event.eventId eventIds.toFinset) := by
          ext eventId
          simp only [Finset.mem_sdiff, Finset.mem_insert]
          by_cases same : eventId = event.eventId
          · simp [same, fresh]
          · simp [same]
        rw [if_neg old, brought, Finset.card_insert_of_notMem (by simp)]
        omega

/-- Nothing is found wrong exactly with a journal that is numbered from one without a gap, whose
events are identified and all different, and each event beyond the different ones is one
duplicate. -/
theorem validate_spec (events : List Event) :
    (validate events = [] ↔ InPlace 1 events ∧ (∀ event ∈ events, event.Identified) ∧
      (events.map Event.eventId).Nodup) ∧
    (validate events).countP (fun message => "duplicate_event_id:".toList <+: message.toList) =
      events.length - (events.map Event.eventId).toFinset.card := by
  constructor
  · rw [validate, List.map_eq_nil_iff, failuresFrom_eq_nil_iff]
    simp
  · have kinds : (failuresFrom 1 [] events).countP Failure.isDuplicate +
        (events.map Event.eventId).toFinset.card = events.length := by
      simpa using @duplicates_add_distinct events 1 []
    rw [validate, List.countP_map]
    have same : (fun message : String => decide ("duplicate_event_id:".toList <+: message.toList)) ∘
        Failure.message = Failure.isDuplicate := by
      funext failure
      exact (Bool.decide_congr (prefix_message failure)).trans Bool.decide_eq_true
    rw [same]
    omega

end Ito.Replay
