import Ito.Library.SortedMap
import Ito.VenueAdapter

/-! The venue sessions of one process, by venue id.

Source: `cpp/ito_session/session_manager.cpp`. The adapters are pointers to an
interface in the source; here the manager is generic in their type. -/

namespace Ito

abbrev ByVenue (a b : UInt16) : Prop := a < b

instance : IsStrictTotalOrder UInt16 ByVenue where
  irrefl _ := UInt16.lt_irrefl _
  trans _ _ _ := UInt16.lt_trans
  trichotomous _ _ notBelow notAbove :=
    UInt16.le_antisymm (UInt16.not_lt.mp notAbove) (UInt16.not_lt.mp notBelow)

structure SessionStatusView where
  venueId : UInt16
  brokerId : UInt16
  status : SessionStatus
  lastTransitionNs : UInt64
  deriving DecidableEq, Repr

structure SessionEntry (A : Type) where
  adapter : A
  lastTransitionNs : UInt64

structure SessionManager (A : Type) where
  sessions : SortedMap ByVenue (SessionEntry A) := SortedMap.empty

namespace SessionManager

variable {A Answer : Type} [VenueAdapter A Answer]

def adapter? (manager : SessionManager A) (venueId : UInt16) : Option A :=
  (manager.sessions.find? venueId).map SessionEntry.adapter

def store (manager : SessionManager A) (venueId : UInt16) (entry : SessionEntry A) (adapter : A) :
    SessionManager A :=
  { sessions := manager.sessions.set venueId { entry with adapter } }

def add (manager : SessionManager A) (adapter : A) (nowNs : UInt64) : SessionManager A × Bool :=
  let venueId := (VenueAdapter.identity adapter).venueId
  if venueId = 0 ∨ (manager.sessions.find? venueId).isSome then (manager, false)
  else ({ sessions := manager.sessions.set venueId ⟨adapter, nowNs⟩ }, true)

def connect (manager : SessionManager A) (venueId : UInt16) (answer : Answer) (nowNs : UInt64) :
    SessionManager A × Bool :=
  match manager.sessions.find? venueId with
  | none => (manager, false)
  | some entry =>
      let (adapter, result) := VenueAdapter.connect entry.adapter answer nowNs
      let entry := if result then { entry with lastTransitionNs := nowNs } else entry
      (manager.store venueId entry adapter, result)

def disconnect (manager : SessionManager A) (venueId : UInt16) (nowNs : UInt64) :
    SessionManager A × Bool :=
  match manager.sessions.find? venueId with
  | none => (manager, false)
  | some entry =>
      let adapter := VenueAdapter.disconnect entry.adapter nowNs
      (manager.store venueId { entry with lastTransitionNs := nowNs } adapter, true)

def submit (manager : SessionManager A) (order : NormalizedOrder) (venueId : UInt16)
    (answer : Answer) (nowNs : UInt64) : SessionManager A × Option ExecutionReport :=
  match manager.sessions.find? venueId with
  | none => (manager, none)
  | some entry =>
      if VenueAdapter.status entry.adapter ≠ .ready then (manager, none)
      else
        let (adapter, report) := VenueAdapter.submit entry.adapter answer order nowNs
        (manager.store venueId entry adapter, report)

def cancel (manager : SessionManager A) (clientOrderId : UInt64) (venueId : UInt16)
    (answer : Answer) (nowNs : UInt64) : SessionManager A × Option ExecutionReport :=
  match manager.sessions.find? venueId with
  | none => (manager, none)
  | some entry =>
      let (adapter, report) := VenueAdapter.cancel entry.adapter answer clientOrderId nowNs
      (manager.store venueId entry adapter, report)

def statuses (manager : SessionManager A) : List SessionStatusView :=
  manager.sessions.entries.map fun (venueId, entry) =>
    ⟨venueId, (VenueAdapter.identity entry.adapter).brokerId, VenueAdapter.status entry.adapter,
      entry.lastTransitionNs⟩

def pollAll (manager : SessionManager A) (answers : UInt16 → Answer) (nowNs : UInt64) :
    SessionManager A × List ExecutionReport :=
  let polled := fun venueId (entry : SessionEntry A) =>
    VenueAdapter.poll entry.adapter (answers venueId) nowNs
  ({ sessions := manager.sessions.mapValues fun venueId entry =>
       { entry with adapter := (polled venueId entry).1 } },
   manager.sessions.entries.flatMap fun (venueId, entry) => (polled venueId entry).2)

section Effects

variable (manager : SessionManager A) (order : NormalizedOrder) {venueId : UInt16} (answer : Answer)
  (nowNs : UInt64)

theorem adapter?_store (entry : SessionEntry A) (adapter : A) (other : UInt16) :
    (manager.store venueId entry adapter).adapter? other =
      if other = venueId then some adapter else manager.adapter? other := by
  simp only [adapter?, store, SortedMap.find?_set]
  split <;> rfl

theorem submit_unready
    (unready : ∀ adapter, manager.adapter? venueId = some adapter →
      VenueAdapter.status adapter ≠ .ready) :
    manager.submit order venueId answer nowNs = (manager, none) := by
  simp only [submit]
  cases found : manager.sessions.find? venueId with
  | none => rfl
  | some entry =>
      have away := unready entry.adapter (by simp [adapter?, found])
      simp [away]

theorem submit_ready {adapter : A} (found : manager.adapter? venueId = some adapter)
    (ready : VenueAdapter.status adapter = .ready) :
    (manager.submit order venueId answer nowNs).2 =
        (VenueAdapter.submit adapter answer order nowNs).2 ∧
      ∀ other, (manager.submit order venueId answer nowNs).1.adapter? other =
        if other = venueId then some (VenueAdapter.submit adapter answer order nowNs).1
        else manager.adapter? other := by
  rcases Option.map_eq_some_iff.mp found with ⟨entry, present, rfl⟩
  simp only [submit, present, ready, ne_eq, not_true_eq_false, if_false, true_and]
  exact manager.adapter?_store entry _

theorem adapter?_pollAll (answers : UInt16 → Answer) (venueId : UInt16) :
    (manager.pollAll answers nowNs).1.adapter? venueId =
      (manager.adapter? venueId).map fun adapter =>
        (VenueAdapter.poll adapter (answers venueId) nowNs).1 := by
  simp only [adapter?, pollAll, SortedMap.find?_mapValues, Option.map_map]
  rfl

end Effects

end SessionManager

end Ito
