import Ito.Library.StableSort
import Ito.RegisterMap
import Mathlib.Data.Prod.Lex

/-! The routes that are recommended for an order.

Source: `recommend` of `python/connectivity/route_recommendation.py`. A dict is the function that
its `get` is. -/

namespace Ito.RouteRecommendation

open RegisterMap (Python codes)
open RecordReconcile (Record toInt)
open Replay (LoadError item)
open StableSort

variable (python : Python)

/-- `int(record["venue_id"])`. -/
def venueOf (record : Record) : Except LoadError Int := do
  toInt python.intOfText (← item (.obj record) "venue_id")

/-- `int(record.get(key, 0))`. -/
def intField (record : Record) (key : String) : Except LoadError Int :=
  toInt python.intOfText ((Json.get? key record).getD (.int 0))

def statuses (sessions : List Record) : Except LoadError (Int → Option (List Nat)) :=
  sessions.foldlM
    (fun state record => do
      let venueId ← venueOf python record
      let status ← item (.obj record) "status"
      return fun other => if other = venueId then some (python.str status) else state other)
    (fun _ => none)

def permitted (live : Bool) (route : Record) : Bool :=
  (Json.get? "enabled" route).any Json.truthy &&
    match Json.get? "live_enabled" route with
    | some (.bool enabled) => enabled = live
    | _ => false

def selects (state : Int → Option (List Nat)) (quantity : Int) (live : Bool) (route : Record) :
    Except LoadError Bool := do
  let venueId ← venueOf python route
  if permitted live route = false then return false
  else if state venueId ≠ some (codes "ready") then return false
  else
    let limit ← intField python route "max_order_quantity"
    return quantity ≤ limit

abbrev Key := Int ×ₗ Int ×ₗ Int

def keyOf (route : Record) : Except LoadError Key := do
  let rank ← intField python route "rank"
  let fee ← intField python route "fee_bps"
  let venueId ← venueOf python route
  return toLex (rank, toLex (fee, venueId))

def select (state : Int → Option (List Nat)) (quantity : Int) (live : Bool) :
    List Record → Except LoadError (List Record)
  | [] => .ok []
  | route :: routes => do
      let selected ← selects python state quantity live route
      let rest ← select state quantity live routes
      return if selected then route :: rest else rest

/-- `sorted`, which computes all keys first. -/
def sortByKey (routes : List Record) : Except LoadError (List Record) := do
  let keyed ← routes.mapM fun route => do return (← keyOf python route, route)
  return (sorted Prod.fst keyed).map Prod.snd

def recommend (routes sessions : List Record) (quantity : Int) (live : Bool) :
    Except LoadError (List Record) :=
  if quantity ≤ 0 then .ok []
  else do
    let state ← statuses python sessions
    let selected ← select python state quantity live routes
    sortByKey python selected

/-! What is recommended -/

/-- The integers of a route, where `int` gives them. -/
def venueId (route : Record) : Int := (venueOf python route).toOption.getD 0

def limit (route : Record) : Int := (intField python route "max_order_quantity").toOption.getD 0

def key (route : Record) : Key :=
  (keyOf python route).toOption.getD (toLex (0, toLex (0, 0)))

def eligible (state : Int → Option (List Nat)) (quantity : Int) (live : Bool) (route : Record) :
    Bool :=
  permitted live route && state (venueId python route) = some (codes "ready") &&
    quantity ≤ limit python route

variable {python} {state : Int → Option (List Nat)} {quantity more : Int} {live : Bool}
  {routes sessions selected result : List Record} {route : Record}

theorem toOption_of_ok {A : Type} {attempt : Except LoadError A} {value default : A}
    (found : attempt = .ok value) : attempt.toOption.getD default = value := by
  rw [found]
  rfl

theorem selects_eq_ok {taken : Bool} (done : selects python state quantity live route = .ok taken) :
    taken = eligible python state quantity live route := by
  rcases Fallible.bind_eq_ok.mp done with ⟨venue, isVenue, done⟩
  rw [eligible, venueId, toOption_of_ok isVenue]
  split at done
  case isTrue refused =>
    cases done
    rw [refused, Bool.false_and, Bool.false_and]
  case isFalse allowed =>
    rw [Bool.not_eq_false] at allowed
    split at done
    case isTrue unready =>
      cases done
      rw [decide_eq_false unready, Bool.and_false, Bool.false_and]
    case isFalse ready =>
      rw [not_not] at ready
      rcases Fallible.bind_eq_ok.mp done with ⟨bound, isBound, done⟩
      cases done
      rw [limit, toOption_of_ok isBound, allowed, decide_eq_true ready, Bool.true_and,
        Bool.true_and]

theorem selects_any {taken : Bool} (done : selects python state quantity live route = .ok taken)
    (more : Int) :
    selects python state more live route = .ok (eligible python state more live route) := by
  have decided : ∃ other, selects python state more live route = .ok other := by
    rcases Fallible.bind_eq_ok.mp done with ⟨venue, isVenue, done⟩
    simp only [selects, isVenue, Bind.bind, Except.bind]
    split at done
    case isTrue refused => exact ⟨false, if_pos refused⟩
    case isFalse allowed =>
      rw [if_neg allowed]
      split at done
      case isTrue unready => exact ⟨false, if_pos unready⟩
      case isFalse ready =>
        rw [if_neg ready]
        rcases Fallible.bind_eq_ok.mp done with ⟨bound, isBound, -⟩
        simp only [isBound]
        exact ⟨_, rfl⟩
  rcases decided with ⟨other, decided⟩
  rw [← selects_eq_ok decided, decided]

theorem select_eq_ok (done : select python state quantity live routes = .ok selected) :
    selected = routes.filter (eligible python state quantity live) ∧
      ∀ more, select python state more live routes =
        .ok (routes.filter (eligible python state more live)) := by
  induction routes generalizing selected with
  | nil =>
      cases done
      exact ⟨rfl, fun more => rfl⟩
  | cons route routes ih =>
      rcases Fallible.bind_eq_ok.mp done with ⟨taken, decided, done⟩
      rcases Fallible.bind_eq_ok.mp done with ⟨rest, later, done⟩
      rcases ih later with ⟨isRest, others⟩
      constructor
      · cases done
        rw [List.filter_cons, ← selects_eq_ok decided, isRest]
      · intro more
        rw [select, selects_any decided, others, List.filter_cons]
        rfl

theorem sortByKey_eq_ok :
    sortByKey python selected = .ok result ↔
      (∀ route ∈ selected, ∃ found, keyOf python route = .ok found) ∧
        result = sorted (key python) selected := by
  have keyed : ∀ routes : List Record, (∀ route ∈ routes, ∃ found, keyOf python route = .ok found) →
      sortByKey python routes = .ok (sorted (key python) routes) := by
    intro routes each
    have pairs : (routes.mapM fun route => do return (← keyOf python route, route)) =
        Except.ok (routes.map fun route => (key python route, route)) := by
      apply Fallible.mapM_eq_ok
      intro route member
      rcases each route member with ⟨found, isKey⟩
      rw [key, toOption_of_ok isKey, isKey]
      rfl
    have first : (sorted Prod.fst (routes.map fun route => (key python route, route))).map Prod.snd =
        sorted (key python) routes := by
      rw [sorted_map, List.map_map]
      exact List.map_id _
    rw [sortByKey, pairs, ← first]
    rfl
  constructor
  · intro done
    have each : ∀ route ∈ selected, ∃ found, keyOf python route = .ok found := by
      rcases Fallible.bind_eq_ok.mp done with ⟨pairs, computed, -⟩
      intro route member
      rcases Fallible.of_mapM_eq_ok computed route member with ⟨pair, here⟩
      rcases Fallible.bind_eq_ok.mp here with ⟨found, isKey, -⟩
      exact ⟨found, isKey⟩
    rw [keyed selected each, Except.ok.injEq] at done
    exact ⟨each, done.symm⟩
  · rintro ⟨each, rfl⟩
    exact keyed selected each

theorem eligible_of_le (more_le : quantity ≤ more)
    (eligible_more : eligible python state more live route = true) :
    eligible python state quantity live route = true := by
  simp only [eligible, Bool.and_eq_true, decide_eq_true_eq] at eligible_more ⊢
  exact ⟨eligible_more.1, more_le.trans eligible_more.2⟩

theorem filter_eligible (more_le : quantity ≤ more) :
    (routes.filter (eligible python state quantity live)).filter
        (fun route => more ≤ limit python route) =
      routes.filter (eligible python state more live) := by
  rw [List.filter_filter]
  refine List.filter_congr fun route _ => ?_
  by_cases fits : more ≤ limit python route
  · have also : quantity ≤ limit python route := more_le.trans fits
    simp [eligible, fits, also]
  · simp [eligible, fits]

/-- What a recommendation holds: each eligible route once for each time it is listed, by rank, fee
and venue, and in the order of the list where these are the same. A larger order gets the same
routes in the same order without those that are too small for it. No route is recommended both for
live orders and for simulated ones. -/
theorem recommend_narrows (python : Python) {routes sessions : List Record} {quantity : Int}
    {live : Bool} {result : List Record} (positive : 0 < quantity)
    (done : recommend python routes sessions quantity live = .ok result) :
    (∃ state, statuses python sessions = .ok state ∧
      result.Pairwise (fun first second => key python first ≤ key python second) ∧
      ∀ k, withKey (key python) k result =
        withKey (key python) k (routes.filter (eligible python state quantity live))) ∧
    (∀ more, quantity ≤ more → recommend python routes sessions more live =
      .ok (result.filter fun route => more ≤ limit python route)) ∧
    ∀ other quantity', recommend python routes sessions quantity' (!live) = .ok other →
      result.Disjoint other := by
  have selection : ∀ {quantity : Int} {live : Bool} {result : List Record}, 0 < quantity →
      recommend python routes sessions quantity live = .ok result →
      ∃ state, statuses python sessions = .ok state ∧
        (∀ more, select python state more live routes =
          .ok (routes.filter (eligible python state more live))) ∧
        (∀ route ∈ routes.filter (eligible python state quantity live),
          ∃ found, keyOf python route = .ok found) ∧
        result = sorted (key python) (routes.filter (eligible python state quantity live)) := by
    intro quantity live result positive done
    rw [recommend, if_neg (not_le.mpr positive)] at done
    rcases Fallible.bind_eq_ok.mp done with ⟨state, isState, done⟩
    rcases Fallible.bind_eq_ok.mp done with ⟨selected, chosen, done⟩
    rcases select_eq_ok chosen with ⟨rfl, any⟩
    rcases sortByKey_eq_ok.mp done with ⟨each, same⟩
    exact ⟨state, isState, any, each, same⟩
  rcases selection positive done with ⟨state, isState, any, each, rfl⟩
  refine ⟨⟨state, isState, sorted_pairwise _, fun k => withKey_sorted k _⟩, ?_, ?_⟩
  · intro more more_le
    have later : ∀ route ∈ routes.filter (eligible python state more live),
        ∃ found, keyOf python route = .ok found := by
      intro route member
      rw [List.mem_filter] at member
      exact each route (List.mem_filter.mpr ⟨member.1, eligible_of_le more_le member.2⟩)
    rw [recommend, if_neg (by omega), isState]
    simp only [Bind.bind, Except.bind, any]
    rw [sorted_filter, filter_eligible more_le]
    exact sortByKey_eq_ok.mpr ⟨later, rfl⟩
  · intro other quantity' done' route here there
    have permittedHere : permitted live route = true := by
      have member := ((sorted_perm _).mem_iff.mp here)
      rw [List.mem_filter, eligible, Bool.and_eq_true, Bool.and_eq_true] at member
      exact member.2.1.1
    by_cases positive' : 0 < quantity'
    · rcases selection positive' done' with ⟨state', -, -, -, rfl⟩
      have permittedThere : permitted (!live) route = true := by
        have member := ((sorted_perm _).mem_iff.mp there)
        rw [List.mem_filter, eligible, Bool.and_eq_true, Bool.and_eq_true] at member
        exact member.2.1.1
      rw [permitted, Bool.and_eq_true] at permittedHere permittedThere
      have flagHere := permittedHere.2
      have flagThere := permittedThere.2
      split at flagHere
      case h_1 enabled found =>
        simp only [found, decide_eq_true_eq] at flagHere flagThere
        rw [flagHere] at flagThere
        cases live <;> cases flagThere
      case h_2 => cases flagHere
    · rw [recommend, if_pos (by omega)] at done'
      cases done'
      cases there

def routeOf (venueId rank limit : Int) : Record :=
  [(codes "venue_id", .int venueId), (codes "rank", .int rank), (codes "enabled", .bool true),
    (codes "live_enabled", .bool false), (codes "max_order_quantity", .int limit)]

def sessionOf (venueId : Int) (status : String) : Record :=
  [(codes "venue_id", .int venueId), (codes "status", .str (codes status))]

/-- Of three routes one has no session that is ready, and the best one is too small for an order of
60. -/
theorem recommend_narrows_large :
    recommend RegisterMap.plainPython [routeOf 5 2 100, routeOf 6 1 50, routeOf 7 0 100]
        [sessionOf 5 "ready", sessionOf 6 "ready", sessionOf 7 "stale"] 60 false =
      .ok [routeOf 5 2 100] := by
  have small : recommend RegisterMap.plainPython [routeOf 5 2 100, routeOf 6 1 50, routeOf 7 0 100]
      [sessionOf 5 "ready", sessionOf 6 "ready", sessionOf 7 "stale"] 10 false =
      .ok [routeOf 6 1 50, routeOf 5 2 100] := by
    rfl
  have narrowed := (recommend_narrows RegisterMap.plainPython (by decide) small).2.1 60 (by decide)
  exact narrowed.trans rfl

end Ito.RouteRecommendation
