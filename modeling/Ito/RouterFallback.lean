import Ito.Library.WrappingInt
import Ito.SmartOrderRouter

/-! The venues that one call of the router asks.

The loop of `submit` asks the ranked routes one after the other and goes on only after an
answer that leaves the order without a venue: none at all, or a rejection. -/

namespace Ito.SmartOrderRouter

variable {A Answer : Type} [VenueAdapter A Answer]

structure Contact where
  route : RouteDecision
  report : Option ExecutionReport

/-- The contacts of the loop in `submit`, which makes the same tests in the same order. -/
def contacts (policy : RoutingPolicy) (order : NormalizedOrder) (answers : UInt16 → Answer)
    (nowNs : UInt64) : SessionManager A → List RouteDecision → List Contact
  | _, [] => []
  | sessions, route :: routes =>
      match sessions.submit order route.venueId (answers route.venueId) nowNs with
      | (sessions, none) =>
          ⟨route, none⟩ ::
            if !policy.allowBrokerFallback then []
            else contacts policy order answers nowNs sessions routes
      | (sessions, some report) =>
          ⟨route, some report⟩ ::
            if report.status ≠ .unknown ∧ report.status ≠ .rejected then []
            else if report.status = .unknown ∨ !policy.allowBrokerFallback then []
            else contacts policy order answers nowNs sessions routes

/-- The sessions before and after were led through exactly these contacts. -/
inductive Asked (order : NormalizedOrder) (answers : UInt16 → Answer) (nowNs : UInt64) :
    SessionManager A → List Contact → SessionManager A → Prop
  | done (sessions : SessionManager A) : Asked order answers nowNs sessions [] sessions
  | ask {sessions between after : SessionManager A} {route : RouteDecision}
      {report : Option ExecutionReport} {rest : List Contact}
      (answered : sessions.submit order route.venueId (answers route.venueId) nowNs =
        (between, report))
      (later : Asked order answers nowNs between rest after) :
      Asked order answers nowNs sessions (⟨route, report⟩ :: rest) after

/-- A venue may take the order: its candidate passes every bound. -/
structure Passes (policy : RoutingPolicy) (order : NormalizedOrder) (candidate : RouteCandidate) :
    Prop where
  enabled : candidate.enabled = true
  authorized : candidate.authorized = true
  leaseValid : candidate.leaseValid = true
  venueId : candidate.venueId ≠ 0
  brokerId : candidate.brokerId ≠ 0
  displayed : order.quantity.toInt ≤ candidate.displayedQuantity.toInt
  fee : candidate.feeBps.toNat ≤ policy.maxFeeBps.toNat
  price : 0 < candidate.executablePriceTicks.toInt
  limit : order.orderType = .limit → 0 < order.priceTicks.toInt ∧
    |candidate.executablePriceTicks.toInt - order.priceTicks.toInt| ≤
      policy.maxPriceDeviationTicks.toInt ∧
    (order.side = .buy → candidate.executablePriceTicks.toInt ≤ order.priceTicks.toInt) ∧
    (order.side = .sell → order.priceTicks.toInt ≤ candidate.executablePriceTicks.toInt)

/-- The order is on no venue after the contact: no report, or a rejection. -/
def Contact.Open (contact : Contact) : Prop :=
  ∀ report, contact.report = some report → report.status = .rejected

/-- What one call of `submit` does with the contacts it made. -/
structure Disciplined (policy : RoutingPolicy) (order : NormalizedOrder)
    (candidates : List RouteCandidate) (tried : List Contact)
    (result : Option RoutedExecution) : Prop where
  ranked : tried.map Contact.route <+: rank policy order candidates
  filtered : ∀ contact ∈ tried, ∃ candidate ∈ candidates,
    Passes policy order candidate ∧ contact.route = decision policy candidate
  fallback : ∀ contact ∈ tried.dropLast, contact.Open ∧ policy.allowBrokerFallback = true
  stops : ∀ front contact back report, tried = front ++ contact :: back →
    contact.report = some report → report.status ≠ .rejected → back = []
  result : ∀ route report, result = some ⟨route, report⟩ ↔
    tried.getLast? = some ⟨route, some report⟩ ∧ report.status ≠ .unknown ∧
      report.status ≠ .rejected

def continues (policy : RoutingPolicy) (report : Option ExecutionReport) : Bool :=
  policy.allowBrokerFallback && report.all fun report => report.status = .rejected

def outcome (route : RouteDecision) : Option ExecutionReport → Option RoutedExecution
  | none => none
  | some report =>
      if report.status ≠ .unknown ∧ report.status ≠ .rejected then some ⟨route, report⟩ else none

section Loop

variable (policy : RoutingPolicy) (order : NormalizedOrder) (answers : UInt16 → Answer)
  (nowNs : UInt64) {sessions between : SessionManager A} {route : RouteDecision}
  {report : Option ExecutionReport}

theorem contacts_cons
    (answered : sessions.submit order route.venueId (answers route.venueId) nowNs =
      (between, report)) (routes : List RouteDecision) :
    contacts policy order answers nowNs sessions (route :: routes) = ⟨route, report⟩ ::
      if continues policy report then contacts policy order answers nowNs between routes
      else [] := by
  rw [contacts, answered]
  cases report with
  | none => cases fallback : policy.allowBrokerFallback <;> simp [continues, fallback]
  | some report =>
      cases fallback : policy.allowBrokerFallback <;> cases status : report.status <;>
        simp [continues, fallback, status]

theorem submitRoutes_cons
    (answered : sessions.submit order route.venueId (answers route.venueId) nowNs =
      (between, report)) (routes : List RouteDecision) :
    submitRoutes policy order answers nowNs sessions (route :: routes) =
      if continues policy report then submitRoutes policy order answers nowNs between routes
      else (between, outcome route report) := by
  rw [submitRoutes, answered]
  cases report with
  | none => cases fallback : policy.allowBrokerFallback <;> simp [continues, outcome, fallback]
  | some report =>
      cases fallback : policy.allowBrokerFallback <;> cases status : report.status <;>
        simp [continues, outcome, fallback, status]

theorem continues_iff : continues policy report = true ↔
    (Contact.mk route report).Open ∧ policy.allowBrokerFallback = true := by
  cases report <;> simp [continues, Contact.Open, and_comm]

variable (sessions)

theorem asked_contacts (routes : List RouteDecision) :
    Asked order answers nowNs sessions (contacts policy order answers nowNs sessions routes)
      (submitRoutes policy order answers nowNs sessions routes).1 := by
  induction routes generalizing sessions with
  | nil => exact .done sessions
  | cons route routes ih =>
      rcases answered : sessions.submit order route.venueId (answers route.venueId) nowNs with
        ⟨between, report⟩
      rw [contacts_cons policy order answers nowNs answered,
        submitRoutes_cons policy order answers nowNs answered]
      refine .ask answered ?_
      split
      case isTrue => exact ih between
      case isFalse => exact .done between

theorem contacts_prefix (routes : List RouteDecision) :
    (contacts policy order answers nowNs sessions routes).map Contact.route <+: routes := by
  induction routes generalizing sessions with
  | nil => exact List.prefix_rfl
  | cons route routes ih =>
      rcases answered : sessions.submit order route.venueId (answers route.venueId) nowNs with
        ⟨between, report⟩
      rw [contacts_cons policy order answers nowNs answered, List.map_cons, List.cons_prefix_cons]
      refine ⟨rfl, ?_⟩
      split
      case isTrue => exact ih between
      case isFalse => exact List.nil_prefix

theorem contacts_open (routes : List RouteDecision) {front back : List Contact}
    {contact : Contact}
    (split : contacts policy order answers nowNs sessions routes = front ++ contact :: back)
    (more : back ≠ []) : contact.Open ∧ policy.allowBrokerFallback = true := by
  induction routes generalizing sessions front with
  | nil => simp [contacts] at split
  | cons route routes ih =>
      rcases answered : sessions.submit order route.venueId (answers route.venueId) nowNs with
        ⟨between, report⟩
      rw [contacts_cons policy order answers nowNs answered] at split
      cases front with
      | nil =>
          rw [List.nil_append, List.cons.injEq] at split
          obtain ⟨rfl, rest⟩ := split
          apply (continues_iff policy).mp
          by_contra stopped
          rw [if_neg stopped] at rest
          exact more rest.symm
      | cons first front =>
          rw [List.cons_append, List.cons.injEq] at split
          obtain ⟨-, rest⟩ := split
          split at rest
          case isTrue => exact ih between rest
          case isFalse => simp at rest

theorem result_iff (routes : List RouteDecision) (route : RouteDecision)
    (report : ExecutionReport) :
    (submitRoutes policy order answers nowNs sessions routes).2 = some ⟨route, report⟩ ↔
      (contacts policy order answers nowNs sessions routes).getLast? = some ⟨route, some report⟩ ∧
        report.status ≠ .unknown ∧ report.status ≠ .rejected := by
  induction routes generalizing sessions with
  | nil => simp [submitRoutes, contacts]
  | cons first routes ih =>
      rcases answered : sessions.submit order first.venueId (answers first.venueId) nowNs with
        ⟨between, answer⟩
      rw [contacts_cons policy order answers nowNs answered,
        submitRoutes_cons policy order answers nowNs answered]
      split
      case isFalse =>
        cases answer with
        | none => simp [outcome]
        | some answer =>
            simp only [outcome, List.getLast?_singleton, Option.some.injEq, Contact.mk.injEq]
            split <;> grind
      case isTrue going =>
        rw [ih between, List.getLast?_cons]
        cases last : (contacts policy order answers nowNs between routes).getLast? with
        | some contact => simp
        | none =>
            have passed : (Contact.mk first answer).Open := ((continues_iff policy).mp going).1
            simp only [reduceCtorEq, false_and, Option.getD_none, Option.some.injEq,
              Contact.mk.injEq, false_iff, not_and, Classical.not_not]
            rintro ⟨-, rfl⟩ -
            exact passed report rfl

end Loop

theorem deviation_eq {executable price : Int64} (first : 0 < executable.toInt)
    (second : 0 < price.toInt) :
    (executable - price).abs.toInt = |executable.toInt - price.toInt| := by
  have firstTop := executable.toInt_lt
  have secondTop := price.toInt_lt
  have difference : (executable - price).toInt = executable.toInt - price.toInt :=
    WrappingInt.toInt_sub_of_fits (by omega) (by omega)
  rw [WrappingInt.toInt_abs_of_fits (by omega), difference]

theorem passes_of_eligible {policy : RoutingPolicy} {order : NormalizedOrder}
    {candidate : RouteCandidate} (chosen : eligible policy order candidate = true) :
    Passes policy order candidate := by
  simp only [eligible, Bool.and_eq_true, decide_eq_true_eq, Bool.or_eq_true] at chosen
  obtain ⟨⟨⟨⟨⟨⟨⟨⟨enabled, authorized⟩, leaseValid⟩, venueId⟩, brokerId⟩, displayed⟩, fee⟩, price⟩,
    limit⟩ := chosen
  have positive : 0 < candidate.executablePriceTicks.toInt := Int64.lt_iff_toInt_lt.mp price
  refine ⟨enabled, authorized, leaseValid, venueId, brokerId, Int64.le_iff_toInt_le.mp displayed,
    UInt32.le_iff_toNat_le.mp fee, positive, ?_⟩
  intro limited
  obtain ⟨⟨⟨priced, deviation⟩, buy⟩, sell⟩ := limit.resolve_left (fun market => market limited)
  have bound : 0 < order.priceTicks.toInt := Int64.lt_iff_toInt_lt.mp priced
  rw [Int64.le_iff_toInt_le, deviation_eq positive bound] at deviation
  refine ⟨bound, deviation, ?_, ?_⟩
  · intro side
    have notAbove : ¬ order.priceTicks < candidate.executablePriceTicks := by
      simpa [side] using buy
    exact Int64.le_iff_toInt_le.mp (Int64.not_lt.mp notAbove)
  · intro side
    have notBelow : ¬ candidate.executablePriceTicks < order.priceTicks := by
      simpa [side] using sell
    exact Int64.le_iff_toInt_le.mp (Int64.not_lt.mp notBelow)

theorem mem_rank {policy : RoutingPolicy} {order : NormalizedOrder}
    {candidates : List RouteCandidate} {route : RouteDecision} :
    route ∈ rank policy order candidates ↔
      ∃ candidate ∈ candidates, eligible policy order candidate = true ∧
        decision policy candidate = route := by
  rw [rank, (List.perm_insertionSort _ _).mem_iff, List.mem_map]
  simp only [List.mem_filter, and_assoc]

/-- One call asks a prefix of the ranked venues, each of which passed the filter, goes on only
where nothing took the order, and returns exactly the last report that did. -/
theorem fallback_discipline (policy : RoutingPolicy) (sessions : SessionManager A)
    (order : NormalizedOrder) (candidates : List RouteCandidate) (answers : UInt16 → Answer)
    (nowNs : UInt64) :
    Asked order answers nowNs sessions
        (contacts policy order answers nowNs sessions (rank policy order candidates))
        (submit policy sessions order candidates answers nowNs).1 ∧
      Disciplined policy order candidates
        (contacts policy order answers nowNs sessions (rank policy order candidates))
        (submit policy sessions order candidates answers nowNs).2 := by
  have ranked := contacts_prefix policy order answers nowNs sessions (rank policy order candidates)
  refine ⟨asked_contacts policy order answers nowNs sessions _, ranked, ?_, ?_, ?_, ?_⟩
  · intro contact asked
    have member : contact.route ∈ rank policy order candidates :=
      ranked.subset (List.mem_map_of_mem asked)
    obtain ⟨candidate, listed, chosen, same⟩ := mem_rank.mp member
    exact ⟨candidate, listed, passes_of_eligible chosen, same.symm⟩
  · intro contact earlier
    obtain ⟨front, back, split⟩ := List.append_of_mem earlier
    have whole := List.dropLast_concat_getLast (List.ne_nil_of_mem (List.dropLast_subset _ earlier))
    rw [split, List.append_assoc, List.cons_append] at whole
    exact contacts_open policy order answers nowNs sessions _ whole.symm (by simp)
  · intro front contact back report split answered accepted
    by_contra more
    exact accepted ((contacts_open policy order answers nowNs sessions _ split more).1 report answered)
  · intro route report
    exact result_iff policy order answers nowNs sessions _ route report

end Ito.SmartOrderRouter
