import Ito.SessionManager
import Mathlib.Data.List.Sort

/-! The smart order router: which venues may take an order, in which order they
are tried, and when the router stops.

Source: `cpp/ito_routing/smart_order_router.cpp`. The sessions are a reference
there; here they are passed through. -/

namespace Ito

structure RouteCandidate where
  venueId : UInt16
  brokerId : UInt16
  executablePriceTicks : Int64
  displayedQuantity : Int64
  feeBps : UInt32
  rank : UInt32
  enabled : Bool
  authorized : Bool
  leaseValid : Bool
  latencyNs : UInt64 := 0
  hasSpeedBump : Bool := false
  historicalFillRate : Float := 1.0

structure RoutingPolicy where
  maxFeeBps : UInt32 := 100
  maxPriceDeviationTicks : Int64 := 500
  allowBrokerFallback : Bool := true
  latencyPenaltyBpsPerUs : Float := 0.0
  speedBumpDelayNs : UInt64 := 350000

structure RouteDecision where
  venueId : UInt16
  brokerId : UInt16
  priceTicks : Int64
  feeBps : UInt32
  rank : UInt32
  totalLatencyNs : UInt64
  effectiveCostBps : Float

structure RoutedExecution where
  route : RouteDecision
  report : ExecutionReport

namespace SmartOrderRouter

/-- The filter of `rank`. Both prices are positive where they are subtracted, so
the deviation does not overflow. -/
def eligible (policy : RoutingPolicy) (order : NormalizedOrder) (candidate : RouteCandidate) : Bool :=
  candidate.enabled && candidate.authorized && candidate.leaseValid && candidate.venueId ≠ 0 &&
    candidate.brokerId ≠ 0 && order.quantity ≤ candidate.displayedQuantity &&
    candidate.feeBps ≤ policy.maxFeeBps && 0 < candidate.executablePriceTicks &&
    (order.orderType ≠ .limit ||
      (0 < order.priceTicks &&
        (candidate.executablePriceTicks - order.priceTicks).abs ≤ policy.maxPriceDeviationTicks &&
        !(order.side = .buy && order.priceTicks < candidate.executablePriceTicks) &&
        !(order.side = .sell && candidate.executablePriceTicks < order.priceTicks)))

def decision (policy : RoutingPolicy) (candidate : RouteCandidate) : RouteDecision :=
  let totalLatency :=
    if candidate.hasSpeedBump then candidate.latencyNs + policy.speedBumpDelayNs
    else candidate.latencyNs
  let latencyPenalty := (totalLatency.toFloat / 1000.0) * policy.latencyPenaltyBpsPerUs
  let fillDiscount :=
    if candidate.historicalFillRate > 0.0 then 1.0 / candidate.historicalFillRate else 2.0
  let effectiveCost := (candidate.feeBps.toFloat + latencyPenalty) * fillDiscount
  ⟨candidate.venueId, candidate.brokerId, candidate.executablePriceTicks, candidate.feeBps,
    candidate.rank, totalLatency, effectiveCost⟩

def less (left right : RouteDecision) : Bool :=
  if left.rank ≠ right.rank then left.rank < right.rank
  else if left.effectiveCostBps != right.effectiveCostBps then
    left.effectiveCostBps < right.effectiveCostBps
  else if left.feeBps ≠ right.feeBps then left.feeBps < right.feeBps
  else left.venueId < right.venueId

/-- The sort is stable: a route is put before the first one that is not less. -/
def rank (policy : RoutingPolicy) (order : NormalizedOrder) (candidates : List RouteCandidate) :
    List RouteDecision :=
  ((candidates.filter (eligible policy order)).map (decision policy)).insertionSort
    fun left right => less right left = false

variable {A Answer : Type} [VenueAdapter A Answer]

/-- The loop of `submit`. A venue answers alike whenever it is asked in one call. -/
def submitRoutes (policy : RoutingPolicy) (order : NormalizedOrder) (answers : UInt16 → Answer)
    (nowNs : UInt64) :
    SessionManager A → List RouteDecision → SessionManager A × Option RoutedExecution
  | sessions, [] => (sessions, none)
  | sessions, route :: routes =>
      match sessions.submit order route.venueId (answers route.venueId) nowNs with
      | (sessions, none) =>
          if !policy.allowBrokerFallback then (sessions, none)
          else submitRoutes policy order answers nowNs sessions routes
      | (sessions, some report) =>
          if report.status ≠ .unknown ∧ report.status ≠ .rejected then
            (sessions, some ⟨route, report⟩)
          else if report.status = .unknown ∨ !policy.allowBrokerFallback then (sessions, none)
          else submitRoutes policy order answers nowNs sessions routes

def submit (policy : RoutingPolicy) (sessions : SessionManager A) (order : NormalizedOrder)
    (candidates : List RouteCandidate) (answers : UInt16 → Answer) (nowNs : UInt64) :
    SessionManager A × Option RoutedExecution :=
  submitRoutes policy order answers nowNs sessions (rank policy order candidates)

end SmartOrderRouter

end Ito
