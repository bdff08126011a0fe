import Ito.Library.Machine
import Ito.NetworkEffects
import Ito.SmartOrderRouter

/-! Retries of one order through the router.

A network session that has sent the order answers with an unknown report, which
the router turns into no execution at all. The caller cannot tell this from an
order that found no route, and the next call passes over the uncertain session
like over any other that is not ready. -/

namespace Ito.RouterRetry

open NetworkVenueAdapter

abbrev Sessions := SessionManager NetworkVenueAdapter

inductive Op where
  | submit (candidates : List RouteCandidate) (networks : UInt16 → Network) (nowNs : UInt64)
  | poll (networks : UInt16 → Network) (nowNs : UInt64)

inductive Output where
  | routed (result : Option RoutedExecution)
  | reports (reports : List ExecutionReport)

def Output.unrouted : Output → Bool
  | .routed (some _) => false
  | _ => true

def step (policy : RoutingPolicy) (order : NormalizedOrder) (sessions : Sessions) :
    Op → Option (Sessions × Output)
  | .submit candidates networks nowNs =>
      let (sessions, result) :=
        SmartOrderRouter.submit policy sessions order candidates networks nowNs
      some (sessions, .routed result)
  | .poll networks nowNs =>
      let (sessions, reports) := sessions.pollAll networks nowNs
      some (sessions, .reports reports)

def Quiet (order : NormalizedOrder) : Op → Prop
  | .submit _ _ _ => True
  | .poll networks _ => ∀ venueId, Silent (networks venueId) order.clientOrderId

def sentOn (sessions : Sessions) (venueId : UInt16) : List Bytes :=
  ((sessions.adapter? venueId).map fun adapter => adapter.connector.sent).getD []

def PendingOn (order : NormalizedOrder) (sessions : Sessions) (venueId : UInt16) : Prop :=
  ∃ adapter, sessions.adapter? venueId = some adapter ∧ order.clientOrderId ∈ adapter.pending

def TakesOn (order : NormalizedOrder) (networks : UInt16 → Network) (sessions : Sessions)
    (venueId : UInt16) : Prop :=
  ∃ adapter, sessions.adapter? venueId = some adapter ∧
    adapter.Takes (networks venueId) order

instance (order : NormalizedOrder) (networks : UInt16 → Network) (sessions : Sessions)
    (venueId : UInt16) : Decidable (TakesOn order networks sessions venueId) :=
  decidable_of_iff
    ((sessions.adapter? venueId).any fun adapter => adapter.Takes (networks venueId) order)
    (by simp [TakesOn, Option.any_eq_true])

def Outstanding (order : NormalizedOrder) (sessions : Sessions) : Prop :=
  ∃ session ∈ sessions.sessions.entries, order.clientOrderId ∈ session.2.adapter.pending

instance (order : NormalizedOrder) (sessions : Sessions) :
    Decidable (Outstanding order sessions) :=
  inferInstanceAs (Decidable (∃ session ∈ sessions.sessions.entries,
    order.clientOrderId ∈ session.2.adapter.pending))

/-- The routes the loop may come to: without fallback it stops after the first. -/
def reachable (policy : RoutingPolicy) (routes : List RouteDecision) : List RouteDecision :=
  if policy.allowBrokerFallback then routes else routes.take 1

/-- While the order is outstanding, no route of a retry leads to a session that
would take it as well. -/
def Calm (policy : RoutingPolicy) (order : NormalizedOrder) (sessions : Sessions) : Op → Prop
  | .submit candidates networks _ =>
      Outstanding order sessions →
        ∀ route ∈ reachable policy (SmartOrderRouter.rank policy order candidates),
          ¬ TakesOn order networks sessions route.venueId
  | .poll _ _ => True

instance (policy : RoutingPolicy) (order : NormalizedOrder) (sessions : Sessions) :
    (op : Op) → Decidable (Calm policy order sessions op)
  | .submit candidates networks _ =>
      inferInstanceAs (Decidable (Outstanding order sessions →
        ∀ route ∈ reachable policy (SmartOrderRouter.rank policy order candidates),
          ¬ TakesOn order networks sessions route.venueId))
  | .poll _ _ => isTrue trivial

def NewlySent (order : NormalizedOrder) (start now : Sessions) (venueId : UInt16) : Prop :=
  (sentOn start venueId).count (orderMessage order) < (sentOn now venueId).count (orderMessage order)

def AtMostOneVenue (order : NormalizedOrder) (start now : Sessions) : Prop :=
  ∀ first second, NewlySent order start now first → NewlySent order start now second →
    first = second

theorem outstanding_iff {order : NormalizedOrder} {sessions : Sessions} :
    Outstanding order sessions ↔ ∃ venueId, PendingOn order sessions venueId := by
  simp only [Outstanding, PendingOn, SessionManager.adapter?, Option.map_eq_some_iff,
    SortedMap.find?_eq_some]
  constructor
  · intro waits
    rcases waits with ⟨⟨venueId, entry⟩, member, pending⟩
    exact ⟨venueId, entry.adapter, ⟨entry, member, rfl⟩, pending⟩
  · intro waits
    rcases waits with ⟨venueId, adapter, ⟨entry, member, same⟩, pending⟩
    exact ⟨(venueId, entry), member, by rw [same]; exact pending⟩

structure Still (order : NormalizedOrder) (before after : Sessions) : Prop where
  sent : ∀ venueId, sentOn after venueId = sentOn before venueId
  pending : ∀ venueId, PendingOn order after venueId ↔ PendingOn order before venueId

structure Sends (order : NormalizedOrder) (before after : Sessions) (venueId : UInt16) : Prop where
  sent : sentOn after venueId = sentOn before venueId ++ [orderMessage order]
  fresh : ¬ PendingOn order before venueId
  pending : PendingOn order after venueId
  others : ∀ other, other ≠ venueId → sentOn after other = sentOn before other ∧
    (PendingOn order after other ↔ PendingOn order before other)

theorem still_refl (order : NormalizedOrder) (sessions : Sessions) : Still order sessions sessions :=
  ⟨fun _ => rfl, fun _ => Iff.rfl⟩

theorem Still.trans {order : NormalizedOrder} {first second third : Sessions}
    (left : Still order first second) (right : Still order second third) :
    Still order first third :=
  ⟨fun venueId => (right.sent venueId).trans (left.sent venueId),
    fun venueId => (right.pending venueId).trans (left.pending venueId)⟩

theorem Still.sends {order : NormalizedOrder} {first second third : Sessions} {venueId : UInt16}
    (left : Still order first second) (right : Sends order second third venueId) :
    Sends order first third venueId where
  sent := by rw [right.sent, left.sent]
  fresh pending := right.fresh ((left.pending venueId).mpr pending)
  pending := right.pending
  others other differ := by
    rw [← left.sent, ← left.pending]
    exact right.others other differ

section Session

variable {order : NormalizedOrder} {networks : UInt16 → Network} {before : Sessions}
  {venueId : UInt16} (nowNs : UInt64)

theorem session_takes (takes : TakesOn order networks before venueId) :
    (∃ report, (before.submit order venueId (networks venueId) nowNs).2 = some report ∧
        report.status = .unknown) ∧
      Sends order before (before.submit order venueId (networks venueId) nowNs).1 venueId := by
  rcases takes with ⟨adapter, found, takes⟩
  rcases before.submit_ready order (networks venueId) nowNs found takes.ready with
    ⟨result, adapters⟩
  have taken : VenueAdapter.submit adapter (networks venueId) order nowNs = _ :=
    submit_taken nowNs takes
  rw [taken] at result adapters
  refine ⟨⟨_, result, rfl⟩, ?_⟩
  generalize (before.submit order venueId (networks venueId) nowNs).1 = after at adapters
  have here := adapters venueId
  rw [if_pos rfl] at here
  constructor
  · simp [sentOn, here, found]
  · intro waits
    rcases waits with ⟨waiting, present, pending⟩
    rw [found, Option.some.injEq] at present
    rw [← present] at pending
    exact takes.fresh pending
  · exact ⟨_, here, by simp⟩
  · intro other differ
    have same := adapters other
    rw [if_neg differ] at same
    simp [sentOn, PendingOn, same]

theorem session_refuses (refuses : ¬ TakesOn order networks before venueId) :
    (before.submit order venueId (networks venueId) nowNs).2 = none ∧
      Still order before (before.submit order venueId (networks venueId) nowNs).1 ∧
      ∀ other, TakesOn order networks (before.submit order venueId (networks venueId) nowNs).1 other ↔
        TakesOn order networks before other := by
  by_cases unready : ∀ adapter, before.adapter? venueId = some adapter →
      VenueAdapter.status adapter ≠ .ready
  · rw [before.submit_unready order (networks venueId) nowNs unready]
    exact ⟨rfl, still_refl order before, fun _ => Iff.rfl⟩
  · push Not at unready
    rcases unready with ⟨adapter, found, ready⟩
    rcases before.submit_ready order (networks venueId) nowNs found ready with ⟨result, adapters⟩
    have refused : ¬ adapter.Takes (networks venueId) order := fun takes =>
      refuses ⟨adapter, found, takes⟩
    rcases submit_not_taken nowNs refused with ⟨nothing, pending, sent, again⟩
    have here := adapters venueId
    rw [if_pos rfl] at here
    have elsewhere : ∀ other, other ≠ venueId →
        (before.submit order venueId (networks venueId) nowNs).1.adapter? other =
          before.adapter? other := by
      intro other differ
      rw [adapters other, if_neg differ]
    apply And.intro (result.trans nothing)
    generalize (before.submit order venueId (networks venueId) nowNs).1 = after at here elsewhere
    refine ⟨⟨?_, ?_⟩, ?_⟩ <;> intro other <;> by_cases same : other = venueId
    · subst same
      simp only [sentOn, here, found, Option.map_some, Option.getD_some]
      exact sent
    · simp only [sentOn, elsewhere other same]
    · subst same
      simp only [PendingOn, here, found, Option.some.injEq, exists_eq_left']
      exact iff_of_eq (congrArg (order.clientOrderId ∈ ·) pending)
    · simp only [PendingOn, elsewhere other same]
    · subst same
      apply iff_of_false ?_ refuses
      intro taken
      rcases taken with ⟨retried, present, takes⟩
      rw [here, Option.some.injEq] at present
      rw [← present] at takes
      exact again takes
    · simp only [TakesOn, elsewhere other same]

variable (order networks before)

theorem poll_still (silent : ∀ venueId, Silent (networks venueId) order.clientOrderId) :
    Still order before (before.pollAll networks nowNs).1 := by
  have polled := before.adapter?_pollAll nowNs networks
  constructor
  · intro venueId
    simp only [sentOn, polled, Option.map_map]
    cases before.adapter? venueId with
    | none => rfl
    | some adapter =>
        have connector := (poll_silent nowNs adapter (silent venueId)).1
        exact congrArg EndpointConnector.sent connector
  · intro venueId
    simp only [PendingOn, polled, Option.map_eq_some_iff]
    constructor
    · intro waits
      rcases waits with ⟨_, ⟨adapter, found, same⟩, pending⟩
      rw [← same] at pending
      exact ⟨adapter, found, (poll_silent nowNs adapter (silent venueId)).2.mp pending⟩
    · intro waits
      rcases waits with ⟨adapter, found, pending⟩
      exact ⟨_, ⟨adapter, found, rfl⟩, (poll_silent nowNs adapter (silent venueId)).2.mpr pending⟩

theorem submitRoutes_cases (policy : RoutingPolicy) (routes : List RouteDecision) :
    (SmartOrderRouter.submitRoutes policy order networks nowNs before routes).2 = none ∧
      ((∃ route ∈ reachable policy routes, TakesOn order networks before route.venueId ∧
          Sends order before
            (SmartOrderRouter.submitRoutes policy order networks nowNs before routes).1
            route.venueId) ∨
        ((∀ route ∈ reachable policy routes, ¬ TakesOn order networks before route.venueId) ∧
          Still order before
            (SmartOrderRouter.submitRoutes policy order networks nowNs before routes).1)) := by
  induction routes generalizing before with
  | nil =>
      refine ⟨rfl, .inr ⟨?_, still_refl order before⟩⟩
      simp [reachable]
  | cons route routes ih =>
      have reached : route ∈ reachable policy (route :: routes) := by
        cases fallback : policy.allowBrokerFallback <;> simp [reachable, fallback]
      by_cases takes : TakesOn order networks before route.venueId
      · rcases session_takes nowNs takes with ⟨⟨report, result, unknown⟩, sends⟩
        have asked : before.submit order route.venueId (networks route.venueId) nowNs =
            ((before.submit order route.venueId (networks route.venueId) nowNs).1, some report) :=
          Prod.ext rfl result
        have stops : SmartOrderRouter.submitRoutes policy order networks nowNs before
            (route :: routes) =
              ((before.submit order route.venueId (networks route.venueId) nowNs).1, none) := by
          rw [SmartOrderRouter.submitRoutes, asked]
          simp [unknown]
        rw [stops]
        exact ⟨rfl, .inl ⟨route, reached, takes, sends⟩⟩
      · rcases session_refuses nowNs takes with ⟨result, still, again⟩
        have asked : before.submit order route.venueId (networks route.venueId) nowNs =
            ((before.submit order route.venueId (networks route.venueId) nowNs).1, none) :=
          Prod.ext rfl result
        generalize (before.submit order route.venueId (networks route.venueId) nowNs).1 = next
          at asked still again
        rw [SmartOrderRouter.submitRoutes, asked]
        cases fallback : policy.allowBrokerFallback with
        | false =>
            refine ⟨by simp, .inr ⟨?_, by simpa using still⟩⟩
            simpa [reachable, fallback] using takes
        | true =>
            simp only [Bool.not_true, Bool.false_eq_true, if_false, reachable, fallback, if_true,
              List.mem_cons]
            rcases ih next with ⟨nothing, effect⟩
            simp only [reachable, fallback, if_true] at effect
            apply And.intro nothing
            rcases effect with ⟨later, member, takesLater, sends⟩ | ⟨none_takes, rest⟩
            · exact .inl ⟨later, .inr member, (again _).mp takesLater, still.sends sends⟩
            · refine .inr ⟨?_, still.trans rest⟩
              intro later member takesLater
              rcases member with same | member
              · rw [same] at takesLater
                exact takes takesLater
              · exact none_takes later member ((again _).mpr takesLater)

end Session

/-- One step: either nothing happens to the order, or it goes out on one venue, and
then the step was calm exactly when the order was not outstanding. -/
theorem step_cases {policy : RoutingPolicy} {order : NormalizedOrder} {before after : Sessions}
    {op : Op} {output : Output} (quiet : Quiet order op)
    (ran : step policy order before op = some (after, output)) :
    (Still order before after ∧ Calm policy order before op) ∨
      ∃ venueId, Sends order before after venueId ∧
        (Calm policy order before op ↔ ¬ Outstanding order before) := by
  cases op with
  | submit candidates networks nowNs =>
      simp only [step, Option.some.injEq, Prod.mk.injEq] at ran
      have effect := (submitRoutes_cases order networks before nowNs policy
        (SmartOrderRouter.rank policy order candidates)).2
      rw [← ran.1]
      rcases effect with ⟨route, reached, takes, sends⟩ | ⟨refused, still⟩
      · refine .inr ⟨route.venueId, sends, ?_⟩
        constructor
        · intro calm outstanding
          exact calm outstanding route reached takes
        · intro settled outstanding
          exact absurd outstanding settled
      · exact .inl ⟨still, fun _ => refused⟩
  | poll networks nowNs =>
      simp only [step, Option.some.injEq, Prod.mk.injEq] at ran
      rw [← ran.1]
      exact .inl ⟨poll_still order networks before nowNs quiet, trivial⟩

section Runs

variable {order : NormalizedOrder} {start before after : Sessions} {venueId : UInt16}

theorem Still.newlySent (still : Still order before after) (venueId : UInt16) :
    NewlySent order start after venueId ↔ NewlySent order start before venueId := by
  rw [NewlySent, still.sent, NewlySent]

theorem Sends.newlySent_other (sends : Sends order before after venueId) {other : UInt16}
    (differ : other ≠ venueId) :
    NewlySent order start after other ↔ NewlySent order start before other := by
  rw [NewlySent, (sends.others other differ).1, NewlySent]

def Confined (order : NormalizedOrder) (start now : Sessions) : Prop :=
  (∀ venueId, ¬ NewlySent order start now venueId) ∨
    ∃ venueId, PendingOn order now venueId ∧
      ∀ other, other ≠ venueId → ¬ NewlySent order start now other

theorem Confined.atMostOne (confined : Confined order start before) :
    AtMostOneVenue order start before := by
  intro first second sentFirst sentSecond
  rcases confined with nowhere | ⟨venueId, _, others⟩
  · exact absurd sentFirst (nowhere first)
  · have here : ∀ other, NewlySent order start before other → other = venueId := by
      intro other sent
      by_contra differ
      exact others other differ sent
    rw [here first sentFirst, here second sentSecond]

theorem confined_step {policy : RoutingPolicy} {op : Op} {output : Output}
    (confined : Confined order start before) (quiet : Quiet order op)
    (ran : step policy order before op = some (after, output))
    (calm : Calm policy order before op) : Confined order start after := by
  rcases step_cases quiet ran with ⟨still, _⟩ | ⟨venueId, sends, settled⟩
  · rcases confined with nowhere | ⟨waiting, pending, others⟩
    · exact .inl fun other sent => nowhere other ((still.newlySent other).mp sent)
    · refine .inr ⟨waiting, (still.pending waiting).mpr pending, ?_⟩
      intro other differ sent
      exact others other differ ((still.newlySent other).mp sent)
  · -- a calm step that sends finds the order outstanding nowhere
    have none_waits := settled.mp calm
    rcases confined with nowhere | ⟨waiting, pending, _⟩
    · refine .inr ⟨venueId, sends.pending, ?_⟩
      intro other differ sent
      exact nowhere other ((sends.newlySent_other differ).mp sent)
    · exact absurd (outstanding_iff.mpr ⟨waiting, pending⟩) none_waits

structure Traced (order : NormalizedOrder) (start now : Sessions) : Prop where
  sent : ∀ venueId, PendingOn order now venueId ↔ NewlySent order start now venueId
  keeps : ∀ venueId, (sentOn start venueId).count (orderMessage order) ≤
    (sentOn now venueId).count (orderMessage order)

theorem traced_start (settled : ¬ Outstanding order start) : Traced order start start where
  sent venueId := by
    apply iff_of_false
    · intro pending
      exact settled (outstanding_iff.mpr ⟨venueId, pending⟩)
    · exact lt_irrefl _
  keeps _ := le_refl _

theorem Sends.newlySent (sends : Sends order before after venueId)
    (traced : Traced order start before) : NewlySent order start after venueId := by
  have kept := traced.keeps venueId
  rw [NewlySent, sends.sent, List.count_append, List.count_singleton_self]
  omega

theorem traced_step {policy : RoutingPolicy} {op : Op} {output : Output}
    (traced : Traced order start before) (quiet : Quiet order op)
    (ran : step policy order before op = some (after, output)) : Traced order start after := by
  rcases step_cases quiet ran with ⟨still, _⟩ | ⟨venueId, sends, _⟩
  · constructor
    · intro venueId
      rw [still.pending, still.newlySent, traced.sent]
    · intro venueId
      rw [still.sent]
      exact traced.keeps venueId
  · constructor
    · intro other
      by_cases same : other = venueId
      · rw [same]
        exact iff_of_true sends.pending (sends.newlySent traced)
      · rw [(sends.others other same).2, sends.newlySent_other same, traced.sent]
    · intro other
      by_cases same : other = venueId
      · rw [same]
        exact (sends.newlySent traced).le
      · rw [(sends.others other same).1]
        exact traced.keeps other

theorem calm_of_atMostOne {policy : RoutingPolicy} {op : Op} {output : Output}
    (traced : Traced order start before) (quiet : Quiet order op)
    (ran : step policy order before op = some (after, output))
    (single : AtMostOneVenue order start after) : Calm policy order before op := by
  rcases step_cases quiet ran with ⟨_, calm⟩ | ⟨venueId, sends, settled⟩
  · exact calm
  · apply settled.mpr
    intro outstanding
    rcases outstanding_iff.mp outstanding with ⟨waiting, pending⟩
    have differ : waiting ≠ venueId := by
      intro same
      rw [same] at pending
      exact sends.fresh pending
    have earlier := (sends.newlySent_other differ).mpr ((traced.sent waiting).mp pending)
    exact differ (single waiting venueId earlier (sends.newlySent traced))

theorem along_unrouted (policy : RoutingPolicy) (order : NormalizedOrder) (start : Sessions)
    (ops : List Op) :
    Machine.Along (step policy order) (fun _ _ output _ => output.unrouted = true) start ops := by
  apply Machine.along_of_invariant (fun _ => True) ?_ trivial ops
  intro before op output after _ ran
  cases op with
  | submit candidates networks nowNs =>
      have nothing := (submitRoutes_cases order networks before nowNs policy
        (SmartOrderRouter.rank policy order candidates)).1
      simp only [step, SmartOrderRouter.submit, nothing, Option.some.injEq, Prod.mk.injEq] at ran
      rw [← ran.2]
      exact ⟨rfl, trivial⟩
  | poll networks nowNs =>
      simp only [step, Option.some.injEq, Prod.mk.injEq] at ran
      rw [← ran.2]
      exact ⟨rfl, trivial⟩

/-- In every run of calm retries and quiet polls the order goes out on at most one
venue. From sessions that do not wait for the order, no other run does so. -/
theorem single_venue (policy : RoutingPolicy) (order : NormalizedOrder) (start : Sessions)
    (ops : List Op) (quiet : ∀ op ∈ ops, Quiet order op) :
    (Machine.Along (step policy order) (fun before op _ _ => Calm policy order before op) start ops →
      Machine.Along (step policy order) (fun _ _ _ after => AtMostOneVenue order start after)
        start ops) ∧
    (¬ Outstanding order start →
      (Machine.Along (step policy order) (fun _ _ _ after => AtMostOneVenue order start after)
          start ops ↔
        Machine.Along (step policy order) (fun before op _ _ => Calm policy order before op)
          start ops)) := by
  have untouched : Confined order start start := .inl fun _ => lt_irrefl _
  constructor
  · intro calm
    apply Machine.along_of_keep (Confined order start) ?_ untouched quiet calm
    intro before op output after confined silent ran calmly
    have kept := confined_step confined silent ran calmly
    exact ⟨kept.atMostOne, kept⟩
  · intro settled
    apply Machine.along_iff (fun now => Confined order start now ∧ Traced order start now) ?_
      ⟨untouched, traced_start settled⟩ quiet
    intro before op output after held silent ran
    rcases held with ⟨confined, traced⟩
    have keeps : Calm policy order before op →
        Confined order start after ∧ Traced order start after := fun calmly =>
      ⟨confined_step confined silent ran calmly, traced_step traced silent ran⟩
    constructor
    · constructor
      · exact calm_of_atMostOne traced silent ran
      · intro calmly
        exact (keeps calmly).1.atMostOne
    · exact keeps

end Runs

def sampleOrder : NormalizedOrder := ⟨1001, 1001, 101, 201, .buy, .limit, .day, 100, 10, 7⟩

def sampleCandidate (venueId brokerId : UInt16) (rank : UInt32) : RouteCandidate :=
  { venueId, brokerId, executablePriceTicks := 100, displayedQuantity := 100, feeBps := 2, rank
    enabled := true, authorized := true, leaseValid := true }

def bothCandidates : List RouteCandidate := [sampleCandidate 5 8 1, sampleCandidate 6 9 2]

def sampleAdapter (venueId brokerId : UInt16) : NetworkVenueAdapter :=
  .create ⟨⟨venueId, brokerId, .exchange, .binary, "venue", "us"⟩, true⟩ ⟨true, true⟩

def silentNetwork : Network := ⟨true, true, none⟩

def twoReady : Sessions :=
  let added := (((({} : Sessions).add (sampleAdapter 5 8) 1).1).add (sampleAdapter 6 9) 1).1
  ((added.connect 5 silentNetwork 2).1.connect 6 silentNetwork 2).1

theorem silentNetwork_silent (clientOrderId : UInt64) : Silent silentNetwork clientOrderId := by
  intro connector raw received
  simp [EndpointConnector.receive, silentNetwork] at received

def retryOps (retried : List RouteCandidate) : List Op :=
  [.submit bothCandidates (fun _ => silentNetwork) 3, .poll (fun _ => silentNetwork) 4,
    .submit retried (fun _ => silentNetwork) 5]

theorem retryOps_quiet (retried : List RouteCandidate) :
    ∀ op ∈ retryOps retried, Quiet sampleOrder op := by
  simp [retryOps, Quiet, silentNetwork_silent]

/-- The first venue is left uncertain and the retry sends the order to the second. -/
theorem retry_reaches_second_venue :
    ¬ ∀ (policy : RoutingPolicy) (order : NormalizedOrder) (start : Sessions) (ops : List Op),
      ¬ Outstanding order start → (∀ op ∈ ops, Quiet order op) →
      Machine.Along (step policy order) (fun _ _ output _ => output.unrouted = true) start ops →
        Machine.Along (step policy order) (fun _ _ _ after => AtMostOneVenue order start after)
          start ops := by
  intro always
  have along := always {} sampleOrder twoReady (retryOps bothCandidates) (by decide +kernel)
    (retryOps_quiet bothCandidates) (along_unrouted {} sampleOrder twoReady _)
  have both : (Machine.exec (step {} sampleOrder) twoReady (retryOps bothCandidates)).map
      (fun result => (sentOn result.1 5, sentOn result.1 6)) =
        some ([orderMessage sampleOrder], [orderMessage sampleOrder]) := by decide +kernel
  cases ran : Machine.exec (step {} sampleOrder) twoReady (retryOps bothCandidates) with
  | none => simp [ran] at both
  | some result =>
      rw [ran, Option.map_some, Option.some.injEq, Prod.mk.injEq] at both
      have nothing : sentOn twoReady 5 = [] ∧ sentOn twoReady 6 = [] := by decide +kernel
      have single : AtMostOneVenue sampleOrder twoReady result.1 :=
        Machine.last_of_along (fun _ _ sent => absurd sent (lt_irrefl _)) along ran
      have first : NewlySent sampleOrder twoReady result.1 5 := by
        simp [NewlySent, both.1, nothing.1]
      have second : NewlySent sampleOrder twoReady result.1 6 := by
        simp [NewlySent, both.2, nothing.2]
      exact absurd (single 5 6 first second) (by decide)

theorem retry_on_first_venue :
    Machine.Along (step {} sampleOrder)
      (fun _ _ _ after => AtMostOneVenue sampleOrder twoReady after) twoReady
      (retryOps [sampleCandidate 5 8 1]) := by
  apply (single_venue {} sampleOrder twoReady _ (retryOps_quiet _)).1
  decide +kernel

end Ito.RouterRetry
