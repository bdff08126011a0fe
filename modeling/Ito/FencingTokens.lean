import Ito.LeaseStore

/-! Fencing tokens count the acquires of a resource, over every history of the store.

The token map survives releases, so a lease of an earlier acquire never equals the stored one. -/

namespace Ito.LeaseStore

inductive Effect (store : InMemoryLeaseStore) : InMemoryLeaseStore → Output → Prop where
  | quiet {out : Output} (silent : ∀ resource, granted resource out = none)
      (nothing : ∀ op, issued [(op, out)] = []) : Effect store store out
  | granted (lease : Lease)
      (next : lease.fencingToken = (store.tokens.find? lease.resource).getD 0 + 1) :
      Effect store
        { leases := store.leases.set lease.resource lease
          tokens := store.tokens.set lease.resource lease.fencingToken } (.acquired (some lease))
  | renewed (lease renewed : Lease) (held : store.leases.find? lease.resource = some lease)
      (resource : renewed.resource = lease.resource)
      (token : renewed.fencingToken = lease.fencingToken) :
      Effect store { store with leases := store.leases.set lease.resource renewed }
        (.renewed (some renewed))
  | released (lease : Lease) :
      Effect store { store with leases := store.leases.erase lease.resource } (.released true)

section Calls

variable {store next : InMemoryLeaseStore}

theorem acquire_invalid {resource ownerId : String} {nowNs ttlNs : Int}
    (invalid : ¬ Requests resource ownerId nowNs ttlNs) :
    acquire store resource ownerId nowNs ttlNs = .error "lease_request_invalid" := by
  rw [acquire, if_pos]
  rw [Requests] at invalid
  by_contra valid
  rw [not_or, not_or, not_or] at valid
  exact invalid ⟨valid.1, valid.2.1, by omega, by omega⟩

theorem acquire_valid {resource ownerId : String} {nowNs ttlNs : Int}
    (valid : Requests resource ownerId nowNs ttlNs) :
    acquire store resource ownerId nowNs ttlNs =
      if (store.leases.find? resource).any fun current => current.expiresAtNs > nowNs then
        .ok (store, none)
      else
        let token := (store.tokens.find? resource).getD 0 + 1
        let lease : Lease := ⟨resource, ownerId, token, nowNs + ttlNs⟩
        .ok ({ leases := store.leases.set resource lease
               tokens := store.tokens.set resource token }, some lease) := by
  rcases valid with ⟨named, owned, clock, ttl⟩
  rw [acquire, if_neg]
  rw [not_or, not_or, not_or]
  exact ⟨named, owned, by omega, by omega⟩

theorem step_effect {op : Op} {out : Output} (stepped : step store op = some (next, out)) :
    Effect store next out := by
  cases op with
  | acquire resource ownerId nowNs ttlNs =>
      rw [step] at stepped
      by_cases valid : Requests resource ownerId nowNs ttlNs
      · rw [acquire_valid valid] at stepped
        by_cases taken :
            (store.leases.find? resource).any fun current => current.expiresAtNs > nowNs
        · rw [if_pos taken] at stepped
          cases stepped
          exact .quiet (fun _ => rfl) fun _ => rfl
        · rw [if_neg taken] at stepped
          cases stepped
          exact .granted ⟨resource, ownerId, _, nowNs + ttlNs⟩ rfl
      · rw [acquire_invalid valid] at stepped
        cases stepped
        exact .quiet (fun _ => rfl) fun _ => rfl
  | renew lease nowNs ttlNs =>
      rw [step, renew] at stepped
      split at stepped
      case isTrue =>
        cases stepped
        exact .quiet (fun _ => rfl) fun _ => rfl
      case isFalse renews =>
        cases stepped
        rw [not_or, not_ne_iff] at renews
        exact .renewed lease _ renews.1 rfl rfl
  | release lease =>
      rw [step, release] at stepped
      split at stepped
      case isTrue =>
        cases stepped
        exact .quiet (fun _ => rfl) fun _ => rfl
      case isFalse =>
        cases stepped
        exact .released lease

end Calls

theorem tokensOf_append (resource : String) (log : Log) (op : Op) (out : Output) :
    tokensOf resource (log ++ [(op, out)]) =
      tokensOf resource log ++ ((granted resource out).map (·.fencingToken)).toList := by
  cases given : granted resource out <;> simp [tokensOf, given]

theorem issued_append (log : Log) (op : Op) (out : Output) :
    issued (log ++ [(op, out)]) = issued log ++ issued [(op, out)] :=
  List.filterMap_append

/-- The number of successful acquires of a resource. -/
def acquires (resource : String) (log : Log) : Nat := (tokensOf resource log).length

theorem granted_self (log : Log) (op : Op) (lease : Lease) :
    tokensOf lease.resource (log ++ [(op, .acquired (some lease))]) =
        tokensOf lease.resource log ++ [lease.fencingToken] ∧
      acquires lease.resource (log ++ [(op, .acquired (some lease))]) =
        acquires lease.resource log + 1 := by
  have given : granted lease.resource (.acquired (some lease)) = some lease := if_pos rfl
  rw [acquires, tokensOf_append, given, List.length_append]
  exact ⟨rfl, rfl⟩

/-- The token of the latest successful acquire of the resource. -/
def Latest (resource : String) (log : Log) (token : Int) : Prop :=
  (tokensOf resource log).getLast? = some token

structure Invariant (log : Log) (store : InMemoryLeaseStore) : Prop where
  counted : ∀ resource, (store.tokens.find? resource).getD 0 = acquires resource log
  ordered : ∀ resource,
    tokensOf resource log = (List.range (acquires resource log)).map fun n : Nat => (n : Int) + 1
  stored : ∀ resource lease, store.leases.find? resource = some lease →
    lease.resource = resource ∧ Latest resource log lease.fencingToken
  issued : ∀ lease ∈ issued log, lease.fencingToken ≤ acquires lease.resource log

theorem latest_eq {log : Log} {store : InMemoryLeaseStore} (inv : Invariant log store)
    {resource : String} {token : Int} (latest : Latest resource log token) :
    token = acquires resource log := by
  rw [Latest, inv.ordered resource] at latest
  cases count : acquires resource log with
  | zero =>
      rw [count] at latest
      cases latest
  | succ n =>
      rw [count, List.range_succ, List.map_append, List.map_singleton,
        List.getLast?_concat, Option.some.injEq] at latest
      rw [← latest]
      rfl

theorem silent_append {resource : String} {out : Output} (silent : granted resource out = none)
    (log : Log) (op : Op) :
    tokensOf resource (log ++ [(op, out)]) = tokensOf resource log ∧
      acquires resource (log ++ [(op, out)]) = acquires resource log := by
  rw [acquires, tokensOf_append, silent, acquires]
  simp

theorem silent_invariant {log : Log} {store next : InMemoryLeaseStore} {op : Op} {out : Output}
    (inv : Invariant log store) (silent : ∀ resource, granted resource out = none)
    (tokens : next.tokens = store.tokens)
    (stored : ∀ resource lease, next.leases.find? resource = some lease →
      lease.resource = resource ∧ Latest resource log lease.fencingToken)
    (fresh : ∀ lease ∈ issued [(op, out)], lease.fencingToken ≤ acquires lease.resource log) :
    Invariant (log ++ [(op, out)]) next := by
  have same : ∀ resource, acquires resource (log ++ [(op, out)]) = acquires resource log :=
    fun resource => (silent_append (silent resource) log op).2
  refine ⟨?_, ?_, ?_, ?_⟩
  · intro resource
    rw [same, tokens]
    exact inv.counted resource
  · intro resource
    rw [same, (silent_append (silent resource) log op).1]
    exact inv.ordered resource
  · intro resource lease found
    rw [Latest, (silent_append (silent resource) log op).1]
    exact stored resource lease found
  · intro lease member
    rw [same]
    rw [issued_append, List.mem_append] at member
    rcases member with old | new
    · exact inv.issued lease old
    · exact fresh lease new

theorem granted_invariant {log : Log} {store : InMemoryLeaseStore} (op : Op) {lease : Lease}
    (inv : Invariant log store)
    (token : lease.fencingToken = (store.tokens.find? lease.resource).getD 0 + 1) :
    Invariant (log ++ [(op, .acquired (some lease))])
      { leases := store.leases.set lease.resource lease
        tokens := store.tokens.set lease.resource lease.fencingToken } := by
  have counted : lease.fencingToken = (acquires lease.resource log : Int) + 1 := by
    rw [token, inv.counted]
  have self := granted_self log op lease
  have other : ∀ resource, resource ≠ lease.resource →
      granted resource (.acquired (some lease)) = none :=
    fun resource differ => if_neg differ.symm
  refine ⟨?_, ?_, ?_, ?_⟩
  · intro resource
    rw [SortedMap.find?_set]
    by_cases same : resource = lease.resource
    · rw [if_pos same, same, self.2, Option.getD_some, counted]
      rfl
    · rw [if_neg same, (silent_append (other resource same) log op).2]
      exact inv.counted resource
  · intro resource
    by_cases same : resource = lease.resource
    · rw [same, self.1, self.2, inv.ordered, List.range_succ, List.map_append, counted]
      rfl
    · rw [(silent_append (other resource same) log op).1,
        (silent_append (other resource same) log op).2]
      exact inv.ordered resource
  · intro resource held found
    rw [SortedMap.find?_set] at found
    by_cases same : resource = lease.resource
    · rw [if_pos same, Option.some.injEq] at found
      rw [← found, same, Latest, self.1]
      exact ⟨rfl, List.getLast?_concat⟩
    · rw [if_neg same] at found
      rw [Latest, (silent_append (other resource same) log op).1]
      exact inv.stored resource held found
  · intro held member
    rw [issued_append, List.mem_append] at member
    by_cases same : held.resource = lease.resource
    · rw [same, self.2]
      rcases member with old | new
      · have bound := inv.issued held old
        rw [same] at bound
        omega
      · rw [List.mem_singleton.mp new, counted]
        omega
    · rcases member with old | new
      · rw [(silent_append (other held.resource same) log op).2]
        exact inv.issued held old
      · exact absurd (congrArg Lease.resource (List.mem_singleton.mp new)) same

theorem step_invariant {log : Log} {store next : InMemoryLeaseStore} {op : Op} {out : Output}
    (inv : Invariant log store) (stepped : step store op = some (next, out)) :
    Invariant (log ++ [(op, out)]) next := by
  cases step_effect stepped with
  | quiet silent nothing =>
      apply silent_invariant inv silent rfl inv.stored
      intro lease member
      rw [nothing] at member
      cases member
  | granted lease token => exact granted_invariant op inv token
  | renewed lease renewed held resource token =>
      have stored := inv.stored lease.resource lease held
      apply silent_invariant inv
      · intro name
        rfl
      · rfl
      · intro name kept found
        rw [SortedMap.find?_set] at found
        by_cases same : name = lease.resource
        · rw [if_pos same, Option.some.injEq] at found
          rw [← found, same, token]
          exact ⟨resource, stored.2⟩
        · rw [if_neg same] at found
          exact inv.stored name kept found
      · intro kept member
        rw [List.mem_singleton.mp member, resource, token]
        exact (latest_eq inv stored.2).le
  | released lease =>
      apply silent_invariant inv
      · intro name
        rfl
      · rfl
      · intro name kept found
        rw [SortedMap.find?_erase] at found
        split at found
        · cases found
        · exact inv.stored name kept found
      · intro kept member
        cases member

theorem initial_invariant : Invariant [] {} where
  counted := fun _ => rfl
  ordered := fun _ => rfl
  stored := fun _ _ found => by cases found
  issued := fun _ member => by cases member

theorem reached_invariant {ops : List Op} {store : InMemoryLeaseStore} {log : Log}
    (ran : Machine.exec step {} ops = some (store, log)) : Invariant log store :=
  Machine.exec_invariant Invariant (fun _ _ _ _ _ inv stepped => step_invariant inv stepped)
    initial_invariant ran

theorem acquires_append (resource : String) (front back : Log) :
    acquires resource (front ++ back) = acquires resource front + acquires resource back := by
  rw [acquires, tokensOf, List.filterMap_append, List.length_append]
  rfl

theorem stale_not_stored {ops : List Op} {store : InMemoryLeaseStore} {front back : Log} {op : Op}
    {newer lease : Lease}
    (ran : Machine.exec step {} ops =
      some (store, front ++ (op, .acquired (some newer)) :: back))
    (old : lease ∈ issued front) (same : lease.resource = newer.resource) :
    store.leases.find? lease.resource ≠ some lease := by
  intro held
  rcases Machine.exec_front ran with ⟨earlier, before⟩
  have bound := (reached_invariant before).issued lease old
  have inv := reached_invariant ran
  have latest := latest_eq inv (inv.stored lease.resource lease held).2
  have given : granted newer.resource (.acquired (some newer)) = some newer := if_pos rfl
  have one : acquires newer.resource ((op, .acquired (some newer)) :: back) =
      acquires newer.resource back + 1 := by
    rw [acquires, tokensOf, List.filterMap_cons, given]
    rfl
  rw [acquires_append, same, one] at latest
  rw [same] at bound
  omega

theorem acquire_some_iff {resource ownerId : String} {nowNs ttlNs : Int}
    (valid : Requests resource ownerId nowNs ttlNs) (store : InMemoryLeaseStore) :
    ∃ next result, acquire store resource ownerId nowNs ttlNs = .ok (next, result) ∧
      (result.isSome ↔ ¬ ∃ current, store.leases.find? resource = some current ∧
        current.expiresAtNs > nowNs) := by
  have blocked : ((store.leases.find? resource).any fun current =>
      current.expiresAtNs > nowNs) = true ↔
        ∃ current, store.leases.find? resource = some current ∧ current.expiresAtNs > nowNs := by
    rw [Option.any_eq_true]
    simp only [decide_eq_true_eq]
  rw [acquire_valid valid, ← blocked]
  split
  case isTrue taken => exact ⟨_, _, rfl, by simp [taken]⟩
  case isFalse free => exact ⟨_, _, rfl, by simp [free]⟩

/-- In every history the tokens of a resource are 1, 2, 3 and so on, a stored lease carries the
latest, an acquire succeeds exactly when no stored lease is current, and a lease from before a
later acquire can neither be renewed nor released. -/
theorem fencing_tokens {ops : List Op} {store : InMemoryLeaseStore} {log : Log}
    (ran : Machine.exec step {} ops = some (store, log)) :
    (∀ resource, tokensOf resource log =
      (List.range (acquires resource log)).map fun n : Nat => (n : Int) + 1) ∧
    (∀ resource lease, store.leases.find? resource = some lease →
      lease.resource = resource ∧ Latest resource log lease.fencingToken) ∧
    (∀ resource ownerId nowNs ttlNs,
      (Requests resource ownerId nowNs ttlNs →
        ∃ next result, acquire store resource ownerId nowNs ttlNs = .ok (next, result) ∧
          (result.isSome ↔ ¬ ∃ current, store.leases.find? resource = some current ∧
            current.expiresAtNs > nowNs)) ∧
      (¬ Requests resource ownerId nowNs ttlNs →
        acquire store resource ownerId nowNs ttlNs = .error "lease_request_invalid")) ∧
    (∀ front back op newer lease, log = front ++ (op, .acquired (some newer)) :: back →
      lease ∈ issued front → lease.resource = newer.resource →
      (∀ nowNs ttlNs, renew store lease nowNs ttlNs = (store, none)) ∧
        release store lease = (store, false)) := by
  have inv := reached_invariant ran
  refine ⟨inv.ordered, inv.stored, fun _ _ _ _ =>
    ⟨fun valid => acquire_some_iff valid store, acquire_invalid⟩, ?_⟩
  intro front back op newer lease split old same
  rw [split] at ran
  have stale := stale_not_stored ran old same
  constructor
  · intro nowNs ttlNs
    rw [renew, if_pos (.inl stale)]
  · rw [release, if_pos stale]

/-- Two clients on one resource: the first lets its lease run out and presents it again. -/
def handover : List Op :=
  [.acquire "session" "a" 0 10, .acquire "session" "b" 5 10, .acquire "session" "b" 10 10,
    .renew ⟨"session", "a", 1, 10⟩ 3 10, .release ⟨"session", "a", 1, 10⟩]

theorem handover_tokens :
    ∃ store log, Machine.exec step {} handover = some (store, log) ∧
      tokensOf "session" log = [1, 2] ∧
      ∀ lease, store.leases.find? "session" = some lease → lease.fencingToken = 2 := by
  have tokens : (Machine.exec step {} handover).map (fun last => tokensOf "session" last.2) =
      some [1, 2] := by decide
  rcases ran : Machine.exec step {} handover with _ | ⟨store, log⟩
  · rw [ran] at tokens
    cases tokens
  · rw [ran, Option.map_some, Option.some.injEq] at tokens
    refine ⟨store, log, rfl, tokens, ?_⟩
    intro lease held
    have latest := ((fencing_tokens ran).2.1 "session" lease held).2
    rw [Latest, tokens] at latest
    exact (Option.some.inj latest).symm

end Ito.LeaseStore
