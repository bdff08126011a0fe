import Ito.Library.Machine
import Ito.Library.SortedMap
import Mathlib.Data.String.Basic

/-! The in-memory lease store with fencing tokens.

Source: `interfaces/recovery/lease_store.py`. Nothing depends on the order of the two dictionaries,
which are kept sorted here. -/

namespace Ito.LeaseStore

structure Lease where
  resource : String
  ownerId : String
  fencingToken : Int
  expiresAtNs : Int
  deriving DecidableEq, Repr

abbrev Dict (V : Type) := SortedMap (fun a b : String => a < b) V

structure InMemoryLeaseStore where
  leases : Dict Lease := SortedMap.empty
  tokens : Dict Int := SortedMap.empty

def acquire (store : InMemoryLeaseStore) (resource ownerId : String) (nowNs ttlNs : Int) :
    Except String (InMemoryLeaseStore × Option Lease) :=
  if resource = "" ∨ ownerId = "" ∨ nowNs < 0 ∨ ttlNs ≤ 0 then .error "lease_request_invalid"
  else if (store.leases.find? resource).any fun current => current.expiresAtNs > nowNs then
    .ok (store, none)
  else
    let token := (store.tokens.find? resource).getD 0 + 1
    let lease : Lease := ⟨resource, ownerId, token, nowNs + ttlNs⟩
    .ok ({ leases := store.leases.set resource lease, tokens := store.tokens.set resource token },
      some lease)

def renew (store : InMemoryLeaseStore) (lease : Lease) (nowNs ttlNs : Int) :
    InMemoryLeaseStore × Option Lease :=
  if store.leases.find? lease.resource ≠ some lease ∨ nowNs ≥ lease.expiresAtNs ∨ ttlNs ≤ 0 then
    (store, none)
  else
    let renewed : Lease := ⟨lease.resource, lease.ownerId, lease.fencingToken, nowNs + ttlNs⟩
    ({ store with leases := store.leases.set lease.resource renewed }, some renewed)

def release (store : InMemoryLeaseStore) (lease : Lease) : InMemoryLeaseStore × Bool :=
  if store.leases.find? lease.resource ≠ some lease then (store, false)
  else ({ store with leases := store.leases.erase lease.resource }, true)

/-- The calls of the clients, each with its own clock and its own copy of a lease. -/
inductive Op where
  | acquire (resource ownerId : String) (nowNs ttlNs : Int)
  | renew (lease : Lease) (nowNs ttlNs : Int)
  | release (lease : Lease)

inductive Output where
  | raised (message : String)
  | acquired (lease : Option Lease)
  | renewed (lease : Option Lease)
  | released (done : Bool)

def step (store : InMemoryLeaseStore) : Op → Option (InMemoryLeaseStore × Output)
  | .acquire resource ownerId nowNs ttlNs =>
      match acquire store resource ownerId nowNs ttlNs with
      | .error message => some (store, .raised message)
      | .ok next => some (next.1, .acquired next.2)
  | .renew lease nowNs ttlNs =>
      some ((renew store lease nowNs ttlNs).1, .renewed (renew store lease nowNs ttlNs).2)
  | .release lease => some ((release store lease).1, .released (release store lease).2)

abbrev Log := List (Op × Output)

/-- The lease that a successful acquire of the resource returned. -/
def granted (resource : String) : Output → Option Lease
  | .acquired (some lease) => if lease.resource = resource then some lease else none
  | _ => none

/-- The fencing tokens of the successful acquires of a resource, in order. -/
def tokensOf (resource : String) (log : Log) : List Int :=
  log.filterMap fun entry => (granted resource entry.2).map (·.fencingToken)

def issued (log : Log) : List Lease :=
  log.filterMap fun entry => match entry.2 with
    | .acquired lease | .renewed lease => lease
    | _ => none

/-- The request is one that `acquire` does not refuse with an error. -/
def Requests (resource ownerId : String) (nowNs ttlNs : Int) : Prop :=
  resource ≠ "" ∧ ownerId ≠ "" ∧ 0 ≤ nowNs ∧ 0 < ttlNs

end Ito.LeaseStore
