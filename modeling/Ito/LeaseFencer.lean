import Ito.Library.Machine
import Mathlib.Algebra.Order.Ring.Nat
import Mathlib.Tactic.Common

/-! The lease fencer of a venue session.

Source: `cpp/ito_session/lease_fencer.cpp`. The expiry is an unchecked `uint64` sum. -/

namespace Ito.LeaseFencer

structure Lease where
  venueId : UInt16 := 0
  branchId : UInt64 := 0
  epoch : UInt64 := 0
  ownerId : String := ""
  expiresAtNs : UInt64 := 0
  deriving DecidableEq, Repr

def acquire (current : Lease) (venueId : UInt16) (branchId : UInt64) (ownerId : String)
    (nowNs ttlNs : UInt64) : Lease × Bool :=
  if venueId = 0 ∨ branchId = 0 ∨ ownerId = "" ∨ ttlNs = 0 ∨
      (current.expiresAtNs > nowNs ∧ current.ownerId ≠ "") then (current, false)
  else
    ({ venueId, branchId, epoch := current.epoch + 1, ownerId, expiresAtNs := nowNs + ttlNs }, true)

def renew (current : Lease) (ownerId : String) (nowNs ttlNs : UInt64) : Lease × Bool :=
  if ownerId = "" ∨ ownerId ≠ current.ownerId ∨ current.expiresAtNs ≤ nowNs ∨ ttlNs = 0 then
    (current, false)
  else ({ current with expiresAtNs := nowNs + ttlNs }, true)

def release (current : Lease) (ownerId : String) : Lease × Bool :=
  if ownerId = "" ∨ ownerId ≠ current.ownerId then (current, false)
  else ({ current with expiresAtNs := 0, ownerId := "" }, true)

def sweep (current : Lease) (nowNs : UInt64) : Lease × Bool :=
  if current.ownerId ≠ "" ∧ current.expiresAtNs ≤ nowNs then
    ({ current with expiresAtNs := 0, ownerId := "" }, true)
  else (current, false)

def owns (current : Lease) (venueId : UInt16) (branchId : UInt64) (ownerId : String)
    (nowNs : UInt64) : Bool :=
  current.venueId = venueId ∧ current.branchId = branchId ∧ current.ownerId = ownerId ∧
    current.expiresAtNs > nowNs

inductive Op where
  | acquire (venueId : UInt16) (branchId : UInt64) (ownerId : String) (nowNs ttlNs : UInt64)
  | renew (ownerId : String) (nowNs ttlNs : UInt64)
  | release (ownerId : String)
  | sweep (nowNs : UInt64)

def apply (current : Lease) : Op → Lease × Bool
  | .acquire venueId branchId ownerId nowNs ttlNs =>
      acquire current venueId branchId ownerId nowNs ttlNs
  | .renew ownerId nowNs ttlNs => renew current ownerId nowNs ttlNs
  | .release ownerId => release current ownerId
  | .sweep nowNs => sweep current nowNs

def step (current : Lease) (op : Op) : Option (Lease × Bool) := some (apply current op)

def Op.time : Op → Option UInt64
  | .acquire _ _ _ nowNs _ | .renew _ nowNs _ | .sweep nowNs => some nowNs
  | .release _ => none

def Op.By (ownerId : String) : Op → Prop
  | .renew other _ _ | .release other => other = ownerId
  | _ => False

def Ordered (fromNs : UInt64) (ops : List Op) (toNs : UInt64) : Prop :=
  (fromNs :: ops.filterMap Op.time ++ [toNs]).Pairwise (· ≤ ·)

/-- Until the owner renews or releases, and as long as the lease lasts over the integers, the
owner owns and nobody acquires. -/
def Promised (lease : Lease) (venueId : UInt16) (branchId : UInt64) (ownerId : String)
    (nowNs ttlNs : UInt64) : Prop :=
  ∀ ops laterNs last log, Ordered nowNs ops laterNs → (∀ op ∈ ops, ¬ op.By ownerId) →
    laterNs.toNat < nowNs.toNat + ttlNs.toNat → Machine.exec step lease ops = some (last, log) →
    owns last venueId branchId ownerId laterNs = true ∧
      ∀ venueId' branchId' ownerId' ttlNs',
        (acquire last venueId' branchId' ownerId' laterNs ttlNs').2 = false

/-- A successful acquire, and no other call, counts the epoch up, and a call that grants the lease
grants what it promises. -/
def Keeps (current : Lease) (op : Op) (granted : Bool) (next : Lease) : Prop :=
  match op, granted with
  | .acquire venueId branchId ownerId nowNs ttlNs, true =>
      next.epoch.toNat = current.epoch.toNat + 1 ∧
        Promised next venueId branchId ownerId nowNs ttlNs
  | .renew ownerId nowNs ttlNs, true =>
      next.epoch = current.epoch ∧
        Promised next current.venueId current.branchId ownerId nowNs ttlNs
  | _, _ => next.epoch = current.epoch

def Admitted (current : Lease) : Op → Prop
  | .acquire venueId branchId ownerId nowNs ttlNs =>
      venueId ≠ 0 ∧ branchId ≠ 0 ∧ ownerId ≠ "" ∧ ttlNs ≠ 0 ∧
        ¬ (current.expiresAtNs > nowNs ∧ current.ownerId ≠ "")
  | .renew ownerId nowNs ttlNs =>
      ownerId ≠ "" ∧ ownerId = current.ownerId ∧ nowNs < current.expiresAtNs ∧ ttlNs ≠ 0
  | _ => False

/-- No admitted call overflows the expiry, nor the epoch. -/
def Fits (current : Lease) (op : Op) (_ : Bool) (_ : Lease) : Prop :=
  Admitted current op → match op with
    | .acquire _ _ _ nowNs ttlNs =>
        nowNs.toNat + ttlNs.toNat < 2 ^ 64 ∧ current.epoch.toNat + 1 < 2 ^ 64
    | .renew _ nowNs ttlNs => nowNs.toNat + ttlNs.toNat < 2 ^ 64
    | _ => True

section Guards

variable (current : Lease) (venueId : UInt16) (branchId : UInt64) (ownerId : String)
  (nowNs ttlNs : UInt64)

theorem acquire_eq :
    (Admitted current (.acquire venueId branchId ownerId nowNs ttlNs) ∧
        acquire current venueId branchId ownerId nowNs ttlNs =
          ({ venueId, branchId, epoch := current.epoch + 1, ownerId
             expiresAtNs := nowNs + ttlNs }, true)) ∨
      (¬ Admitted current (.acquire venueId branchId ownerId nowNs ttlNs) ∧
        acquire current venueId branchId ownerId nowNs ttlNs = (current, false)) := by
  rw [acquire, Admitted]
  by_cases refused : venueId = 0 ∨ branchId = 0 ∨ ownerId = "" ∨ ttlNs = 0 ∨
      (current.expiresAtNs > nowNs ∧ current.ownerId ≠ "")
  · rw [if_pos refused]
    refine .inr ⟨?_, rfl⟩
    intro admitted
    rcases refused with venue | branch | owner | ttl | held
    · exact admitted.1 venue
    · exact admitted.2.1 branch
    · exact admitted.2.2.1 owner
    · exact admitted.2.2.2.1 ttl
    · exact admitted.2.2.2.2 held
  · rw [if_neg refused]
    rw [not_or, not_or, not_or, not_or] at refused
    exact .inl ⟨refused, rfl⟩

theorem renew_eq :
    (Admitted current (.renew ownerId nowNs ttlNs) ∧
        renew current ownerId nowNs ttlNs =
          ({ current with expiresAtNs := nowNs + ttlNs }, true)) ∨
      (¬ Admitted current (.renew ownerId nowNs ttlNs) ∧
        renew current ownerId nowNs ttlNs = (current, false)) := by
  rw [renew, Admitted]
  by_cases refused : ownerId = "" ∨ ownerId ≠ current.ownerId ∨
      current.expiresAtNs ≤ nowNs ∨ ttlNs = 0
  · rw [if_pos refused]
    refine .inr ⟨?_, rfl⟩
    intro admitted
    rcases refused with owner | other | expired | ttl
    · exact admitted.1 owner
    · exact other admitted.2.1
    · exact UInt64.not_lt.mpr expired admitted.2.2.1
    · exact admitted.2.2.2 ttl
  · rw [if_neg refused]
    rw [not_or, not_or, not_or, not_ne_iff, UInt64.not_le] at refused
    exact .inl ⟨refused, rfl⟩

end Guards

section Held

variable {lease : Lease} {laterNs : UInt64}

theorem apply_held (owned : lease.ownerId ≠ "") (lasts : laterNs < lease.expiresAtNs) {op : Op}
    (early : ∀ nowNs, op.time = some nowNs → nowNs ≤ laterNs) (other : ¬ op.By lease.ownerId) :
    (apply lease op).1 = lease := by
  have open' : ∀ nowNs, op.time = some nowNs → nowNs < lease.expiresAtNs :=
    fun nowNs time => UInt64.lt_of_le_of_lt (early nowNs time) lasts
  cases op with
  | acquire venueId branchId ownerId nowNs ttlNs =>
      rcases acquire_eq lease venueId branchId ownerId nowNs ttlNs with ⟨admitted, _⟩ | ⟨_, kept⟩
      · exact absurd ⟨open' nowNs rfl, owned⟩ admitted.2.2.2.2
      · rw [apply, kept]
  | renew ownerId nowNs ttlNs =>
      rcases renew_eq lease ownerId nowNs ttlNs with ⟨admitted, _⟩ | ⟨_, kept⟩
      · exact absurd admitted.2.1 other
      · rw [apply, kept]
  | release ownerId =>
      rw [apply, release, if_pos (.inr other)]
  | sweep nowNs =>
      rw [apply, sweep, if_neg]
      intro swept
      exact UInt64.not_lt.mpr swept.2 (open' nowNs rfl)

theorem run_held (owned : lease.ownerId ≠ "") (lasts : laterNs < lease.expiresAtNs) {ops : List Op}
    (early : ∀ op ∈ ops, ∀ nowNs, op.time = some nowNs → nowNs ≤ laterNs)
    (other : ∀ op ∈ ops, ¬ op.By lease.ownerId) {last : Lease} {log : List (Op × Bool)}
    (ran : Machine.exec step lease ops = some (last, log)) : last = lease := by
  induction ops generalizing log with
  | nil =>
      simp only [Machine.exec_nil, Option.some.injEq, Prod.mk.injEq] at ran
      exact ran.1.symm
  | cons op ops ih =>
      rw [List.forall_mem_cons] at early other
      rcases Machine.exec_cons_eq_some.mp ran with ⟨next, granted, rest, stepped, run, rfl⟩
      have same : next = lease := by
        rw [← apply_held owned lasts early.1 other.1, Option.some.inj stepped]
      rw [same] at run
      exact ih early.2 other.2 run

end Held

theorem ordered_early {fromNs toNs : UInt64} {ops : List Op} (ordered : Ordered fromNs ops toNs) :
    ∀ op ∈ ops, ∀ nowNs, op.time = some nowNs → nowNs ≤ toNs := by
  intro op member nowNs time
  have present : nowNs ∈ fromNs :: ops.filterMap Op.time :=
    List.mem_cons_of_mem _ (List.mem_filterMap.mpr ⟨op, member, time⟩)
  exact (List.pairwise_append.mp ordered).2.2 nowNs present toNs List.mem_cons_self

theorem promised_iff {lease : Lease} {nowNs ttlNs : UInt64} (owned : lease.ownerId ≠ "")
    (some' : ttlNs ≠ 0) (expires : lease.expiresAtNs = nowNs + ttlNs) :
    Promised lease lease.venueId lease.branchId lease.ownerId nowNs ttlNs ↔
      nowNs.toNat + ttlNs.toNat < 2 ^ 64 := by
  have value : lease.expiresAtNs.toNat = (nowNs.toNat + ttlNs.toNat) % 2 ^ 64 := by
    rw [expires, UInt64.toNat_add]
  have nowTop := nowNs.toNat_lt
  have ttlTop := ttlNs.toNat_lt
  have positive : ttlNs.toNat ≠ 0 := fun zero => some' (UInt64.toNat_inj.mp zero)
  constructor
  · intro promised
    have ordered : Ordered nowNs [] nowNs := by simp [Ordered]
    have owning := (promised [] nowNs lease [] ordered (by simp) (by omega) rfl).1
    simp only [owns, decide_eq_true_eq] at owning
    have lasts := UInt64.lt_iff_toNat_lt.mp owning.2.2.2
    omega
  · intro fits ops laterNs last log ordered other before ran
    rw [Nat.mod_eq_of_lt fits] at value
    have lasts : laterNs < lease.expiresAtNs := by
      rw [UInt64.lt_iff_toNat_lt]
      omega
    have same := run_held owned lasts (ordered_early ordered) other ran
    rw [same]
    constructor
    · simp only [owns, decide_eq_true_eq]
      exact ⟨trivial, trivial, trivial, lasts⟩
    · intro venueId branchId ownerId ttlNs'
      rcases acquire_eq lease venueId branchId ownerId laterNs ttlNs' with ⟨admitted, _⟩ | ⟨_, kept⟩
      · exact absurd ⟨lasts, owned⟩ admitted.2.2.2.2
      · rw [kept]

section Granted

variable {current : Lease} {ownerId : String} {nowNs ttlNs : UInt64}

theorem acquired_keeps_iff {venueId : UInt16} {branchId : UInt64}
    (admitted : Admitted current (.acquire venueId branchId ownerId nowNs ttlNs)) :
    Keeps current (.acquire venueId branchId ownerId nowNs ttlNs) true
        ⟨venueId, branchId, current.epoch + 1, ownerId, nowNs + ttlNs⟩ ↔
      nowNs.toNat + ttlNs.toNat < 2 ^ 64 ∧ current.epoch.toNat + 1 < 2 ^ 64 := by
  have bound := current.epoch.toNat_lt
  have epoch : (current.epoch + 1).toNat = current.epoch.toNat + 1 ↔
      current.epoch.toNat + 1 < 2 ^ 64 := by
    rw [UInt64.toNat_add, UInt64.toNat_one]
    omega
  have promised : Promised ⟨venueId, branchId, current.epoch + 1, ownerId, nowNs + ttlNs⟩
      venueId branchId ownerId nowNs ttlNs ↔ nowNs.toNat + ttlNs.toNat < 2 ^ 64 :=
    promised_iff admitted.2.2.1 admitted.2.2.2.1 rfl
  exact (and_congr epoch promised).trans and_comm

theorem renewed_keeps_iff (admitted : Admitted current (.renew ownerId nowNs ttlNs)) :
    Keeps current (.renew ownerId nowNs ttlNs) true { current with expiresAtNs := nowNs + ttlNs } ↔
      nowNs.toNat + ttlNs.toNat < 2 ^ 64 := by
  have owner := admitted.2.1
  subst owner
  have promised : Promised { current with expiresAtNs := nowNs + ttlNs } current.venueId
      current.branchId current.ownerId nowNs ttlNs ↔ nowNs.toNat + ttlNs.toNat < 2 ^ 64 :=
    promised_iff admitted.1 admitted.2.2.2 rfl
  exact (and_iff_right rfl).trans promised

end Granted

/-- A step keeps what the fencer promises exactly when its sums fit. -/
theorem keeps_iff {current next : Lease} {op : Op} {granted : Bool}
    (stepped : step current op = some (next, granted)) :
    Keeps current op granted next ↔ Fits current op granted next := by
  have applied : apply current op = (next, granted) := Option.some.inj stepped
  cases op with
  | acquire venueId branchId ownerId nowNs ttlNs =>
      rw [apply] at applied
      rcases acquire_eq current venueId branchId ownerId nowNs ttlNs with
        ⟨admitted, result⟩ | ⟨refused, result⟩
      · cases result.symm.trans applied
        rw [acquired_keeps_iff admitted, Fits, imp_iff_right admitted]
      · cases result.symm.trans applied
        exact iff_of_true rfl fun admitted => absurd admitted refused
  | renew ownerId nowNs ttlNs =>
      rw [apply] at applied
      rcases renew_eq current ownerId nowNs ttlNs with ⟨admitted, result⟩ | ⟨refused, result⟩
      · cases result.symm.trans applied
        rw [renewed_keeps_iff admitted, Fits, imp_iff_right admitted]
      · cases result.symm.trans applied
        exact iff_of_true rfl fun admitted => absurd admitted refused
  | release ownerId =>
      rw [apply, release] at applied
      split at applied
      all_goals
        cases applied
        exact iff_of_true rfl fun admitted => admitted.elim
  | sweep nowNs =>
      rw [apply, sweep] at applied
      split at applied
      all_goals
        cases applied
        exact iff_of_true rfl fun admitted => admitted.elim

/-- Every run of the fencer counts its epochs and keeps its promises exactly when no admitted call
overflows. -/
theorem fencer_keeps_iff (ops : List Op) :
    Machine.Along step Keeps {} ops ↔ Machine.Along step Fits {} ops := by
  apply Machine.along_iff (fun _ => True) (A := fun _ => True)
  · intro current op granted next _ _ stepped
    exact ⟨keeps_iff stepped, fun _ => trivial⟩
  · trivial
  · intro op _
    trivial

/-- A lease of the longest `ttl` runs out before it begins. -/
theorem longest_lease_lost :
    ¬ ∀ ops : List Op, Machine.Along step Keeps {} ops := by
  intro keeps
  have promised := ((keeps [.acquire 1 1 "node-a" 100 0xFFFFFFFFFFFFFFFF]) _ _ rfl).1.2
  have owning := (promised [] 100 _ [] (by simp [Ordered]) (by simp) (by decide) rfl).1
  exact absurd owning (by decide)

end Ito.LeaseFencer
