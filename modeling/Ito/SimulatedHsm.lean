import Ito.Library.Clocked
import Ito.ReleaseBinding
import Mathlib.Data.Finset.Insert

/-! The custody of signing keys that the security gate simulates.

Source: `SimulatedHsm` of `scripts/operations/production_gate_simulations.py`. A dict is the
function that its `get` is. The random key material comes with the call. -/

namespace Ito.Gate

open Clocked

/-- `digest` of a text, and HMAC-SHA-256. -/
structure HsmHashes where
  digest : List Char → List Char
  hmac : Bytes → Bytes → Vector UInt8 32

structure AuditRecord where
  action : String
  version : Int
  operator : String
  approver : String
  deriving DecidableEq, Repr

structure SimulatedHsm where
  activeVersion : Int := 0
  revoked : Finset Int := ∅
  keys : Int → Option Bytes := fun _ => none
  audit : List AuditRecord := []

/-- `bytes.hex()`. -/
def hexOf (bytes : Bytes) : List Char :=
  bytes.flatMap fun byte => [hexChar (byte.toNat / 16), hexChar (byte.toNat % 16)]

structure Provision where
  version : Int
  operator : String
  approver : String
  keyMaterial : Bytes

inductive HsmError where
  | simulation (message : String)
  /-- `compare_digest` takes ASCII texts only. -/
  | typeError
  deriving DecidableEq, Repr

namespace SimulatedHsm

variable (hashes : HsmHashes) (hsm : SimulatedHsm)

def provision (call : Provision) : SimulatedHsm × Except HsmError (List Char) :=
  if call.version ≤ hsm.activeVersion ∨ call.operator = "" ∨ call.approver = "" ∨
      call.operator = call.approver then
    (hsm, .error (.simulation "key_provisioning_policy_failed"))
  else
    ({ keys := fun other =>
         if other = call.version then some call.keyMaterial else hsm.keys other
       revoked :=
         if hsm.activeVersion ≠ 0 then insert hsm.activeVersion hsm.revoked else hsm.revoked
       activeVersion := call.version
       audit := hsm.audit ++ [{
         action := "provision", version := call.version
         operator := call.operator, approver := call.approver }] },
      .ok (hashes.digest (hexOf call.keyMaterial)))

def sign (version : Int) (payload : Bytes) : Except HsmError (List Char) :=
  match hsm.keys version with
  | some key =>
      if version ∈ hsm.revoked then .error (.simulation "key_not_active")
      else .ok (Release.hexdigest (hashes.hmac key payload))
  | none => .error (.simulation "key_not_active")

def verify (version : Int) (payload : Bytes) (signature : List Char) : Except HsmError Bool :=
  if hsm.keys version = none ∨ version ∈ hsm.revoked then .ok false
  else do
    let expected ← hsm.sign hashes version payload
    if (signature.any fun c => 128 ≤ c.toNat) then throw .typeError
    else return expected = signature

def verifyAudit : Bool :=
  2 ≤ hsm.audit.length && hsm.activeVersion = 2 && 1 ∈ hsm.revoked &&
    hsm.audit.all fun item => item.operator ≠ item.approver

def step (hsm : SimulatedHsm) (call : Provision) : SimulatedHsm := (hsm.provision hashes call).1

def versions : List Int := hsm.audit.map AuditRecord.version

/-! Invariant -/

/-- The audit tells every version there is a key for. All but the last are revoked. -/
structure Custody (hsm : SimulatedHsm) : Prop where
  increasing : (0 :: hsm.versions).Pairwise (· < ·)
  active : (0 :: hsm.versions).getLast? = some hsm.activeVersion
  keys : ∀ version, (hsm.keys version).isSome = true ↔ version ∈ hsm.versions
  revoked : ∀ version, version ∈ hsm.revoked ↔
    version ∈ hsm.versions ∧ version ≠ hsm.activeVersion
  dual : ∀ item ∈ hsm.audit,
    item.operator ≠ "" ∧ item.approver ≠ "" ∧ item.operator ≠ item.approver

variable {hashes hsm} {call : Provision}

def new : SimulatedHsm := {}

theorem custody_new : Custody new where
  increasing := by simp [versions, new]
  active := rfl
  keys := by simp [versions, new]
  revoked := by simp [versions, new]
  dual := by simp [new]

theorem step_cases (hashes : HsmHashes) (hsm : SimulatedHsm) (call : Provision) :
    step hashes hsm call = hsm ∨
      (hsm.activeVersion < call.version ∧ (call.operator ≠ "" ∧ call.approver ≠ "" ∧
        call.operator ≠ call.approver) ∧
        step hashes hsm call =
          { keys := fun other =>
              if other = call.version then some call.keyMaterial else hsm.keys other
            revoked :=
              if hsm.activeVersion ≠ 0 then insert hsm.activeVersion hsm.revoked else hsm.revoked
            activeVersion := call.version
            audit := hsm.audit ++ [{
              action := "provision", version := call.version
              operator := call.operator, approver := call.approver }] }) := by
  rw [step, provision]
  split
  case isTrue => exact .inl rfl
  case isFalse allowed =>
    simp only [not_or, not_le] at allowed
    exact .inr ⟨allowed.1, allowed.2, rfl⟩

theorem Custody.le_active (custody : Custody hsm) :
    ∀ version ∈ 0 :: hsm.versions, version ≤ hsm.activeVersion := by
  intro version member
  rcases List.getLast?_eq_some_iff.mp custody.active with ⟨front, same⟩
  have increasing := custody.increasing
  rw [same] at member increasing
  rcases List.mem_append.mp member with earlier | last
  · exact ((List.pairwise_append.mp increasing).2.2 version earlier _ List.mem_cons_self).le
  · exact (List.mem_singleton.mp last).le

theorem Custody.active_mem (custody : Custody hsm) (used : hsm.activeVersion ≠ 0) :
    hsm.activeVersion ∈ hsm.versions :=
  (List.mem_cons.mp (List.mem_of_getLast? custody.active)).resolve_left used

theorem step_custody (hashes : HsmHashes) (call : Provision) (custody : Custody hsm) :
    Custody (step hashes hsm call) := by
  rcases step_cases hashes hsm call with same | ⟨newer, dual, same⟩
  · rwa [same]
  · rw [same]
    have fresh : ∀ version ∈ hsm.versions, version < call.version := fun version member =>
      (custody.le_active version (List.mem_cons_of_mem _ member)).trans_lt newer
    constructor
    · rw [versions, List.map_append, ← List.cons_append]
      refine List.pairwise_append.mpr ⟨custody.increasing, List.pairwise_singleton _ _, ?_⟩
      intro version member other only
      rw [List.mem_singleton.mp only]
      exact (custody.le_active version member).trans_lt newer
    · rw [versions, List.map_append, ← List.cons_append]
      exact List.getLast?_concat
    · intro version
      rw [versions, List.map_append, List.mem_append, List.map_singleton, List.mem_singleton]
      by_cases here : version = call.version
      · simp [here]
      · dsimp only
        rw [if_neg here, custody.keys version, or_iff_left here]
        rfl
    · intro version
      have known : version ∈ hsm.revoked ↔ version ∈ hsm.versions ∧ version ≠ hsm.activeVersion :=
        custody.revoked version
      have older := fresh version
      rw [versions, List.map_append, List.mem_append, List.map_singleton, List.mem_singleton]
      change _ ↔ (version ∈ hsm.versions ∨ _) ∧ version ≠ call.version
      dsimp only
      split
      case isTrue used =>
        have member := custody.active_mem used
        have below := fresh _ member
        rw [Finset.mem_insert, known]
        grind
      case isFalse unused =>
        have none : version ∈ hsm.versions → version ≠ hsm.activeVersion := by
          intro member equal
          have positive := (List.pairwise_cons.mp custody.increasing).1 version member
          omega
        rw [known]
        grind
    · intro item member
      rcases List.mem_append.mp member with earlier | last
      · exact custody.dual item earlier
      · rw [List.mem_singleton.mp last]
        exact dual

/-! Which signatures there are -/

theorem last_iff (custody : Custody hsm) {version : Int} :
    hsm.versions.getLast? = some version ↔
      (hsm.keys version).isSome = true ∧ version ∉ hsm.revoked := by
  have active := custody.active
  rw [custody.keys, custody.revoked, not_and_or, not_ne_iff]
  cases given : hsm.versions with
  | nil => simp
  | cons first rest =>
      rw [given, List.getLast?_cons_cons] at active
      rw [active, Option.some.injEq]
      constructor
      · rintro rfl
        exact ⟨List.mem_of_getLast? active, .inr rfl⟩
      · rintro ⟨member, absent | same⟩
        · exact absurd member absent
        · exact same.symm

theorem sign_eq_ok (custody : Custody hsm) {version : Int} {payload : Bytes}
    {signature : List Char} :
    hsm.sign hashes version payload = .ok signature ↔
      hsm.versions.getLast? = some version ∧ ∃ key, hsm.keys version = some key ∧
        signature = Release.hexdigest (hashes.hmac key payload) := by
  rw [last_iff custody, sign]
  cases hsm.keys version with
  | none => simp
  | some key =>
      dsimp only
      split
      case isTrue gone => simp [gone]
      case isFalse kept => simp [kept, eq_comm]

theorem ascii_hexdigest (bytes : Vector UInt8 32) :
    ((Release.hexdigest bytes).any fun c => 128 ≤ c.toNat) = false := by
  rw [List.any_eq_false]
  intro c member
  rcases Release.hexdigest_hex bytes c member with ⟨n, small, rfl⟩
  have ascii := (Release.hexChar_hex n small).2.1
  simp only [decide_eq_true_eq, not_le]
  exact ascii

theorem verify_eq_true (custody : Custody hsm) {version : Int} {payload : Bytes}
    {signature : List Char} :
    hsm.verify hashes version payload signature = .ok true ↔
      hsm.sign hashes version payload = .ok signature := by
  rw [verify]
  split
  case isTrue unusable =>
    have none : ¬ hsm.sign hashes version payload = .ok signature := by
      rw [sign_eq_ok custody, last_iff custody]
      rintro ⟨⟨known, kept⟩, -⟩
      rcases unusable with absent | gone
      · rw [absent] at known
        cases known
      · exact kept gone
    exact ⟨fun impossible => (nomatch impossible), fun signed => absurd signed none⟩
  case isFalse usable =>
    rw [not_or] at usable
    rcases Option.ne_none_iff_exists'.mp usable.1 with ⟨key, held⟩
    have signed : hsm.sign hashes version payload =
        .ok (Release.hexdigest (hashes.hmac key payload)) := by
      simp only [sign, held, if_neg usable.2]
    rw [signed]
    change (if _ then _ else _) = _ ↔ _
    split
    case isTrue foreign =>
      have apart : Release.hexdigest (hashes.hmac key payload) ≠ signature := by
        rintro rfl
        rw [ascii_hexdigest] at foreign
        cases foreign
      simpa using apart
    case isFalse => simp [pure, Except.pure]

theorem verifyAudit_iff (custody : Custody hsm) :
    hsm.verifyAudit = true ↔ hsm.versions = [1, 2] := by
  have dual : (hsm.audit.all fun item => item.operator ≠ item.approver) = true :=
    List.all_eq_true.mpr fun item member => decide_eq_true (custody.dual item member).2.2
  have length : hsm.audit.length = hsm.versions.length := (List.length_map _).symm
  have increasing := custody.increasing
  have active := custody.active
  simp only [verifyAudit, dual, Bool.and_true, Bool.and_eq_true, decide_eq_true_eq,
    custody.revoked 1, length]
  constructor
  · rintro ⟨⟨-, two⟩, one, -⟩
    rw [two] at active
    -- two numbers at most lie above zero and not above the last one, which is two
    have bounds : ∀ version ∈ hsm.versions, version = 1 ∨ version = 2 := by
      intro version member
      have above := (List.pairwise_cons.mp increasing).1 version member
      have below := custody.le_active version (List.mem_cons_of_mem _ member)
      omega
    have last : (2 : Int) ∈ hsm.versions := by
      have used : hsm.activeVersion ≠ 0 := by omega
      exact two ▸ custody.active_mem used
    refine List.Perm.eq_of_pairwise (fun a b _ _ up down => absurd (lt_trans up down) (lt_irrefl a))
      (List.pairwise_cons.mp increasing).2 (by decide) ?_
    rw [List.perm_ext_iff_of_nodup
      ((List.pairwise_cons.mp increasing).2.imp fun below => below.ne) (by decide)]
    intro version
    constructor
    · intro member
      simpa using bounds version member
    · intro member
      rcases (by simpa using member : version = 1 ∨ version = 2) with rfl | rfl
      · exact one
      · exact last
  · intro same
    rw [same] at active
    have two : hsm.activeVersion = 2 := (Option.some.inj active).symm
    rw [same, two]
    decide

/-! Runs -/

theorem run_custody (hashes : HsmHashes) (custody : Custody hsm) (calls : List Provision) :
    Custody (run (step hashes) hsm calls) :=
  (invariant (I := Custody) (A := fun _ => True) (fun _ call held _ => step_custody hashes call held) custody
    fun _ _ => trivial).2

theorem run_grows (hashes : HsmHashes) (custody : Custody hsm) (calls : List Provision) :
    hsm.audit <+: (run (step hashes) hsm calls).audit ∧
      ∀ version ∈ hsm.versions, (run (step hashes) hsm calls).keys version = hsm.keys version := by
  induction calls generalizing hsm with
  | nil => exact ⟨List.prefix_refl _, fun _ _ => rfl⟩
  | cons call calls ih =>
      rcases ih (step_custody hashes call custody) with ⟨grows, kept⟩
      change hsm.audit <+: (run (step hashes) (step hashes hsm call) calls).audit ∧
        ∀ version ∈ hsm.versions,
          (run (step hashes) (step hashes hsm call) calls).keys version = hsm.keys version
      rcases step_cases hashes hsm call with same | ⟨newer, -, same⟩
      · rw [same] at grows kept ⊢
        exact ⟨grows, kept⟩
      · have longer : hsm.audit <+: (step hashes hsm call).audit := by
          rw [same]
          exact List.prefix_append _ _
        refine ⟨longer.trans grows, fun version member => ?_⟩
        have apart : version ≠ call.version := by
          have below := custody.le_active version (List.mem_cons_of_mem _ member)
          omega
        have stays : version ∈ (step hashes hsm call).versions :=
          (longer.map AuditRecord.version).subset member
        have unchanged : (step hashes hsm call).keys version = hsm.keys version := by
          rw [same]
          exact if_neg apart
        exact (kept version stays).trans unchanged

/-- Over every run of provisions, allowed and refused: the versions go up, each under two different
people; only the last one signs; and what it signs, and no other text, is verified until another
version is provisioned, and never after. The gate accepts the audit exactly for versions 1 and 2. -/
theorem hsm_custody (hashes : HsmHashes) (calls : List Provision) :
    let hsm := run (step hashes) new calls
    (0 :: hsm.versions).Pairwise (· < ·) ∧
      (∀ item ∈ hsm.audit,
        item.operator ≠ "" ∧ item.approver ≠ "" ∧ item.operator ≠ item.approver) ∧
      (hsm.verifyAudit = true ↔ hsm.versions = [1, 2]) ∧
      ∀ version payload,
        ((∃ signature, hsm.sign hashes version payload = .ok signature) ↔
          hsm.versions.getLast? = some version) ∧
        ∀ signature, hsm.sign hashes version payload = .ok signature → ∀ further text,
          let later := run (step hashes) hsm further
          later.verify hashes version payload text = .ok true ↔
            text = signature ∧ later.audit = hsm.audit := by
  intro hsm
  have custody : Custody hsm := run_custody hashes custody_new calls
  refine ⟨custody.increasing, custody.dual, verifyAudit_iff custody, fun version payload => ⟨?_, ?_⟩⟩
  · constructor
    · rintro ⟨signature, signed⟩
      exact ((sign_eq_ok custody).mp signed).1
    · intro last
      rcases Option.isSome_iff_exists.mp ((last_iff custody).mp last).1 with ⟨key, held⟩
      exact ⟨_, (sign_eq_ok custody).mpr ⟨last, key, held, rfl⟩⟩
  · intro signature signed further text later
    rcases (sign_eq_ok custody).mp signed with ⟨last, key, held, rfl⟩
    have known : version ∈ hsm.versions := List.mem_of_getLast? last
    have custodyLater : Custody later := run_custody hashes custody further
    rcases run_grows hashes custody further with ⟨⟨added, longer⟩, kept⟩
    have stillHeld : later.keys version = some key := (kept version known).trans held
    have lastLater : later.versions.getLast? = some version ↔ later.audit = hsm.audit := by
      constructor
      · intro same
        -- a version after it would be larger
        have increasing := (List.pairwise_cons.mp custodyLater.increasing).2
        have parts : later.versions = hsm.versions ++ added.map AuditRecord.version := by
          rw [versions, ← longer, List.map_append]
          rfl
        rw [parts] at same increasing
        cases added with
        | nil => rw [← longer, List.append_nil]
        | cons first rest =>
            have inside : version ∈ (first :: rest).map AuditRecord.version := by
              rw [List.getLast?_append_of_ne_nil _ (by simp)] at same
              exact List.mem_of_getLast? same
            have below := (List.pairwise_append.mp increasing).2.2 version known version inside
            exact absurd below (lt_irrefl version)
      · intro same
        rw [versions, same]
        exact last
    rw [verify_eq_true custodyLater, sign_eq_ok custodyLater, lastLater, stillHeld]
    constructor
    · rintro ⟨same, other, equal, rfl⟩
      cases equal
      exact ⟨rfl, same⟩
    · rintro ⟨rfl, same⟩
      exact ⟨same, key, rfl, rfl⟩

end SimulatedHsm

end Ito.Gate
