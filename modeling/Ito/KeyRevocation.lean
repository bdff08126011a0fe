import Ito.KeyVersions
import Ito.Library.Fallible

/-! When signatures of the custody simulator stop being valid.

Source: `interfaces/custody/key_store.py`. `verify` tries every version of a key, active or not. -/

namespace Ito.KeyStore

open InMemoryKeyStore HmacSimulatorSigner

variable {hashes : Hashes} {signer next : HmacSimulatorSigner} {log : Log} {op : Op} {out : Output}

def Signed (log : Log) (keyId : String) (payload : Bytes) (version : Int) (signature : Bytes) :
    Prop :=
  (.sign keyId payload, .signed version signature) ∈ log

def Revoked (log : Log) (keyId : String) (version : Int) : Prop :=
  (.revoke keyId version, .revoked) ∈ log

/-- Signatures are valid until their version is revoked, and the versions of each key are in
order. -/
structure Effective (hashes : Hashes) (signer : HmacSimulatorSigner) (log : Log) : Prop where
  numbered : ∀ keyId, Numbered (signer.keyStore.versions keyId)
  valid : ∀ keyId payload version signature, Signed log keyId payload version signature →
    ¬ Revoked log keyId version → (signer.verify hashes keyId payload signature).2 = true
  revoked : ∀ keyId payload version signature, Signed log keyId payload version signature →
    Revoked log keyId version → (signer.verify hashes keyId payload signature).2 = false

def NoneRevoked (log : Log) : Prop :=
  ∀ keyId payload version signature, Signed log keyId payload version signature →
    ¬ Revoked log keyId version

def RevokesSigned (log : Log) (op : Op) : Prop :=
  ∃ keyId version payload signature, op = .revoke keyId version ∧
    Signed log keyId payload version signature

structure Kept (hashes : Hashes) (signer : HmacSimulatorSigner) (log : Log) : Prop where
  numbered : ∀ keyId, Numbered (signer.keyStore.versions keyId)
  sound : Sound hashes signer.secrets
  signed : ∀ keyId payload version signature, Signed log keyId payload version signature →
    (∃ item ∈ signer.keyStore.versions keyId, item.version = version) ∧
      hashes.hmac (derived hashes keyId version) payload = signature
  revoked : ∀ keyId version, Revoked log keyId version →
    (∃ item ∈ signer.keyStore.versions keyId, item.version = version) ∧
      ∀ item ∈ signer.keyStore.versions keyId, item.version = version → item.active = false

theorem verify_eq (kept : Kept hashes signer log) (keyId : String) (payload signature : Bytes) :
    (signer.verify hashes keyId payload signature).2 =
      (signer.keyStore.versions keyId).any fun item =>
        hashes.hmac (derived hashes keyId item.version) payload = signature :=
  (verifyVersions_eq keyId payload signature kept.sound _).1

theorem verify_signed (kept : Kept hashes signer log) {keyId : String} {payload signature : Bytes}
    {version : Int} (signed : Signed log keyId payload version signature) :
    (signer.verify hashes keyId payload signature).2 = true := by
  obtain ⟨⟨item, member, rfl⟩, same⟩ := kept.signed keyId payload version signature signed
  rw [verify_eq kept, List.any_eq_true]
  exact ⟨item, member, decide_eq_true same⟩

theorem effective_iff (kept : Kept hashes signer log) :
    Effective hashes signer log ↔ NoneRevoked log := by
  constructor
  · intro effective keyId payload version signature signed revoked
    have invalid := effective.revoked keyId payload version signature signed revoked
    rw [verify_signed kept signed] at invalid
    cases invalid
  · intro disjoint
    refine ⟨kept.numbered, ?_, ?_⟩
    · intro keyId payload version signature signed _
      exact verify_signed kept signed
    · intro keyId payload version signature signed revoked
      exact absurd revoked (disjoint keyId payload version signature signed)

/-! One step -/

def Witnessed (hashes : Hashes) (signer : HmacSimulatorSigner) : Op → Output → Prop
  | .sign keyId payload, .signed version signature =>
      (∃ item ∈ signer.keyStore.versions keyId, item.version = version ∧ item.active = true) ∧
        hashes.hmac (derived hashes keyId version) payload = signature
  | .revoke keyId version, .revoked =>
      (∃ item ∈ signer.keyStore.versions keyId, item.version = version) ∧
        ∀ item ∈ signer.keyStore.versions keyId, item.version = version → item.active = false
  | _, _ => True

theorem Kept.extend (kept : Kept hashes signer log)
    (advances : StoreAdvances signer.keyStore next.keyStore) (sound : Sound hashes next.secrets)
    (witnessed : Witnessed hashes next op out) : Kept hashes next (log ++ [(op, out)]) where
  numbered keyId := (advances keyId).numbered
  sound := sound
  signed keyId payload version signature signed := by
    rw [Signed, List.mem_append, List.mem_singleton] at signed
    obtain earlier | last := signed
    · obtain ⟨⟨item, member, same⟩, made⟩ := kept.signed keyId payload version signature earlier
      obtain ⟨later, inside, again⟩ := (advances keyId).kept item member
      exact ⟨⟨later, inside, again.trans same⟩, made⟩
    · obtain ⟨rfl, rfl⟩ := Prod.mk.inj last
      obtain ⟨⟨item, member, same, _⟩, made⟩ := witnessed
      exact ⟨⟨item, member, same⟩, made⟩
  revoked keyId version revoked := by
    rw [Revoked, List.mem_append, List.mem_singleton] at revoked
    obtain earlier | last := revoked
    · obtain ⟨⟨item, member, same⟩, inactive⟩ := kept.revoked keyId version earlier
      obtain ⟨later, inside, again⟩ := (advances keyId).kept item member
      exact ⟨⟨later, inside, again.trans same⟩,
        (advances keyId).quiet version ⟨item, member, same⟩ inactive⟩
    · obtain ⟨rfl, rfl⟩ := Prod.mk.inj last
      exact witnessed

theorem storeAdvances_refl (kept : Kept hashes signer log) :
    StoreAdvances signer.keyStore signer.keyStore :=
  fun keyId => advances_refl (kept.numbered keyId)

/-- A call that raises leaves the signer. -/
theorem Kept.raised (kept : Kept hashes signer log) (op : Op) (raised : Error) :
    Kept hashes signer (log ++ [(op, .raised raised)]) ∧ Witnessed hashes signer op (.raised raised) := by
  have witnessed : Witnessed hashes signer op (.raised raised) := by cases op <;> trivial
  exact ⟨kept.extend (storeAdvances_refl kept) kept.sound witnessed, witnessed⟩

theorem step_kept (kept : Kept hashes signer log) (stepped : step hashes signer op = some (next, out)) :
    Kept hashes next (log ++ [(op, out)]) ∧ Witnessed hashes next op out := by
  cases op with
  | sign keyId payload =>
      rw [step] at stepped
      split at stepped
      case h_1 raised _ =>
        obtain ⟨rfl, rfl⟩ := Prod.mk.inj (Option.some.inj stepped)
        exact kept.raised _ raised
      case h_2 after version signature done =>
        obtain ⟨rfl, rfl⟩ := Prod.mk.inj (Option.some.inj stepped)
        obtain ⟨⟨store, value⟩, found, made⟩ := Fallible.bind_eq_ok.mp done
        obtain ⟨advances, member, active⟩ := activeKey_advances kept.numbered found
        obtain ⟨known, sound⟩ := secret_sound keyId value.version kept.sound
        obtain ⟨rfl, same⟩ := Prod.mk.inj (Except.ok.inj made)
        obtain ⟨rfl, rfl⟩ := Prod.mk.inj same
        have witnessed : Witnessed hashes
            ⟨store, (secret hashes signer.secrets keyId value.version).1⟩ (.sign keyId payload)
            (.signed value.version
              (hashes.hmac (secret hashes signer.secrets keyId value.version).2 payload)) :=
          ⟨⟨value, member, rfl, active⟩, by rw [known]⟩
        exact ⟨kept.extend advances sound witnessed, witnessed⟩
  | verify keyId payload signature =>
      obtain ⟨rfl, rfl⟩ := Prod.mk.inj (Option.some.inj stepped)
      have sound := (verifyVersions_eq keyId payload signature kept.sound
        (signer.keyStore.versions keyId)).2
      exact ⟨kept.extend (storeAdvances_refl kept) sound trivial, trivial⟩
  | activeKey keyId =>
      rw [step] at stepped
      split at stepped
      case h_1 raised _ =>
        obtain ⟨rfl, rfl⟩ := Prod.mk.inj (Option.some.inj stepped)
        exact kept.raised _ raised
      case h_2 store value done =>
        obtain ⟨rfl, rfl⟩ := Prod.mk.inj (Option.some.inj stepped)
        exact ⟨kept.extend (activeKey_advances kept.numbered done).1 kept.sound trivial, trivial⟩
  | rotate keyId =>
      rw [step] at stepped
      split at stepped
      case h_1 raised _ =>
        obtain ⟨rfl, rfl⟩ := Prod.mk.inj (Option.some.inj stepped)
        exact kept.raised _ raised
      case h_2 store value done =>
        obtain ⟨rfl, rfl⟩ := Prod.mk.inj (Option.some.inj stepped)
        exact ⟨kept.extend (rotate_advances kept.numbered done).1 kept.sound trivial, trivial⟩
  | revoke keyId version =>
      rw [step] at stepped
      split at stepped
      case h_1 raised _ =>
        obtain ⟨rfl, rfl⟩ := Prod.mk.inj (Option.some.inj stepped)
        exact kept.raised _ raised
      case h_2 store done =>
        obtain ⟨rfl, rfl⟩ := Prod.mk.inj (Option.some.inj stepped)
        obtain ⟨advances, witnessed⟩ := revoke_advances kept.numbered done
        exact ⟨kept.extend advances kept.sound witnessed, witnessed⟩

theorem revoke_step {keyId : String} {version : Int}
    (present : ∃ item ∈ signer.keyStore.versions keyId, item.version = version)
    (stepped : step hashes signer (.revoke keyId version) = some (next, out)) : out = .revoked := by
  obtain ⟨item, member, same⟩ := present
  have found : ((signer.keyStore.versions keyId).any fun item => item.version = version) = true :=
    List.any_eq_true.mpr ⟨item, member, decide_eq_true same⟩
  rw [step, InMemoryKeyStore.revoke, if_pos found] at stepped
  exact (Prod.mk.inj (Option.some.inj stepped)).2.symm

theorem noneRevoked_iff (kept : Kept hashes signer log) (none : NoneRevoked log)
    (stepped : step hashes signer op = some (next, out)) :
    NoneRevoked (log ++ [(op, out)]) ↔ ¬ RevokesSigned log op := by
  obtain ⟨after, witnessed⟩ := step_kept kept stepped
  constructor
  · rintro still ⟨keyId, version, payload, signature, rfl, signed⟩
    have done := revoke_step (kept.signed keyId payload version signature signed).1 stepped
    apply still keyId payload version signature
    · exact List.mem_append_left _ signed
    · rw [done]
      exact List.mem_append_right _ (List.mem_singleton.mpr rfl)
  · intro spares keyId payload version signature signed revoked
    have inactive := (after.revoked keyId version revoked).2
    rw [Signed, List.mem_append, List.mem_singleton] at signed
    rw [Revoked, List.mem_append, List.mem_singleton] at revoked
    obtain signed | last := signed
    · obtain revoked | last := revoked
      · exact none keyId payload version signature signed revoked
      · obtain ⟨rfl, rfl⟩ := Prod.mk.inj last
        exact spares ⟨keyId, version, payload, signature, rfl, signed⟩
    · obtain ⟨rfl, rfl⟩ := Prod.mk.inj last
      obtain ⟨⟨item, member, same, active⟩, _⟩ := witnessed
      rw [inactive item member same] at active
      cases active

theorem kept_new (hashes : Hashes) : Kept hashes {} [] where
  numbered _ := ⟨rfl, Nat.zero_le 1⟩
  sound _ _ _ found := by cases found
  signed _ _ _ _ signed := by cases signed
  revoked _ _ revoked := by cases revoked

theorem noneRevoked_new : NoneRevoked [] := by
  intro _ _ _ _ signed
  cases signed

/-! Every run -/

/-- Revocation takes effect all along a run exactly when no call of it revokes a version under
which a signature was made. -/
theorem effective_along_iff (hashes : Hashes) (ops : List Op) :
    Machine.Along (Machine.logged (step hashes))
        (fun _ _ _ after => Effective hashes after.1 after.2) ({}, []) ops ↔
      Machine.Along (Machine.logged (step hashes))
        (fun before op _ _ => ¬ RevokesSigned before.2 op) ({}, []) ops := by
  apply Machine.along_iff (fun state => Kept hashes state.1 state.2 ∧ NoneRevoked state.2) _
    ⟨kept_new hashes, noneRevoked_new⟩ (fun _ _ => trivial)
  rintro ⟨before, past⟩ op out ⟨after, log⟩ ⟨kept, none⟩ _ stepped
  obtain ⟨once, rfl⟩ := Machine.logged_eq_some.mp stepped
  have kept' := (step_kept kept once).1
  have still := noneRevoked_iff kept none once
  exact ⟨(effective_iff kept').trans still, fun spares => ⟨kept', still.mpr spares⟩⟩

/-! A signature of the test of the repository, after its version was revoked -/

def plainHashes : Hashes := ⟨Bytes.ofText, fun key payload => key ++ payload⟩

def policy : Bytes := Bytes.ofText "policy"

def policySignature : Bytes := plainHashes.hmac (derived plainHashes "risk" 1) policy

theorem revoked_still_valid :
    ∃ after log, Machine.exec (step plainHashes) {} [.sign "risk" policy, .revoke "risk" 1] =
        some (after, log) ∧
      Signed log "risk" policy 1 policySignature ∧ Revoked log "risk" 1 ∧
      (after.verify plainHashes "risk" policy policySignature).2 = true ∧
      ¬ Effective plainHashes after log := by
  have signed : Signed [(.sign "risk" policy, .signed 1 policySignature),
      (.revoke "risk" 1, .revoked)] "risk" policy 1 policySignature := List.mem_cons_self
  have revoked : Revoked [(.sign "risk" policy, .signed 1 policySignature),
      (.revoke "risk" 1, .revoked)] "risk" 1 := List.mem_cons_of_mem _ List.mem_cons_self
  refine ⟨_, _, rfl, signed, revoked, rfl, ?_⟩
  intro effective
  have invalid := effective.revoked "risk" policy 1 policySignature signed revoked
  cases invalid

end Ito.KeyStore
