import Ito.HsmRoundTrip

/-! What being disabled does to a key of the HSM simulator.

Source: `python/operations/hsm_simulator.py`. -/

namespace Ito.Hsm

open HSMSimulator

variable {hashes : Hashes} {simulator : HSMSimulator} {keyId : String} {key : Key}
  {metadata : KeyMetadata}

/-- The call raises an `HSMError` and leaves the keys and their metadata. -/
def Refuses {A : Type} (simulator : HSMSimulator) (result : Result A) : Prop :=
  (∃ message, result.2 = .error (.hsmError message)) ∧
    result.1.keys = simulator.keys ∧ result.1.metadata = simulator.metadata

structure Unusable (hashes : Hashes) (simulator : HSMSimulator) (keyId : String) : Prop where
  encrypt : ∀ plaintext aad nonce usedNs stampNs,
    Refuses simulator (simulator.encrypt hashes keyId plaintext aad nonce usedNs stampNs)
  decrypt : ∀ ciphertext aad usedNs stampNs,
    Refuses simulator (simulator.decrypt hashes keyId ciphertext aad usedNs stampNs)
  sign : ∀ data usedNs stampNs,
    Refuses simulator (simulator.sign hashes keyId data usedNs stampNs)

/-- `disable_key` succeeds, marks the key and appends one audit entry. -/
def Disables (simulator : HSMSimulator) (keyId : String) (stampNs : Int) : Prop :=
  ∃ after metadata entry, simulator.disableKey keyId stampNs = (after, .ok ()) ∧
    after.metadata.find? keyId = some metadata ∧ metadata.disabled = true ∧
    after.audit = simulator.audit ++ [entry]

structure Enforced (hashes : Hashes) (simulator : HSMSimulator) : Prop where
  unusable : ∀ keyId metadata, simulator.metadata.find? keyId = some metadata →
    metadata.disabled = true → Unusable hashes simulator keyId
  disables : ∀ keyId key, simulator.keys.find? keyId = some key →
    ∀ stampNs, Disables simulator keyId stampNs

theorem refuses_raises {A : Type} (message : String) :
    Refuses simulator (simulator.raises message : Result A) :=
  ⟨⟨message, rfl⟩, rfl, rfl⟩

/-! One call on a disabled key -/

section Disabled

variable (held : simulator.keys.find? keyId = some key)
  (described : simulator.metadata.find? keyId = some metadata) (off : metadata.disabled = true)

include held described off

theorem encrypt_disabled (plaintext aad : Bytes) (nonce : Vector UInt8 12) (usedNs stampNs : Int) :
    simulator.encrypt hashes keyId plaintext aad nonce usedNs stampNs =
      simulator.raises "key_disabled" := by
  simp [HSMSimulator.encrypt, held, described, off]

theorem decrypt_disabled (ciphertext aad : Bytes) (usedNs stampNs : Int) :
    simulator.decrypt hashes keyId ciphertext aad usedNs stampNs =
      simulator.raises "key_disabled" := by
  simp [HSMSimulator.decrypt, held, described, off]

omit off in
/-- `sign` does not look at the mark. Under a signing key it raises as for any other key. -/
theorem sign_eq (data : Bytes) (usedNs stampNs : Int) :
    simulator.sign hashes keyId data usedNs stampNs =
      if metadata.algorithm = "HMAC-SHA256" then (simulator, .error .frozenInstanceError)
      else simulator.raises "algorithm_mismatch" := by
  by_cases signs : metadata.algorithm = "HMAC-SHA256"
  · simp [HSMSimulator.sign, held, described, signs]
  · simp [HSMSimulator.sign, held, described, signs]

/-- A disabled key is unusable unless it is one for signing. -/
theorem unusable_iff : Unusable hashes simulator keyId ↔ metadata.algorithm ≠ "HMAC-SHA256" := by
  constructor
  · intro unusable signs
    obtain ⟨⟨message, raised⟩, _⟩ := unusable.sign [] 0 0
    rw [sign_eq held described, if_pos signs] at raised
    cases raised
  · intro other
    refine ⟨?_, ?_, ?_⟩
    · intro plaintext aad nonce usedNs stampNs
      rw [encrypt_disabled held described off]
      exact refuses_raises _
    · intro ciphertext aad usedNs stampNs
      rw [decrypt_disabled held described off]
      exact refuses_raises _
    · intro data usedNs stampNs
      rw [sign_eq held described, if_neg other]
      exact refuses_raises _

end Disabled

theorem not_disables (stampNs : Int) : ¬ Disables simulator keyId stampNs := by
  rintro ⟨after, metadata, entry, done, _⟩
  rw [disableKey] at done
  split at done
  case isTrue => cases done
  case isFalse =>
    split at done
    case h_1 => cases done
    case h_2 => cases done

/-! The keys and their metadata -/

def Paired (simulator : HSMSimulator) : Prop :=
  ∀ keyId, (simulator.keys.find? keyId).isSome = (simulator.metadata.find? keyId).isSome

def NoKeys (simulator : HSMSimulator) : Prop := ∀ keyId, simulator.keys.find? keyId = none

theorem enforced_iff (paired : Paired simulator) : Enforced hashes simulator ↔ NoKeys simulator := by
  constructor
  · intro enforced keyId
    cases held : simulator.keys.find? keyId with
    | none => rfl
    | some key => exact absurd (enforced.disables keyId key held 0) (not_disables 0)
  · intro none
    refine ⟨?_, ?_⟩
    · intro keyId metadata described _
      have both := paired keyId
      rw [none keyId, described] at both
      cases both
    · intro keyId key held
      rw [none keyId] at held
      cases held

end Ito.Hsm
