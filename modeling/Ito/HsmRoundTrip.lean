import Ito.HsmSimulator

/-! Encryption of the HSM simulator never returns, and its tags would not be accepted.

Source: `python/operations/hsm_simulator.py`. -/

namespace Ito.Hsm.HSMSimulator

variable {hashes : Hashes} {simulator : HSMSimulator} {keyId : String} {key : Key}
  {metadata : KeyMetadata}

/-- What is accepted in place of a ciphertext has the body and the associated data of it, or two
tags collide. -/
def Authenticates (hashes : Hashes) (simulator : HSMSimulator) (keyId : String)
    (ciphertext aad : Bytes) : Prop :=
  ∀ other aad' usedNs stampNs plaintext,
    (simulator.decrypt hashes keyId other aad' usedNs stampNs).2 = .ok plaintext →
    aad' ≠ aad ∨ bodyOf other ≠ bodyOf ciphertext →
    ∃ key first second, simulator.keys.find? keyId = some key ∧ first ≠ second ∧
      tagOf hashes key first = tagOf hashes key second

/-- `encrypt` returns a ciphertext, `decrypt` gives the text back, and nothing else is accepted. -/
def RoundTrips (hashes : Hashes) (simulator : HSMSimulator) (keyId : String) (plaintext aad : Bytes)
    (nonce : Vector UInt8 12) (usedNs stampNs : Int) : Prop :=
  ∃ after ciphertext,
    simulator.encrypt hashes keyId plaintext aad nonce usedNs stampNs = (after, .ok ciphertext) ∧
    (∀ usedNs stampNs,
      (after.decrypt hashes keyId ciphertext aad usedNs stampNs).2 = .ok plaintext) ∧
    Authenticates hashes after keyId ciphertext aad

@[simp] theorem assigning_eq {A V : Type} (action : String) (value : V) (stampNs : Int)
    (returned : A) : simulator.assigning keyId action metadata value stampNs returned =
      (simulator, .error .frozenInstanceError) := rfl

/-! What `encrypt` has computed by then -/

theorem length_tagOf (text : Bytes) : (tagOf hashes key text).length = 16 := by
  simp [tagOf, bytesOf]

variable (hashes key) in
theorem parts_sealed (nonce : Vector UInt8 12) (plaintext aad : Bytes) :
    bodyOf (sealed hashes key nonce plaintext aad) = mask key ((bytesOf nonce).getD 0 0) plaintext ∧
      (sealed hashes key nonce plaintext aad).drop
          ((sealed hashes key nonce plaintext aad).length - 16) =
        tagOf hashes key (bytesOf nonce ++ mask key ((bytesOf nonce).getD 0 0) plaintext ++ aad) := by
  have first : nonce[0] = (bytesOf nonce).getD 0 0 := by
    simp [bytesOf, List.getD_eq_getElem?_getD]
  have split : sealed hashes key nonce plaintext aad =
      (bytesOf nonce ++ mask key ((bytesOf nonce).getD 0 0) plaintext) ++
        tagOf hashes key (bytesOf nonce ++ mask key ((bytesOf nonce).getD 0 0) plaintext ++
          aad) := by
    rw [← first]
    rfl
  have size : (sealed hashes key nonce plaintext aad).length - 16 =
      (bytesOf nonce ++ mask key ((bytesOf nonce).getD 0 0) plaintext).length := by
    rw [split, List.length_append, length_tagOf, Nat.add_sub_cancel]
  have twelve : (bytesOf nonce).length = 12 := by simp [bytesOf]
  constructor
  · rw [bodyOf, size, split, List.take_left, List.drop_left' twelve]
  · rw [size, split, List.drop_left]

section Usable

variable (held : simulator.keys.find? keyId = some key)
  (described : simulator.metadata.find? keyId = some metadata) (enabled : metadata.disabled = false)

include held described enabled

/-- `decrypt` takes the tag of the body, and `encrypt` that of the nonce and the body. -/
theorem decrypt_sealed (nonce : Vector UInt8 12) (plaintext aad : Bytes) (usedNs stampNs : Int) :
    simulator.decrypt hashes keyId (sealed hashes key nonce plaintext aad) aad usedNs stampNs =
      (simulator,
        if tagOf hashes key (bytesOf nonce ++ mask key ((bytesOf nonce).getD 0 0) plaintext ++ aad) =
            tagOf hashes key (mask key ((bytesOf nonce).getD 0 0) plaintext ++ aad) then
          .error .frozenInstanceError
        else .error (.hsmError "integrity_failure")) := by
  obtain ⟨body, tag⟩ := parts_sealed hashes key nonce plaintext aad
  have long : ¬ (sealed hashes key nonce plaintext aad).length < 28 := by
    simp [sealed, bytesOf, length_tagOf]
    omega
  simp only [decrypt, held, described, enabled, Bool.false_eq_true, if_false, long, body, tag,
    assigning_eq]
  by_cases same : tagOf hashes key (bytesOf nonce ++ mask key ((bytesOf nonce).getD 0 0) plaintext ++ aad) =
      tagOf hashes key (mask key ((bytesOf nonce).getD 0 0) plaintext ++ aad)
  · rw [if_neg (not_not.mpr same), if_pos same]
  · rw [if_pos same, if_neg same, raises]

end Usable

variable (hashes simulator keyId) in
theorem encrypt_never (plaintext aad : Bytes) (nonce : Vector UInt8 12) (usedNs stampNs : Int) :
    ∃ raised, simulator.encrypt hashes keyId plaintext aad nonce usedNs stampNs =
      (simulator, .error raised) := by
  rw [encrypt]
  split
  case h_1 => exact ⟨_, rfl⟩
  case h_2 =>
    split
    case h_1 => exact ⟨_, rfl⟩
    case h_2 =>
      split
      case isTrue => exact ⟨_, rfl⟩
      case isFalse => exact ⟨_, assigning_eq ..⟩

/-- No encryption comes back, whatever the key, the texts and the nonce are. -/
theorem never_roundTrips (hashes : Hashes) (simulator : HSMSimulator) (keyId : String)
    (plaintext aad : Bytes) (nonce : Vector UInt8 12) (usedNs stampNs : Int) :
    ¬ RoundTrips hashes simulator keyId plaintext aad nonce usedNs stampNs := by
  rintro ⟨after, ciphertext, returned, _⟩
  obtain ⟨raised, never⟩ :=
    encrypt_never hashes simulator keyId plaintext aad nonce usedNs stampNs
  rw [never, Prod.mk.injEq] at returned
  cases returned.2

/-! The program encrypts a text under a key it has just created -/

def demoKey : Key := Vector.replicate 32 7

def demoNonce : Vector UInt8 12 := Vector.replicate 12 1

def demo : HSMSimulator := (({} : HSMSimulator).createKey "dev-key-001" "AES-256-GCM" demoKey 1 2).1

def demoText : Bytes := Bytes.ofText "ito-development-data"

theorem demo_not_roundTrips :
    (∃ metadata, demo.metadata.find? "dev-key-001" = some metadata ∧ metadata.disabled = false) ∧
      ∀ hashes, ¬ RoundTrips hashes demo "dev-key-001" demoText [] demoNonce 3 4 := by
  refine ⟨⟨_, rfl, rfl⟩, ?_⟩
  rintro hashes ⟨after, ciphertext, returned, _⟩
  have raised : (demo.encrypt hashes "dev-key-001" demoText [] demoNonce 3 4).2 =
      .error .frozenInstanceError := rfl
  rw [returned] at raised
  cases raised

end Ito.Hsm.HSMSimulator
