import Ito.Library.ByteText
import Ito.Library.Machine
import Ito.Library.SortedMap

/-! The HSM simulator.

Source: `python/operations/hsm_simulator.py`. Random bytes and the clock are arguments of the calls.
A call that raises keeps what it has changed. `KeyMetadata` is a frozen dataclass, so assigning a
field of it raises. The master key is not read and is left out. -/

namespace Ito.Hsm

abbrev Dict (V : Type) := SortedMap (fun a b : String => a < b) V

abbrev Key := Vector UInt8 32

structure Hashes where
  hmac : Key → Bytes → Vector UInt8 32
  /-- The hexadecimal digest of SHA-256. -/
  sha256 : Bytes → String

inductive Error where
  | hsmError (message : String)
  | frozenInstanceError
  | keyError
  deriving DecidableEq, Repr

structure KeyMetadata where
  keyId : String
  algorithm : String
  createdNs : Int
  lastUsedNs : Int := 0
  rotationCount : Int := 0
  disabled : Bool := false
  deriving DecidableEq, Repr

/-- An entry of the audit log. One that was imported may lack anything but its sequence. -/
structure AuditEntry where
  sequence : Option Int
  action : Option String
  keyId : Option String
  timestampNs : Option Int
  oldKeyFingerprint : Option String := none
  deriving DecidableEq, Repr

structure HSMSimulator where
  keys : Dict Key := SortedMap.empty
  metadata : Dict KeyMetadata := SortedMap.empty
  audit : List AuditEntry := []
  sequence : Int := 0

/-- The simulator after a call, and what the call returned or raised. -/
abbrev Result (A : Type) := HSMSimulator × Except Error A

/-- `metadata.field = value` -/
def KeyMetadata.assign {V : Type} (_ : KeyMetadata) (_ : V) : Except Error KeyMetadata :=
  .error .frozenInstanceError

def bytesOf {n : Nat} (word : Vector UInt8 n) : Bytes := word.toList

namespace HSMSimulator

def raises {A : Type} (simulator : HSMSimulator) (message : String) : Result A :=
  (simulator, .error (.hsmError message))

def auditEvent (simulator : HSMSimulator) (action keyId : String) (timestampNs : Int)
    (oldKeyFingerprint : Option String := none) : HSMSimulator :=
  { simulator with
    sequence := simulator.sequence + 1
    audit := simulator.audit ++
      [{ sequence := some (simulator.sequence + 1)
         action := some action
         keyId := some keyId
         timestampNs := some timestampNs
         oldKeyFingerprint := oldKeyFingerprint }] }

def algorithms : List String := ["AES-256-GCM", "HMAC-SHA256", "ECDSA-P256"]

def createKey (simulator : HSMSimulator) (keyId algorithm : String) (key : Key)
    (createdNs stampNs : Int) : Result KeyMetadata :=
  if keyId = "" ∨ algorithm ∉ algorithms then simulator.raises "invalid_key_spec"
  else if (simulator.keys.find? keyId).isSome then simulator.raises "key_exists"
  else
    let metadata : KeyMetadata := { keyId := keyId, algorithm := algorithm, createdNs := createdNs }
    ({ simulator with
        keys := simulator.keys.set keyId key
        metadata := simulator.metadata.set keyId metadata }.auditEvent "key_create" keyId stampNs,
      .ok metadata)

def rotateKey (hashes : Hashes) (simulator : HSMSimulator) (keyId : String) (newKey : Key)
    (createdNs stampNs : Int) : Result KeyMetadata :=
  match simulator.keys.find? keyId with
  | none => simulator.raises "key_missing"
  | some oldKey =>
      let simulator := { simulator with keys := simulator.keys.set keyId newKey }
      match simulator.metadata.find? keyId with
      | none => (simulator, .error .keyError)
      | some metadata =>
          let rotated : KeyMetadata :=
            { keyId := keyId
              algorithm := metadata.algorithm
              createdNs := createdNs
              lastUsedNs := metadata.lastUsedNs
              rotationCount := metadata.rotationCount + 1
              disabled := metadata.disabled }
          let simulator := { simulator with metadata := simulator.metadata.set keyId rotated }
          (simulator.auditEvent "key_rotate" keyId stampNs
              (some (((hashes.sha256 (bytesOf oldKey)).take 16).toString)),
            .ok rotated)

def assigning {A V : Type} (simulator : HSMSimulator) (keyId action : String)
    (metadata : KeyMetadata) (value : V) (stampNs : Int) (returned : A) : Result A :=
  match metadata.assign value with
  | .error raised => (simulator, .error raised)
  | .ok metadata =>
      ({ simulator with metadata := simulator.metadata.set keyId metadata }.auditEvent action keyId
        stampNs, .ok returned)

def disableKey (simulator : HSMSimulator) (keyId : String) (stampNs : Int) : Result Unit :=
  if (simulator.keys.find? keyId).isNone then simulator.raises "key_missing"
  else
    match simulator.metadata.find? keyId with
    | none => (simulator, .error .keyError)
    | some metadata => simulator.assigning keyId "key_disable" metadata true stampNs ()

def mask (key : Key) (start : UInt8) (text : Bytes) : Bytes :=
  text.mapIdx fun index byte =>
    byte ^^^ key.get ⟨(start.toNat + index) % 32, Nat.mod_lt _ (by decide)⟩

def tagOf (hashes : Hashes) (key : Key) (text : Bytes) : Bytes :=
  (bytesOf (hashes.hmac key text)).take 16

/-- The bytes that `encrypt` computes: the nonce, the masked text and the tag of both. -/
def sealed (hashes : Hashes) (key : Key) (nonce : Vector UInt8 12) (plaintext aad : Bytes) : Bytes :=
  let ciphertext := bytesOf nonce ++ mask key nonce[0] plaintext
  ciphertext ++ tagOf hashes key (ciphertext ++ aad)

def encrypt (hashes : Hashes) (simulator : HSMSimulator) (keyId : String) (plaintext aad : Bytes)
    (nonce : Vector UInt8 12) (usedNs stampNs : Int) : Result Bytes :=
  match simulator.keys.find? keyId with
  | none => simulator.raises "key_missing"
  | some key =>
      match simulator.metadata.find? keyId with
      | none => (simulator, .error .keyError)
      | some metadata =>
          if metadata.disabled then simulator.raises "key_disabled"
          else
            simulator.assigning keyId "encrypt" metadata usedNs stampNs
              (sealed hashes key nonce plaintext aad)

def bodyOf (ciphertext : Bytes) : Bytes := (ciphertext.take (ciphertext.length - 16)).drop 12

def decrypt (hashes : Hashes) (simulator : HSMSimulator) (keyId : String) (ciphertext aad : Bytes)
    (usedNs stampNs : Int) : Result Bytes :=
  match simulator.keys.find? keyId with
  | none => simulator.raises "key_missing"
  | some key =>
      match simulator.metadata.find? keyId with
      | none => (simulator, .error .keyError)
      | some metadata =>
          if metadata.disabled then simulator.raises "key_disabled"
          else if ciphertext.length < 28 then simulator.raises "ciphertext_too_short"
          else
            let tag := ciphertext.drop (ciphertext.length - 16)
            let body := bodyOf ciphertext
            if tag ≠ tagOf hashes key (body ++ aad) then simulator.raises "integrity_failure"
            else
              simulator.assigning keyId "decrypt" metadata usedNs stampNs
                (mask key (ciphertext.getD 0 0) body)

def sign (hashes : Hashes) (simulator : HSMSimulator) (keyId : String) (data : Bytes)
    (usedNs stampNs : Int) : Result Bytes :=
  match simulator.keys.find? keyId with
  | none => simulator.raises "key_missing"
  | some key =>
      match simulator.metadata.find? keyId with
      | none => (simulator, .error .keyError)
      | some metadata =>
          if metadata.algorithm ≠ "HMAC-SHA256" then simulator.raises "algorithm_mismatch"
          else
            simulator.assigning keyId "sign" metadata usedNs stampNs (bytesOf (hashes.hmac key data))

def verify (hashes : Hashes) (simulator : HSMSimulator) (keyId : String) (data signature : Bytes)
    (stampNs : Int) : Result Bool :=
  match simulator.keys.find? keyId with
  | none => simulator.raises "key_missing"
  | some key =>
      match simulator.metadata.find? keyId with
      | none => (simulator, .error .keyError)
      | some metadata =>
          if metadata.algorithm ≠ "HMAC-SHA256" then simulator.raises "algorithm_mismatch"
          else
            (simulator.auditEvent "verify" keyId stampNs,
              .ok (bytesOf (hashes.hmac key data) = signature))

end HSMSimulator

/-! Exported states -/

structure MetadataDict where
  keyId : Option String
  algorithm : Option String
  createdNs : Option Int
  lastUsedNs : Option Int
  rotationCount : Option Int
  disabled : Option Bool

structure StateDict where
  keys : Option (Dict MetadataDict)
  audit : Option (List AuditEntry)

namespace HSMSimulator

def exportMetadata (metadata : KeyMetadata) : MetadataDict where
  keyId := some metadata.keyId
  algorithm := some metadata.algorithm
  createdNs := some metadata.createdNs
  lastUsedNs := some metadata.lastUsedNs
  rotationCount := some metadata.rotationCount
  disabled := some metadata.disabled

def exportState (simulator : HSMSimulator) : StateDict where
  keys := some (simulator.metadata.mapValues fun _ metadata => exportMetadata metadata)
  audit := some simulator.audit

def item {A : Type} : Option A → Except Error A
  | some value => .ok value
  | none => .error .keyError

def importMetadata (keyId : String) (metadata : MetadataDict) : Except Error KeyMetadata := do
  let algorithm ← item metadata.algorithm
  let createdNs ← item metadata.createdNs
  return {
    keyId := keyId
    algorithm := algorithm
    createdNs := createdNs
    lastUsedNs := metadata.lastUsedNs.getD 0
    rotationCount := metadata.rotationCount.getD 0
    disabled := metadata.disabled.getD false }

/-- One round of the loop over the keys of a state, with a fresh key. -/
def importKey (fresh : String → Key) (simulator : HSMSimulator) (entry : String × MetadataDict) :
    Except Error HSMSimulator := do
  let metadata ← importMetadata entry.1 entry.2
  return { simulator with
    keys := simulator.keys.set entry.1 (fresh entry.1)
    metadata := simulator.metadata.set entry.1 metadata }

def importState (fresh : String → Key) (state : StateDict) : Except Error HSMSimulator := do
  let keys ← item state.keys
  let simulator ← keys.entries.foldlM (importKey fresh) {}
  let audit := state.audit.getD []
  let sequences ← audit.mapM fun entry => item entry.sequence
  return { simulator with
    audit := audit
    sequence := sequences.foldl max (sequences.headD 0) }

end HSMSimulator

/-! Runs -/

inductive Op where
  | createKey (keyId algorithm : String) (key : Key) (createdNs stampNs : Int)
  | rotateKey (keyId : String) (newKey : Key) (createdNs stampNs : Int)
  | disableKey (keyId : String) (stampNs : Int)
  | encrypt (keyId : String) (plaintext aad : Bytes) (nonce : Vector UInt8 12)
      (usedNs stampNs : Int)
  | decrypt (keyId : String) (ciphertext aad : Bytes) (usedNs stampNs : Int)
  | sign (keyId : String) (data : Bytes) (usedNs stampNs : Int)
  | verify (keyId : String) (data signature : Bytes) (stampNs : Int)
  | exportState
  /-- A simulator that is imported takes the place of the present one. -/
  | importState (fresh : String → Key) (state : StateDict)

inductive Output where
  | raised (error : Error)
  | metadata (metadata : KeyMetadata)
  | bytes (bytes : Bytes)
  | verified (valid : Bool)
  | done
  | state (state : StateDict)

def output {A : Type} (wrap : A → Output) (result : Result A) : HSMSimulator × Output :=
  match result.2 with
  | .ok value => (result.1, wrap value)
  | .error raised => (result.1, .raised raised)

def step (hashes : Hashes) (simulator : HSMSimulator) : Op → Option (HSMSimulator × Output)
  | .createKey keyId algorithm key createdNs stampNs =>
      some (output .metadata (simulator.createKey keyId algorithm key createdNs stampNs))
  | .rotateKey keyId newKey createdNs stampNs =>
      some (output .metadata (simulator.rotateKey hashes keyId newKey createdNs stampNs))
  | .disableKey keyId stampNs =>
      some (output (fun _ => .done) (simulator.disableKey keyId stampNs))
  | .encrypt keyId plaintext aad nonce usedNs stampNs =>
      some (output .bytes (simulator.encrypt hashes keyId plaintext aad nonce usedNs stampNs))
  | .decrypt keyId ciphertext aad usedNs stampNs =>
      some (output .bytes (simulator.decrypt hashes keyId ciphertext aad usedNs stampNs))
  | .sign keyId data usedNs stampNs =>
      some (output .bytes (simulator.sign hashes keyId data usedNs stampNs))
  | .verify keyId data signature stampNs =>
      some (output .verified (simulator.verify hashes keyId data signature stampNs))
  | .exportState => some (simulator, .state simulator.exportState)
  | .importState fresh state =>
      match HSMSimulator.importState fresh state with
      | .error raised => some (simulator, .raised raised)
      | .ok imported => some (imported, .done)

end Ito.Hsm
