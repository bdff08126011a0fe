import Ito.Library.ByteText
import Ito.Library.Machine
import Ito.Library.SortedMap
import Mathlib.Data.Prod.Lex

/-! The in-memory key store and the signer that simulates custody.

Source: `interfaces/custody/key_store.py`. The signer looks a key up in its store on every call. Its
dictionary of secrets remembers what it has derived. -/

namespace Ito.KeyStore

structure KeyVersion where
  keyId : String
  version : Int
  active : Bool
  exportable : Bool
  deriving DecidableEq, Repr

inductive Error where
  | valueError (message : String)
  | keyError (message : String)
  deriving DecidableEq, Repr

structure InMemoryKeyStore where
  keys : SortedMap (fun a b : String => a < b) (List KeyVersion) := SortedMap.empty

/-- `KeyVersion(item.key_id, item.version, False, item.exportable)` -/
def KeyVersion.deactivate (item : KeyVersion) : KeyVersion := { item with active := false }

namespace InMemoryKeyStore

def versions (store : InMemoryKeyStore) (keyId : String) : List KeyVersion :=
  (store.keys.find? keyId).getD []

def rotate (store : InMemoryKeyStore) (keyId : String) :
    Except Error (InMemoryKeyStore × KeyVersion) :=
  if keyId = "" then .error (.valueError "key_id_invalid")
  else
    let versions := store.versions keyId
    let value : KeyVersion := ⟨keyId, versions.length + 1, true, false⟩
    .ok (⟨store.keys.set keyId (versions.map KeyVersion.deactivate ++ [value])⟩, value)

def activeKey (store : InMemoryKeyStore) (keyId : String) :
    Except Error (InMemoryKeyStore × KeyVersion) :=
  match (store.versions keyId).reverse.find? KeyVersion.active with
  | some version => .ok (store, version)
  | none => store.rotate keyId

def revoke (store : InMemoryKeyStore) (keyId : String) (version : Int) :
    Except Error InMemoryKeyStore :=
  if (store.versions keyId).any fun item => item.version = version then
    .ok ⟨store.keys.set keyId ((store.versions keyId).map fun item =>
      if item.version = version then item.deactivate else item)⟩
  else .error (.keyError "key_version_missing")

end InMemoryKeyStore

structure Hashes where
  /-- The digest of a text, as UTF-8. -/
  sha256 : String → Bytes
  hmac : Bytes → Bytes → Bytes

abbrev Secrets := SortedMap (fun a b : String ×ₗ Int => a < b) Bytes

instance secretBefore : IsTrans (String ×ₗ Int) fun a b => a < b := ⟨fun _ _ _ => lt_trans⟩

structure HmacSimulatorSigner where
  keyStore : InMemoryKeyStore := {}
  secrets : Secrets := SortedMap.empty

def derived (hashes : Hashes) (keyId : String) (version : Int) : Bytes :=
  hashes.sha256 ("simulator:" ++ keyId ++ ":" ++ toString version)

def secret (hashes : Hashes) (secrets : Secrets) (keyId : String) (version : Int) :
    Secrets × Bytes :=
  match secrets.find? (toLex (keyId, version)) with
  | some known => (secrets, known)
  | none =>
      let fresh := derived hashes keyId version
      (secrets.set (toLex (keyId, version)) fresh, fresh)

namespace HmacSimulatorSigner

def sign (hashes : Hashes) (signer : HmacSimulatorSigner) (keyId : String) (payload : Bytes) :
    Except Error (HmacSimulatorSigner × Int × Bytes) := do
  let (store, active) ← signer.keyStore.activeKey keyId
  let known := secret hashes signer.secrets keyId active.version
  return (⟨store, known.1⟩, active.version, hashes.hmac known.2 payload)

/-- The loop of `verify` over the versions of a key. -/
def verifyVersions (hashes : Hashes) (keyId : String) (payload signature : Bytes) :
    Secrets → List KeyVersion → Secrets × Bool
  | secrets, [] => (secrets, false)
  | secrets, version :: rest =>
      let known := secret hashes secrets keyId version.version
      if hashes.hmac known.2 payload = signature then (known.1, true)
      else verifyVersions hashes keyId payload signature known.1 rest

def verify (hashes : Hashes) (signer : HmacSimulatorSigner) (keyId : String)
    (payload signature : Bytes) : HmacSimulatorSigner × Bool :=
  let checked := verifyVersions hashes keyId payload signature signer.secrets
    (signer.keyStore.versions keyId)
  ({ signer with secrets := checked.1 }, checked.2)

end HmacSimulatorSigner

inductive Op where
  | sign (keyId : String) (payload : Bytes)
  | verify (keyId : String) (payload signature : Bytes)
  | activeKey (keyId : String)
  | rotate (keyId : String)
  | revoke (keyId : String) (version : Int)

inductive Output where
  | raised (error : Error)
  /-- A signature, with the version that made it. -/
  | signed (version : Int) (signature : Bytes)
  | verified (valid : Bool)
  | key (version : KeyVersion)
  | revoked

def step (hashes : Hashes) (signer : HmacSimulatorSigner) :
    Op → Option (HmacSimulatorSigner × Output)
  | .sign keyId payload =>
      match signer.sign hashes keyId payload with
      | .error raised => some (signer, .raised raised)
      | .ok (next, version, signature) => some (next, .signed version signature)
  | .verify keyId payload signature =>
      let checked := signer.verify hashes keyId payload signature
      some (checked.1, .verified checked.2)
  | .activeKey keyId =>
      match signer.keyStore.activeKey keyId with
      | .error raised => some (signer, .raised raised)
      | .ok (store, version) => some ({ signer with keyStore := store }, .key version)
  | .rotate keyId =>
      match signer.keyStore.rotate keyId with
      | .error raised => some (signer, .raised raised)
      | .ok (store, version) => some ({ signer with keyStore := store }, .key version)
  | .revoke keyId version =>
      match signer.keyStore.revoke keyId version with
      | .error raised => some (signer, .raised raised)
      | .ok store => some ({ signer with keyStore := store }, .revoked)

abbrev Log := List (Op × Output)

end Ito.KeyStore
