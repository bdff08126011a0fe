import Ito.JournalReplay
import Ito.Library.Fallible
import Ito.Library.JsonPretty

/-! The binding of a release: the Rust signer writes it, and the Python verifier reads it.

Source: `rust/policy_signer/src/main.rs` and `lib.rs`, and
`scripts/operations/verify_release_binding.py`. The hash, and the JSON reader of the signer, are
parameters. -/

namespace Ito.Release

open PythonText
open Json (codes)

variable {Path : Type*}

/-- SHA-256, and `serde_json::from_slice` with a number beyond 64 bits read as no integer. -/
structure Libraries where
  sha256 : Bytes → Vector UInt8 32
  fromSlice : Bytes → Option Json

/-- `{byte:02x}` for every byte, and `hexdigest`. -/
def hexdigest (bytes : Vector UInt8 32) : List Char :=
  bytes.toList.flatMap fun byte => [hexChar (byte.toNat / 16), hexChar (byte.toNat % 16)]

def Libraries.digestBytes (lib : Libraries) (bytes : Bytes) : List Char :=
  hexdigest (lib.sha256 bytes)

structure ReleaseBinding where
  policyVersion : UInt64
  artifactDigest : List Char
  rtlDigest : List Char
  schemaDigest : List Char
  deriving DecidableEq, Repr

/-! The signer -/

inductive SignError (Path : Type*) where
  | artifactReadFailed (path : Path)
  | policyInvalid
  | policyVersionMissing
  deriving DecidableEq, Repr

def read (files : Path → Option Bytes) (path : Path) : Except (SignError Path) Bytes :=
  match files path with
  | some content => .ok content
  | none => .error (.artifactReadFailed path)

/-- `get("policy_version").and_then(as_u64)`. -/
def policyVersionOf : Json → Option UInt64
  | .obj policy =>
      match Json.get? "policy_version" policy with
      | some (.int version) =>
          if 0 ≤ version ∧ version < 2 ^ 64 then some (UInt64.ofNat version.toNat) else none
      | _ => none
  | _ => none

def sign (lib : Libraries) (files : Path → Option Bytes) (policyPath rtlPath schemaPath : Path) :
    Except (SignError Path) ReleaseBinding := do
  let policy ← read files policyPath
  match lib.fromSlice policy with
  | none => throw .policyInvalid
  | some policyJson =>
      match policyVersionOf policyJson with
      | none => throw .policyVersionMissing
      | some policyVersion => do
          let rtl ← read files rtlPath
          let schema ← read files schemaPath
          return {
            policyVersion, artifactDigest := lib.digestBytes policy
            rtlDigest := lib.digestBytes rtl, schemaDigest := lib.digestBytes schema }

def ReleaseBinding.entries (binding : ReleaseBinding) : List (List Char × Json.Scalar) :=
  [("policy_version".toList, .number binding.policyVersion.toNat),
    ("artifact_digest".toList, .text binding.artifactDigest),
    ("rtl_digest".toList, .text binding.rtlDigest),
    ("schema_digest".toList, .text binding.schemaDigest)]

/-- What `println!` writes. -/
def ReleaseBinding.printed (binding : ReleaseBinding) : Bytes :=
  encodeUtf8 (Json.pretty binding.entries ++ ['\n'])

def isAsciiHexdigit (byte : UInt8) : Bool :=
  (48 ≤ byte && byte ≤ 57) || (97 ≤ byte && byte ≤ 102) || (65 ≤ byte && byte ≤ 70)

def validDigest (value : List Char) : Bool :=
  (encodeUtf8 value).length = 64 && (encodeUtf8 value).all isAsciiHexdigit

def verifyBinding (binding : ReleaseBinding) : Bool :=
  binding.policyVersion > 0 && validDigest binding.artifactDigest &&
    validDigest binding.rtlDigest && validDigest binding.schemaDigest

/-! The verifier -/

inductive VerifyError where
  /-- `BindingError` with what the reader said after `invalid_binding:`. -/
  | invalidBinding
  | bindingError (message : String)
  /-- A `UnicodeDecodeError`, which nothing catches. -/
  | undecodable
  deriving DecidableEq, Repr

/-- An `int` above zero. `True` is one. -/
def positiveInt : Option Json → Bool
  | some (.int version) => 0 < version
  | some (.bool version) => version
  | _ => false

def verifyField (lib : Libraries) (files : Path → Option Bytes)
    (binding : List (List Nat × Json)) (entry : String × Path) : Except VerifyError Unit :=
  match Json.get? entry.1 binding with
  | some (.str expected) =>
      if expected.length ≠ 64 ∨ (expected.any fun c => c ∉ codes "0123456789abcdef".toList) then
        .error (.bindingError ("invalid_digest:" ++ entry.1))
      else if (files entry.2).map (fun content => codes (lib.digestBytes content)) ≠ some expected then
        .error (.bindingError ("digest_mismatch:" ++ entry.1))
      else .ok ()
  | _ => .error (.bindingError ("invalid_digest:" ++ entry.1))

def bindingPaths (policyPath rtlPath schemaPath : Path) : List (String × Path) :=
  [("artifact_digest", policyPath), ("rtl_digest", rtlPath), ("schema_digest", schemaPath)]

def verifyRead (lib : Libraries) (files : Path → Option Bytes) (paths : List (String × Path)) :
    Json → Except VerifyError Unit
  | .obj binding =>
      if positiveInt (Json.get? "policy_version" binding) then
        forM paths (verifyField lib files binding)
      else .error (.bindingError "invalid_policy_version")
  | _ => .error (.bindingError "invalid_policy_version")

def verify (lib : Libraries) (files : Path → Option Bytes)
    (bindingPath policyPath rtlPath schemaPath : Path) : Except VerifyError Unit :=
  match files bindingPath with
  | none => .error .invalidBinding
  | some content =>
      match decodeUtf8 content with
      | none => .error .undecodable
      | some text =>
          match Json.loads (universalNewlines text) with
          | none => .error .invalidBinding
          | some binding =>
              verifyRead lib files (bindingPaths policyPath rtlPath schemaPath) binding

/-! Digests -/

theorem hexChar_hex : ∀ n, n < 16 →
    hexChar n ∈ "0123456789abcdef".toList ∧ (hexChar n).toNat < 128 ∧
      isAsciiHexdigit (UInt8.ofNat (hexChar n).toNat) = true := by
  decide

theorem hexChar_injective : ∀ m < 16, ∀ n < 16, hexChar m = hexChar n → m = n := by
  decide

variable {lib : Libraries} {files later : Path → Option Bytes}

theorem hexdigest_hex (bytes : Vector UInt8 32) :
    ∀ c ∈ hexdigest bytes, ∃ n < 16, c = hexChar n := by
  intro c member
  rcases List.mem_flatMap.mp member with ⟨byte, -, inside⟩
  have small := byte.toNat_lt
  simp only [List.mem_cons, List.not_mem_nil, or_false] at inside
  rcases inside with rfl | rfl
  · exact ⟨byte.toNat / 16, by omega, rfl⟩
  · exact ⟨byte.toNat % 16, by omega, rfl⟩

theorem length_hexdigest (bytes : Vector UInt8 32) : (hexdigest bytes).length = 64 := by
  rw [hexdigest, List.length_flatMap]
  simp

theorem hexdigest_injective : Function.Injective hexdigest := by
  have lists : ∀ first second : List UInt8,
      (first.flatMap fun byte => [hexChar (byte.toNat / 16), hexChar (byte.toNat % 16)]) =
        (second.flatMap fun byte => [hexChar (byte.toNat / 16), hexChar (byte.toNat % 16)]) →
      first = second := by
    intro first
    induction first with
    | nil =>
        intro second same
        cases second with
        | nil => rfl
        | cons byte second => exact absurd same (by simp)
    | cons byte first ih =>
        intro second same
        cases second with
        | nil => exact absurd same (by simp)
        | cons other second =>
            simp only [List.flatMap_cons, List.cons_append, List.nil_append, List.cons.injEq] at same
            have byteSmall := byte.toNat_lt
            have otherSmall := other.toNat_lt
            have high := hexChar_injective _ (by omega) _ (by omega) same.1
            have low := hexChar_injective _ (by omega) _ (by omega) same.2.1
            rw [ih second same.2.2, UInt8.toNat_inj.mp (show byte.toNat = other.toNat by omega)]
  intro first second same
  exact Vector.toList_inj.mp (lists _ _ same)

theorem validDigest_digest (bytes : Bytes) : validDigest (lib.digestBytes bytes) = true := by
  have hex := hexdigest_hex (lib.sha256 bytes)
  have ascii : ∀ c ∈ lib.digestBytes bytes, c.toNat < 128 := by
    intro c member
    rcases hex c member with ⟨n, small, rfl⟩
    exact (hexChar_hex n small).2.1
  rw [validDigest, encodeUtf8_ascii ascii, Bool.and_eq_true, decide_eq_true_eq, List.length_map,
    List.all_map, List.all_eq_true]
  refine ⟨length_hexdigest _, fun c member => ?_⟩
  rcases hex c member with ⟨n, small, rfl⟩
  exact (hexChar_hex n small).2.2

theorem codes_injective : Function.Injective codes := by
  intro first second same
  exact List.map_injective_iff.mpr (fun a b equal => Char.toNat_inj.mp equal) same

theorem wellFormed_digest (bytes : Bytes) :
    ¬ ((codes (lib.digestBytes bytes)).length ≠ 64 ∨
      (codes (lib.digestBytes bytes)).any fun c => c ∉ codes "0123456789abcdef".toList) := by
  rw [not_or, not_not, codes, List.length_map, List.any_map, List.any_eq_true]
  refine ⟨length_hexdigest _, ?_⟩
  rintro ⟨c, member, foreign⟩
  rcases hexdigest_hex _ c member with ⟨n, small, rfl⟩
  rw [Function.comp_apply, decide_eq_true_eq] at foreign
  exact foreign (List.mem_map_of_mem (hexChar_hex n small).1)

/-! What the verifier accepts -/

theorem verifyField_eq_ok {binding : List (List Nat × Json)} {entry : String × Path} :
    verifyField lib files binding entry = .ok () ↔
      ∃ content, files entry.2 = some content ∧
        Json.get? entry.1 binding = some (.str (codes (lib.digestBytes content))) := by
  constructor
  · intro accepted
    rw [verifyField] at accepted
    split at accepted
    case h_2 => cases accepted
    case h_1 expected found =>
      split at accepted
      case isTrue => cases accepted
      case isFalse =>
        split at accepted
        case isTrue => cases accepted
        case isFalse same =>
          rcases Option.map_eq_some_iff.mp (not_not.mp same) with ⟨content, held, rfl⟩
          exact ⟨content, held, found⟩
  · rintro ⟨content, held, found⟩
    simp only [verifyField, found, if_neg (wellFormed_digest content), held, Option.map_some]
    exact if_neg (not_not.mpr rfl)

/-- The verifier accepts exactly the bindings that are objects with a policy version above zero
and hold, for each of the three files, the digest of what the file contains now. -/
theorem verify_eq_ok (lib : Libraries) (files : Path → Option Bytes)
    (bindingPath policyPath rtlPath schemaPath : Path) :
    verify lib files bindingPath policyPath rtlPath schemaPath = .ok () ↔
      ∃ content text binding, files bindingPath = some content ∧ decodeUtf8 content = some text ∧
        Json.loads (universalNewlines text) = some (.obj binding) ∧
        positiveInt (Json.get? "policy_version" binding) = true ∧
        ∀ entry ∈ bindingPaths policyPath rtlPath schemaPath, ∃ bytes,
          files entry.2 = some bytes ∧
            Json.get? entry.1 binding = some (.str (codes (lib.digestBytes bytes))) := by
  have fields : ∀ binding, verifyRead lib files (bindingPaths policyPath rtlPath schemaPath)
      (.obj binding) = .ok () ↔ positiveInt (Json.get? "policy_version" binding) = true ∧
        ∀ entry ∈ bindingPaths policyPath rtlPath schemaPath, ∃ bytes,
          files entry.2 = some bytes ∧
            Json.get? entry.1 binding = some (.str (codes (lib.digestBytes bytes))) := by
    intro binding
    rw [verifyRead]
    split
    case isTrue positive =>
      rw [Fallible.forM_eq_ok]
      simp only [verifyField_eq_ok, positive, true_and]
    case isFalse refused =>
      exact ⟨fun impossible => (nomatch impossible), fun accepted => absurd accepted.1 refused⟩
  constructor
  · intro accepted
    rw [verify] at accepted
    split at accepted
    case h_1 => cases accepted
    case h_2 content held =>
      split at accepted
      case h_1 => cases accepted
      case h_2 text decoded =>
        split at accepted
        case h_1 => cases accepted
        case h_2 json read =>
          cases json with
          | obj binding =>
              exact ⟨content, text, binding, held, decoded, read, (fields binding).mp accepted⟩
          | _ => cases accepted
  · rintro ⟨content, text, binding, held, decoded, read, accepted⟩
    simp only [verify, held, decoded, read]
    exact (fields binding).mpr accepted

/-! What becomes of a signed binding -/

theorem sign_eq_ok {policyPath rtlPath schemaPath : Path} {binding : ReleaseBinding}
    (signed : sign lib files policyPath rtlPath schemaPath = .ok binding) :
    ∃ policy rtl schema, files policyPath = some policy ∧ files rtlPath = some rtl ∧
      files schemaPath = some schema ∧ binding.artifactDigest = lib.digestBytes policy ∧
      binding.rtlDigest = lib.digestBytes rtl ∧ binding.schemaDigest = lib.digestBytes schema := by
  have read_eq_ok : ∀ path content, read files path = .ok content ↔ files path = some content := by
    intro path content
    rw [read]
    split
    case h_1 other held => rw [held, Except.ok.injEq, Option.some.injEq]
    case h_2 missing => rw [missing]; simp
  rcases Fallible.bind_eq_ok.mp signed with ⟨policy, held, rest⟩
  split at rest
  case h_1 => cases rest
  case h_2 policyJson parsed =>
    split at rest
    case h_1 => cases rest
    case h_2 version isVersion =>
      rcases Fallible.bind_eq_ok.mp rest with ⟨rtl, heldRtl, rest⟩
      rcases Fallible.bind_eq_ok.mp rest with ⟨schema, heldSchema, rest⟩
      cases rest
      exact ⟨policy, rtl, schema, (read_eq_ok _ _).mp held, (read_eq_ok _ _).mp heldRtl,
        (read_eq_ok _ _).mp heldSchema, rfl, rfl, rfl⟩

theorem sign_held {policyPath rtlPath schemaPath : Path} {policy rtl schema : Bytes}
    {policyJson : Json} {policyVersion : UInt64} (heldPolicy : files policyPath = some policy)
    (heldRtl : files rtlPath = some rtl) (heldSchema : files schemaPath = some schema)
    (parsed : lib.fromSlice policy = some policyJson)
    (isVersion : policyVersionOf policyJson = some policyVersion) :
    sign lib files policyPath rtlPath schemaPath = .ok {
      policyVersion, artifactDigest := lib.digestBytes policy
      rtlDigest := lib.digestBytes rtl, schemaDigest := lib.digestBytes schema } := by
  refine Fallible.bind_eq_ok.mpr ⟨policy, by rw [read, heldPolicy], ?_⟩
  rw [parsed]
  simp only [isVersion, read, heldRtl, heldSchema]
  rfl

theorem readable_digest (bytes : Bytes) : (Json.Scalar.text (lib.digestBytes bytes)).Readable := by
  have plain : ∀ n < 16, Json.Plain (hexChar n) := by decide
  intro c member
  rcases hexdigest_hex _ c member with ⟨n, small, rfl⟩
  exact plain n small

theorem loads_printed {binding : ReleaseBinding}
    (readable : ∀ entry ∈ binding.entries, Json.ReadableEntry entry) :
    ∃ text, decodeUtf8 binding.printed = some text ∧
      Json.loads (universalNewlines text) = some (.obj (binding.entries.map Json.entryJson)) := by
  have clean : '\r' ∉ Json.pretty binding.entries ++ ['\n'] := by
    intro member
    rcases List.mem_append.mp member with inside | last
    · rcases Json.control_pretty readable _ inside with same | large
      · cases same
      · exact absurd large (by decide)
    · exact absurd last (by decide)
  refine ⟨_, decodeUtf8_encodeUtf8 _, ?_⟩
  rw [universalNewlines_clean clean]
  exact Json.loads_pretty (List.cons_ne_nil _ _) readable (by simp [Json.isBlank])

def changed (lib : Libraries) (files later : Path → Option Bytes)
    (entry : String × Path × Path) : Bool :=
  (later entry.2.2).map lib.sha256 != (files entry.2.1).map lib.sha256

theorem verifyField_digest {binding : List (List Nat × Json)} {field : String} {path path' : Path}
    {content : Bytes} (held : files path = some content)
    (stored : Json.get? field binding = some (.str (codes (lib.digestBytes content)))) :
    verifyField lib later binding (field, path') =
      if changed lib files later (field, path, path') then
        .error (.bindingError ("digest_mismatch:" ++ field))
      else .ok () := by
  have compared : (later path').map (fun content => codes (lib.digestBytes content)) ≠
      some (codes (lib.digestBytes content)) ↔
        changed lib files later (field, path, path') = true := by
    have injective : Function.Injective fun hash => codes (hexdigest hash) :=
      codes_injective.comp hexdigest_injective
    simp only [changed, held, bne_iff_ne, ne_eq, Option.map_some]
    cases later path' with
    | none => simp
    | some other =>
        simp only [Option.map_some, Option.some.injEq]
        exact not_congr injective.eq_iff
  simp only [verifyField, stored, if_neg (wellFormed_digest content), compared]

theorem verifyBinding_signed {policyPath rtlPath schemaPath : Path} {binding : ReleaseBinding}
    (signed : sign lib files policyPath rtlPath schemaPath = .ok binding) :
    verifyBinding binding = true ↔ 0 < binding.policyVersion := by
  rcases sign_eq_ok signed with ⟨policy, rtl, schema, -, -, -, artifact, ofRtl, ofSchema⟩
  simp only [verifyBinding, artifact, ofRtl, ofSchema, validDigest_digest, Bool.and_true,
    decide_eq_true_eq, gt_iff_lt]

theorem verify_signed {policyPath rtlPath schemaPath : Path} {binding : ReleaseBinding}
    (signed : sign lib files policyPath rtlPath schemaPath = .ok binding)
    {bindingPath : Path} (written : later bindingPath = some binding.printed)
    (policyPath' rtlPath' schemaPath' : Path) :
    verify lib later bindingPath policyPath' rtlPath' schemaPath' =
      if binding.policyVersion = 0 then .error (.bindingError "invalid_policy_version")
      else
        match [("artifact_digest", policyPath, policyPath'), ("rtl_digest", rtlPath, rtlPath'),
            ("schema_digest", schemaPath, schemaPath')].find? (changed lib files later) with
        | some entry => .error (.bindingError ("digest_mismatch:" ++ entry.1))
        | none => .ok () := by
  rcases sign_eq_ok signed with ⟨policy, rtl, schema, heldPolicy, heldRtl, heldSchema, artifact,
    ofRtl, ofSchema⟩
  have readable : ∀ entry ∈ binding.entries, Json.ReadableEntry entry := by
    have plain : ∀ key ∈ ["policy_version", "artifact_digest", "rtl_digest", "schema_digest"],
        ∀ c ∈ key.toList, Json.Plain c := by simp [Json.Plain]
    simp only [ReleaseBinding.entries, artifact, ofRtl, ofSchema, List.forall_mem_cons] at plain ⊢
    exact ⟨⟨plain.1, trivial⟩, ⟨plain.2.1, readable_digest policy⟩,
      ⟨plain.2.2.1, readable_digest rtl⟩, ⟨plain.2.2.2.1, readable_digest schema⟩,
      fun _ none => (nomatch none)⟩
  rcases loads_printed readable with ⟨text, decoded, loaded⟩
  have version : positiveInt (Json.get? "policy_version" (binding.entries.map Json.entryJson)) =
      decide (binding.policyVersion ≠ 0) := by
    have found : Json.get? "policy_version" (binding.entries.map Json.entryJson) =
        some (.int binding.policyVersion.toNat) := rfl
    rw [found, positiveInt, decide_eq_decide, ne_eq, ← UInt64.toNat_inj]
    change _ ↔ ¬ binding.policyVersion.toNat = 0
    omega
  have storedPolicy : Json.get? "artifact_digest" (binding.entries.map Json.entryJson) =
      some (.str (codes (lib.digestBytes policy))) := by rw [← artifact]; rfl
  have storedRtl : Json.get? "rtl_digest" (binding.entries.map Json.entryJson) =
      some (.str (codes (lib.digestBytes rtl))) := by rw [← ofRtl]; rfl
  have storedSchema : Json.get? "schema_digest" (binding.entries.map Json.entryJson) =
      some (.str (codes (lib.digestBytes schema))) := by rw [← ofSchema]; rfl
  simp only [verify, written, ReleaseBinding.printed] at decoded ⊢
  simp only [decoded, loaded, verifyRead, version, decide_eq_true_eq, bindingPaths,
    List.forM_cons, List.forM_nil, verifyField_digest heldPolicy storedPolicy,
    verifyField_digest heldRtl storedRtl, verifyField_digest heldSchema storedSchema,
    List.find?_cons, List.find?_nil]
  rcases eq_or_ne binding.policyVersion 0 with zero | positive
  · rw [if_neg (not_not.mpr zero), if_pos zero]
  · rw [if_pos positive, if_neg positive]
    cases changed lib files later ("artifact_digest", policyPath, policyPath')
    · cases changed lib files later ("rtl_digest", rtlPath, rtlPath')
      · cases changed lib files later ("schema_digest", schemaPath, schemaPath') <;> rfl
      · rfl
    · rfl

/-- Against any files at a later time, the binding that the signer wrote passes the Rust check of
its shape exactly when its policy version is not zero. The Python verifier refuses a version zero,
then names the first file whose digest is not that of the signed one, and accepts otherwise. -/
theorem signed_binding_verified {policyPath rtlPath schemaPath : Path} {binding : ReleaseBinding}
    (signed : sign lib files policyPath rtlPath schemaPath = .ok binding)
    {bindingPath : Path} (written : later bindingPath = some binding.printed)
    (policyPath' rtlPath' schemaPath' : Path) :
    (verifyBinding binding = true ↔ 0 < binding.policyVersion) ∧
      verify lib later bindingPath policyPath' rtlPath' schemaPath' =
        if binding.policyVersion = 0 then .error (.bindingError "invalid_policy_version")
        else
          match [("artifact_digest", policyPath, policyPath'), ("rtl_digest", rtlPath, rtlPath'),
              ("schema_digest", schemaPath, schemaPath')].find? (changed lib files later) with
          | some entry => .error (.bindingError ("digest_mismatch:" ++ entry.1))
          | none => .ok () :=
  ⟨verifyBinding_signed signed, verify_signed signed written policyPath' rtlPath' schemaPath'⟩

def demoPolicy : Bytes := Bytes.ofText "\x7b\"policy_version\":1\x7d"

def demoLibraries : Libraries where
  sha256 content :=
    if content = demoPolicy then
      #v[0xa2, 0xc0, 0xfa, 0xbb, 0x3b, 0xc9, 0xae, 0xfe, 0xd0, 0x3d, 0x11, 0xd2, 0xce, 0x9a, 0xcd,
        0x4d, 0xfe, 0x20, 0xcd, 0xc3, 0xa3, 0x07, 0x57, 0x2d, 0x07, 0x1f, 0xbd, 0x35, 0xf9, 0xd6,
        0xc0, 0x83]
    else
      #v[0x36, 0x49, 0x83, 0x66, 0xfa, 0x58, 0x8f, 0xca, 0xea, 0xf2, 0x50, 0x4e, 0xb2, 0xf9, 0xfa,
        0xf6, 0xac, 0xbc, 0x74, 0x38, 0xe3, 0x75, 0xce, 0x31, 0xd2, 0x5a, 0x9e, 0x11, 0x88, 0x72,
        0xff, 0xec]
  fromSlice content :=
    if content = demoPolicy then some (.obj [(codes "policy_version".toList, .int 1)]) else none

def demoFiles (path : String) : Option Bytes :=
  if path = "policy" then some demoPolicy
  else if path = "rtl" ∨ path = "schema" then some (Bytes.ofText "ito")
  else none

def demoBinding : ReleaseBinding where
  policyVersion := 1
  artifactDigest := demoLibraries.digestBytes demoPolicy
  rtlDigest := demoLibraries.digestBytes (Bytes.ofText "ito")
  schemaDigest := demoLibraries.digestBytes (Bytes.ofText "ito")

theorem signed_binding_verified_changed :
    let intact path := if path = "binding" then some demoBinding.printed else demoFiles path
    let tampered path := if path = "rtl" then some demoPolicy else intact path
    verify demoLibraries intact "binding" "policy" "rtl" "schema" = .ok () ∧
      verify demoLibraries tampered "binding" "policy" "rtl" "schema" =
        .error (.bindingError "digest_mismatch:rtl_digest") := by
  intro intact tampered
  have signed : sign demoLibraries demoFiles "policy" "rtl" "schema" = .ok demoBinding := by rfl
  constructor
  · rw [(signed_binding_verified signed (show intact "binding" = _ from rfl) "policy" "rtl"
      "schema").2]
    rfl
  · rw [(signed_binding_verified signed (show tampered "binding" = _ from rfl) "policy" "rtl"
      "schema").2]
    rfl

end Ito.Release
