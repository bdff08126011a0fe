import Ito.WireFrame

/-! What the decoder of wire frames accepts, and how it relates to the encoder. -/

namespace Ito.WireFrame

open LittleEndian

/-! Words -/

theorem le16_length (value : UInt16) : (le16 value).length = 2 := length_toBytes 2 _
theorem le32_length (value : UInt32) : (le32 value).length = 4 := length_toBytes 4 _
theorem le64_length (value : UInt64) : (le64 value).length = 8 := length_toBytes 8 _

theorem from16_le16 (value : UInt16) : from16 (le16 value) = value := by
  rw [from16, le16, ofBytes_toBytes value.toNat_lt, UInt16.ofNat_toNat]

theorem from32_le32 (value : UInt32) : from32 (le32 value) = value := by
  rw [from32, le32, ofBytes_toBytes value.toNat_lt, UInt32.ofNat_toNat]

theorem from64_le64 (value : UInt64) : from64 (le64 value) = value := by
  rw [from64, le64, ofBytes_toBytes value.toNat_lt, UInt64.ofNat_toNat]

theorem le16_from16 {bytes : List UInt8} (whole : bytes.length = 2) :
    le16 (from16 bytes) = bytes := by
  have small := ofBytes_lt bytes
  rw [whole] at small
  rw [le16, from16, UInt16.toNat_ofNat_of_lt' small, ← whole, toBytes_ofBytes]

theorem le32_from32 {bytes : List UInt8} (whole : bytes.length = 4) :
    le32 (from32 bytes) = bytes := by
  have small := ofBytes_lt bytes
  rw [whole] at small
  rw [le32, from32, UInt32.toNat_ofNat_of_lt' small, ← whole, toBytes_ofBytes]

theorem le64_from64 {bytes : List UInt8} (whole : bytes.length = 8) :
    le64 (from64 bytes) = bytes := by
  have small := ofBytes_lt bytes
  rw [whole] at small
  rw [le64, from64, UInt64.toNat_ofNat_of_lt' small, ← whole, toBytes_ofBytes]

/-! The decoder without its panics -/

section

variable (hashPayload : List UInt8 → Vector UInt8 32)

/-- The fields at their offsets, with the hash that the payload must have. -/
def parsed (bytes : List UInt8) : WireFrame :=
  { version := from16 (field bytes 2 2)
    messageType := from16 (field bytes 4 2)
    flags := from16 (field bytes 6 2)
    branchId := from64 (field bytes 8 8)
    entityId := from64 (field bytes 16 8)
    venueId := from16 (field bytes 24 2)
    sessionEpoch := from64 (field bytes 28 8)
    sequence := from64 (field bytes 36 8)
    expiresAtNs := from64 (field bytes 44 8)
    payloadHash := hashPayload (bytes.drop 88)
    payload := bytes.drop 88 }

/-- The checks of `decode`, in order. -/
def verdict (bytes : List UInt8) (nowNs expectedBranchId expectedEntityId lastSequence : UInt64) :
    Except CodecError WireFrame :=
  let frame := parsed hashPayload bytes
  let payloadLength := (from32 (field bytes 52 4)).toNat
  if bytes.length < 88 then .error .truncated
  else if from16 (field bytes 0 2) ≠ magic then .error .invalidMagic
  else if frame.version ≠ supportedVersion then .error .unsupportedVersion
  else if payloadLength > maxPayload then .error .payloadTooLarge
  else if bytes.length ≠ 88 + payloadLength then .error .invalidLength
  else if frame.branchId ≠ expectedBranchId ∨ frame.entityId ≠ expectedEntityId ∨
      frame.venueId = 0 ∨ frame.sessionEpoch = 0 then .error .invalidScope
  else if lastSequence = 0xFFFFFFFFFFFFFFFF ∨ frame.sequence ≠ lastSequence + 1 then
    .error .invalidSequence
  else if frame.expiresAtNs ≤ nowNs then .error .invalidExpiry
  else if field bytes 56 32 ≠ frame.payloadHash.toList then .error .invalidPayloadHash
  else .ok frame

end

theorem slice_field {bytes : List UInt8} {start stop width : Nat} (next : start + width = stop)
    (fits : stop ≤ bytes.length) : slice bytes start stop = some (field bytes start width) := by
  rw [slice, if_pos ⟨by omega, fits⟩, ← next, Nat.add_sub_cancel_left]

theorem read_field {β : Type} {bytes : List UInt8} {start stop width : Nat}
    (step : start + width = stop) (fits : stop ≤ bytes.length)
    (next : List UInt8 → Option (Except CodecError β)) :
    read bytes start stop width next = next (field bytes start width) := by
  rw [read, slice_field step fits, Option.bind_some, if_pos (length_field (by omega))]

theorem outOfSequence_eq (sequence lastSequence : UInt64) :
    outOfSequence sequence lastSequence =
      some (decide (lastSequence = 0xFFFFFFFFFFFFFFFF ∨ sequence ≠ lastSequence + 1)) := by
  have small := lastSequence.toNat_lt
  rw [outOfSequence]
  split
  case isTrue last => simp [last]
  case isFalse before =>
    have below : lastSequence.toNat ≠ 2 ^ 64 - 1 := by
      intro last
      exact before (UInt64.toNat_inj.mp last)
    rw [if_pos (by omega)]
    simp only [before, false_or]
    by_cases equal : sequence = lastSequence + 1 <;> simp [equal]

theorem copyFromSlice_whole {part : List UInt8} (whole : part.length = 32) :
    ∃ copied, copyFromSlice part = some copied ∧ copied.toList = part := by
  rw [copyFromSlice, dif_pos whole]
  exact ⟨_, rfl, rfl⟩

theorem decode_eq_verdict (hashPayload : List UInt8 → Vector UInt8 32) (bytes : List UInt8)
    (nowNs expectedBranchId expectedEntityId lastSequence : UInt64) :
    decode hashPayload bytes nowNs expectedBranchId expectedEntityId lastSequence =
      some (verdict hashPayload bytes nowNs expectedBranchId expectedEntityId lastSequence) := by
  by_cases short : bytes.length < 88
  · rw [decode, verdict, if_pos short]
    exact if_pos short
  · have long : 88 ≤ bytes.length := by omega
    have hashed : slice bytes 56 88 = some (field bytes 56 32) := slice_field rfl long
    have payload : slice bytes 88 bytes.length = some (bytes.drop 88) := by
      rw [slice_field (Nat.add_sub_cancel' long) (Nat.le_refl _), field, ← List.length_drop,
        List.take_length]
    rcases copyFromSlice_whole (length_field (show 56 + 32 ≤ bytes.length from long)) with
      ⟨copied, copies, same⟩
    rw [decode, headerBytes, if_neg short, read_field (show 0 + 2 = 2 from rfl) (by omega),
      read_field (show 2 + 2 = 4 from rfl) (by omega),
      read_field (show 8 + 8 = 16 from rfl) (by omega),
      read_field (show 16 + 8 = 24 from rfl) (by omega),
      read_field (show 24 + 2 = 26 from rfl) (by omega),
      read_field (show 28 + 8 = 36 from rfl) (by omega),
      read_field (show 36 + 8 = 44 from rfl) (by omega),
      read_field (show 44 + 8 = 52 from rfl) (by omega),
      read_field (show 52 + 4 = 56 from rfl) (by omega),
      outOfSequence_eq, Option.bind_some, hashed, Option.bind_some, copies, Option.bind_some,
      payload, Option.bind_some, read_field (show 4 + 2 = 6 from rfl) (by omega),
      read_field (show 6 + 2 = 8 from rfl) (by omega), verdict, if_neg short]
    simp only [decide_eq_true_eq, apply_ite some]
    by_cases agrees : copied = hashPayload (bytes.drop 88)
    · have equal : field bytes 56 32 = (parsed hashPayload bytes).payloadHash.toList := by
        rw [← same, agrees]
        rfl
      rw [if_neg (not_not_intro agrees), if_neg (not_not_intro equal), agrees]
      rfl
    · have differ : field bytes 56 32 ≠ (parsed hashPayload bytes).payloadHash.toList := by
        rw [← same]
        intro equal
        exact agrees (Vector.toList_inj.mp equal)
      rw [if_pos agrees, if_pos differ]
      rfl

/-! Accepted byte strings -/

structure Accepted (hashPayload : List UInt8 → Vector UInt8 32) (bytes : List UInt8)
    (nowNs expectedBranchId expectedEntityId lastSequence : UInt64) : Prop where
  long : 88 ≤ bytes.length
  tag : from16 (field bytes 0 2) = magic
  version : (parsed hashPayload bytes).version = supportedVersion
  small : (from32 (field bytes 52 4)).toNat ≤ maxPayload
  whole : bytes.length = 88 + (from32 (field bytes 52 4)).toNat
  branch : (parsed hashPayload bytes).branchId = expectedBranchId
  entity : (parsed hashPayload bytes).entityId = expectedEntityId
  venue : (parsed hashPayload bytes).venueId ≠ 0
  epoch : (parsed hashPayload bytes).sessionEpoch ≠ 0
  last : lastSequence ≠ 0xFFFFFFFFFFFFFFFF
  sequence : (parsed hashPayload bytes).sequence = lastSequence + 1
  expiry : nowNs < (parsed hashPayload bytes).expiresAtNs
  hash : field bytes 56 32 = (parsed hashPayload bytes).payloadHash.toList

theorem checked_ok {c : Prop} [Decidable c] {error : CodecError} {frame : WireFrame}
    {rest : Except CodecError WireFrame} :
    (if c then .error error else rest) = .ok frame ↔ ¬ c ∧ rest = .ok frame := by
  by_cases stopped : c <;> simp [stopped]

theorem decode_ok_iff (hashPayload : List UInt8 → Vector UInt8 32) (bytes : List UInt8)
    (nowNs expectedBranchId expectedEntityId lastSequence : UInt64) (frame : WireFrame) :
    decode hashPayload bytes nowNs expectedBranchId expectedEntityId lastSequence =
        some (.ok frame) ↔
      Accepted hashPayload bytes nowNs expectedBranchId expectedEntityId lastSequence ∧
        parsed hashPayload bytes = frame := by
  rw [decode_eq_verdict, Option.some.injEq, verdict]
  simp only [checked_ok, not_or, ne_eq, not_not, Except.ok.injEq, Nat.not_lt, UInt64.not_le]
  constructor
  · intro passed
    rcases passed with ⟨long, tag, version, small, whole, ⟨branch, entity, venue, epoch⟩,
      ⟨last, sequence⟩, expiry, hash, same⟩
    exact ⟨⟨long, tag, version, small, whole, branch, entity, venue, epoch, last, sequence, expiry,
      hash⟩, same⟩
  · intro both
    rcases both with ⟨ok, same⟩
    exact ⟨ok.long, ok.tag, ok.version, ok.small, ok.whole,
      ⟨ok.branch, ok.entity, ok.venue, ok.epoch⟩, ⟨ok.last, ok.sequence⟩, ok.expiry, ok.hash, same⟩

/-! Layout -/

section Layout

variable (frame : WireFrame) {reserved : List UInt8}

theorem layout_length (two : reserved.length = 2) :
    (frame.layout reserved).length = 88 + frame.payload.length := by
  simp only [layout, List.length_append, le16_length, le32_length, le64_length, two,
    Vector.length_toList]
  omega

theorem layout_payload (two : reserved.length = 2) :
    (frame.layout reserved).drop 88 = frame.payload := by
  have whole := layout_length frame two
  have last : frame.payload <:+ frame.layout reserved := by
    simp only [layout]
    repeat (first | exact List.suffix_append _ _ | apply List.IsSuffix.trans _ (List.suffix_append _ _))
  have suffix := List.suffix_iff_eq_drop.mp last
  rw [whole, Nat.add_sub_cancel] at suffix
  exact suffix.symm

theorem layout_words (two : reserved.length = 2) :
    field (frame.layout reserved) 0 2 = le16 magic ∧
      field (frame.layout reserved) 26 2 = reserved ∧
      field (frame.layout reserved) 52 4 = le32 (UInt32.ofNat frame.payload.length) ∧
      field (frame.layout reserved) 56 32 = frame.payloadHash.toList := by
  simp (disch := simp [le16_length, le32_length, le64_length, two]) only [layout, field_skip,
    field_head, le16_length, le32_length, le64_length, two, Nat.reduceSub, and_self]

theorem parsed_layout {hashPayload : List UInt8 → Vector UInt8 32} (two : reserved.length = 2)
    (hashed : frame.payloadHash = hashPayload frame.payload) :
    parsed hashPayload (frame.layout reserved) = frame := by
  have payload := layout_payload frame two
  rw [parsed, payload]
  simp (disch := simp [le16_length, le32_length, le64_length, two]) only [layout, field_skip,
    field_head, le16_length, le64_length, two, Nat.reduceSub, from16_le16, from64_le64, ← hashed]

end Layout

theorem fields_append (bytes : List UInt8) :
    field bytes 0 2 ++ (field bytes 2 2 ++ (field bytes 4 2 ++ (field bytes 6 2 ++
      (field bytes 8 8 ++ (field bytes 16 8 ++ (field bytes 24 2 ++ (field bytes 26 2 ++
      (field bytes 28 8 ++ (field bytes 36 8 ++ (field bytes 44 8 ++ (field bytes 52 4 ++
      (field bytes 56 32 ++ bytes.drop 88)))))))))))) = bytes := by
  simp only [← drop_eq_field bytes (show 56 + 32 = 88 from rfl),
    ← drop_eq_field bytes (show 52 + 4 = 56 from rfl),
    ← drop_eq_field bytes (show 44 + 8 = 52 from rfl),
    ← drop_eq_field bytes (show 36 + 8 = 44 from rfl),
    ← drop_eq_field bytes (show 28 + 8 = 36 from rfl),
    ← drop_eq_field bytes (show 26 + 2 = 28 from rfl),
    ← drop_eq_field bytes (show 24 + 2 = 26 from rfl),
    ← drop_eq_field bytes (show 16 + 8 = 24 from rfl),
    ← drop_eq_field bytes (show 8 + 8 = 16 from rfl),
    ← drop_eq_field bytes (show 6 + 2 = 8 from rfl),
    ← drop_eq_field bytes (show 4 + 2 = 6 from rfl),
    ← drop_eq_field bytes (show 2 + 2 = 4 from rfl),
    ← drop_eq_field bytes (show 0 + 2 = 2 from rfl), List.drop_zero]

theorem layout_parsed {hashPayload : List UInt8 → Vector UInt8 32} {bytes : List UInt8}
    {nowNs expectedBranchId expectedEntityId lastSequence : UInt64}
    (ok : Accepted hashPayload bytes nowNs expectedBranchId expectedEntityId lastSequence) :
    (parsed hashPayload bytes).layout (field bytes 26 2) = bytes := by
  have long := ok.long
  have payload : (parsed hashPayload bytes).payload.length = (from32 (field bytes 52 4)).toNat := by
    have whole := ok.whole
    rw [parsed, List.length_drop]
    omega
  rw [layout, payload, UInt32.ofNat_toNat, ← ok.tag, ← ok.hash]
  simp (disch := exact length_field (by omega)) only [parsed, le16_from16, le32_from32, le64_from64]
  exact fields_append bytes

/-! Round trips -/

/-- The checks of `new` and `encode` that a frame passes. -/
structure Sound (hashPayload : List UInt8 → Vector UInt8 32) (frame : WireFrame) : Prop where
  version : frame.version = supportedVersion
  branch : frame.branchId ≠ 0
  entity : frame.entityId ≠ 0
  venue : frame.venueId ≠ 0
  epoch : frame.sessionEpoch ≠ 0
  sequence : frame.sequence ≠ 0
  expiry : frame.expiresAtNs ≠ 0
  small : frame.payload.length ≤ maxPayload
  hash : frame.payloadHash = hashPayload frame.payload

theorem encode_ok_iff (hashPayload : List UInt8 → Vector UInt8 32) (frame : WireFrame)
    (bytes : List UInt8) :
    frame.encode hashPayload = .ok bytes ↔
      frame.Sound hashPayload ∧ frame.layout (le16 0) = bytes := by
  rw [encode]
  constructor
  · intro encoded
    split at encoded
    · cases encoded
    next version =>
    split at encoded
    · cases encoded
    next scope =>
    split at encoded
    · cases encoded
    next small =>
    split at encoded
    · cases encoded
    next hash =>
    simp only [not_or, ne_eq, not_not, Nat.not_lt] at version scope small hash
    rcases scope with ⟨branch, entity, venue, epoch, sequence, expiry⟩
    exact ⟨⟨version, branch, entity, venue, epoch, sequence, expiry, small, hash⟩,
      Except.ok.inj encoded⟩
  · intro both
    rcases both with ⟨sound, same⟩
    rw [if_neg (not_not_intro sound.version), if_neg, if_neg (Nat.not_lt.mpr sound.small),
      if_neg (not_not_intro sound.hash), same]
    simp only [sound.branch, sound.entity, sound.venue, sound.epoch, sound.sequence, sound.expiry,
      or_self, not_false_eq_true]

theorem new_sound {hashPayload : List UInt8 → Vector UInt8 32}
    {version messageType flags : UInt16} {branchId entityId : UInt64} {venueId : UInt16}
    {sessionEpoch sequence expiresAtNs : UInt64} {payload : List UInt8} {frame : WireFrame}
    (made : new hashPayload version messageType flags branchId entityId venueId sessionEpoch
      sequence expiresAtNs payload = .ok frame) : frame.Sound hashPayload := by
  rw [new] at made
  simp only [checked_ok, not_or, ne_eq, not_not, Except.ok.injEq, Nat.not_lt] at made
  rcases made with ⟨version, small, ⟨branch, entity, venue, epoch, sequence, expiry⟩, rfl⟩
  exact ⟨version, branch, entity, venue, epoch, sequence, expiry, small, rfl⟩

theorem layout_accepted {hashPayload : List UInt8 → Vector UInt8 32} {frame : WireFrame}
    (sound : frame.Sound hashPayload) {nowNs : UInt64} (early : nowNs < frame.expiresAtNs) :
    Accepted hashPayload (frame.layout (le16 0)) nowNs frame.branchId frame.entityId
      (frame.sequence - 1) := by
  have two : (le16 0).length = 2 := le16_length 0
  have parses := parsed_layout frame two sound.hash
  have length := layout_length frame two
  have bound := sound.small
  rw [maxPayload] at bound
  rcases layout_words frame two with ⟨tag, _, count, hash⟩
  have counted : (from32 (field (frame.layout (le16 0)) 52 4)).toNat = frame.payload.length := by
    rw [count, from32_le32]
    exact UInt32.toNat_ofNat_of_lt' (Nat.lt_of_le_of_lt bound (by decide))
  constructor
  · omega
  · rw [tag, from16_le16]
  · rw [parses, sound.version]
  · rw [counted]
    exact sound.small
  · rw [counted, length]
  · rw [parses]
  · rw [parses]
  · rw [parses]
    exact sound.venue
  · rw [parses]
    exact sound.epoch
  · intro last
    have first : frame.sequence - 1 + 1 = 0 := by
      rw [last]
      rfl
    rw [UInt64.sub_add_cancel] at first
    exact sound.sequence first
  · rw [parses, UInt64.sub_add_cancel]
  · rw [parses]
    exact early
  · rw [parses]
    exact hash

/-- Every frame that `new` makes encodes to its header and payload and decodes to
itself, and `decode` returns on every input. -/
theorem frame_round_trip (hashPayload : List UInt8 → Vector UInt8 32) :
    (∀ (version messageType flags : UInt16) (branchId entityId : UInt64) (venueId : UInt16)
        (sessionEpoch sequence expiresAtNs : UInt64) (payload : List UInt8) (frame : WireFrame),
      new hashPayload version messageType flags branchId entityId venueId sessionEpoch
        sequence expiresAtNs payload = .ok frame →
      ∃ bytes, frame.encode hashPayload = .ok bytes ∧
        bytes.length = 88 + frame.payload.length ∧
        ∀ nowNs, nowNs < frame.expiresAtNs →
          decode hashPayload bytes nowNs frame.branchId frame.entityId (frame.sequence - 1) =
            some (.ok frame)) ∧
    (∀ (bytes : List UInt8) (nowNs expectedBranchId expectedEntityId lastSequence : UInt64),
      ∃ result, decode hashPayload bytes nowNs expectedBranchId expectedEntityId lastSequence =
        some result) := by
  constructor
  · intro version messageType flags branchId entityId venueId sessionEpoch sequence expiresAtNs
      payload frame made
    have sound := new_sound made
    have two : (le16 0).length = 2 := le16_length 0
    have encoded := (encode_ok_iff hashPayload frame _).mpr ⟨sound, rfl⟩
    refine ⟨_, encoded, layout_length frame two, ?_⟩
    intro nowNs early
    apply (decode_ok_iff ..).mpr
    exact ⟨layout_accepted sound early, parsed_layout frame two sound.hash⟩
  · intro bytes nowNs expectedBranchId expectedEntityId lastSequence
    exact ⟨_, decode_eq_verdict ..⟩

/-- The payload of the source's own tests. -/
def orderPayload : List UInt8 := [0x6f, 0x72, 0x64, 0x65, 0x72]

def orderDigest : Vector UInt8 32 :=
  #v[0x3e, 0xeb, 0x7e, 0x96, 0xe5, 0x9c, 0xe4, 0x0f, 0x9c, 0xb1, 0xa0, 0x89, 0xda, 0xba, 0x07, 0x9f,
    0xd6, 0x99, 0xf6, 0x86, 0x7a, 0x30, 0xf6, 0x63, 0x4a, 0xf8, 0x57, 0x09, 0x67, 0xb2, 0x37, 0x5a]

def orderFrame : WireFrame := ⟨1, 32, 0, 11, 21, 5, 4, 9, 2000, orderDigest, orderPayload⟩

theorem order_frame_round_trip :
    ∃ bytes, orderFrame.encode (fun _ => orderDigest) = .ok bytes ∧ bytes.length = 93 ∧
      decode (fun _ => orderDigest) bytes 1000 11 21 8 = some (.ok orderFrame) := by
  rcases (frame_round_trip fun _ => orderDigest).1 1 32 0 11 21 5 4 9 2000 orderPayload orderFrame
    (by decide +kernel) with ⟨bytes, encoded, length, decodes⟩
  exact ⟨bytes, encoded, length, decodes 1000 (by decide)⟩

/-- The reserved bytes and the expected ids under which an accepted byte string is
the encoding of its frame. -/
def Canonical (bytes : List UInt8) (expectedBranchId expectedEntityId : UInt64) : Prop :=
  field bytes 26 2 = [0, 0] ∧ expectedBranchId ≠ 0 ∧ expectedEntityId ≠ 0

theorem accepted_sound {hashPayload : List UInt8 → Vector UInt8 32} {bytes : List UInt8}
    {nowNs expectedBranchId expectedEntityId lastSequence : UInt64}
    (ok : Accepted hashPayload bytes nowNs expectedBranchId expectedEntityId lastSequence)
    (branch : expectedBranchId ≠ 0) (entity : expectedEntityId ≠ 0) :
    (parsed hashPayload bytes).Sound hashPayload := by
  have whole := ok.whole
  have small := ok.small
  constructor
  · exact ok.version
  · rw [ok.branch]
    exact branch
  · rw [ok.entity]
    exact entity
  · exact ok.venue
  · exact ok.epoch
  · rw [ok.sequence]
    intro wrapped
    apply ok.last
    calc
      lastSequence = lastSequence + 1 - 1 := (UInt64.add_sub_cancel lastSequence 1).symm
      _ = 0 - 1 := by rw [wrapped]
      _ = 0xFFFFFFFFFFFFFFFF := rfl
  · intro zero
    have expiry := ok.expiry
    rw [zero] at expiry
    exact absurd expiry (UInt64.not_lt.mpr (UInt64.zero_le))
  · rw [parsed, List.length_drop]
    omega
  · rfl

/-- An accepted byte string is the encoding of its frame if and only if its
reserved bytes are zero and the expected ids are not; and a frame fixes all of an
accepted byte string but its reserved bytes. -/
theorem accepted_canonical_iff (hashPayload : List UInt8 → Vector UInt8 32) (bytes : List UInt8)
    (nowNs expectedBranchId expectedEntityId lastSequence : UInt64) (frame : WireFrame)
    (decoded : decode hashPayload bytes nowNs expectedBranchId expectedEntityId lastSequence =
      some (.ok frame)) :
    (frame.encode hashPayload = .ok bytes ↔
      Canonical bytes expectedBranchId expectedEntityId) ∧
    ∀ (other : List UInt8) (nowNs' expectedBranchId' expectedEntityId' lastSequence' : UInt64),
      decode hashPayload other nowNs' expectedBranchId' expectedEntityId' lastSequence' =
        some (.ok frame) →
      (other = bytes ↔ field other 26 2 = field bytes 26 2) := by
  rcases (decode_ok_iff ..).mp decoded with ⟨ok, same⟩
  have laid : frame.layout (field bytes 26 2) = bytes := by
    rw [← same]
    exact layout_parsed ok
  constructor
  · rw [encode_ok_iff]
    constructor
    · intro encoded
      rcases encoded with ⟨sound, equal⟩
      have zero : field bytes 26 2 = [0, 0] := by
        rw [← equal, (layout_words frame (le16_length 0)).2.1]
        rfl
      have branch := sound.branch
      have entity := sound.entity
      rw [← same, ok.branch] at branch
      rw [← same, ok.entity] at entity
      exact ⟨zero, branch, entity⟩
    · intro canonical
      rcases canonical with ⟨zero, branch, entity⟩
      rw [zero] at laid
      exact ⟨by rw [← same]; exact accepted_sound ok branch entity, laid⟩
  · intro other nowNs' expectedBranchId' expectedEntityId' lastSequence' decoded'
    rcases (decode_ok_iff ..).mp decoded' with ⟨ok', same'⟩
    have laid' : frame.layout (field other 26 2) = other := by
      rw [← same']
      exact layout_parsed ok'
    constructor
    · intro equal
      rw [equal]
    · intro equal
      rw [← laid', equal, laid]

/-- The encoding of `orderFrame` with a one in its reserved bytes. -/
def markedBytes : List UInt8 := orderFrame.layout [1, 0]

/-- The marked bytes decode to the frame, whose encoding is another byte string. -/
theorem reserved_bytes_ignored :
    ¬ ∀ (hashPayload : List UInt8 → Vector UInt8 32) (bytes : List UInt8)
      (nowNs expectedBranchId expectedEntityId lastSequence : UInt64) (frame : WireFrame),
      decode hashPayload bytes nowNs expectedBranchId expectedEntityId lastSequence =
        some (.ok frame) → frame.encode hashPayload = .ok bytes := by
  intro always
  have encoded := always (fun _ => orderDigest) markedBytes 1000 11 21 8 orderFrame
    (by decide +kernel)
  have differs : orderFrame.encode (fun _ => orderDigest) ≠ .ok markedBytes := by decide +kernel
  exact differs encoded

theorem order_frame_canonical :
    orderFrame.encode (fun _ => orderDigest) = .ok (orderFrame.layout [0, 0]) :=
  (accepted_canonical_iff (fun _ => orderDigest) (orderFrame.layout [0, 0]) 1000 11 21 8 orderFrame
    (by decide +kernel)).1.mpr ⟨by decide +kernel, by decide, by decide⟩

end Ito.WireFrame
