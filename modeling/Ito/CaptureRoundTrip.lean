import Ito.ItchRoundTrip
import Ito.Library.Fallible

/-! The whole pipeline, from messages to a capture file and back.

The microsecond field of a packet header is `idx * 1000`, which outgrows its four bytes, so only
so many packets can be written to one file. -/

namespace Ito.ItchHandler

open LittleEndian StructPack PythonText

structure Packet where
  session : List Char
  sequenceNumber : Int
  messages : List ItchMessage
  deriving DecidableEq, Repr

structure Packet.InRange (packet : Packet) : Prop where
  session : TextField 10 packet.session
  sequenceNumber : Fits 8 packet.sequenceNumber
  count : packet.messages.length ≤ 65535
  messages : ∀ message ∈ packet.messages, message.InRange

structure Received where
  session : List Char
  sequenceNumber : Int
  count : Int
  messages : List (Option ItchMessage)
  deriving DecidableEq, Repr

def encodePacket (packet : Packet) : Except Error Bytes := do
  encodeMoldPacket packet.session packet.sequenceNumber (← packet.messages.mapM encodeItch)

def receive (raw : Bytes) : Except Error Received := do
  let packet ← parseMoldPacket raw
  return ⟨packet.session, packet.sequenceNumber, packet.count,
    ← packet.messages.mapM parseItchMessage⟩

def pipeline (packets : List Packet) : Except Error (List Received) := do
  let written := writeSyntheticPcap (← packets.mapM encodePacket)
  match written.2 with
  | some error => .error error
  | none => (readPcapPayloads written.1).mapM receive

def Packet.received (packet : Packet) : Received :=
  ⟨packet.session, packet.sequenceNumber, packet.messages.length, packet.messages.map some⟩

/-! Blocks of a packet -/

def blocks (msgs : List Bytes) : Bytes := msgs.flatMap fun msg => big 2 msg.length ++ msg

theorem blocks_cons (msg : Bytes) (rest : List Bytes) :
    blocks (msg :: rest) = big 2 msg.length ++ (msg ++ blocks rest) := by
  rw [blocks, List.flatMap_cons, List.append_assoc, blocks]

theorem encodeBlocks_eq {msgs : List Bytes} (small : ∀ msg ∈ msgs, msg.length ≤ 36) :
    encodeBlocks msgs = .ok (blocks msgs) := by
  induction msgs with
  | nil => rfl
  | cons msg rest ih =>
      rcases List.forall_mem_cons.mp small with ⟨first, others⟩
      have fits : Fits 2 (msg.length : Int) := fits_nat.mpr (by omega)
      rw [encodeBlocks, packed_fits fits, ih others, blocks_cons]
      rfl

theorem parseBlocks_block {raw msg rest : Bytes} {offset : Nat} (small : msg.length < 256 ^ 2)
    (next : raw.drop offset = big 2 msg.length ++ (msg ++ rest)) (count : Nat) :
    parseBlocks raw (count + 1) offset = msg :: parseBlocks raw count (offset + 2 + msg.length) ∧
      raw.drop (offset + 2 + msg.length) = rest := by
  have size := congrArg List.length next
  rw [List.length_drop, List.length_append, List.length_append, length_big] at size
  have prefixed : field raw offset 2 = big 2 msg.length := by
    rw [field, next]
    exact List.take_left' (length_big 2 _)
  have behind : raw.drop (offset + 2) = msg ++ rest := by
    rw [← List.drop_drop, next]
    exact List.drop_left' (length_big 2 _)
  have body : field raw (offset + 2) msg.length = msg := by
    rw [field, behind, List.take_left]
  refine ⟨?_, by rw [← List.drop_drop, behind, List.drop_left]⟩
  rw [parseBlocks, if_neg (by omega)]
  simp only [prefixed, ofBig_big small]
  rw [if_neg (by omega), body]

theorem parseBlocks_blocks {raw : Bytes} {offset : Nat} {msgs : List Bytes}
    (small : ∀ msg ∈ msgs, msg.length ≤ 36) (stand : raw.drop offset = blocks msgs) :
    parseBlocks raw msgs.length offset = msgs := by
  induction msgs generalizing offset with
  | nil => rfl
  | cons msg rest ih =>
      rcases List.forall_mem_cons.mp small with ⟨first, others⟩
      rw [blocks_cons] at stand
      rcases parseBlocks_block (by omega) stand rest.length with ⟨taken, behind⟩
      rw [List.length_cons, taken, ih others behind]

theorem length_blocks_le {msgs : List Bytes} (small : ∀ msg ∈ msgs, msg.length ≤ 36) :
    (blocks msgs).length ≤ 38 * msgs.length := by
  induction msgs with
  | nil => exact le_refl 0
  | cons msg rest ih =>
      rcases List.forall_mem_cons.mp small with ⟨first, others⟩
      have bound := ih others
      rw [blocks_cons, List.length_append, List.length_append, length_big, List.length_cons]
      omega

/-! One packet -/

def moldLayout (session : List Char) (sequenceNumber : Int) (msgs : List Bytes) : Bytes :=
  padded 10 session ++ (big 8 sequenceNumber.toNat ++ (big 2 msgs.length ++ blocks msgs))

section Mold

variable {session : List Char} {sequenceNumber : Int} {msgs : List Bytes}

theorem encodeMoldPacket_eq (named : TextField 10 session) (number : Fits 8 sequenceNumber)
    (count : msgs.length ≤ 65535) (small : ∀ msg ∈ msgs, msg.length ≤ 36) :
    encodeMoldPacket session sequenceNumber msgs =
      .ok (moldLayout session sequenceNumber msgs) := by
  have counted : Fits 2 (msgs.length : Int) := fits_nat.mpr (by omega)
  rw [encodeMoldPacket, encode_padded named, packed_fits number, packed_fits counted,
    encodeBlocks_eq small]
  simp only [bind, Except.bind, pack_padded named]
  rfl

theorem parseMoldPacket_layout (named : TextField 10 session) (number : Fits 8 sequenceNumber)
    (count : msgs.length ≤ 65535) (small : ∀ msg ∈ msgs, msg.length ≤ 36) :
    parseMoldPacket (moldLayout session sequenceNumber msgs) =
      .ok ⟨session, sequenceNumber, msgs.length, msgs⟩ := by
  have width := length_padded named
  have long : ¬ (moldLayout session sequenceNumber msgs).length < 20 := by
    rw [moldLayout, List.length_append, List.length_append, List.length_append, width, length_big,
      length_big]
    omega
  have sessionField : field (moldLayout session sequenceNumber msgs) 0 10 = padded 10 session := by
    rw [moldLayout, field_head width]
  have numberField : field (moldLayout session sequenceNumber msgs) 10 8 =
      big 8 sequenceNumber.toNat := by
    simp (disch := simp [width]) only [moldLayout, field_skip, field_head, width, Nat.sub_self]
  have countField : field (moldLayout session sequenceNumber msgs) 18 2 = big 2 msgs.length := by
    simp (disch := simp [width]) only [moldLayout, field_skip, field_head, width, length_big,
      Nat.reduceSub]
  have header : moldLayout session sequenceNumber msgs =
      (padded 10 session ++ (big 8 sequenceNumber.toNat ++ big 2 msgs.length)) ++ blocks msgs := by
    rw [moldLayout, List.append_assoc, List.append_assoc]
  have offset : (padded 10 session ++
      (big 8 sequenceNumber.toNat ++ big 2 msgs.length)).length = 20 := by
    rw [List.length_append, List.length_append, width, length_big, length_big]
  have behind : (moldLayout session sequenceNumber msgs).drop 20 = blocks msgs := by
    rw [header, ← offset, List.drop_left]
  have parsed := parseBlocks_blocks small behind
  rw [parseMoldPacket, if_neg long]
  simp only [sessionField, numberField, countField, ofBig_toNat number,
    ofBig_big (show msgs.length < 256 ^ 2 by omega), parsed]
  rw [padded, decodeReplace_eq (ascii_ljust named), strip_ljust named]

theorem length_moldLayout (named : TextField 10 session) (sequenceNumber : Int)
    (count : msgs.length ≤ 65535) (small : ∀ msg ∈ msgs, msg.length ≤ 36) :
    20 ≤ (moldLayout session sequenceNumber msgs).length ∧
      (moldLayout session sequenceNumber msgs).length ≤ 20 + 38 * 65535 := by
  have bound := length_blocks_le small
  rw [moldLayout, List.length_append, List.length_append, List.length_append, length_padded named,
    length_big, length_big]
  omega

end Mold

/-- The payload of a packet: not empty, far from the longest frame, and received as it was sent. -/
structure Carries (packet : Packet) (payload : Bytes) : Prop where
  nonempty : 0 < payload.length
  short : payload.length ≤ 20 + 38 * 65535
  received : receive payload = .ok packet.received

theorem encodePacket_carries {packet : Packet} (inRange : packet.InRange) :
    ∃ payload, encodePacket packet = .ok payload ∧ Carries packet payload := by
  have each : ∀ message ∈ packet.messages, ∃ raw, encodeItch message = .ok raw ∧
      (raw.length ≤ 36 ∧ parseItchMessage raw = .ok (some message)) :=
    fun message member => round_trips (inRange.messages message member)
  rcases Fallible.mapM_forall₂ each with ⟨raws, encoded, all⟩
  have count : raws.length ≤ 65535 := all.length_eq ▸ inRange.count
  have small : ∀ raw ∈ raws, raw.length ≤ 36 := by
    intro raw member
    rcases Fallible.forall₂_right all member with ⟨_, _, short, _⟩
    exact short
  have parsed : raws.mapM parseItchMessage = .ok (packet.messages.map some) :=
    Fallible.mapM_of_forall₂ (all.imp fun _ _ both => both.2)
  have bounds := length_moldLayout inRange.session packet.sequenceNumber count small
  refine ⟨moldLayout packet.session packet.sequenceNumber raws, ?_, ?_, bounds.2, ?_⟩
  · rw [encodePacket, encoded]
    exact encodeMoldPacket_eq inRange.session inRange.sequenceNumber count small
  · omega
  · rw [receive, parseMoldPacket_layout inRange.session inRange.sequenceNumber count small]
    simp only [bind, Except.bind, parsed, Packet.received, all.length_eq]
    rfl

/-! The capture file -/

def capHdr (idx length : Nat) : Bytes :=
  toBytes 4 (1700000000 + idx) ++ (toBytes 4 (idx * 1000) ++ (toBytes 4 length ++ toBytes 4 length))

theorem length_capHdr (idx length : Nat) : (capHdr idx length).length = 16 := by
  simp [capHdr]

theorem packed_little {value : Nat} (fits : value < 2 ^ 32) :
    packed (packLittle 4 value) = .ok (toBytes 4 value) := by
  have small : Fits 4 (value : Int) := fits_nat.mpr fits
  rw [packLittle, if_pos small]
  rfl

theorem packed_little_large {value : Nat} (large : 2 ^ 32 ≤ value) :
    packed (packLittle 4 value) = .error .structError := by
  have outside : ¬ Fits 4 (value : Int) := fits_nat.not.mpr (not_lt.mpr large)
  rw [packLittle, if_neg outside]
  rfl

theorem pktHdr_eq {idx length : Nat} (early : idx < 4294968) (short : length < 2 ^ 32) :
    pktHdr idx length = .ok (capHdr idx length) := by
  have seconds := packed_little (show 1700000000 + idx < 2 ^ 32 by omega)
  have micros := packed_little (show idx * 1000 < 2 ^ 32 by omega)
  push_cast at seconds micros
  rw [pktHdr, seconds, micros, packed_little short]
  rfl

theorem pktHdr_late {idx : Nat} (late : 4294968 ≤ idx) (length : Nat) :
    pktHdr idx length = .error .structError := by
  have micros := packed_little_large (show 2 ^ 32 ≤ idx * 1000 by omega)
  push_cast at micros
  rw [pktHdr, micros, packed]
  cases packLittle 4 (1700000000 + idx) <;> rfl

def frameOf (payload : Bytes) : Bytes := List.replicate 42 0 ++ payload

theorem length_frameOf (payload : Bytes) : (frameOf payload).length = 42 + payload.length := by
  rw [frameOf, List.length_append, List.length_replicate]

theorem packetBytes_eq {idx : Nat} {payload : Bytes} (early : idx < 4294968)
    (short : 42 + payload.length < 2 ^ 32) :
    packetBytes idx payload = .ok (capHdr idx (42 + payload.length) ++ frameOf payload) := by
  have length := length_frameOf payload
  rw [frameOf] at length
  rw [packetBytes, length, pktHdr_eq early short]
  rfl

theorem packetBytes_late {idx : Nat} (late : 4294968 ≤ idx) (payload : Bytes) :
    packetBytes idx payload = .error .structError := by
  rw [packetBytes, pktHdr_late late]
  rfl

theorem readPackets_cons {idx : Nat} {payload : Bytes} (rest : Bytes)
    (nonempty : 0 < payload.length) (short : 42 + payload.length < 2 ^ 32) :
    readPackets ((capHdr idx (42 + payload.length) ++ frameOf payload) ++ rest) =
      payload :: readPackets rest := by
  have header := length_capHdr idx (42 + payload.length)
  have caplen : field ((capHdr idx (42 + payload.length) ++ frameOf payload) ++ rest) 8 4 =
      toBytes 4 (42 + payload.length) := by
    simp (disch := simp) only [capHdr, List.append_assoc, field_skip, field_head, length_toBytes,
      Nat.reduceSub, Nat.sub_self]
  rw [List.append_assoc] at caplen ⊢
  have long : ¬ (capHdr idx (42 + payload.length) ++ (frameOf payload ++ rest)).length < 16 := by
    rw [List.length_append, header]
    omega
  have body : (capHdr idx (42 + payload.length) ++ (frameOf payload ++ rest)).drop 16 =
      frameOf payload ++ rest := List.drop_left' header
  have whole := length_frameOf payload
  rw [readPackets, if_neg long]
  simp only [caplen, body, ofBytes_toBytes (show 42 + payload.length < 256 ^ 4 by omega),
    List.take_left' whole, List.drop_left' whole]
  rw [if_pos (by omega), frameOf, List.drop_left' (List.length_replicate)]

theorem readPackets_write {payloads : List Bytes} {idx : Nat}
    (early : idx + payloads.length ≤ 4294968)
    (good : ∀ payload ∈ payloads, 0 < payload.length ∧ 42 + payload.length < 2 ^ 32) :
    (writePackets idx payloads).2 = none ∧
      readPackets (writePackets idx payloads).1 = payloads := by
  induction payloads generalizing idx with
  | nil =>
      rw [writePackets, readPackets]
      exact ⟨rfl, rfl⟩
  | cons payload rest ih =>
      rcases List.forall_mem_cons.mp good with ⟨first, others⟩
      rw [List.length_cons] at early
      have later : idx + 1 + rest.length ≤ 4294968 := by omega
      rcases ih later others with ⟨fine, back⟩
      rw [writePackets, packetBytes_eq (by omega) first.2]
      exact ⟨fine, (readPackets_cons _ first.1 first.2).trans (congrArg _ back)⟩

theorem writePackets_late {payloads : List Bytes} {idx : Nat} (early : idx ≤ 4294968)
    (late : 4294968 < idx + payloads.length)
    (good : ∀ payload ∈ payloads, 42 + payload.length < 2 ^ 32) :
    (writePackets idx payloads).2 = some .structError := by
  induction payloads generalizing idx with
  | nil =>
      rw [List.length_nil] at late
      omega
  | cons payload rest ih =>
      rw [List.length_cons] at late
      rw [writePackets]
      by_cases last : idx = 4294968
      · rw [packetBytes_late last.ge]
        rfl
      · rcases List.forall_mem_cons.mp good with ⟨first, others⟩
        have inside : idx + 1 ≤ 4294968 := by omega
        have beyond : 4294968 < idx + 1 + rest.length := by omega
        rw [packetBytes_eq (by omega) first]
        exact ih inside beyond others

theorem length_pcapHdr : pcapHdr.length = 24 := by
  simp [pcapHdr]

/-! The pipeline -/

theorem encodePackets {packets : List Packet} (inRange : ∀ packet ∈ packets, packet.InRange) :
    ∃ payloads, packets.mapM encodePacket = .ok payloads ∧
      List.Forall₂ Carries packets payloads :=
  Fallible.mapM_forall₂ fun packet member => encodePacket_carries (inRange packet member)

theorem carried_short {packets : List Packet} {payloads : List Bytes}
    (all : List.Forall₂ Carries packets payloads) :
    ∀ payload ∈ payloads, 0 < payload.length ∧ 42 + payload.length < 2 ^ 32 := by
  intro payload member
  rcases Fallible.forall₂_right all member with ⟨packet, -, carries⟩
  have short := carries.short
  exact ⟨carries.nonempty, by omega⟩

theorem pipeline_succeeds {packets : List Packet} (inRange : ∀ packet ∈ packets, packet.InRange)
    (few : packets.length ≤ 4294968) : pipeline packets = .ok (packets.map Packet.received) := by
  rcases encodePackets inRange with ⟨payloads, encoded, all⟩
  have early : 0 + payloads.length ≤ 4294968 := by
    rw [Nat.zero_add, ← all.length_eq]
    exact few
  rcases readPackets_write early (carried_short all) with ⟨fine, back⟩
  have long : ¬ (pcapHdr ++ (writePackets 0 payloads).1).length < 24 := by
    rw [List.length_append, length_pcapHdr]
    omega
  have read : readPcapPayloads (writeSyntheticPcap payloads).1 = payloads := by
    rw [writeSyntheticPcap, readPcapPayloads, if_neg long, List.drop_left' length_pcapHdr, back]
  have received : payloads.mapM receive = .ok (packets.map Packet.received) :=
    Fallible.mapM_of_forall₂ (all.imp fun _ _ carries => carries.received)
  rw [pipeline, encoded]
  change (match (writePackets 0 payloads).2 with
    | some error => Except.error error
    | none => (readPcapPayloads (writeSyntheticPcap payloads).1).mapM receive) = _
  rw [fine, read]
  exact received

theorem pipeline_raises {packets : List Packet} (inRange : ∀ packet ∈ packets, packet.InRange)
    (many : 4294968 < packets.length) : pipeline packets = .error .structError := by
  rcases encodePackets inRange with ⟨payloads, encoded, all⟩
  have late : 4294968 < 0 + payloads.length := by
    rw [Nat.zero_add, ← all.length_eq]
    exact many
  have failed := writePackets_late (Nat.zero_le _) late
    fun payload member => (carried_short all payload member).2
  rw [pipeline, encoded]
  change (match (writePackets 0 payloads).2 with
    | some error => Except.error error
    | none => (readPcapPayloads (writeSyntheticPcap payloads).1).mapM receive) = _
  rw [failed]

/-- Packets in range come back as they were sent exactly when there are at most 4294968 of them. -/
theorem pipeline_round_trips_iff {packets : List Packet}
    (inRange : ∀ packet ∈ packets, packet.InRange) :
    pipeline packets = .ok (packets.map Packet.received) ↔ packets.length ≤ 4294968 := by
  constructor
  · intro back
    by_contra many
    rw [pipeline_raises inRange (not_le.mp many)] at back
    cases back
  · exact pipeline_succeeds inRange

def closingPacket : Packet :=
  { session := "SESS1".toList
    sequenceNumber := 100
    messages :=
      [.addOrder
        { locateId := 1
          timestampNs := 34200000000000
          orderRef := 101
          side := ['B']
          shares := 500
          stock := "INFY".toList
          priceTicks := 10000 },
       .orderDelete { locateId := 1, timestampNs := 34200000000001, orderRef := 101 }] }

theorem closingPacket_received : pipeline [closingPacket] = .ok [closingPacket.received] := by
  have session : TextField 10 "SESS1".toList := by
    constructor <;> simp [isSpace, isSpaceCode]
  have stock : TextField 8 "INFY".toList := by
    constructor <;> simp [isSpace, isSpaceCode]
  have messages : ∀ message ∈ closingPacket.messages, message.InRange := by
    refine List.forall_mem_cons.mpr ⟨?_, List.forall_mem_singleton.mpr ?_⟩
    · exact ⟨by decide, by decide, by decide, ⟨'B', rfl, by decide⟩, by decide, stock, by decide⟩
    · exact ⟨by decide, by decide, by decide⟩
  have inRange : closingPacket.InRange := ⟨session, by decide, by decide, messages⟩
  exact (pipeline_round_trips_iff (List.forall_mem_singleton.mpr inRange)).mpr (by decide)

def emptyPacket : Packet := { session := ['S'], sequenceNumber := 1, messages := [] }

theorem emptyPacket_inRange : emptyPacket.InRange := by
  have session : TextField 10 ['S'] := by
    constructor <;> simp [isSpace, isSpaceCode]
  exact ⟨session, by decide, by decide, fun _ member => absurd member List.not_mem_nil⟩

/-- One packet more than a file takes. -/
theorem long_capture_raises : ¬ ∀ packets : List Packet, (∀ packet ∈ packets, packet.InRange) →
    pipeline packets = .ok (packets.map Packet.received) := by
  intro always
  have inRange : ∀ packet ∈ List.replicate 4294969 emptyPacket, packet.InRange := by
    intro packet member
    rw [List.eq_of_mem_replicate member]
    exact emptyPacket_inRange
  have many : 4294968 < (List.replicate 4294969 emptyPacket).length := by
    rw [List.length_replicate]
    omega
  have back := always _ inRange
  rw [pipeline_raises inRange many] at back
  cases back

end Ito.ItchHandler
