import Ito.CaptureRoundTrip
import Ito.ItchParsing

/-! The messages that `parse_mold_packet` finds in any bytes: the complete blocks behind the
header, and no more of them than the header counts. -/

namespace Ito.ItchHandler

open LittleEndian StructPack

/-- The loop of `parse_mold_packet` with the size that its call of `struct.unpack` asks for. -/
def parseBlocksChecked (raw : Bytes) : Nat → Nat → Except Error (List Bytes)
  | 0, _ => .ok []
  | count + 1, offset =>
      if offset + 2 > raw.length then .ok []
      else do
        let msgLen := ofBig (← unpack 2 (field raw offset 2))
        if offset + 2 + msgLen > raw.length then return []
        else
          return field raw (offset + 2) msgLen ::
            (← parseBlocksChecked raw count (offset + 2 + msgLen))

def parseMoldPacketChecked (raw : Bytes) : Except Error MoldPacket :=
  if raw.length < 20 then .error (.valueError "packet_too_short")
  else do
    let header ← unpack 20 (field raw 0 20)
    let count := ofBig (field header 18 2)
    return {
      session := PythonText.strip (decodeReplace (field header 0 10))
      sequenceNumber := ofBig (field header 10 8)
      count
      messages := ← parseBlocksChecked raw count 20 }

def Framed (msgs : List Bytes) : Prop := ∀ msg ∈ msgs, msg.length < 256 ^ 2

/-- The messages of complete blocks that stand one after the other from an offset on. -/
def Stand (raw : Bytes) (offset : Nat) (msgs : List Bytes) : Prop :=
  Framed msgs ∧ blocks msgs <+: raw.drop offset

variable {raw : Bytes} {offset : Nat}

theorem parseBlocksChecked_eq (raw : Bytes) (count offset : Nat) :
    parseBlocksChecked raw count offset = .ok (parseBlocks raw count offset) := by
  induction count generalizing offset with
  | zero => rfl
  | succ count ih =>
      rw [parseBlocksChecked, parseBlocks]
      by_cases short : offset + 2 > raw.length
      · rw [if_pos short, if_pos short]
      · rw [if_neg short, if_neg short, unpack_field (by omega)]
        dsimp only [bind, Except.bind]
        by_cases truncated : offset + 2 + ofBig (field raw offset 2) > raw.length
        · rw [if_pos truncated, if_pos truncated]
          rfl
        · rw [if_neg truncated, if_neg truncated, ih]
          rfl

theorem parseMoldPacketChecked_eq (raw : Bytes) : parseMoldPacketChecked raw = parseMoldPacket raw := by
  rw [parseMoldPacketChecked, parseMoldPacket]
  by_cases short : raw.length < 20
  · rw [if_pos short, if_pos short]
  · rw [if_neg short, if_neg short, unpack_field (by omega)]
    simp (disch := decide) only [bind, Except.bind, field_field, parseBlocksChecked_eq]
    rfl

theorem parseBlocks_turn (raw : Bytes) (count offset : Nat) :
    parseBlocks raw (count + 1) offset = [] ∨
      ∃ msg rest, msg.length < 256 ^ 2 ∧
        raw.drop offset = big 2 msg.length ++ (msg ++ rest) := by
  rw [parseBlocks]
  by_cases short : offset + 2 > raw.length
  · exact Or.inl (if_pos short)
  · rw [if_neg short]
    dsimp only
    by_cases truncated : offset + 2 + ofBig (field raw offset 2) > raw.length
    · exact Or.inl (if_pos truncated)
    · have width : (field raw offset 2).length = 2 := length_field (by omega)
      have body : (field raw (offset + 2) (ofBig (field raw offset 2))).length =
          ofBig (field raw offset 2) := length_field (by omega)
      refine Or.inr ⟨field raw (offset + 2) (ofBig (field raw offset 2)),
        raw.drop (offset + 2 + ofBig (field raw offset 2)), ?_, ?_⟩
      · rw [body]
        exact ofBig_lt width
      · rw [body, big_ofBig width, ← drop_eq_field raw rfl]
        exact drop_eq_field raw rfl

theorem parseBlocks_stand (raw : Bytes) (count offset : Nat) :
    (parseBlocks raw count offset).length ≤ count ∧
      Stand raw offset (parseBlocks raw count offset) := by
  induction count generalizing offset with
  | zero => exact ⟨le_rfl, by simp [parseBlocks, Framed], List.nil_prefix⟩
  | succ count ih =>
      rcases parseBlocks_turn raw count offset with stops | ⟨msg, rest, small, next⟩
      · rw [stops]
        exact ⟨Nat.zero_le _, by simp [Framed], List.nil_prefix⟩
      · rcases parseBlocks_block small next count with ⟨taken, behind⟩
        rcases ih (offset + 2 + msg.length) with ⟨few, framed, starts⟩
        rw [behind] at starts
        rw [taken]
        refine ⟨Nat.succ_le_succ few, List.forall_mem_cons.mpr ⟨small, framed⟩, ?_⟩
        rw [blocks_cons, next]
        exact (List.prefix_append_right_inj _).mpr ((List.prefix_append_right_inj _).mpr starts)

theorem parseBlocks_maximal {count : Nat} {msgs : List Bytes} (few : msgs.length ≤ count)
    (stand : Stand raw offset msgs) : msgs <+: parseBlocks raw count offset := by
  induction msgs generalizing count offset with
  | nil => exact List.nil_prefix
  | cons msg msgs ih =>
      rcases stand with ⟨framed, rest, whole⟩
      rcases List.forall_mem_cons.mp framed with ⟨small, others⟩
      cases count with
      | zero => exact absurd few (Nat.not_succ_le_zero _)
      | succ count =>
          have next : raw.drop offset =
              big 2 msg.length ++ (msg ++ (blocks msgs ++ rest)) := by
            rw [← whole, blocks_cons, List.append_assoc, List.append_assoc]
          rcases parseBlocks_block small next count with ⟨taken, behind⟩
          rw [taken]
          refine (List.prefix_cons_inj msg).mpr (ih (Nat.le_of_succ_le_succ few) ⟨others, ?_⟩)
          exact ⟨rest, behind.symm⟩

/-- What stands in a packet stands in a longer one. -/
theorem Stand.append {msgs : List Bytes} (stand : Stand raw offset msgs)
    (within : offset ≤ raw.length) (extra : Bytes) : Stand (raw ++ extra) offset msgs := by
  refine ⟨stand.1, ?_⟩
  rw [List.drop_append_of_le_length within]
  exact stand.2.trans (List.prefix_append _ _)

theorem parseBlocks_append (within : offset ≤ raw.length) (extra : Bytes) (count : Nat) :
    parseBlocks raw count offset <+: parseBlocks (raw ++ extra) count offset := by
  rcases parseBlocks_stand raw count offset with ⟨few, stand⟩
  exact parseBlocks_maximal few (stand.append within extra)

theorem field_append {start n : Nat} (within : start + n ≤ raw.length) (extra : Bytes) :
    field (raw ++ extra) start n = field raw start n := by
  rw [field, List.drop_append_of_le_length (by omega), List.take_append_of_le_length, field]
  rw [List.length_drop]
  omega

/-- A packet with a header is parsed; its messages stand one after the other behind the header,
and every other list of no more messages than the header counts that stand there is a part of
them. What comes after the packet takes none of them away. -/
theorem parse_mold_packet_maximal (header : 20 ≤ raw.length) :
    ∃ packet, parseMoldPacketChecked raw = .ok packet ∧ packet.count = ofBig (field raw 18 2) ∧
      Stand raw 20 packet.messages ∧ packet.messages.length ≤ packet.count ∧
      (∀ msgs : List Bytes, msgs.length ≤ packet.count → Stand raw 20 msgs →
        msgs <+: packet.messages) ∧
      (packet.messages.length = packet.count ↔
        ∃ msgs : List Bytes, msgs.length = packet.count ∧ Stand raw 20 msgs) ∧
      ∀ extra, ∃ longer, parseMoldPacketChecked (raw ++ extra) = .ok longer ∧
        longer.count = packet.count ∧ packet.messages <+: longer.messages ∧
        (packet.messages.length = packet.count → longer.messages = packet.messages) := by
  have parsed : ∀ bytes : Bytes, 20 ≤ bytes.length → parseMoldPacketChecked bytes =
      .ok ⟨PythonText.strip (decodeReplace (field bytes 0 10)), ofBig (field bytes 10 8),
        ofBig (field bytes 18 2), parseBlocks bytes (ofBig (field bytes 18 2)) 20⟩ :=
    fun bytes enough => (parseMoldPacketChecked_eq bytes).trans (if_neg (Nat.not_lt.mpr enough))
  rcases parseBlocks_stand raw (ofBig (field raw 18 2)) 20 with ⟨few, stand⟩
  refine ⟨_, parsed raw header, rfl, stand, Int.ofNat_le.mpr few, ?_, ?_, ?_⟩
  · intro msgs counted found
    exact parseBlocks_maximal (Int.ofNat_le.mp counted) found
  · constructor
    · intro whole
      exact ⟨_, whole, stand⟩
    · rintro ⟨msgs, whole, found⟩
      have all := parseBlocks_maximal (Int.ofNat.inj whole).le found
      have least := all.length_le
      rw [Int.ofNat.inj whole] at least
      exact congrArg Int.ofNat (le_antisymm few least)
  · intro extra
    have enough : 20 ≤ (raw ++ extra).length := by
      rw [List.length_append]
      omega
    have counts : field (raw ++ extra) 18 2 = field raw 18 2 := field_append header extra
    have keeps := parseBlocks_append header extra (ofBig (field raw 18 2))
    refine ⟨_, parsed (raw ++ extra) enough, ?_, ?_, ?_⟩
    · rw [counts]
    · rw [counts]
      exact keeps
    · intro whole
      rw [counts]
      have most := (parseBlocks_stand (raw ++ extra) (ofBig (field raw 18 2)) 20).1
      exact (keeps.eq_of_length_le (most.trans (Int.ofNat.inj whole).ge)).symm

/-- A packet that counts two blocks, one of them complete and one truncated. -/
def truncatedPacket : Bytes :=
  List.replicate 18 0 ++ [0, 2] ++ [0, 1, 65] ++ [0, 5, 66]

theorem parse_mold_packet_truncated :
    ∃ packet, parseMoldPacketChecked truncatedPacket = .ok packet ∧ packet.messages = [[65]] ∧
      Stand truncatedPacket 20 packet.messages := by
  rcases @parse_mold_packet_maximal truncatedPacket (by decide) with
    ⟨packet, parsed, -, stand, -⟩
  have messages : (parseMoldPacketChecked truncatedPacket).toOption.map MoldPacket.messages =
      some [[65]] := by decide +kernel
  rw [parsed] at messages
  exact ⟨packet, parsed, Option.some.inj messages, stand⟩

end Ito.ItchHandler
