import Ito.CaptureRoundTrip

/-! What is read from a capture file that was cut off.

A packet takes 58 bytes and its payload: 16 of its header and 42 that the reader strips from the
frame. -/

namespace Ito.ItchHandler

open LittleEndian StructPack

/-- The payloads whose frames lie within some bytes behind the global header. -/
def whole (room : Nat) : List Bytes → List Bytes
  | [] => []
  | payload :: rest =>
      if 58 + payload.length ≤ room then payload :: whole (room - (58 + payload.length)) rest
      else []

def sizeOf (payloads : List Bytes) : Nat := (payloads.map fun payload => 58 + payload.length).sum

def Torn (room : Nat) (payloads : List Bytes) : Prop :=
  ∃ front payload back, payloads = front ++ payload :: back ∧
    sizeOf front + 58 < room ∧ room < sizeOf front + 58 + payload.length

def readBack (room : Nat) : List Bytes → List Bytes
  | [] => []
  | payload :: rest =>
      if 58 + payload.length ≤ room then payload :: readBack (room - (58 + payload.length)) rest
      else if 58 < room then [payload.take (room - 58)]
      else []

variable {payload : Bytes} {payloads : List Bytes} {idx room cut : Nat}

/-! The writer -/

theorem pktHdr_long (idx : Nat) {length : Nat} (long : 2 ^ 32 ≤ length) :
    pktHdr idx length = .error .structError := by
  rw [pktHdr, packed_little_large long, packed, packed]
  cases packLittle 4 (1700000000 + idx) with
  | none => rfl
  | some seconds => cases packLittle 4 (idx * 1000) <;> rfl

theorem packetBytes_cases (idx : Nat) (payload : Bytes) :
    (42 + payload.length < 2 ^ 32 ∧
      packetBytes idx payload = .ok (capHdr idx (42 + payload.length) ++ frameOf payload)) ∨
    packetBytes idx payload = .error .structError := by
  by_cases early : idx < 4294968
  · by_cases short : 42 + payload.length < 2 ^ 32
    · exact Or.inl ⟨short, packetBytes_eq early short⟩
    · have size := length_frameOf payload
      rw [frameOf] at size
      rw [packetBytes, size, pktHdr_long idx (not_lt.mp short)]
      exact Or.inr rfl
  · exact Or.inr (packetBytes_late (not_lt.mp early) payload)

/-! The reader -/

theorem readPackets_short {bytes : Bytes} (short : bytes.length < 16) : readPackets bytes = [] := by
  rw [readPackets, if_pos short]

theorem readPackets_torn (short : 42 + payload.length < 2 ^ 32) (header : 16 ≤ room)
    (torn : room < 58 + payload.length) :
    readPackets ((capHdr idx (42 + payload.length) ++ frameOf payload).take room) =
      if 58 < room then [payload.take (room - 58)] else [] := by
  have width := length_capHdr idx (42 + payload.length)
  have parted : (capHdr idx (42 + payload.length) ++ frameOf payload).take room =
      capHdr idx (42 + payload.length) ++ (frameOf payload).take (room - 16) := by
    rw [List.take_append, width, List.take_of_length_le (width.le.trans header)]
  have caplen : field (capHdr idx (42 + payload.length) ++ (frameOf payload).take (room - 16)) 8 4 =
      toBytes 4 (42 + payload.length) := by
    simp (disch := simp) only [capHdr, List.append_assoc, field_skip, field_head, length_toBytes,
      Nat.reduceSub, Nat.sub_self]
  have left : ((frameOf payload).take (room - 16)).length = room - 16 := by
    rw [List.length_take, length_frameOf]
    omega
  have long : ¬ (capHdr idx (42 + payload.length) ++
      (frameOf payload).take (room - 16)).length < 16 := by
    rw [List.length_append, width]
    omega
  have taken : ((frameOf payload).take (room - 16)).take (42 + payload.length) =
      (frameOf payload).take (room - 16) := List.take_of_length_le (by rw [left]; omega)
  have nothing : ((frameOf payload).take (room - 16)).drop (42 + payload.length) = [] :=
    List.drop_eq_nil_of_le (by rw [left]; omega)
  have stripped : ((frameOf payload).take (room - 16)).drop 42 = payload.take (room - 58) := by
    rw [List.drop_take, frameOf, List.drop_left' List.length_replicate, Nat.sub_sub]
  rw [parted, readPackets, if_neg long]
  simp only [caplen, List.drop_left' width,
    ofBytes_toBytes (show 42 + payload.length < 256 ^ 4 by omega), taken, nothing, left, stripped]
  rw [readPackets_short (by decide)]
  exact if_congr (by omega) rfl rfl

theorem readPackets_take (nonempty : ∀ payload ∈ payloads, 0 < payload.length)
    (inside : room ≤ (writePackets idx payloads).1.length) :
    readPackets ((writePackets idx payloads).1.take room) = readBack room payloads := by
  induction payloads generalizing idx room with
  | nil => exact readPackets_short (by simp [writePackets])
  | cons payload rest ih =>
      rcases List.forall_mem_cons.mp nonempty with ⟨some_bytes, others⟩
      rw [writePackets] at inside ⊢
      rw [readBack]
      rcases packetBytes_cases idx payload with ⟨short, written⟩ | failed
      · rw [written, writeThen] at inside ⊢
        have size : (capHdr idx (42 + payload.length) ++ frameOf payload).length =
            58 + payload.length := by
          rw [List.length_append, length_capHdr, length_frameOf]
          omega
        rw [List.length_append, size] at inside
        by_cases complete : 58 + payload.length ≤ room
        · rw [if_pos complete, List.take_append, List.take_of_length_le (size.le.trans complete),
            size, readPackets_cons _ some_bytes short, ih others (by omega)]
        · rw [if_neg complete, List.take_append_of_le_length (by omega)]
          by_cases header : 16 ≤ room
          · exact readPackets_torn short header (not_le.mp complete)
          · rw [readPackets_short, if_neg (by omega)]
            rw [List.length_take]
            omega
      · rw [failed, writeThen] at inside ⊢
        have nothing : room = 0 := Nat.le_zero.mp inside
        rw [nothing, if_neg (by omega), if_neg (by omega)]
        exact readPackets_short (by decide)

theorem read_cut (nonempty : ∀ payload ∈ payloads, 0 < payload.length)
    (inside : cut ≤ (writeSyntheticPcap payloads).1.length) :
    readPcapPayloads ((writeSyntheticPcap payloads).1.take cut) = readBack (cut - 24) payloads := by
  rw [writeSyntheticPcap, List.length_append, length_pcapHdr] at inside
  rw [writeSyntheticPcap, readPcapPayloads, List.length_take, List.length_append, length_pcapHdr]
  by_cases header : cut < 24
  · have nothing : ∀ payloads, readBack 0 payloads = [] := by
      intro payloads
      cases payloads with
      | nil => rfl
      | cons payload rest => rw [readBack, if_neg (by omega), if_neg (by omega)]
    rw [if_pos (by omega), Nat.sub_eq_zero_of_le header.le, nothing]
  · rw [if_neg (by omega), List.drop_take, List.drop_left' length_pcapHdr]
    exact readPackets_take nonempty (by omega)

/-! Forged packets -/

theorem torn_cons : Torn room (payload :: payloads) ↔
    (58 < room ∧ room < 58 + payload.length) ∨
      (58 + payload.length ≤ room ∧ Torn (room - (58 + payload.length)) payloads) := by
  constructor
  · rintro ⟨front, torn, back, split, above, below⟩
    cases front with
    | nil =>
        rcases List.cons.inj split with ⟨rfl, -⟩
        left
        simpa [sizeOf] using And.intro above below
    | cons first front =>
        rcases List.cons.inj split with ⟨rfl, rest⟩
        right
        rw [sizeOf, List.map_cons, List.sum_cons, ← sizeOf] at above below
        exact ⟨by omega, front, torn, back, rest, by omega, by omega⟩
  · rintro (⟨above, below⟩ | ⟨complete, front, torn, back, rfl, above, below⟩)
    · exact ⟨[], payload, payloads, rfl, by simpa [sizeOf] using above,
        by simpa [sizeOf] using below⟩
    · refine ⟨payload :: front, torn, back, rfl, ?_, ?_⟩ <;>
        rw [sizeOf, List.map_cons, List.sum_cons, ← sizeOf] <;> omega

theorem readBack_eq_whole_iff :
    readBack room payloads = whole room payloads ↔ ¬ Torn room payloads := by
  induction payloads generalizing room with
  | nil => exact iff_of_true rfl (by rintro ⟨front, torn, back, split, -⟩; simp at split)
  | cons payload rest ih =>
      rw [readBack, whole, torn_cons]
      by_cases complete : 58 + payload.length ≤ room
      · rw [if_pos complete, if_pos complete, List.cons.injEq, ih]
        simp [complete]
      · rw [if_neg complete, if_neg complete]
        by_cases header : 58 < room
        · rw [if_pos header]
          simp
          omega
        · rw [if_neg header]
          exact iff_of_true rfl (by omega)

/-- A capture that was cut off gives exactly the packets that are left whole, but where the cut is
inside a payload. -/
theorem torn_capture_iff (nonempty : ∀ payload ∈ payloads, 0 < payload.length)
    (inside : cut ≤ (writeSyntheticPcap payloads).1.length) :
    readPcapPayloads ((writeSyntheticPcap payloads).1.take cut) = whole (cut - 24) payloads ↔
      ¬ Torn (cut - 24) payloads := by
  rw [read_cut nonempty inside, readBack_eq_whole_iff]

theorem torn_capture_behind :
    readPcapPayloads ((writeSyntheticPcap [[1, 2], [3, 4]]).1.take 84) =
      whole 60 [[1, 2], [3, 4]] ∧
    whole 60 [[1, 2], [3, 4]] = [[1, 2]] :=
  ⟨(torn_capture_iff (by decide) (by decide +kernel)).mpr (readBack_eq_whole_iff.mp rfl), rfl⟩

/-- A cut inside of the first payload: the reader gives a packet that was never written. -/
theorem capture_forged : readPcapPayloads ((writeSyntheticPcap [[1, 2]]).1.take 83) = [[1]] ∧
    whole (83 - 24) [[1, 2]] = [] :=
  ⟨read_cut (by decide) (by decide), rfl⟩

end Ito.ItchHandler
