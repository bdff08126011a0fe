import Ito.ItchHandler

/-! The round trip of market data: messages into packets, packets into a capture file, and back. -/

namespace Ito.ItchHandler

open LittleEndian StructPack PythonText

/-- ASCII text of at most `width` characters without surrounding whitespace. -/
structure TextField (width : Nat) (text : List Char) : Prop where
  ascii : ∀ c ∈ text, c.toNat < 128
  short : text.length ≤ width
  first : ∀ c ∈ text.head?, isSpace c = false
  last : ∀ c ∈ text.getLast?, isSpace c = false

def OneAscii (text : List Char) : Prop := ∃ c, text = [c] ∧ c.toNat < 128

def ItchMessage.InRange : ItchMessage → Prop
  | .addOrder message =>
      Fits 2 message.locateId ∧ Fits 6 message.timestampNs ∧ Fits 8 message.orderRef ∧
        OneAscii message.side ∧ Fits 4 message.shares ∧ TextField 8 message.stock ∧
        Fits 4 message.priceTicks
  | .orderExecuted message =>
      Fits 2 message.locateId ∧ Fits 6 message.timestampNs ∧ Fits 8 message.orderRef ∧
        Fits 4 message.executedShares ∧ Fits 8 message.matchNumber
  | .orderCancel message =>
      Fits 2 message.locateId ∧ Fits 6 message.timestampNs ∧ Fits 8 message.orderRef ∧
        Fits 4 message.canceledShares
  | .orderDelete message =>
      Fits 2 message.locateId ∧ Fits 6 message.timestampNs ∧ Fits 8 message.orderRef

/-! Texts -/

theorem strip_pad {text : List Char} (first : ∀ c ∈ text.head?, isSpace c = false)
    (last : ∀ c ∈ text.getLast?, isSpace c = false) (n : Nat) :
    strip (text ++ List.replicate n ' ') = text := by
  have blanks : ∀ c ∈ List.replicate n ' ', isSpace c = true := by
    intro c member
    rw [List.eq_of_mem_replicate member]
    rfl
  rw [strip, stripBy]
  cases text with
  | nil =>
      rw [List.nil_append, List.dropWhile_eq_nil_iff.mpr blanks]
      rfl
  | cons c rest =>
      have start : isSpace c = false := first c rfl
      have nonempty := List.cons_ne_nil c rest
      have stop : isSpace ((c :: rest).getLast nonempty) = false :=
        last _ (List.getLast?_eq_some_getLast _)
      have backwards : (c :: rest).reverse =
          (c :: rest).getLast nonempty :: (c :: rest).dropLast.reverse := by
        conv_lhs => rw [← List.dropLast_append_getLast nonempty]
        rw [List.reverse_append, List.reverse_singleton, List.singleton_append]
      calc (((c :: rest ++ List.replicate n ' ').dropWhile isSpace).reverse.dropWhile
            isSpace).reverse
        _ = ((c :: rest ++ List.replicate n ' ').reverse.dropWhile isSpace).reverse := by
          rw [List.cons_append, List.dropWhile_cons_of_neg (by simp [start])]
        _ = ((c :: rest).reverse.dropWhile isSpace).reverse := by
          rw [List.reverse_append, List.reverse_replicate, List.dropWhile_append_of_pos blanks]
        _ = (c :: rest).reverse.reverse := by
          rw [backwards, List.dropWhile_cons_of_neg (by simp [stop])]
        _ = c :: rest := List.reverse_reverse _

theorem charOf_ofChar {c : Char} (ascii : c.toNat < 128) : charOf (Bytes.ofChar c) = c := by
  have value : (Bytes.ofChar c).toNat = c.toNat := by
    rw [Bytes.ofChar, UInt8.toNat_ofNat']
    omega
  rw [charOf, value, Char.ofNat_toNat]

theorem ofChar_small {c : Char} (ascii : c.toNat < 128) : Bytes.ofChar c < 128 := by
  rw [UInt8.lt_iff_toNat_lt, Bytes.ofChar, UInt8.toNat_ofNat']
  change _ < 128
  omega

section Ascii

variable {text : List Char} (ascii : ∀ c ∈ text, c.toNat < 128)
include ascii

theorem encodeAscii_eq : encodeAscii text = .ok (text.map Bytes.ofChar) := by
  apply if_pos
  rw [List.all_eq_true]
  intro c member
  exact decide_eq_true (ascii c member)

theorem decodeAscii_eq : decodeAscii (text.map Bytes.ofChar) = .ok text := by
  have small : ((text.map Bytes.ofChar).all fun byte => byte < 128) = true := by
    rw [List.all_map, List.all_eq_true]
    intro c member
    exact decide_eq_true (ofChar_small (ascii c member))
  rw [decodeAscii, if_pos small, List.map_map]
  have same : text.map (charOf ∘ Bytes.ofChar) = text.map id :=
    List.map_congr_left fun c member => charOf_ofChar (ascii c member)
  rw [same, List.map_id]

theorem decodeReplace_eq : decodeReplace (text.map Bytes.ofChar) = text := by
  rw [decodeReplace, List.map_map]
  have same : text.map ((fun byte => if byte < 128 then charOf byte else '\uFFFD') ∘
      Bytes.ofChar) = text.map id := by
    apply List.map_congr_left
    intro c member
    have small := ascii c member
    exact (if_pos (ofChar_small small)).trans (charOf_ofChar small)
  rw [same, List.map_id]

end Ascii

def padded (width : Nat) (text : List Char) : Bytes := (ljust text width).map Bytes.ofChar

section Padded

variable {width : Nat} {text : List Char} (field : TextField width text)
include field

theorem length_ljust : (ljust text width).length = width := by
  have short := field.short
  rw [ljust, List.length_append, List.length_replicate]
  omega

theorem length_padded : (padded width text).length = width := by
  rw [padded, List.length_map, length_ljust field]

theorem ascii_ljust : ∀ c ∈ ljust text width, c.toNat < 128 := by
  intro c member
  rcases List.mem_append.mp member with inside | blank
  · exact field.ascii c inside
  · rw [List.eq_of_mem_replicate blank]
    decide

theorem encode_padded : encodeAscii ((ljust text width).take width) = .ok (padded width text) := by
  rw [List.take_of_length_le (length_ljust field).le, encodeAscii_eq (ascii_ljust field), padded]

theorem pack_padded : packString width (padded width text) = padded width text := by
  rw [packString, length_padded field, Nat.sub_self, List.replicate_zero, List.append_nil,
    List.take_of_length_le (length_padded field).le]

theorem strip_ljust : strip (ljust text width) = text := strip_pad field.first field.last _

end Padded

/-! Numbers -/

theorem packed_fits {width : Nat} {value : Int} (fits : Fits width value) :
    packed (packBig width value) = .ok (big width value.toNat) := by
  rw [packed, packBig_of_fits fits]
  rfl

def split48 (val : Int) : Bytes :=
  big 2 (val / 2 ^ 32 % 2 ^ 16).toNat ++ big 4 (val % 2 ^ 32).toNat

theorem length_split48 (val : Int) : (split48 val).length = 6 := by
  rw [split48, List.length_append, length_big, length_big]

theorem encodeUint48Be_eq (val : Int) : encodeUint48Be val = .ok (split48 val) := by
  have high : Fits 2 (val / 2 ^ 32 % 2 ^ 16) := by
    rw [Fits]
    omega
  have low : Fits 4 (val % 2 ^ 32) := by
    rw [Fits]
    omega
  rw [encodeUint48Be, packed_fits high, packed_fits low]
  rfl

theorem parseUint48Be_split {val : Int} (fits : Fits 6 val) :
    (parseUint48Be (split48 val) : Int) = val := by
  have bound := fits.2
  have nonneg := fits.1
  have high : (val / 2 ^ 32 % 2 ^ 16).toNat < 256 ^ 2 := by omega
  have low : (val % 2 ^ 32).toNat < 256 ^ 4 := by omega
  have joined : parseUint48Be (split48 val) =
      (val / 2 ^ 32 % 2 ^ 16).toNat * 2 ^ 32 + (val % 2 ^ 32).toNat := by
    calc parseUint48Be (split48 val)
      _ = (val / 2 ^ 32 % 2 ^ 16).toNat <<< 32 ||| (val % 2 ^ 32).toNat := by
        rw [parseUint48Be, split48, List.take_left' (length_big 2 _),
          List.drop_left' (length_big 2 _), ofBig_big high, ofBig_big low]
      _ = _ := by rw [← Nat.shiftLeft_add_eq_or_of_lt low, Nat.shiftLeft_eq]
  rw [joined]
  omega

/-! Messages -/

def head (kind : UInt8) (locateId timestampNs : Int) : Bytes :=
  [kind] ++ (big 2 locateId.toNat ++ (big 2 0 ++ split48 timestampNs))

section Head

variable {kind : UInt8} {locateId timestampNs : Int}

theorem length_head : (head kind locateId timestampNs).length = 11 := by
  rw [head, List.length_append, List.length_append, List.length_append, length_big, length_big,
    length_split48]
  rfl

theorem encodeHead_eq (locate : Fits 2 locateId) :
    encodeHead kind locateId timestampNs = .ok (head kind locateId timestampNs) := by
  have zero : Fits 2 0 := by decide
  rw [encodeHead, encodeUint48Be_eq, packed_fits locate, packed_fits zero]
  rfl

theorem locateOf_head (locate : Fits 2 locateId) (rest : Bytes) :
    locateOf (head kind locateId timestampNs ++ rest) = locateId := by
  simp (disch := simp [length_split48]) only [locateOf, head, List.append_assoc, field_skip,
    field_head, List.length_singleton, Nat.sub_self]
  exact ofBig_toNat locate

theorem timestampOf_head (timestamp : Fits 6 timestampNs) (rest : Bytes) :
    timestampOf (head kind locateId timestampNs ++ rest) = timestampNs := by
  simp (disch := simp [length_split48]) only [timestampOf, head, List.append_assoc, field_skip,
    field_head, List.length_singleton, length_big, Nat.reduceSub]
  exact parseUint48Be_split timestamp

theorem orderRefOf_head {orderRef : Int} (ref : Fits 8 orderRef) (rest : Bytes) :
    orderRefOf (head kind locateId timestampNs ++ (big 8 orderRef.toNat ++ rest)) = orderRef := by
  simp (disch := simp [length_head]) only [orderRefOf, field_skip, field_head, length_head,
    Nat.reduceSub]
  exact ofBig_toNat ref

end Head

/-- A message of 36 bytes at most, which is parsed as what was encoded. -/
def RoundTrips (message : ItchMessage) : Prop :=
  ∃ raw, encodeItch message = .ok raw ∧ raw.length ≤ 36 ∧ parseItchMessage raw = .ok (some message)

def deleteLayout (message : ItchOrderDelete) : Bytes :=
  head 0x44 message.locateId message.timestampNs ++ (big 8 message.orderRef.toNat ++ [])

theorem delete_round_trips {message : ItchOrderDelete}
    (inRange : (ItchMessage.orderDelete message).InRange) : RoundTrips (.orderDelete message) := by
  rcases inRange with ⟨locate, timestamp, ref⟩
  have whole : (deleteLayout message).length = 19 := by
    simp [deleteLayout, length_head]
  refine ⟨deleteLayout message, ?_, by omega, ?_⟩
  · rw [encodeItch, encodeItchOrderDelete, encodeHead_eq locate, packed_fits ref, deleteLayout,
      List.append_nil]
    rfl
  · have kind : (deleteLayout message).head? = some 0x44 := rfl
    rw [parseItchMessage, kind]
    simp only [whole]
    rw [deleteLayout, locateOf_head locate, timestampOf_head timestamp, orderRefOf_head ref]
    rfl

def cancelLayout (message : ItchOrderCancel) : Bytes :=
  head 0x58 message.locateId message.timestampNs ++
    (big 8 message.orderRef.toNat ++ big 4 message.canceledShares.toNat)

theorem cancel_round_trips {message : ItchOrderCancel}
    (inRange : (ItchMessage.orderCancel message).InRange) : RoundTrips (.orderCancel message) := by
  rcases inRange with ⟨locate, timestamp, ref, canceled⟩
  have whole : (cancelLayout message).length = 23 := by
    simp [cancelLayout, length_head]
  refine ⟨cancelLayout message, ?_, by omega, ?_⟩
  · rw [encodeItch, encodeItchOrderCancel, encodeHead_eq locate, packed_fits ref,
      packed_fits canceled]
    rfl
  · have shares : field (cancelLayout message) 19 4 = big 4 message.canceledShares.toNat := by
      simp (disch := simp [length_head]) only [cancelLayout, field_skip, length_head, length_big,
        Nat.reduceSub]
      exact field_whole (length_big 4 _)
    have kind : (cancelLayout message).head? = some 0x58 := rfl
    rw [parseItchMessage, kind, shares, ofBig_toNat canceled]
    simp only [whole]
    rw [cancelLayout, locateOf_head locate, timestampOf_head timestamp, orderRefOf_head ref]
    rfl

def executedLayout (message : ItchOrderExecuted) : Bytes :=
  head 0x45 message.locateId message.timestampNs ++ (big 8 message.orderRef.toNat ++
    (big 4 message.executedShares.toNat ++ big 8 message.matchNumber.toNat))

theorem executed_round_trips {message : ItchOrderExecuted}
    (inRange : (ItchMessage.orderExecuted message).InRange) :
    RoundTrips (.orderExecuted message) := by
  rcases inRange with ⟨locate, timestamp, ref, executed, matched⟩
  have whole : (executedLayout message).length = 31 := by
    simp [executedLayout, length_head]
  refine ⟨executedLayout message, ?_, by omega, ?_⟩
  · rw [encodeItch, encodeItchOrderExecuted, encodeHead_eq locate, packed_fits ref,
      packed_fits executed, packed_fits matched]
    rfl
  · have shares : field (executedLayout message) 19 4 = big 4 message.executedShares.toNat := by
      simp (disch := simp [length_head]) only [executedLayout, field_skip, field_head, length_head,
        length_big, Nat.reduceSub]
    have number : field (executedLayout message) 23 8 = big 8 message.matchNumber.toNat := by
      simp (disch := simp [length_head]) only [executedLayout, field_skip, length_head, length_big,
        Nat.reduceSub]
      exact field_whole (length_big 8 _)
    have kind : (executedLayout message).head? = some 0x45 := rfl
    rw [parseItchMessage, kind, shares, number, ofBig_toNat executed, ofBig_toNat matched]
    simp only [whole]
    rw [executedLayout, locateOf_head locate, timestampOf_head timestamp, orderRefOf_head ref]
    rfl

def addLayout (message : ItchAddOrder) : Bytes :=
  head 0x41 message.locateId message.timestampNs ++ (big 8 message.orderRef.toNat ++
    (message.side.map Bytes.ofChar ++ (big 4 message.shares.toNat ++
      (padded 8 message.stock ++ big 4 message.priceTicks.toNat))))

theorem add_round_trips {message : ItchAddOrder}
    (inRange : (ItchMessage.addOrder message).InRange) : RoundTrips (.addOrder message) := by
  rcases inRange with ⟨locate, timestamp, ref, ⟨c, single, small⟩, shares, stock, price⟩
  have oneByte : (message.side.map Bytes.ofChar).length = 1 := by
    rw [single]
    rfl
  have sideAscii : ∀ c ∈ message.side, c.toNat < 128 := by
    rw [single]
    intro other member
    rw [List.mem_singleton.mp member]
    exact small
  have packedSide : packed (packChar ((message.side.map Bytes.ofChar).take 1)) =
      .ok (message.side.map Bytes.ofChar) := by
    rw [List.take_of_length_le oneByte.le, packChar, if_pos oneByte]
    rfl
  have stockWidth := length_padded stock
  refine ⟨addLayout message, ?_, ?_, ?_⟩
  · rw [encodeItch, encodeItchAddOrder, encode_padded stock, encodeAscii_eq sideAscii,
      encodeHead_eq locate, packed_fits ref, packed_fits shares, packed_fits price]
    simp only [bind, Except.bind, packedSide, pack_padded stock]
    rfl
  · simp [addLayout, length_head, oneByte, stockWidth]
  · have sideField : field (addLayout message) 19 1 = message.side.map Bytes.ofChar := by
      simp (disch := simp [length_head, oneByte]) only [addLayout, field_skip, field_head,
        length_head, length_big, Nat.reduceSub]
    have sharesField : field (addLayout message) 20 4 = big 4 message.shares.toNat := by
      simp (disch := simp [length_head, oneByte]) only [addLayout, field_skip, field_head,
        length_head, length_big, oneByte, Nat.reduceSub]
    have stockField : field (addLayout message) 24 8 = padded 8 message.stock := by
      simp (disch := simp [length_head, oneByte, stockWidth]) only [addLayout, field_skip,
        field_head, length_head, length_big, oneByte, Nat.reduceSub]
    have priceField : field (addLayout message) 32 4 = big 4 message.priceTicks.toNat := by
      simp (disch := simp [length_head, oneByte, stockWidth]) only [addLayout, field_skip,
        length_head, length_big, oneByte, stockWidth, Nat.reduceSub]
      exact field_whole (length_big 4 _)
    have kind : (addLayout message).head? = some 0x41 := rfl
    have whole : (addLayout message).length = 36 := by
      simp [addLayout, length_head, oneByte, stockWidth]
    rw [parseItchMessage, kind, sideField, sharesField, stockField, priceField,
      decodeAscii_eq sideAscii, padded, decodeAscii_eq (ascii_ljust stock)]
    simp only [whole, bind, Except.bind, strip_ljust stock, ofBig_toNat shares, ofBig_toNat price]
    rw [addLayout, locateOf_head locate, timestampOf_head timestamp, orderRefOf_head ref]
    rfl

theorem round_trips {message : ItchMessage} (inRange : message.InRange) : RoundTrips message := by
  cases message with
  | addOrder message => exact add_round_trips inRange
  | orderExecuted message => exact executed_round_trips inRange
  | orderCancel message => exact cancel_round_trips inRange
  | orderDelete message => exact delete_round_trips inRange

end Ito.ItchHandler
