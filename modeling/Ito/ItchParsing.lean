import Ito.ItchHandler

/-! What the message parser does with arbitrary bytes. -/

namespace Ito.ItchHandler

open LittleEndian StructPack PythonText

/-- `struct.unpack` refuses what is not of its format's size. -/
def unpack (size : Nat) (bytes : Bytes) : Except Error Bytes :=
  if bytes.length = size then .ok bytes else .error .structError

/-- `parse_itch_message` with the sizes that its calls of `struct.unpack` ask for. -/
def parseItchMessageChecked (raw : Bytes) : Except Error (Option ItchMessage) := do
  match raw.head? with
  | none => return none
  | some kind =>
      if kind = 0x41 ∧ raw.length ≥ 36 then
        let locate ← unpack 4 (field raw 1 4)
        let ts ← unpack 6 (field raw 5 6)
        let body ← unpack 25 (field raw 11 25)
        let side ← decodeAscii (field body 8 1)
        let stock ← decodeAscii (field body 13 8)
        return some (.addOrder
          { locateId := ofBig (field locate 0 2)
            timestampNs := parseUint48Be ts
            orderRef := ofBig (field body 0 8)
            side
            shares := ofBig (field body 9 4)
            stock := strip stock
            priceTicks := ofBig (field body 21 4) })
      else if kind = 0x45 ∧ raw.length ≥ 31 then
        let locate ← unpack 4 (field raw 1 4)
        let ts ← unpack 6 (field raw 5 6)
        let body ← unpack 20 (field raw 11 20)
        return some (.orderExecuted
          { locateId := ofBig (field locate 0 2)
            timestampNs := parseUint48Be ts
            orderRef := ofBig (field body 0 8)
            executedShares := ofBig (field body 8 4)
            matchNumber := ofBig (field body 12 8) })
      else if kind = 0x58 ∧ raw.length ≥ 23 then
        let locate ← unpack 4 (field raw 1 4)
        let ts ← unpack 6 (field raw 5 6)
        let body ← unpack 12 (field raw 11 12)
        return some (.orderCancel
          { locateId := ofBig (field locate 0 2)
            timestampNs := parseUint48Be ts
            orderRef := ofBig (field body 0 8)
            canceledShares := ofBig (field body 8 4) })
      else if kind = 0x44 ∧ raw.length ≥ 19 then
        let locate ← unpack 4 (field raw 1 4)
        let ts ← unpack 6 (field raw 5 6)
        let body ← unpack 8 (field raw 11 8)
        return some (.orderDelete
          { locateId := ofBig (field locate 0 2)
            timestampNs := parseUint48Be ts
            orderRef := ofBig (field body 0 8) })
      else
        return none

def layouts : List (UInt8 × Nat) := [(0x41, 36), (0x45, 31), (0x58, 23), (0x44, 19)]

def Recognised (raw : Bytes) : Prop :=
  ∃ layout ∈ layouts, raw.head? = some layout.1 ∧ layout.2 ≤ raw.length

/-- An add message with a byte outside of ASCII in its side or its stock. -/
def BadText (raw : Bytes) : Prop :=
  raw.head? = some 0x41 ∧ 36 ≤ raw.length ∧
    ∃ byte ∈ field raw 19 1 ++ field raw 24 8, 128 ≤ byte

variable {raw : Bytes}

theorem unpack_field {start size : Nat} (fits : start + size ≤ raw.length) :
    unpack size (field raw start size) = .ok (field raw start size) :=
  if_pos (length_field fits)

/-- The length of a message's kind covers everything that is unpacked. -/
theorem checked_eq (raw : Bytes) : parseItchMessageChecked raw = parseItchMessage raw := by
  rw [parseItchMessageChecked, parseItchMessage]
  cases raw.head? with
  | none => rfl
  | some kind =>
      dsimp only
      by_cases add : kind = 0x41 ∧ raw.length ≥ 36
      · rw [if_pos add, if_pos add, unpack_field (by omega), unpack_field (by omega),
          unpack_field (by omega)]
        simp (disch := decide) only [bind, Except.bind, field_field]
        rfl
      · rw [if_neg add, if_neg add]
        by_cases executed : kind = 0x45 ∧ raw.length ≥ 31
        · rw [if_pos executed, if_pos executed, unpack_field (by omega), unpack_field (by omega),
            unpack_field (by omega)]
          simp (disch := decide) only [bind, Except.bind, field_field]
          rfl
        · rw [if_neg executed, if_neg executed]
          by_cases cancel : kind = 0x58 ∧ raw.length ≥ 23
          · rw [if_pos cancel, if_pos cancel, unpack_field (by omega), unpack_field (by omega),
              unpack_field (by omega)]
            simp (disch := decide) only [bind, Except.bind, field_field]
            rfl
          · rw [if_neg cancel, if_neg cancel]
            by_cases delete : kind = 0x44 ∧ raw.length ≥ 19
            · rw [if_pos delete, if_pos delete, unpack_field (by omega),
                unpack_field (by omega), unpack_field (by omega)]
              simp (disch := decide) only [bind, Except.bind, field_field]
              rfl
            · rw [if_neg delete, if_neg delete]

theorem decodeAscii_ok {bytes : Bytes} (ascii : ∀ byte ∈ bytes, ¬ 128 ≤ byte) :
    decodeAscii bytes = .ok (bytes.map charOf) := by
  apply if_pos
  rw [List.all_eq_true]
  exact fun byte member => decide_eq_true (UInt8.not_le.mp (ascii byte member))

theorem decodeAscii_error {bytes : Bytes} (bad : ∃ byte ∈ bytes, 128 ≤ byte) :
    decodeAscii bytes = .error .unicodeDecodeError := by
  apply if_neg
  rw [List.all_eq_true]
  rcases bad with ⟨byte, member, high⟩
  exact fun ascii => UInt8.not_le.mpr (of_decide_eq_true (ascii byte member)) high

theorem parse_badText (bad : BadText raw) :
    parseItchMessage raw = .error .unicodeDecodeError := by
  rcases bad with ⟨kind, long, byte, member, high⟩
  rw [parseItchMessage, kind]
  dsimp only
  rw [if_pos ⟨rfl, long⟩]
  by_cases side : ∃ byte ∈ field raw 19 1, 128 ≤ byte
  · rw [decodeAscii_error side]
    rfl
  · have plain : ∀ byte ∈ field raw 19 1, ¬ 128 ≤ byte := by simpa using side
    have stock : ∃ byte ∈ field raw 24 8, 128 ≤ byte := by
      rcases List.mem_append.mp member with inSide | inStock
      · exact absurd high (plain byte inSide)
      · exact ⟨byte, inStock, high⟩
    rw [decodeAscii_ok plain, decodeAscii_error stock]
    rfl

theorem parse_isSome (plain : ¬ BadText raw) :
    ∃ result, parseItchMessage raw = .ok result ∧ (result.isSome = true ↔ Recognised raw) := by
  rw [Recognised, parseItchMessage]
  simp only [layouts, List.mem_cons, List.not_mem_nil, or_false, exists_eq_or_imp, exists_eq_left]
  cases first : raw.head? with
  | none => exact ⟨none, rfl, by simp⟩
  | some kind =>
      dsimp only
      rw [Option.some.injEq, Option.some.injEq, Option.some.injEq, Option.some.injEq]
      by_cases add : kind = 0x41 ∧ raw.length ≥ 36
      · have texts : ∀ byte ∈ field raw 19 1 ++ field raw 24 8, ¬ 128 ≤ byte :=
          fun byte member high => plain ⟨by rw [first, add.1], add.2, byte, member, high⟩
        rw [if_pos add,
          decodeAscii_ok fun byte member => texts byte (List.mem_append_left _ member),
          decodeAscii_ok fun byte member => texts byte (List.mem_append_right _ member)]
        exact ⟨_, rfl, iff_of_true rfl (Or.inl add)⟩
      · rw [if_neg add]
        by_cases executed : kind = 0x45 ∧ raw.length ≥ 31
        · rw [if_pos executed]
          exact ⟨_, rfl, iff_of_true rfl (Or.inr (Or.inl executed))⟩
        · rw [if_neg executed]
          by_cases cancel : kind = 0x58 ∧ raw.length ≥ 23
          · rw [if_pos cancel]
            exact ⟨_, rfl, iff_of_true rfl (Or.inr (Or.inr (Or.inl cancel)))⟩
          · rw [if_neg cancel]
            by_cases delete : kind = 0x44 ∧ raw.length ≥ 19
            · rw [if_pos delete]
              exact ⟨_, rfl, iff_of_true rfl (Or.inr (Or.inr (Or.inr delete)))⟩
            · rw [if_neg delete]
              exact ⟨none, rfl, iff_of_false (by decide) (by tauto)⟩

/-- The parser answers every input, with a message exactly for the recognised ones, but for the
add messages with bytes in a text that are not ASCII. -/
theorem parser_answers_iff (raw : Bytes) :
    (∃ result, parseItchMessageChecked raw = .ok result ∧
      (result.isSome = true ↔ Recognised raw)) ↔ ¬ BadText raw := by
  rw [checked_eq]
  constructor
  · rintro ⟨result, parsed, -⟩ bad
    rw [parse_badText bad] at parsed
    cases parsed
  · exact parse_isSome

/-- An add message for the stock of one byte beyond ASCII. -/
theorem parser_raises : parseItchMessageChecked
    (0x41 :: List.replicate 23 0 ++ 0x80 :: List.replicate 11 0x20) =
      .error .unicodeDecodeError := by
  rw [checked_eq]
  exact parse_badText ⟨rfl, by decide, 0x80, by decide, by decide⟩

end Ito.ItchHandler
