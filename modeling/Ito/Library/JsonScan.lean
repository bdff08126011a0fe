import Ito.Library.Json

/-! What `json.loads` makes of texts that a writer put together from plain keys,
decimal numbers and escaped strings. -/

namespace Json

/-! Strings -/

def Plain (c : Char) : Prop := c ≠ '"' ∧ c ≠ '\\' ∧ 0x20 ≤ c.toNat

instance (c : Char) : Decidable (Plain c) :=
  inferInstanceAs (Decidable (c ≠ '"' ∧ c ≠ '\\' ∧ 0x20 ≤ c.toNat))

theorem scanUnits_plain {c : Char} (plain : Plain c) (rest : List Char) :
    scanUnits (c :: rest) = (scanUnits rest).map (prepend c.toNat) := by
  rcases plain with ⟨noQuote, noEscape, printable⟩
  rw [scanUnits.eq_def]
  simp only [if_neg noQuote, if_neg noEscape, if_neg (Nat.not_lt.mpr printable)]

theorem isHighSurrogate_toNat (c : Char) : isHighSurrogate c.toNat = false := by
  have valid := c.valid
  simp only [isHighSurrogate, Bool.and_eq_false_imp, decide_eq_true_eq, decide_eq_false_iff_not]
  intro large
  rcases valid with low | high
  · have : c.toNat < 0xd800 := low
    omega
  · have : 0xdfff < c.toNat := high.1
    omega

theorem joinSurrogates_codes (text : List Char) : joinSurrogates (codes text) = codes text := by
  induction text with
  | nil => rfl
  | cons c rest ih =>
      cases rest with
      | nil => rfl
      | cons d others =>
          simp only [codes, List.map_cons] at ih ⊢
          rw [joinSurrogates, isHighSurrogate_toNat, Bool.false_and, if_neg (by simp), ih]

theorem scanUnits_flatMap (escape : Char → List Char) (text : List Char)
    (each : ∀ c ∈ text, ∀ rest,
      scanUnits (escape c ++ rest) = (scanUnits rest).map (prepend c.toNat))
    (rest : List Char) :
    scanUnits (text.flatMap escape ++ rest) =
      (scanUnits rest).map fun scanned => (codes text ++ scanned.1, scanned.2) := by
  induction text with
  | nil => simp [codes]
  | cons c text ih =>
      rcases List.forall_mem_cons.mp each with ⟨first, others⟩
      rw [List.flatMap_cons, List.append_assoc, first, ih others, Option.map_map]
      rfl

theorem scanString_flatMap (escape : Char → List Char) (text : List Char)
    (each : ∀ c ∈ text, ∀ rest,
      scanUnits (escape c ++ rest) = (scanUnits rest).map (prepend c.toNat))
    (rest : List Char) :
    scanString (text.flatMap escape ++ '"' :: rest) = some (codes text, rest) := by
  have closed : scanUnits ('"' :: rest) = some ([], rest) := by
    rw [scanUnits.eq_def]
    rfl
  rw [scanString, scanUnits_flatMap escape text each, closed, Option.map_some, Option.map_some,
    List.append_nil, joinSurrogates_codes]

theorem scanString_unclosed (escape : Char → List Char) (text : List Char)
    (each : ∀ c ∈ text, ∀ rest,
      scanUnits (escape c ++ rest) = (scanUnits rest).map (prepend c.toNat)) :
    scanString (text.flatMap escape) = none := by
  have unclosed := scanUnits_flatMap escape text each []
  rw [List.append_nil] at unclosed
  rw [scanString, unclosed]
  rfl

theorem scanString_plain {key : List Char} (plain : ∀ c ∈ key, Plain c) (rest : List Char) :
    scanString (key ++ '"' :: rest) = some (codes key, rest) := by
  have read := scanString_flatMap (fun c => [c]) key
    (fun c member rest => scanUnits_plain (plain c member) rest) rest
  rwa [List.flatMap_singleton'] at read

/-! Numbers -/

theorem ne_of_isDigit {c d : Char} (digit : c.isDigit = true) (other : d.isDigit = false) :
    c ≠ d := by
  intro same
  rw [same, other] at digit
  exact absurd digit (by simp)

theorem toDigits_head (n : Nat) :
    ∃ c rest, Nat.toDigits 10 n = c :: rest ∧ c.isDigit = true ∧
      (c = '0' → n = 0 ∧ rest = []) := by
  have digit : ∀ d, d < 10 → d.digitChar.isDigit = true ∧ (d.digitChar = '0' → d = 0) := by decide
  induction n using Nat.strongRecOn with
  | ind n ih =>
      by_cases small : n < 10
      · rw [Nat.toDigits_of_lt_base small]
        exact ⟨_, _, rfl, (digit n small).1, fun zero => ⟨(digit n small).2 zero, rfl⟩⟩
      · rw [Nat.toDigits_of_base_le (by omega) (by omega)]
        rcases ih (n / 10) (by omega) with ⟨c, rest, digits, isDigit, zero⟩
        rw [digits]
        have nonzero : c = '0' → n = 0 ∧ rest ++ [(n % 10).digitChar] = [] := by
          intro same
          have none := (zero same).1
          omega
        exact ⟨c, rest ++ [(n % 10).digitChar], List.cons_append, isDigit, nonzero⟩

def Stops (text : List Char) : Prop :=
  ∃ c rest, text = c :: rest ∧ c.isDigit = false ∧ c ≠ '.' ∧ c ≠ 'e' ∧ c ≠ 'E'

theorem scanInteger_toDigits (n : Nat) {rest : List Char} (stops : Stops rest) :
    scanInteger (Nat.toDigits 10 n ++ rest) = some (Nat.toDigits 10 n, rest) := by
  rcases toDigits_head n with ⟨c, others, digits, isDigit, zero⟩
  rcases stops with ⟨stop, more, rfl, noDigit, _⟩
  have allDigits : ∀ d ∈ Nat.toDigits 10 n, d.isDigit = true := fun d member =>
    Nat.isDigit_of_mem_toDigits (by omega) (by omega) member
  rw [scanInteger.eq_def]
  by_cases isZero : c = '0'
  · rcases zero isZero with ⟨_, alone⟩
    rw [digits, alone]
    simp [isZero]
  · have taken : (Nat.toDigits 10 n ++ stop :: more).takeWhile Char.isDigit =
        Nat.toDigits 10 n := by
      rw [List.takeWhile_append_of_pos allDigits]
      simp [noDigit]
    have dropped : (Nat.toDigits 10 n ++ stop :: more).dropWhile Char.isDigit = stop :: more := by
      rw [List.dropWhile_append_of_pos allDigits]
      simp [noDigit]
    rw [digits] at taken dropped ⊢
    simp only [List.cons_append, if_neg isZero, if_pos isDigit] at taken dropped ⊢
    rw [taken, dropped]

theorem scanUnsigned_toDigits (n : Nat) {rest : List Char} (stops : Stops rest) :
    scanUnsigned false (Nat.toDigits 10 n ++ rest) = some (.int n, rest) := by
  rcases stops with ⟨stop, more, same, noDigit, noPoint, noExponent⟩
  have noFraction : scanFraction rest = ([], rest) := by
    rw [scanFraction.eq_def, same]
    split
    · rename_i point
      exact absurd (List.cons.inj point).1 noPoint
    · rfl
  have plain : scanExponent rest = (none, rest) := by
    rw [scanExponent.eq_def, same]
    simp only [noExponent, or_self, if_false]
  rw [scanUnsigned, scanInteger_toDigits n ⟨stop, more, same, noDigit, noPoint, noExponent⟩,
    Option.map_some]
  simp [noFraction, plain]

theorem value_toDigits (fuel n : Nat) {rest : List Char} (stops : Stops rest) :
    value (fuel + 1) (Nat.toDigits 10 n ++ rest) = some (.int n, rest) := by
  rcases toDigits_head n with ⟨c, others, digits, isDigit, _⟩
  have scanned := scanUnsigned_toDigits n stops
  have noQuote : c ≠ '"' := ne_of_isDigit isDigit (by decide)
  have noBrace : c ≠ '\x7b' := ne_of_isDigit isDigit (by decide)
  have noBracket : c ≠ '[' := ne_of_isDigit isDigit (by decide)
  rw [digits, List.cons_append] at scanned ⊢
  rw [value.eq_def]
  simp only [if_neg noQuote, if_neg noBrace, if_neg noBracket, if_pos isDigit]
  exact scanned

/-! Objects -/

theorem skipBlanks_of_not_blank {c : Char} (visible : isBlank c = false) (rest : List Char) :
    skipBlanks (c :: rest) = c :: rest := by
  rw [skipBlanks, List.dropWhile_cons_of_neg (by simp [visible])]

theorem value_object (fuel : Nat) (text : List Char) :
    value (fuel + 1) ('\x7b' :: '"' :: text) =
      (entries fuel ('"' :: text)).map fun found => (.obj found.1, found.2) := by
  rw [value.eq_def]
  simp only [Char.reduceEq, if_false, if_true]
  rw [skipBlanks_of_not_blank (by decide)]
  split
  · rename_i closed
    exact absurd (List.cons.inj closed).1 (by decide)
  · rfl

theorem entries_int (fuel n : Nat) {key : List Char} (plain : ∀ c ∈ key, Plain c)
    (rest : List Char) :
    entries (fuel + 2) ('"' :: (key ++ '"' :: ':' :: (Nat.toDigits 10 n ++ ',' :: '"' :: rest))) =
      (entries (fuel + 1) ('"' :: rest)).map fun found =>
        ((codes key, .int n) :: found.1, found.2) := by
  have stops : Stops (',' :: '"' :: rest) :=
    ⟨',', '"' :: rest, rfl, by decide, by decide, by decide, by decide⟩
  have number : skipBlanks (Nat.toDigits 10 n ++ ',' :: '"' :: rest) =
      Nat.toDigits 10 n ++ ',' :: '"' :: rest := by
    rcases toDigits_head n with ⟨c, others, digits, isDigit, _⟩
    have noSpace : c ≠ ' ' := ne_of_isDigit isDigit (by decide)
    have noTab : c ≠ '\t' := ne_of_isDigit isDigit (by decide)
    have noLine : c ≠ '\n' := ne_of_isDigit isDigit (by decide)
    have noReturn : c ≠ '\r' := ne_of_isDigit isDigit (by decide)
    have visible : isBlank c = false := by
      simp [isBlank, noSpace, noTab, noLine, noReturn]
    rw [digits, List.cons_append, skipBlanks_of_not_blank visible]
  rw [entries.eq_def]
  simp only [scanString_plain plain, Option.bind_some]
  rw [skipBlanks_of_not_blank (by decide)]
  simp only [number, value_toDigits fuel n stops, Option.bind_some]
  rw [skipBlanks_of_not_blank (by decide)]
  simp only
  rw [skipBlanks_of_not_blank (by decide)]

theorem entries_last {fuel : Nat} {key text rest : List Char} {units : List Nat}
    (plain : ∀ c ∈ key, Plain c)
    (closed : scanString text = some (units, '\x7d' :: rest)) :
    entries (fuel + 2) ('"' :: (key ++ '"' :: ':' :: '"' :: text)) =
      some ([(codes key, .str units)], rest) := by
  rw [entries.eq_def]
  simp only [scanString_plain plain, Option.bind_some]
  rw [skipBlanks_of_not_blank (by decide)]
  simp only
  rw [skipBlanks_of_not_blank (by decide), value.eq_def]
  simp only [if_true, closed, Option.map_some, Option.bind_some]
  rw [skipBlanks_of_not_blank (by decide)]
  rfl

theorem entries_unclosed {fuel : Nat} {key text : List Char} (plain : ∀ c ∈ key, Plain c)
    (unclosed : scanString text = none) :
    entries (fuel + 2) ('"' :: (key ++ '"' :: ':' :: '"' :: text)) = none := by
  rw [entries.eq_def]
  simp only [scanString_plain plain, Option.bind_some]
  rw [skipBlanks_of_not_blank (by decide)]
  simp only
  rw [skipBlanks_of_not_blank (by decide), value.eq_def]
  simp only [if_true, unclosed, Option.map_none, Option.bind_none]

end Json
