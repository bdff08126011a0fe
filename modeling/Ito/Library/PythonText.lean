import Ito.Library.ByteText
import Mathlib.Data.List.TakeWhile

/-! How Python reads text: UTF-8 decoding, newline translation, lines and blanks. -/

namespace PythonText

def encodeUtf8 (text : List Char) : Bytes := text.flatMap String.utf8EncodeChar

/-- Strict decoding; a `UnicodeDecodeError` is `none`. -/
def decodeUtf8 (bytes : Bytes) : Option (List Char) :=
  bytes.toByteArray.utf8Decode?.map Array.toList

def translate (afterReturn : Bool) : List Char → List Char
  | [] => []
  | c :: rest =>
      if c = '\r' then '\n' :: translate true rest
      else if c = '\n' ∧ afterReturn then translate false rest
      else c :: translate false rest

/-- A file opened as text turns `\r\n` and `\r` into `\n`. -/
def universalNewlines (text : List Char) : List Char := translate false text

/-- The boundaries of `str.splitlines`. -/
def isLineBreak (c : Char) : Bool :=
  c = '\n' || c = '\r' || c = '\x0b' || c = '\x0c' || c = '\x1c' || c = '\x1d' || c = '\x1e' ||
    c = '\x85' || c = '\u2028' || c = '\u2029'

def breakLines (afterReturn : Bool) : List Char → List (List Char)
  | [] => []
  | c :: rest =>
      if c = '\n' ∧ afterReturn then breakLines false rest
      else if isLineBreak c then [] :: breakLines (c = '\r') rest
      else
        match breakLines false rest with
        | [] => [[c]]
        | line :: others => (c :: line) :: others

/-- `str.splitlines`. -/
def splitlines (text : List Char) : List (List Char) := breakLines false text

def fileLines : List Char → List (List Char)
  | [] => []
  | c :: rest =>
      if c = '\n' then [c] :: fileLines rest
      else
        match fileLines rest with
        | [] => [[c]]
        | line :: others => (c :: line) :: others

/-- `str.isspace` on one code point. -/
def isSpaceCode (code : Nat) : Bool :=
  (9 ≤ code && code ≤ 13) || (28 ≤ code && code ≤ 32) || code = 0x85 || code = 0xa0 ||
    code = 0x1680 || (0x2000 ≤ code && code ≤ 0x200a) || code = 0x2028 || code = 0x2029 ||
    code = 0x202f || code = 0x205f || code = 0x3000

def isSpace (c : Char) : Bool := isSpaceCode c.toNat

def stripBy {α : Type*} (blank : α → Bool) (text : List α) : List α :=
  ((text.dropWhile blank).reverse.dropWhile blank).reverse

/-- `str.strip`. -/
def strip (text : List Char) : List Char := stripBy isSpace text

def digitsFrom (value : Nat) (afterDigit : Bool) : List Nat → Option Nat
  | [] => if afterDigit then some value else none
  | code :: rest =>
      if 48 ≤ code ∧ code ≤ 57 then digitsFrom (10 * value + (code - 48)) true rest
      else if code = 95 ∧ afterDigit then digitsFrom value false rest
      else none

/-- `int(text)`; a `ValueError` is `none`. -/
def intOfText (text : List Nat) : Option Int :=
  match stripBy isSpaceCode text with
  | 45 :: digits => (digitsFrom 0 false digits).map fun n => -(n : Int)
  | 43 :: digits => (digitsFrom 0 false digits).map fun n => (n : Int)
  | digits => (digitsFrom 0 false digits).map fun n => (n : Int)

theorem forall_mem_of_checked {p : Char → Prop} [DecidablePred p] {text : List Char}
    (checked : (text.all fun c => decide (p c)) = true) : ∀ c ∈ text, p c := by
  intro c member
  exact of_decide_eq_true (List.all_eq_true.mp checked c member)

theorem strip_ne_nil {first : Char} (visible : isSpace first = false) (rest : List Char) :
    strip (first :: rest) ≠ [] := by
  intro empty
  rw [strip, stripBy, List.dropWhile_cons_of_neg (by simp [visible]), List.reverse_eq_nil_iff,
    List.dropWhile_eq_nil_iff] at empty
  have blank := empty first (by simp)
  rw [visible] at blank
  exact absurd blank (by simp)

theorem strip_line (first last : Char) (start : isSpace first = false)
    (stop : isSpace last = false) (inside : List Char) :
    strip (first :: inside ++ [last] ++ ['\n']) = first :: inside ++ [last] := by
  have newline : isSpace '\n' = true := by decide
  rw [strip, stripBy, List.cons_append, List.cons_append,
    List.dropWhile_cons_of_neg (by simp [start]), ← List.cons_append, ← List.cons_append,
    List.reverse_append, List.reverse_append, List.reverse_singleton, List.singleton_append,
    List.dropWhile_cons_of_pos newline, List.reverse_singleton, List.singleton_append,
    List.dropWhile_cons_of_neg (by simp [stop]), List.reverse_cons, List.reverse_reverse]

theorem encodeUtf8_append (front rest : List Char) :
    encodeUtf8 (front ++ rest) = encodeUtf8 front ++ encodeUtf8 rest :=
  List.flatMap_append

theorem decodeUtf8_encodeUtf8 (text : List Char) : decodeUtf8 (encodeUtf8 text) = some text := by
  have decoded : (encodeUtf8 text).toByteArray.utf8Decode? = some text.toArray :=
    List.utf8Decode?_utf8Encode
  rw [decodeUtf8, decoded, Option.map_some]

theorem encodeUtf8_ascii {text : List Char} (ascii : ∀ c ∈ text, c.toNat < 128) :
    encodeUtf8 text = text.map Bytes.ofChar := by
  induction text with
  | nil => rfl
  | cons c rest ih =>
      rcases List.forall_mem_cons.mp ascii with ⟨first, others⟩
      have small : c.val.toNat ≤ 127 := Nat.le_of_lt_succ first
      have single : String.utf8EncodeChar c = [Bytes.ofChar c] := by
        rw [String.utf8EncodeChar, if_pos small]
        rfl
      rw [List.map_cons, ← ih others, encodeUtf8, List.flatMap_cons, single]
      rfl

theorem utf8EncodeChar_large {c : Char} (large : 128 ≤ c.toNat) :
    ∀ byte ∈ String.utf8EncodeChar c, 128 ≤ byte.toNat := by
  have noAscii : ¬ c.val.toNat ≤ 127 := Nat.not_le.mpr large
  intro byte member
  rw [String.utf8EncodeChar, if_neg noAscii] at member
  split at member
  · simp only [List.mem_cons, List.not_mem_nil, or_false] at member
    rcases member with rfl | rfl
    · rw [UInt8.toNat_ofNat']
      omega
    · rw [UInt8.toNat_ofNat']
      omega
  split at member
  · simp only [List.mem_cons, List.not_mem_nil, or_false] at member
    rcases member with rfl | rfl | rfl
    · rw [UInt8.toNat_ofNat']
      omega
    · rw [UInt8.toNat_ofNat']
      omega
    · rw [UInt8.toNat_ofNat']
      omega
  · simp only [List.mem_cons, List.not_mem_nil, or_false] at member
    rcases member with rfl | rfl | rfl | rfl
    · rw [UInt8.toNat_ofNat']
      omega
    · rw [UInt8.toNat_ofNat']
      omega
    · rw [UInt8.toNat_ofNat']
      omega
    · rw [UInt8.toNat_ofNat']
      omega

theorem universalNewlines_clean {text : List Char} (clean : '\r' ∉ text) :
    universalNewlines text = text := by
  rw [universalNewlines]
  induction text with
  | nil => rfl
  | cons c rest ih =>
      rcases List.ne_and_not_mem_of_not_mem_cons clean with ⟨differs, others⟩
      rw [translate, if_neg (Ne.symm differs), if_neg (by simp), ih others]

theorem splitlines_front {front : List Char} (clean : ∀ c ∈ front, isLineBreak c = false)
    {boundary : Char} (stops : isLineBreak boundary = true) (rest : List Char) :
    ∃ others, splitlines (front ++ boundary :: rest) = front :: others := by
  rw [splitlines]
  induction front with
  | nil =>
      rw [List.nil_append, breakLines, if_neg (by simp), if_pos stops]
      exact ⟨_, rfl⟩
  | cons c front ih =>
      rcases List.forall_mem_cons.mp clean with ⟨first, others⟩
      rcases ih others with ⟨lines, broken⟩
      rw [List.cons_append, breakLines, if_neg (by simp), if_neg (by simp [first]), broken]
      exact ⟨lines, rfl⟩

theorem fileLines_front {front : List Char} (clean : '\n' ∉ front) (rest : List Char) :
    fileLines (front ++ '\n' :: rest) = (front ++ ['\n']) :: fileLines rest := by
  induction front with
  | nil => rfl
  | cons c others ih =>
      rcases List.ne_and_not_mem_of_not_mem_cons clean with ⟨differs, others⟩
      rw [List.cons_append, fileLines, if_neg (Ne.symm differs), ih others]
      rfl

/-! Numbers -/

theorem digit_code {c : Char} (digit : c.isDigit = true) : 48 ≤ c.toNat ∧ c.toNat ≤ 57 := by
  simp only [Char.isDigit, Bool.and_eq_true, decide_eq_true_eq] at digit
  exact digit

theorem digitsFrom_digits {digits : List Char} (digit : ∀ c ∈ digits, c.isDigit = true)
    {afterDigit : Bool} (ends : digits ≠ [] ∨ afterDigit = true) (value : Nat) :
    digitsFrom value afterDigit (digits.map Char.toNat) =
      some (Nat.ofDigitChars 10 digits value) := by
  induction digits generalizing value afterDigit with
  | nil =>
      rw [List.map_nil, digitsFrom, if_pos (ends.resolve_left (by simp)), Nat.ofDigitChars_nil]
  | cons c digits ih =>
      rcases List.forall_mem_cons.mp digit with ⟨first, others⟩
      rw [List.map_cons, digitsFrom, if_pos (digit_code first), ih others (Or.inr rfl),
        Nat.ofDigitChars_cons]
      rfl

theorem dropWhile_visible {α : Type*} {blank : α → Bool} {text : List α}
    (visible : ∀ c ∈ text, blank c = false) : text.dropWhile blank = text := by
  cases text with
  | nil => rfl
  | cons c text => exact List.dropWhile_cons_of_neg (by simp [visible c List.mem_cons_self])

theorem intOfText_toDigits (n : Nat) :
    intOfText ((Nat.toDigits 10 n).map Char.toNat) = some (n : Int) := by
  have digit : ∀ c ∈ Nat.toDigits 10 n, c.isDigit = true := fun c member =>
    Nat.isDigit_of_mem_toDigits (by omega) (by omega) member
  have read : digitsFrom 0 false ((Nat.toDigits 10 n).map Char.toNat) = some n := by
    rw [digitsFrom_digits digit (Or.inl Nat.toDigits_ne_nil), Nat.ofDigitChars_toDigits (by omega) (by omega)]
  have codes : ∀ code ∈ (Nat.toDigits 10 n).map Char.toNat, 48 ≤ code ∧ code ≤ 57 := by
    intro code member
    rcases List.mem_map.mp member with ⟨c, inside, rfl⟩
    exact digit_code (digit c inside)
  have visible : ∀ code ∈ (Nat.toDigits 10 n).map Char.toNat, isSpaceCode code = false := by
    intro code member
    have bounds := codes code member
    simp only [isSpaceCode, Bool.or_eq_false_iff, Bool.and_eq_false_iff, decide_eq_false_iff_not]
    omega
  have nonempty : (Nat.toDigits 10 n).map Char.toNat ≠ [] := by simp
  generalize (Nat.toDigits 10 n).map Char.toNat = text at read codes visible nonempty
  have backward : ∀ code ∈ text.reverse, isSpaceCode code = false := fun code member =>
    visible code (List.mem_reverse.mp member)
  have stripped : stripBy isSpaceCode text = text := by
    rw [stripBy, dropWhile_visible visible, dropWhile_visible backward, List.reverse_reverse]
  cases text with
  | nil => exact absurd rfl nonempty
  | cons first rest =>
      have bounds := codes first List.mem_cons_self
      rw [intOfText, stripped]
      split
      case h_1 same => exact absurd (List.cons.inj same).1 (by omega)
      case h_2 same => exact absurd (List.cons.inj same).1 (by omega)
      case h_3 =>
        rw [read]
        rfl

end PythonText
