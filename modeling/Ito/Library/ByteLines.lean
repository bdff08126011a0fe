import Ito.Library.ByteText
import Mathlib.Data.List.Basic
import Mathlib.Algebra.Order.Ring.Int

/-! Lines, patterns and decimal numbers in byte texts: what a reader gets back from
what a writer wrote. -/

namespace Bytes

/-! Lines -/

theorem finished_clean {delimiter : UInt8} {tail : Bytes} (clean : delimiter ∉ tail) :
    finished delimiter tail = ([], tail) := by
  induction tail with
  | nil => rfl
  | cons byte rest ih =>
      rcases List.ne_and_not_mem_of_not_mem_cons clean with ⟨differs, rest⟩
      rw [finished, if_neg (Ne.symm differs), ih rest]

theorem finished_line {delimiter : UInt8} {line : Bytes} (clean : delimiter ∉ line) (rest : Bytes) :
    finished delimiter (line ++ delimiter :: rest) =
      (line :: (finished delimiter rest).1, (finished delimiter rest).2) := by
  induction line with
  | nil => simp [finished]
  | cons byte others ih =>
      rcases List.ne_and_not_mem_of_not_mem_cons clean with ⟨differs, others⟩
      rw [List.cons_append, finished, if_neg (Ne.symm differs), ih others]

theorem finished_lines {delimiter : UInt8} {lines : List Bytes} {tail : Bytes}
    (clean : ∀ line ∈ lines, delimiter ∉ line) (cleanTail : delimiter ∉ tail) :
    finished delimiter (lines.flatMap (· ++ [delimiter]) ++ tail) = (lines, tail) := by
  induction lines with
  | nil => exact finished_clean cleanTail
  | cons line rest ih =>
      rcases List.forall_mem_cons.mp clean with ⟨first, others⟩
      rw [List.flatMap_cons, List.append_assoc, List.append_assoc, List.singleton_append,
        finished_line first, ih others]

theorem pieces_eq (delimiter : UInt8) (bytes : Bytes) :
    pieces delimiter bytes = (finished delimiter bytes).1 ++
      if (finished delimiter bytes).2 = [] then [] else [(finished delimiter bytes).2] := by
  induction bytes with
  | nil => rfl
  | cons byte rest ih =>
      rw [pieces, finished]
      by_cases ends : byte = delimiter
      · rw [if_pos ends, if_pos ends, ih]
        rfl
      · rw [if_neg ends, if_neg ends, ih]
        cases (finished delimiter rest).1 with
        | nil =>
            by_cases empty : (finished delimiter rest).2 = []
            · simp [empty]
            · simp [empty]
        | cons piece others => simp

theorem take_lines (delimiter : UInt8) (lines : List Bytes) (count : Nat) :
    ∃ complete tail, complete ≤ lines.length ∧
      (lines.flatMap (· ++ [delimiter])).take count =
        (lines.take complete).flatMap (· ++ [delimiter]) ++ tail ∧
      (tail = [] ∨ ∃ line, lines[complete]? = some line ∧ tail <+: line) := by
  induction lines generalizing count with
  | nil => exact ⟨0, [], by simp⟩
  | cons line rest ih =>
      by_cases inside : count ≤ line.length
      · have cut : ((line :: rest).flatMap (· ++ [delimiter])).take count = line.take count := by
          rw [List.flatMap_cons, List.append_assoc, List.take_append_of_le_length inside]
        exact ⟨0, line.take count, by simp, by simpa using cut,
          Or.inr ⟨line, rfl, List.take_prefix count line⟩⟩
      · rcases ih (count - (line.length + 1)) with ⟨complete, tail, bound, cut, torn⟩
        have past : ((line :: rest).flatMap (· ++ [delimiter])).take count =
            (line ++ [delimiter]) ++ (rest.take complete).flatMap (· ++ [delimiter]) ++ tail := by
          rw [List.flatMap_cons, List.take_append, List.take_of_length_le (by simp; omega),
            List.length_append, List.length_singleton, cut]
          simp only [List.append_assoc]
        exact ⟨complete + 1, tail, by simpa using bound, by simpa using past, by simpa using torn⟩

/-! Patterns -/

theorem after_cons_ne {first byte : UInt8} (differs : byte ≠ first) (pattern rest : Bytes) :
    after (first :: pattern) (byte :: rest) = after (first :: pattern) rest := by
  rw [after, if_neg]
  simp [List.isPrefixOf, Ne.symm differs]

theorem after_append_of_not_mem {first : UInt8} {front : Bytes} (clean : first ∉ front)
    (pattern text : Bytes) :
    after (first :: pattern) (front ++ text) = after (first :: pattern) text := by
  induction front with
  | nil => rfl
  | cons byte rest ih =>
      rcases List.ne_and_not_mem_of_not_mem_cons clean with ⟨differs, rest⟩
      rw [List.cons_append, after_cons_ne (Ne.symm differs), ih rest]

theorem after_self {pattern : Bytes} (nonempty : pattern ≠ []) (rest : Bytes) :
    after pattern (pattern ++ rest) = some rest := by
  cases pattern with
  | nil => exact absurd rfl nonempty
  | cons first others =>
      rw [List.cons_append, after, if_pos]
      · simp
      · rw [List.isPrefixOf_iff_prefix]
        exact List.prefix_append (first :: others) rest

theorem length_le_of_after {pattern text found : Bytes} (occurs : after pattern text = some found) :
    pattern.length ≤ text.length := by
  induction text with
  | nil =>
      rw [after] at occurs
      split at occurs
      · rename_i empty
        simp [empty]
      · exact absurd occurs (by simp)
  | cons byte others ih =>
      rw [after] at occurs
      split at occurs
      · rename_i starts
        exact (List.isPrefixOf_iff_prefix.mp starts).length_le
      · exact (ih occurs).trans (by simp)

theorem after_append_of_some {pattern text found : Bytes} (occurs : after pattern text = some found)
    (rest : Bytes) : after pattern (text ++ rest) = some (found ++ rest) := by
  induction text with
  | nil =>
      rw [after] at occurs
      split at occurs
      · rename_i empty
        rw [Option.some.injEq] at occurs
        rw [empty, ← occurs]
        cases rest with
        | nil => rfl
        | cons byte others => rfl
      · exact absurd occurs (by simp)
  | cons byte others ih =>
      rw [after] at occurs
      split at occurs
      · rename_i starts
        rw [Option.some.injEq] at occurs
        have longer := (List.isPrefixOf_iff_prefix.mp starts).length_le
        rw [List.cons_append, after, if_pos, ← List.cons_append,
          List.drop_append_of_le_length longer, occurs]
        rw [List.isPrefixOf_iff_prefix] at starts ⊢
        exact starts.trans (List.prefix_append (byte :: others) rest)
      · rename_i apart
        rw [List.cons_append, after, if_neg, ih occurs]
        intro starts
        apply apart
        rw [List.isPrefixOf_iff_prefix] at starts ⊢
        rw [← List.cons_append] at starts
        have short := (length_le_of_after occurs).trans (by simp : _ ≤ (byte :: others).length)
        exact List.prefix_of_prefix_length_le starts (List.prefix_append _ rest) short

theorem isPrefixOf_append_foreign {pattern front rest : Bytes} {byte : UInt8}
    (foreign : byte ∉ pattern) (starts : pattern.isPrefixOf (front ++ byte :: rest)) :
    pattern.isPrefixOf front := by
  induction front generalizing pattern with
  | nil =>
      cases pattern with
      | nil => rfl
      | cons first others =>
          rcases List.ne_and_not_mem_of_not_mem_cons foreign with ⟨differs, _⟩
          simp [List.isPrefixOf, Ne.symm differs] at starts
  | cons head front ih =>
      cases pattern with
      | nil => rfl
      | cons first others =>
          rcases List.ne_and_not_mem_of_not_mem_cons foreign with ⟨_, foreign⟩
          simp only [List.cons_append, List.isPrefixOf, Bool.and_eq_true] at starts ⊢
          exact ⟨starts.1, ih foreign starts.2⟩

theorem after_append_foreign {pattern front rest : Bytes} {byte : UInt8}
    (foreign : byte ∉ pattern) (absent : after pattern front = none) :
    after pattern (front ++ byte :: rest) = after pattern (byte :: rest) := by
  induction front with
  | nil => rfl
  | cons head front ih =>
      rw [after] at absent
      split at absent
      · exact absurd absent (by simp)
      · rename_i apart
        rw [List.cons_append, after, if_neg]
        · exact ih absent
        · intro starts
          exact apart (@isPrefixOf_append_foreign pattern (head :: front) rest byte foreign starts)

/-! Decimal numbers -/

theorem decimal_eq (n : Nat) :
    decimal n = if n < 10 then [UInt8.ofNat (48 + n)]
      else decimal (n / 10) ++ [UInt8.ofNat (48 + n % 10)] := by
  have digit : ∀ d, d < 10 → ofChar d.digitChar = UInt8.ofNat (48 + d) := by decide
  by_cases small : n < 10
  · rw [if_pos small, decimal, Nat.toDigits_of_lt_base small, List.map_singleton, digit n small]
  · rw [if_neg small, decimal, Nat.toDigits_of_base_le (by omega) (by omega), List.map_append,
      List.map_singleton, digit _ (Nat.mod_lt n (by omega))]
    rfl

theorem decimal_ne_nil (n : Nat) : decimal n ≠ [] := by
  rw [decimal_eq]
  split <;> simp

def digitsValue (digits : Bytes) : Nat :=
  digits.foldl (fun n byte => 10 * n + (byte.toNat - 48)) 0

theorem digitsValue_append (digits : Bytes) (byte : UInt8) :
    digitsValue (digits ++ [byte]) = 10 * digitsValue digits + (byte.toNat - 48) := by
  simp [digitsValue]

theorem digit_toNat {d : Nat} (small : d < 10) : (UInt8.ofNat (48 + d)).toNat - 48 = d := by
  simp
  omega

theorem digitsValue_decimal (n : Nat) : digitsValue (decimal n) = n := by
  induction n using Nat.strongRecOn with
  | ind n ih =>
      rw [decimal_eq]
      split
      · rename_i small
        simp only [digitsValue, List.foldl_cons, List.foldl_nil, digit_toNat small]
        omega
      · rw [digitsValue_append, ih (n / 10) (by omega), digit_toNat (Nat.mod_lt n (by omega))]
        omega

theorem isDigit_decimal (n : Nat) : ∀ byte ∈ decimal n, isDigit byte = true := by
  have digit : ∀ d, d < 10 → isDigit (UInt8.ofNat (48 + d)) = true := by decide
  induction n using Nat.strongRecOn with
  | ind n ih =>
      intro byte member
      rw [decimal_eq] at member
      split at member
      · rename_i small
        rw [List.mem_singleton.mp member]
        exact digit n small
      · rcases List.mem_append.mp member with earlier | last
        · exact ih (n / 10) (by omega) byte earlier
        · rw [List.mem_singleton.mp last]
          exact digit _ (Nat.mod_lt n (by omega))

theorem decimal_injective : Function.Injective decimal :=
  Function.LeftInverse.injective digitsValue_decimal

theorem not_mem_decimal {byte : UInt8} (other : isDigit byte = false) (n : Nat) :
    byte ∉ decimal n := by
  intro member
  rw [isDigit_decimal n byte member] at other
  cases other

theorem not_mem_signedDecimal {byte : UInt8} (other : isDigit byte = false)
    (differs : byte ≠ ofChar '-') (value : Int) : byte ∉ signedDecimal value := by
  cases value with
  | ofNat n => exact not_mem_decimal other n
  | negSucc n => exact List.not_mem_cons_of_ne_of_not_mem differs (not_mem_decimal other _)

theorem signedDecimal_injective : Function.Injective signedDecimal := by
  have sign : ∀ m n, decimal m ≠ ofChar '-' :: decimal n := by
    intro m n same
    have member : ofChar '-' ∈ decimal m := by
      rw [same]
      exact List.mem_cons_self
    exact not_mem_decimal (by decide) m member
  intro first second same
  rcases first with m | m <;> rcases second with n | n
  · exact congrArg Int.ofNat (decimal_injective same)
  · exact absurd same (sign m _)
  · exact absurd same.symm (sign n _)
  · have equal := decimal_injective (List.cons.inj same).2
    exact congrArg Int.negSucc (Nat.succ.inj equal)

theorem decimal_front {n : Nat} {front : Bytes} (starts : front <+: decimal n) :
    front = decimal n ∨ front = [] ∨ (10 ≤ n ∧ front <+: decimal (n / 10)) := by
  rw [decimal_eq] at starts
  by_cases small : n < 10
  · rw [if_pos small] at starts
    rcases List.prefix_cons_iff.mp starts with empty | ⟨rest, whole, none⟩
    · exact Or.inr (Or.inl empty)
    · left
      rw [whole, List.prefix_nil.mp none, decimal_eq, if_pos small]
  · rw [if_neg small] at starts
    rcases List.prefix_concat_iff.mp starts with whole | front
    · left
      rw [whole]
      conv => rhs; rw [decimal_eq, if_neg small]
    · exact Or.inr (Or.inr ⟨by omega, front⟩)

theorem digitsValue_front {n : Nat} {front : Bytes} (starts : front <+: decimal n)
    (nonempty : front ≠ []) :
    digitsValue front = n ∨ (10 ≤ n ∧ digitsValue front ≤ n / 10) := by
  induction n using Nat.strongRecOn with
  | ind n ih =>
      rcases decimal_front starts with whole | empty | ⟨large, shorter⟩
      · left
        rw [whole, digitsValue_decimal]
      · exact absurd empty nonempty
      · right
        rcases ih (n / 10) (by omega) shorter with value | ⟨_, value⟩
        · omega
        · omega

theorem leadingNat_append {digits rest : Bytes} (nonempty : digits ≠ [])
    (allDigits : ∀ byte ∈ digits, isDigit byte = true)
    (stops : ∀ byte ∈ rest.head?, isDigit byte = false) :
    leadingNat (digits ++ rest) = some (digitsValue digits) := by
  have taken : (digits ++ rest).takeWhile isDigit = digits := by
    rw [List.takeWhile_append_of_pos allDigits]
    cases rest with
    | nil => simp
    | cons byte others =>
        have stop := stops byte rfl
        simp [stop]
  cases digits with
  | nil => exact absurd rfl nonempty
  | cons first others =>
      rw [leadingNat, taken]
      rfl

theorem isDigit_bounds {byte : UInt8} (digit : isDigit byte = true) :
    48 ≤ byte.toNat ∧ byte.toNat ≤ 57 := by
  simpa [isDigit, UInt8.le_iff_toNat_le] using digit

/-- The number a text of digits starts with is the one `std::stoull` returns. -/
theorem stoull_digits {digits rest : Bytes} (nonempty : digits ≠ [])
    (allDigits : ∀ byte ∈ digits, isDigit byte = true)
    (stops : ∀ byte ∈ rest.head?, isDigit byte = false) (fits : digitsValue digits < 2 ^ 64) :
    stoull (digits ++ rest) = some (UInt64.ofNat (digitsValue digits)) := by
  have leading := leadingNat_append nonempty allDigits stops
  cases digits with
  | nil => exact absurd rfl nonempty
  | cons first others =>
      have bounds := isDigit_bounds (allDigits first List.mem_cons_self)
      have noSpace : isSpace first = false := by
        simp only [isSpace, UInt8.le_iff_toNat_le, ← UInt8.toNat_inj]
        simp
        omega
      have noMinus : first ≠ ofChar '-' := by
        intro same
        rw [same] at bounds
        exact absurd bounds (by decide)
      have noPlus : first ≠ ofChar '+' := by
        intro same
        rw [same] at bounds
        exact absurd bounds (by decide)
      have number : numeral (first :: others ++ rest) =
          some (false, digitsValue (first :: others)) := by
        rw [numeral, List.cons_append, List.dropWhile_cons_of_neg (by simp [noSpace])]
        simp only [if_neg noMinus, if_neg noPlus]
        rw [← List.cons_append, leading, Option.map_some]
      rw [stoull, number, Option.bind_some]
      simp only [if_pos fits]
      rfl

theorem stoull_decimal {n : Nat} (fits : n < 2 ^ 64) {rest : Bytes}
    (stops : ∀ byte ∈ rest.head?, isDigit byte = false) :
    stoull (decimal n ++ rest) = some (UInt64.ofNat n) := by
  have value := digitsValue_decimal n
  have read := stoull_digits (decimal_ne_nil n) (isDigit_decimal n) stops (by rw [value]; exact fits)
  rw [read, value]

end Bytes
