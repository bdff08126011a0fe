import Ito.Library.JsonScan
import Mathlib.Data.List.TakeWhile

/-! Flat objects with one entry on each line, as `to_string_pretty` of `serde_json` writes them,
and what `json.loads` makes of them. A text is written as it is, which holds of plain ones only. -/

namespace Json

inductive Scalar where
  | number (value : Nat)
  | text (value : List Char)
  deriving DecidableEq, Repr

namespace Scalar

def shown : Scalar → List Char
  | .number value => Nat.toDigits 10 value
  | .text value => '"' :: (value ++ ['"'])

def toJson : Scalar → Json
  | .number value => .int value
  | .text value => .str (codes value)

def Readable : Scalar → Prop
  | .number _ => True
  | .text value => ∀ c ∈ value, Plain c

theorem shown_head (scalar : Scalar) :
    ∃ c rest, scalar.shown = c :: rest ∧ isBlank c = false := by
  cases scalar with
  | text value => exact ⟨'"', value ++ ['"'], rfl, by decide⟩
  | number value =>
      rcases toDigits_head value with ⟨c, rest, digits, isDigit, -⟩
      have noSpace : c ≠ ' ' := ne_of_isDigit isDigit (by decide)
      have noTab : c ≠ '\t' := ne_of_isDigit isDigit (by decide)
      have noLine : c ≠ '\n' := ne_of_isDigit isDigit (by decide)
      have noReturn : c ≠ '\r' := ne_of_isDigit isDigit (by decide)
      exact ⟨c, rest, digits, by simp [isBlank, noSpace, noTab, noLine, noReturn]⟩

theorem skipBlanks_shown (scalar : Scalar) (rest : List Char) :
    skipBlanks (' ' :: (scalar.shown ++ rest)) = scalar.shown ++ rest := by
  rcases scalar.shown_head with ⟨c, others, same, visible⟩
  rw [same]
  exact skipBlanks_of_not_blank visible (others ++ rest)

theorem value_shown (fuel : Nat) {scalar : Scalar} (readable : scalar.Readable)
    {rest : List Char} (stops : Stops rest) :
    value (fuel + 1) (scalar.shown ++ rest) = some (scalar.toJson, rest) := by
  cases scalar with
  | number n => exact value_toDigits fuel n stops
  | text text =>
      rw [shown, List.cons_append, List.append_assoc, List.singleton_append, value.eq_def]
      simp only [if_true, scanString_plain readable, Option.map_some]
      rfl

end Scalar

def entryShown (entry : List Char × Scalar) : List Char :=
  '"' :: (entry.1 ++ '"' :: ':' :: ' ' :: entry.2.shown)

def restShown : List (List Char × Scalar) → List Char
  | [] => ['\n', '\x7d']
  | entry :: entries => ',' :: '\n' :: ' ' :: ' ' :: (entryShown entry ++ restShown entries)

def pretty : List (List Char × Scalar) → List Char
  | [] => ['\x7b', '\x7d']
  | entry :: entries => '\x7b' :: '\n' :: ' ' :: ' ' :: (entryShown entry ++ restShown entries)

def ReadableEntry (entry : List Char × Scalar) : Prop :=
  (∀ c ∈ entry.1, Plain c) ∧ entry.2.Readable

def entryJson (entry : List Char × Scalar) : List Nat × Json := (codes entry.1, entry.2.toJson)

theorem skipBlanks_entryShown (entry : List Char × Scalar) (rest : List Char) :
    skipBlanks ('\n' :: ' ' :: ' ' :: (entryShown entry ++ rest)) = entryShown entry ++ rest := rfl

theorem stops_restShown (entries : List (List Char × Scalar)) (more : List Char) :
    Stops (restShown entries ++ more) := by
  cases entries with
  | nil => exact ⟨'\n', '\x7d' :: more, rfl, by decide⟩
  | cons entry entries =>
      rw [restShown, List.cons_append]
      exact ⟨',', _, rfl, by decide⟩

theorem entries_shown {entry : List Char × Scalar} {others : List (List Char × Scalar)}
    (readable : ∀ other ∈ entry :: others, ReadableEntry other) (more : List Char) {fuel : Nat}
    (enough : others.length + 2 ≤ fuel) :
    entries fuel (entryShown entry ++ (restShown others ++ more)) =
      some ((entry :: others).map entryJson, more) := by
  induction others generalizing entry fuel with
  | nil =>
      obtain ⟨level, rfl⟩ : ∃ level, fuel = level + 2 := ⟨fuel - 2, by simp at enough; omega⟩
      have first := readable entry List.mem_cons_self
      rw [entryShown, List.cons_append, List.append_assoc, List.cons_append, List.cons_append,
        List.cons_append, entries.eq_def]
      simp only [scanString_plain first.1, Option.bind_some]
      rw [skipBlanks_of_not_blank (by decide)]
      simp only [Scalar.skipBlanks_shown,
        Scalar.value_shown level first.2 (stops_restShown [] more), Option.bind_some]
      rfl
  | cons next others ih =>
      obtain ⟨level, rfl⟩ : ∃ level, fuel = level + 2 := ⟨fuel - 2, by simp at enough; omega⟩
      have first := readable entry List.mem_cons_self
      have later := ih (fun other member => readable other (List.mem_cons_of_mem entry member))
        (show others.length + 2 ≤ level + 1 by simp at enough; omega)
      rw [entryShown, List.cons_append, List.append_assoc, List.cons_append, List.cons_append,
        List.cons_append, entries.eq_def]
      simp only [scanString_plain first.1, Option.bind_some]
      rw [skipBlanks_of_not_blank (by decide)]
      simp only [Scalar.skipBlanks_shown,
        Scalar.value_shown level first.2 (stops_restShown (next :: others) more), Option.bind_some]
      rw [restShown, List.cons_append, skipBlanks_of_not_blank (by decide)]
      simp only [List.cons_append, List.append_assoc, skipBlanks_entryShown, later,
        Option.map_some]
      rfl

theorem length_restShown (entries : List (List Char × Scalar)) :
    entries.length + 2 ≤ (restShown entries).length := by
  induction entries with
  | nil => exact Nat.le_refl 2
  | cons entry entries ih =>
      rw [restShown]
      simp only [List.length_cons, List.length_append]
      omega

theorem loads_pretty {entries : List (List Char × Scalar)} (some' : entries ≠ [])
    (readable : ∀ entry ∈ entries, ReadableEntry entry) {blanks : List Char}
    (blank : ∀ c ∈ blanks, isBlank c = true) :
    loads (pretty entries ++ blanks) = some (.obj (entries.map entryJson)) := by
  cases entries with
  | nil => exact absurd rfl some'
  | cons entry others =>
      have opened : pretty (entry :: others) ++ blanks =
          '\x7b' :: '\n' :: ' ' :: ' ' :: (entryShown entry ++ (restShown others ++ blanks)) := by
        simp [pretty]
      have ended : skipBlanks blanks = [] := by
        rw [skipBlanks, List.dropWhile_eq_nil_iff]
        exact blank
      have enough : others.length + 2 ≤ (pretty (entry :: others) ++ blanks).length := by
        have long := length_restShown others
        rw [opened]
        simp only [List.length_cons, List.length_append]
        omega
      have read := entries_shown readable blanks enough
      have found : value ((pretty (entry :: others) ++ blanks).length + 1)
          (pretty (entry :: others) ++ blanks) =
            some (.obj ((entry :: others).map entryJson), blanks) := by
        rw [value.eq_def]
        simp only [opened, Char.reduceEq, if_false, if_true, skipBlanks_entryShown] at read ⊢
        change (entries _ (entryShown entry ++ (restShown others ++ blanks))).map _ = _
        rw [read, Option.map_some]
      have start : skipBlanks (pretty (entry :: others) ++ blanks) =
          pretty (entry :: others) ++ blanks := skipBlanks_of_not_blank (by decide) _
      have noMark : ¬ (pretty (entry :: others) ++ blanks).head? = some '\ufeff' := by
        rw [opened, List.head?_cons]
        decide
      rw [loads, if_neg noMark, start, found, Option.bind_some]
      exact if_pos ended

/-! The control characters of what is written are its line feeds. -/

theorem Scalar.control_shown {scalar : Scalar} (readable : scalar.Readable) :
    ∀ c ∈ scalar.shown, 0x20 ≤ c.toNat := by
  cases scalar with
  | number value =>
      intro c member
      have digit : c.isDigit = true := Nat.isDigit_of_mem_toDigits (by omega) (by omega) member
      simp only [Char.isDigit, Bool.and_eq_true, decide_eq_true_eq] at digit
      have low : 48 ≤ c.toNat := digit.1
      omega
  | text value =>
      intro c member
      simp only [shown, List.mem_cons, List.mem_append, List.not_mem_nil, or_false] at member
      rcases member with rfl | inside | rfl
      · decide
      · exact (readable c inside).2.2
      · decide

theorem control_entryShown {entry : List Char × Scalar} (readable : ReadableEntry entry) :
    ∀ c ∈ entryShown entry, 0x20 ≤ c.toNat := by
  have quote : ∀ c ∈ ['"', ':', ' '], 0x20 ≤ c.toNat := by simp
  intro c member
  simp only [entryShown, List.mem_cons, List.mem_append] at member quote
  have inKey := fun inside => (readable.1 c inside).2.2
  have inValue := Scalar.control_shown readable.2 c
  grind

theorem control_restShown {entries : List (List Char × Scalar)}
    (readable : ∀ entry ∈ entries, ReadableEntry entry) :
    ∀ c ∈ restShown entries, c = '\n' ∨ 0x20 ≤ c.toNat := by
  induction entries with
  | nil => simp [restShown]
  | cons entry entries ih =>
      rcases List.forall_mem_cons.mp readable with ⟨first, others⟩
      have later := ih others
      have now := control_entryShown first
      have marks : ∀ c ∈ [',', '\n', ' '], c = '\n' ∨ 0x20 ≤ c.toNat := by simp
      intro c member
      simp only [restShown, List.mem_cons, List.mem_append] at member marks
      grind

theorem control_pretty {entries : List (List Char × Scalar)}
    (readable : ∀ entry ∈ entries, ReadableEntry entry) :
    ∀ c ∈ pretty entries, c = '\n' ∨ 0x20 ≤ c.toNat := by
  have inside := control_restShown readable
  cases entries with
  | nil => simp [pretty]
  | cons entry entries =>
      have brace : 0x20 ≤ '\x7b'.toNat := by decide
      intro c member
      simp only [pretty, restShown, List.mem_cons, List.mem_append] at member inside
      rcases member with rfl | written
      · exact .inr brace
      · exact inside c (.inr written)

end Json
