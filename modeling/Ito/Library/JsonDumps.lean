import Ito.Library.JsonScan
import Ito.Library.SortedMap
import Mathlib.Data.List.Chain
import Mathlib.Data.List.Induction
import Mathlib.Data.List.Lex
import Mathlib.Data.List.TakeWhile

/-! The `json.dumps` of Python with `sort_keys`, and what `json.loads` makes of it.

A dictionary is the list of its entries in the order of their keys. A style is how a text is laid
out, with blanks between the marks; how a floating point number is written is left to it. -/

namespace Json

/-! Dictionaries -/

abbrev KeyBefore (a b : List Nat) : Prop := a < b

instance keyBeforeTrans : IsTrans (List Nat) KeyBefore := ⟨fun _ _ _ => lt_trans⟩

def ordered (entries : List (List Nat × Json)) : SortedMap KeyBefore Json :=
  entries.foldl (fun found entry => found.set entry.1 entry.2) SortedMap.empty

mutual

def canonical : Json → Json
  | .arr items => .arr (canonicalItems items)
  | .obj entries => .obj (ordered (canonicalEntries entries)).entries
  | value => value

def canonicalItems : List Json → List Json
  | [] => []
  | item :: items => canonical item :: canonicalItems items

def canonicalEntries : List (List Nat × Json) → List (List Nat × Json)
  | [] => []
  | (key, value) :: entries => (key, canonical value) :: canonicalEntries entries

end

inductive Canonical : Json → Prop where
  | null : Canonical .null
  | bool (value : Bool) : Canonical (.bool value)
  | int (value : Int) : Canonical (.int value)
  | float (value : ℚ) : Canonical (.float value)
  | nan : Canonical .nan
  | infinity (negative : Bool) : Canonical (.infinity negative)
  | str (text : List Nat) : Canonical (.str text)
  | arr {items : List Json} (each : ∀ item ∈ items, Canonical item) : Canonical (.arr items)
  | obj {entries : List (List Nat × Json)}
      (sorted : entries.Pairwise fun a b => KeyBefore a.1 b.1)
      (each : ∀ entry ∈ entries, Canonical entry.2) : Canonical (.obj entries)

theorem Canonical.of_keys (keys : List (List Nat)) {entries : List (List Nat × Json)}
    (same : entries.map Prod.fst = keys) (sorted : keys.Pairwise KeyBefore)
    (each : ∀ entry ∈ entries, Canonical entry.2) : Canonical (.obj entries) :=
  .obj (List.pairwise_map.mp (same ▸ sorted)) each

theorem canonicalItems_eq (items : List Json) : canonicalItems items = items.map canonical := by
  induction items with
  | nil => rfl
  | cons item items ih => rw [canonicalItems, ih, List.map_cons]

theorem canonicalEntries_eq (entries : List (List Nat × Json)) :
    canonicalEntries entries = entries.map fun entry => (entry.1, canonical entry.2) := by
  induction entries with
  | nil => rfl
  | cons entry entries ih => rw [canonicalEntries, ih, List.map_cons]

theorem lookup_eq_some_iff_mem {entries : List (List Nat × Json)} {key : List Nat} {value : Json}
    (distinct : entries.Pairwise fun a b => a.1 ≠ b.1) :
    entries.lookup key = some value ↔ (key, value) ∈ entries := by
  induction entries with
  | nil => simp
  | cons entry entries ih =>
      rcases List.pairwise_cons.mp distinct with ⟨first, others⟩
      rw [List.lookup_cons, List.mem_cons]
      by_cases same : key = entry.1
      · subst same
        have absent : (entry.1, value) ∉ entries := fun member => first _ member rfl
        simp [absent, Prod.ext_iff, eq_comm]
      · have differ : (key, value) ≠ entry := fun equal => same (congrArg Prod.fst equal)
        rw [beq_eq_false_iff_ne.mpr same, ih others]
        simp [differ]

theorem distinct_of_sorted {entries : List (List Nat × Json)}
    (sorted : entries.Pairwise fun a b => KeyBefore a.1 b.1) :
    entries.Pairwise fun a b => a.1 ≠ b.1 :=
  sorted.imp ne_of_lt

theorem lookup_reverse_of_sorted {entries : List (List Nat × Json)}
    (sorted : entries.Pairwise fun a b => KeyBefore a.1 b.1) (key : List Nat) :
    entries.reverse.lookup key = entries.lookup key := by
  have distinct := distinct_of_sorted sorted
  have backwards : entries.reverse.Pairwise fun a b => a.1 ≠ b.1 :=
    List.pairwise_reverse.mpr (distinct.imp Ne.symm)
  apply Option.ext
  intro value
  rw [lookup_eq_some_iff_mem backwards, lookup_eq_some_iff_mem distinct, List.mem_reverse]

theorem mem_ordered {entries : List (List Nat × Json)} {key : List Nat} {value : Json} :
    (key, value) ∈ (ordered entries).entries ↔ entries.reverse.lookup key = some value := by
  induction entries using List.reverseRecOn with
  | nil => simp [ordered, SortedMap.empty]
  | append_singleton entries entry ih =>
      rw [ordered, List.foldl_append, List.foldl_cons, List.foldl_nil, SortedMap.mem_set,
        ← ordered, ih, List.reverse_append, List.reverse_singleton, List.singleton_append,
        List.lookup_cons]
      by_cases same : key = entry.1
      · simp [same, eq_comm]
      · simp [same, beq_eq_false_iff_ne.mpr same]

theorem lookup_map {A B : Type*} (f : A → B) (entries : List (List Nat × A)) (key : List Nat) :
    (entries.map fun entry => (entry.1, f entry.2)).lookup key = (entries.lookup key).map f := by
  induction entries with
  | nil => rfl
  | cons entry entries ih =>
      rw [List.map_cons, List.lookup_cons, List.lookup_cons, ih]
      split <;> rfl

theorem ordered_of_sorted {entries : List (List Nat × Json)}
    (sorted : entries.Pairwise fun a b => KeyBefore a.1 b.1) :
    (ordered entries).entries = entries := by
  let kept : SortedMap KeyBefore Json := ⟨entries, sorted⟩
  have same : ordered entries = kept := by
    apply SortedMap.ext_find?
    intro key
    apply Option.ext
    intro value
    rw [SortedMap.find?_eq_some, SortedMap.find?_eq_some, mem_ordered,
      lookup_reverse_of_sorted sorted, lookup_eq_some_iff_mem (distinct_of_sorted sorted)]
  rw [same]

theorem mem_of_mem_ordered {entries : List (List Nat × Json)} {entry : List Nat × Json}
    (member : entry ∈ (ordered entries).entries) : entry ∈ entries := by
  rcases List.lookup_eq_some_iff.mp (mem_ordered.mp member) with ⟨front, rest, split, -⟩
  have among : entry ∈ entries.reverse := by
    rw [split]
    exact List.mem_append_right _ List.mem_cons_self
  exact List.mem_reverse.mp among

theorem get?_canonical (key : String) (entries : List (List Nat × Json)) :
    get? key (ordered (canonicalEntries entries)).entries = (get? key entries).map canonical := by
  have sorted := (ordered (canonicalEntries entries)).sorted
  apply Option.ext
  intro value
  rw [get?, get?, lookup_reverse_of_sorted sorted,
    lookup_eq_some_iff_mem (distinct_of_sorted sorted), mem_ordered, canonicalEntries_eq,
    ← List.map_reverse, lookup_map]

theorem canonical_eq {value : Json} (canonicalValue : Canonical value) :
    canonical value = value := by
  induction canonicalValue with
  | @arr items each ih =>
      have same : canonicalItems items = items := by
        rw [canonicalItems_eq]
        exact (List.map_congr_left ih).trans (List.map_id _)
      rw [canonical, same]
  | @obj entries sorted each ih =>
      have same : canonicalEntries entries = entries := by
        rw [canonicalEntries_eq]
        have kept : ∀ entry ∈ entries, (entry.1, canonical entry.2) = entry := by
          intro entry member
          rw [ih entry member]
        exact (List.map_congr_left kept).trans (List.map_id _)
      rw [canonical, same, ordered_of_sorted sorted]
  | _ => rfl

mutual

theorem canonical_canonical : ∀ value, Canonical (canonical value)
  | .null => .null
  | .bool value => .bool value
  | .int value => .int value
  | .float value => .float value
  | .nan => .nan
  | .infinity negative => .infinity negative
  | .str text => .str text
  | .arr items => by
      rw [canonical]
      exact .arr (canonicalItems_canonical items)
  | .obj entries => by
      rw [canonical]
      refine .obj (ordered (canonicalEntries entries)).sorted fun entry member => ?_
      exact canonicalEntries_canonical entries entry (mem_of_mem_ordered member)

theorem canonicalItems_canonical : ∀ items, ∀ item ∈ canonicalItems items, Canonical item
  | [] => by simp [canonicalItems]
  | item :: items => by
      rw [canonicalItems]
      exact List.forall_mem_cons.mpr ⟨canonical_canonical item, canonicalItems_canonical items⟩

theorem canonicalEntries_canonical :
    ∀ entries, ∀ entry ∈ canonicalEntries entries, Canonical entry.2
  | [] => by simp [canonicalEntries]
  | (key, value) :: entries => by
      rw [canonicalEntries]
      exact List.forall_mem_cons.mpr
        ⟨canonical_canonical value, canonicalEntries_canonical entries⟩

end

/-! What is written -/

/-- How a text is laid out: the blanks before an item and before what closes a list or a
dictionary at a level, and those behind a comma and behind a colon. -/
structure Style where
  newline : Nat → List Char
  comma : List Char
  colon : List Char
  /-- `float.__repr__`. -/
  float : ℚ → List Char
  newline_blank : ∀ level, ∀ c ∈ newline level, isBlank c = true
  comma_blank : ∀ c ∈ comma, isBlank c = true
  colon_blank : ∀ c ∈ colon, isBlank c = true

/-- `separators=(",", ":")`. -/
def Style.compact (float : ℚ → List Char) : Style where
  newline _ := []
  comma := []
  colon := []
  float := float
  newline_blank := by simp
  comma_blank := by simp
  colon_blank := by simp

/-- `indent=width`. -/
def Style.indented (width : Nat) (float : ℚ → List Char) : Style where
  newline level := '\n' :: List.replicate (width * level) ' '
  comma := []
  colon := [' ']
  float := float
  newline_blank level c member := by
    rcases List.mem_cons.mp member with rfl | space
    · rfl
    · rw [List.eq_of_mem_replicate space]
      rfl
  comma_blank := by simp
  colon_blank := by simp [isBlank]

def hexChar (digit : Nat) : Char := Nat.digitChar digit

/-- `'\\u{0:04x}'.format(unit)`. -/
def unicodeEscape (unit : Nat) : List Char :=
  ['\\', 'u', hexChar (unit / 4096), hexChar (unit / 256 % 16), hexChar (unit / 16 % 16),
    hexChar (unit % 16)]

def units (code : Nat) : List Nat :=
  if code < 0x10000 then [code]
  else [0xd800 + (code - 0x10000) / 1024, 0xdc00 + (code - 0x10000) % 1024]

def escape (code : Nat) : List Char :=
  if code = 34 then ['\\', '"']
  else if code = 92 then ['\\', '\\']
  else if code = 10 then ['\\', 'n']
  else if code = 13 then ['\\', 'r']
  else if code = 9 then ['\\', 't']
  else if code = 12 then ['\\', 'f']
  else if code = 8 then ['\\', 'b']
  else if 32 ≤ code ∧ code ≤ 126 then [Char.ofNat code]
  else (units code).flatMap unicodeEscape

def quoted (text : List Nat) : List Char := '"' :: (text.flatMap escape ++ ['"'])

def intText (value : Int) : List Char :=
  if value < 0 then '-' :: Nat.toDigits 10 value.natAbs else Nat.toDigits 10 value.natAbs

section

variable (style : Style)

mutual

def shown (level : Nat) : Json → List Char
  | .null => ['n', 'u', 'l', 'l']
  | .bool true => ['t', 'r', 'u', 'e']
  | .bool false => ['f', 'a', 'l', 's', 'e']
  | .int value => intText value
  | .float value => style.float value
  | .nan => ['N', 'a', 'N']
  | .infinity false => ['I', 'n', 'f', 'i', 'n', 'i', 't', 'y']
  | .infinity true => ['-', 'I', 'n', 'f', 'i', 'n', 'i', 't', 'y']
  | .str text => quoted text
  | .arr [] => ['[', ']']
  | .arr (item :: items) =>
      '[' :: (style.newline (level + 1) ++ shown (level + 1) item ++ shownItems level items)
  | .obj [] => ['\x7b', '\x7d']
  | .obj ((key, value) :: entries) =>
      '\x7b' :: (style.newline (level + 1) ++
        (quoted key ++ ':' :: (style.colon ++ shown (level + 1) value)) ++
        shownEntries level entries)

def shownItems (level : Nat) : List Json → List Char
  | [] => style.newline level ++ [']']
  | item :: items =>
      ',' :: (style.comma ++ style.newline (level + 1) ++ shown (level + 1) item ++
        shownItems level items)

def shownEntries (level : Nat) : List (List Nat × Json) → List Char
  | [] => style.newline level ++ ['\x7d']
  | (key, value) :: entries =>
      ',' :: (style.comma ++ style.newline (level + 1) ++
        (quoted key ++ ':' :: (style.colon ++ shown (level + 1) value)) ++
        shownEntries level entries)

end

/-- `json.dumps(value, sort_keys=True)` in a style. -/
def dumps (value : Json) : List Char := shown style 0 (canonical value)

end

/-! Strings are read back -/

/-- No two surrogates stand together that `json.loads` would join. -/
def Whole (text : List Nat) : Prop :=
  (∀ code ∈ text, code < 0x110000) ∧
    text.IsChain fun first next => ¬ (isHighSurrogate first = true ∧ isLowSurrogate next = true)

theorem whole_codes (text : List Char) : Whole (codes text) := by
  constructor
  · intro code member
    rcases List.mem_map.mp member with ⟨c, -, rfl⟩
    rcases c.valid with low | high
    · have : c.toNat < 0xd800 := low
      omega
    · exact high.2
  · induction text with
    | nil => exact List.isChain_nil
    | cons c text ih =>
        refine List.isChain_cons.mpr ⟨fun next _ both => ?_, ih⟩
        rw [isHighSurrogate_toNat] at both
        exact absurd both.1 (by decide)

theorem hexValue_digitChar : ∀ digit < 16, hexValue (Nat.digitChar digit) = some digit := by decide

theorem scanUnits_unicodeEscape {unit : Nat} (small : unit < 0x10000) (rest : List Char) :
    scanUnits (unicodeEscape unit ++ rest) = (scanUnits rest).map (prepend unit) := by
  have read : hexUnit (hexChar (unit / 4096)) (hexChar (unit / 256 % 16))
      (hexChar (unit / 16 % 16)) (hexChar (unit % 16)) = some unit := by
    simp only [hexUnit, hexChar, hexValue_digitChar (unit / 4096) (by omega),
      hexValue_digitChar _ (Nat.mod_lt _ (by decide)), Option.bind_eq_bind, Option.bind_some]
    exact congrArg some (by omega)
  rw [unicodeEscape, scanUnits.eq_def]
  simp [read]

theorem units_lt {code : Nat} (valid : code < 0x110000) : ∀ unit ∈ units code, unit < 0x10000 := by
  intro unit member
  rw [units] at member
  split at member
  · simp only [List.mem_singleton] at member
    omega
  · simp only [List.mem_cons, List.not_mem_nil, or_false] at member
    omega

theorem scanUnits_units {codes : List Nat} (small : ∀ unit ∈ codes, unit < 0x10000)
    (rest : List Char) :
    scanUnits (codes.flatMap unicodeEscape ++ rest) =
      (scanUnits rest).map fun scanned => (codes ++ scanned.1, scanned.2) := by
  induction codes with
  | nil => simp
  | cons unit codes ih =>
      rcases List.forall_mem_cons.mp small with ⟨first, others⟩
      rw [List.flatMap_cons, List.append_assoc, scanUnits_unicodeEscape first, ih others,
        Option.map_map]
      rfl

theorem scanUnits_escape {code : Nat} (valid : code < 0x110000) (rest : List Char) :
    scanUnits (escape code ++ rest) =
      (scanUnits rest).map fun scanned => (units code ++ scanned.1, scanned.2) := by
  by_cases short : code ∈ [34, 92, 10, 13, 9, 12, 8]
  · simp only [List.mem_cons, List.not_mem_nil, or_false] at short
    rcases short with rfl | rfl | rfl | rfl | rfl | rfl | rfl <;>
      simp [escape, units, scanUnits, simpleEscape] <;> rfl
  · simp only [List.mem_cons, List.not_mem_nil, or_false, not_or] at short
    simp only [escape, short, if_false]
    split
    case isTrue printable =>
      have same : (Char.ofNat code).toNat = code := by
        have valid : code.isValidChar := Or.inl (by omega)
        rw [Char.ofNat, dif_pos valid]
        rfl
      have plain : Plain (Char.ofNat code) := by
        refine ⟨fun quote => ?_, fun slash => ?_, by omega⟩
        · rw [quote] at same
          exact short.1 same.symm
        · rw [slash] at same
          exact short.2.1 same.symm
      rw [List.singleton_append, scanUnits_plain plain, same, units, if_pos (by omega)]
      rfl
    case isFalse => exact scanUnits_units (units_lt valid) rest

theorem joinSurrogates_cons {first : Nat} {rest : List Nat}
    (apart : ∀ next ∈ rest.head?, ¬ (isHighSurrogate first = true ∧ isLowSurrogate next = true)) :
    joinSurrogates (first :: rest) = first :: joinSurrogates rest := by
  cases rest with
  | nil => rfl
  | cons next rest =>
      have no := apart next rfl
      rw [joinSurrogates, if_neg (by simpa using no)]

theorem head?_units_low {code unit : Nat} (valid : code < 0x110000)
    (head : unit ∈ (units code).head?) (low : isLowSurrogate unit = true) : unit = code := by
  simp only [isLowSurrogate, Bool.and_eq_true, decide_eq_true_eq] at low
  rw [units] at head
  split at head
  · exact (Option.some.inj head).symm
  · have same : 0xd800 + (code - 0x10000) / 1024 = unit := Option.some.inj head
    omega

theorem head?_units (code : Nat) (rest : List Nat) :
    (units code ++ rest).head? = (units code).head? := by
  rw [units]
  split <;> rfl

theorem joinSurrogates_units {text : List Nat} (whole : Whole text) :
    joinSurrogates (text.flatMap units) = text := by
  rcases whole with ⟨valid, apart⟩
  induction text with
  | nil => rfl
  | cons code text ih =>
      rcases List.forall_mem_cons.mp valid with ⟨first, others⟩
      rcases List.isChain_cons.mp apart with ⟨next, chain⟩
      have later := ih others chain
      rw [List.flatMap_cons, units]
      split
      case isTrue small =>
        rw [List.singleton_append, joinSurrogates_cons, later]
        intro unit head both
        cases text with
        | nil => cases head
        | cons second text =>
            rw [List.flatMap_cons, head?_units] at head
            have same := head?_units_low (others second List.mem_cons_self) head both.2
            exact next second rfl (same ▸ both)
      case isFalse large =>
        have high : isHighSurrogate (0xd800 + (code - 0x10000) / 1024) = true := by
          simp only [isHighSurrogate, Bool.and_eq_true, decide_eq_true_eq]
          omega
        have low : isLowSurrogate (0xdc00 + (code - 0x10000) % 1024) = true := by
          simp only [isLowSurrogate, Bool.and_eq_true, decide_eq_true_eq]
          omega
        rw [List.cons_append, List.singleton_append, joinSurrogates, high, low, later]
        simp only [Bool.and_self, if_true, List.cons.injEq, and_true]
        omega

theorem scanUnits_text {text : List Nat} (valid : ∀ code ∈ text, code < 0x110000)
    (rest : List Char) :
    scanUnits (text.flatMap escape ++ '"' :: rest) = some (text.flatMap units, rest) := by
  induction text with
  | nil =>
      rw [scanUnits.eq_def]
      rfl
  | cons code text ih =>
      rcases List.forall_mem_cons.mp valid with ⟨first, others⟩
      rw [List.flatMap_cons, List.append_assoc, scanUnits_escape first, ih others]
      rfl

theorem scanString_quoted {text : List Nat} (whole : Whole text) (rest : List Char) :
    scanString (text.flatMap escape ++ '"' :: rest) = some (text, rest) := by
  rw [scanString, scanUnits_text whole.1, Option.map_some, joinSurrogates_units whole]

/-! Numbers are read back -/

def Closes (text : List Char) : Prop :=
  ∀ c ∈ text.head?, c.isDigit = false ∧ c ≠ '.' ∧ c ≠ 'e' ∧ c ≠ 'E'

theorem scanInteger_digits (n : Nat) {rest : List Char} (closes : Closes rest) :
    scanInteger (Nat.toDigits 10 n ++ rest) = some (Nat.toDigits 10 n, rest) := by
  cases rest with
  | cons c rest => exact scanInteger_toDigits n ⟨c, rest, rfl, closes c rfl⟩
  | nil =>
      rcases toDigits_head n with ⟨c, others, digits, isDigit, zero⟩
      have allDigits : ∀ d ∈ Nat.toDigits 10 n, d.isDigit = true := fun d member =>
        Nat.isDigit_of_mem_toDigits (by omega) (by omega) member
      have taken := List.takeWhile_eq_self_iff.mpr allDigits
      have dropped := List.dropWhile_eq_nil_iff.mpr allDigits
      rw [List.append_nil, scanInteger.eq_def]
      by_cases isZero : c = '0'
      · rw [digits, (zero isZero).2]
        simp [isZero]
      · rw [digits] at taken dropped ⊢
        simp only [if_neg isZero, if_pos isDigit, taken, dropped]

theorem scanUnsigned_digits (negative : Bool) (n : Nat) {rest : List Char}
    (closes : Closes rest) :
    scanUnsigned negative (Nat.toDigits 10 n ++ rest) =
      some (.int ((if negative then -1 else 1) * n), rest) := by
  have noFraction : scanFraction rest = ([], rest) := by
    cases rest with
    | nil => rfl
    | cons c rest =>
        rw [scanFraction.eq_def]
        split
        · rename_i point
          exact absurd (List.cons.inj point).1 (closes c rfl).2.1
        · rfl
  have noExponent : scanExponent rest = (none, rest) := by
    cases rest with
    | nil => rfl
    | cons c rest =>
        rw [scanExponent.eq_def]
        simp only [(closes c rfl).2.2.1, (closes c rfl).2.2.2, or_self, if_false]
  rw [scanUnsigned, scanInteger_digits n closes, Option.map_some]
  simp [noFraction, noExponent]

theorem value_intText (fuel : Nat) (n : Int) {rest : List Char} (closes : Closes rest) :
    value (fuel + 1) (intText n ++ rest) = some (.int n, rest) := by
  rcases toDigits_head n.natAbs with ⟨c, others, digits, isDigit, -⟩
  rw [intText]
  split
  case isTrue negative =>
    have signed : (if true = true then -1 else 1) * (n.natAbs : Int) = n := by
      rw [if_pos rfl]
      omega
    have scanned := scanUnsigned_digits true n.natAbs closes
    have noWord : scanWord ('-' :: (Nat.toDigits 10 n.natAbs ++ rest)) = none := by
      have other : c ≠ 'I' := ne_of_isDigit isDigit (by decide)
      rw [digits]
      simp [scanWord, literal, Ne.symm other]
    rw [List.cons_append, value.eq_def]
    have noDigit : '-'.isDigit = false := by decide
    rw [signed] at scanned
    simp only [Char.reduceEq, if_false, if_true, noDigit, Bool.false_eq_true, noWord,
      Option.none_or]
    exact scanned
  case isFalse positive =>
    have scanned := scanUnsigned_digits false n.natAbs closes
    have noQuote : c ≠ '"' := ne_of_isDigit isDigit (by decide)
    have noBrace : c ≠ '\x7b' := ne_of_isDigit isDigit (by decide)
    have noBracket : c ≠ '[' := ne_of_isDigit isDigit (by decide)
    have signed : (if false = true then -1 else 1) * (n.natAbs : Int) = n := by
      rw [if_neg (by decide)]
      omega
    rw [digits, List.cons_append] at scanned ⊢
    rw [signed] at scanned
    rw [value.eq_def]
    simp only [if_neg noQuote, if_neg noBrace, if_neg noBracket, if_pos isDigit]
    exact scanned

/-! Documents are read back -/

/-- A value that can be written: its numbers are read back, and so are its texts. -/
inductive Printable (style : Style) : Json → Prop where
  | null : Printable style .null
  | bool (value : Bool) : Printable style (.bool value)
  | int (value : Int) : Printable style (.int value)
  | float {value : ℚ} (reads : ∀ fuel rest, Closes rest →
      Json.value (fuel + 1) (style.float value ++ rest) = some (.float value, rest)) :
      Printable style (.float value)
  | nan : Printable style .nan
  | infinity (negative : Bool) : Printable style (.infinity negative)
  | str {text : List Nat} (whole : Whole text) : Printable style (.str text)
  | arr {items : List Json} (each : ∀ item ∈ items, Printable style item) :
      Printable style (.arr items)
  | obj {entries : List (List Nat × Json)} (keys : ∀ entry ∈ entries, Whole entry.1)
      (each : ∀ entry ∈ entries, Printable style entry.2) : Printable style (.obj entries)

theorem printable_canonical {style : Style} {value : Json} (printable : Printable style value) :
    Printable style (canonical value) := by
  induction printable with
  | arr each ih =>
      rw [canonical, canonicalItems_eq]
      exact .arr (List.forall_mem_map.mpr ih)
  | obj keys each ih =>
      rw [canonical]
      refine .obj (fun entry member => ?_) fun entry member => ?_
      · have among := mem_of_mem_ordered member
        rw [canonicalEntries_eq] at among
        rcases List.mem_map.mp among with ⟨original, held, rfl⟩
        exact keys original held
      · have among := mem_of_mem_ordered member
        rw [canonicalEntries_eq] at among
        rcases List.mem_map.mp among with ⟨original, held, rfl⟩
        exact ih original held
  | null => exact .null
  | bool value => exact .bool value
  | int value => exact .int value
  | float reads => exact .float reads
  | nan => exact .nan
  | infinity negative => exact .infinity negative
  | str whole => exact .str whole

def Opens (text : List Char) : Prop :=
  ∃ c rest, text = c :: rest ∧ c ∉ [' ', '\t', '\n', '\r', ']', '\ufeff']

theorem opens_of_value {fuel : Nat} {text : List Char} {found : Json × List Char}
    (read : value fuel text = some found) : Opens text := by
  cases fuel with
  | zero => cases read
  | succ fuel =>
      cases text with
      | nil => cases read
      | cons c rest =>
          refine ⟨c, rest, rfl, fun member => ?_⟩
          simp only [List.mem_cons, List.not_mem_nil, or_false] at member
          rw [value.eq_def] at read
          rcases member with rfl | rfl | rfl | rfl | rfl | rfl <;>
            simp [scanWord, literal] at read

theorem mem_of_isBlank {c : Char} (blank : isBlank c = true) : c ∈ [' ', '\t', '\n', '\r'] := by
  simp only [isBlank, Bool.or_eq_true, decide_eq_true_eq] at blank
  simp only [List.mem_cons, List.not_mem_nil, or_false]
  tauto

theorem skipBlanks_gap {gap text : List Char} (blank : ∀ c ∈ gap, isBlank c = true) :
    skipBlanks (gap ++ text) = skipBlanks text := List.dropWhile_append_of_pos blank

theorem Opens.skipBlanks {text : List Char} (opens : Opens text) : skipBlanks text = text := by
  rcases opens with ⟨c, rest, rfl, visible⟩
  apply skipBlanks_of_not_blank
  rw [Bool.eq_false_iff]
  intro blank
  have among := mem_of_isBlank blank
  simp only [List.mem_cons, List.not_mem_nil, or_false] at among visible
  tauto

theorem not_number_of_blank {c : Char} (blank : isBlank c = true) :
    c.isDigit = false ∧ c ≠ '.' ∧ c ≠ 'e' ∧ c ≠ 'E' := by
  have among := mem_of_isBlank blank
  simp only [List.mem_cons, List.not_mem_nil, or_false] at among
  rcases among with rfl | rfl | rfl | rfl <;> decide

theorem closes_gap {gap rest : List Char} {c : Char} (blank : ∀ c ∈ gap, isBlank c = true)
    (closes : Closes (c :: rest)) : Closes (gap ++ c :: rest) := by
  cases gap with
  | nil => exact closes
  | cons d gap =>
      intro head same
      cases same
      exact not_number_of_blank (blank d List.mem_cons_self)

/-! One step of the reader on what is laid out -/

section Layout

variable {fuel : Nat} {key : List Nat} {first : Json} {gap text rest more : List Char}

theorem value_list {found : List Json × List Char} (blank : ∀ c ∈ gap, isBlank c = true)
    (opens : Opens text) (read : items fuel text = some found) :
    value (fuel + 1) ('[' :: (gap ++ text)) = some (.arr found.1, found.2) := by
  rw [value.eq_def]
  simp only [Char.reduceEq, if_false, if_true, skipBlanks_gap blank, opens.skipBlanks]
  rcases opens with ⟨c, others, rfl, visible⟩
  split
  case h_1 closed =>
    rw [(List.cons.inj closed).1] at visible
    exact absurd (by decide) visible
  case h_2 =>
    rw [read]
    rfl

theorem value_dict {found : List (List Nat × Json) × List Char}
    (blank : ∀ c ∈ gap, isBlank c = true) (read : entries fuel ('"' :: text) = some found) :
    value (fuel + 1) ('\x7b' :: (gap ++ '"' :: text)) = some (.obj found.1, found.2) := by
  rw [value.eq_def]
  simp only [Char.reduceEq, if_false, if_true, skipBlanks_gap blank]
  rw [skipBlanks_of_not_blank (by decide)]
  split
  case h_1 closed => exact absurd (List.cons.inj closed).1 (by decide)
  case h_2 =>
    rw [read]
    rfl

theorem items_close (blank : ∀ c ∈ gap, isBlank c = true)
    (read : value fuel text = some (first, gap ++ ']' :: rest)) :
    items (fuel + 1) text = some ([first], rest) := by
  rw [items.eq_def]
  simp only [read, Option.bind_some, skipBlanks_gap blank]
  rw [skipBlanks_of_not_blank (by decide)]
  rfl

theorem items_comma {others : List Json} (blank : ∀ c ∈ gap, isBlank c = true)
    (read : value fuel text = some (first, ',' :: (gap ++ more))) (opens : Opens more)
    (later : items fuel more = some (others, rest)) :
    items (fuel + 1) text = some (first :: others, rest) := by
  rw [items.eq_def]
  simp only [read, Option.bind_some]
  rw [skipBlanks_of_not_blank (by decide)]
  simp only [skipBlanks_gap blank, opens.skipBlanks, later, Option.map_some]

theorem entries_close {after : List Char} (whole : Whole key)
    (blank : ∀ c ∈ gap, isBlank c = true) (closing : ∀ c ∈ after, isBlank c = true)
    (opens : Opens text) (read : value fuel text = some (first, after ++ '\x7d' :: rest)) :
    entries (fuel + 1) (quoted key ++ ':' :: (gap ++ text)) = some ([(key, first)], rest) := by
  rw [quoted, List.cons_append, List.append_assoc, List.singleton_append, entries.eq_def]
  simp only [scanString_quoted whole, Option.bind_some]
  rw [skipBlanks_of_not_blank (by decide)]
  simp only [skipBlanks_gap blank, opens.skipBlanks, read, Option.bind_some,
    skipBlanks_gap closing]
  rw [skipBlanks_of_not_blank (by decide)]
  rfl

theorem entries_comma {after : List Char} {others : List (List Nat × Json)} (whole : Whole key)
    (blank : ∀ c ∈ gap, isBlank c = true) (between : ∀ c ∈ after, isBlank c = true)
    (opens : Opens text) (read : value fuel text = some (first, ',' :: (after ++ '"' :: more)))
    (later : entries fuel ('"' :: more) = some (others, rest)) :
    entries (fuel + 1) (quoted key ++ ':' :: (gap ++ text)) =
      some ((key, first) :: others, rest) := by
  rw [quoted, List.cons_append, List.append_assoc, List.singleton_append, entries.eq_def]
  simp only [scanString_quoted whole, Option.bind_some]
  rw [skipBlanks_of_not_blank (by decide)]
  simp only [skipBlanks_gap blank, opens.skipBlanks, read, Option.bind_some]
  rw [skipBlanks_of_not_blank (by decide)]
  simp only [skipBlanks_gap between]
  rw [skipBlanks_of_not_blank (by decide)]
  simp only [later, Option.map_some]

end Layout

section Documents

variable {style : Style}

theorem closes_shownItems (style : Style) (level : Nat) (items : List Json) (rest : List Char) :
    Closes (shownItems style level items ++ rest) := by
  cases items with
  | nil =>
      rw [shownItems, List.append_assoc]
      apply closes_gap (style.newline_blank level)
      intro c same
      cases same
      decide
  | cons item items =>
      intro c same
      cases same
      decide

theorem closes_shownEntries (style : Style) (level : Nat) (entries : List (List Nat × Json))
    (rest : List Char) :
    Closes (shownEntries style level entries ++ rest) := by
  cases entries with
  | nil =>
      rw [shownEntries, List.append_assoc]
      apply closes_gap (style.newline_blank level)
      intro c same
      cases same
      decide
  | cons entry entries =>
      intro c same
      cases same
      decide

/-- The reader with some fuel reads back what is no longer than it. -/
structure Reads (style : Style) (fuel : Nat) : Prop where
  value : ∀ {found : Json}, Printable style found → ∀ level {rest : List Char}, Closes rest →
    (shown style level found).length ≤ fuel →
    value fuel (shown style level found ++ rest) = some (found, rest)
  items : ∀ {first : Json} {others : List Json}, (∀ item ∈ first :: others, Printable style item) →
    ∀ level (rest : List Char),
    (shown style (level + 1) first ++ shownItems style level others).length ≤ fuel →
    items fuel (shown style (level + 1) first ++ (shownItems style level others ++ rest)) =
      some (first :: others, rest)
  entries : ∀ {key : List Nat} {first : Json} {others : List (List Nat × Json)},
    (∀ entry ∈ (key, first) :: others, Whole entry.1 ∧ Printable style entry.2) →
    ∀ level (rest : List Char),
    (quoted key ++ ':' :: (style.colon ++ shown style (level + 1) first) ++
      shownEntries style level others).length ≤ fuel →
    entries fuel (quoted key ++ ':' :: (style.colon ++ shown style (level + 1) first) ++
      (shownEntries style level others ++ rest)) = some ((key, first) :: others, rest)

theorem shown_ne_nil {found : Json} (printable : Printable style found) (level : Nat) :
    shown style level found ≠ [] := by
  cases printable with
  | int value =>
      rw [shown, intText]
      split
      · exact List.cons_ne_nil _ _
      · exact Nat.toDigits_ne_nil
  | float reads =>
      intro none
      have read := reads 0 [] (by simp [Closes])
      rw [shown] at none
      rw [none] at read
      cases read
  | bool value => cases value <;> exact List.cons_ne_nil _ _
  | infinity negative => cases negative <;> exact List.cons_ne_nil _ _
  | @arr items each => cases items <;> exact List.cons_ne_nil _ _
  | @obj entries keys each => cases entries <;> exact List.cons_ne_nil _ _
  | null => exact List.cons_ne_nil _ _
  | nan => exact List.cons_ne_nil _ _
  | str whole => exact List.cons_ne_nil _ _

theorem length_shownItems (style : Style) (level : Nat) (items : List Json) :
    0 < (shownItems style level items).length := by
  cases items <;> simp [shownItems]

theorem length_shownEntries (style : Style) (level : Nat) (entries : List (List Nat × Json)) :
    0 < (shownEntries style level entries).length := by
  cases entries <;> simp [shownEntries]

theorem reads_zero : Reads style 0 where
  value := by
    intro found printable level rest _ short
    exact absurd (List.length_eq_zero_iff.mp (Nat.le_zero.mp short)) (shown_ne_nil printable level)
  items := by
    intro first others _ level rest short
    have filled := length_shownItems style level others
    rw [List.length_append] at short
    omega
  entries := by
    intro key first others _ level rest short
    have filled := length_shownEntries style level others
    rw [List.length_append] at short
    omega

variable {fuel : Nat}

theorem Reads.value_succ (reads : Reads style fuel) {found : Json}
    (printable : Printable style found) (level : Nat) {rest : List Char} (closes : Closes rest)
    (short : (shown style level found).length ≤ fuel + 1) :
    Json.value (fuel + 1) (shown style level found ++ rest) = some (found, rest) := by
  cases printable with
  | null =>
      rw [shown, value.eq_def]
      rfl
  | bool value =>
      cases value <;>
      · rw [shown, value.eq_def]
        rfl
  | int value => exact value_intText fuel value closes
  | float read => exact read fuel rest closes
  | nan =>
      rw [shown, value.eq_def]
      rfl
  | infinity negative =>
      cases negative <;>
      · rw [shown, value.eq_def]
        rfl
  | @str text whole =>
      rw [shown, quoted, List.cons_append, List.append_assoc, List.singleton_append, value.eq_def]
      simp only [if_true, scanString_quoted whole, Option.map_some]
  | @arr items each =>
      cases items with
      | nil =>
          rw [shown, value.eq_def]
          rfl
      | cons first others =>
          rw [shown] at short ⊢
          simp only [List.length_cons, List.length_append] at short
          have filled := length_shownItems style level others
          have read := reads.items each level rest (by rw [List.length_append]; omega)
          have opens := opens_of_value (reads.value (each first List.mem_cons_self) (level + 1)
            (closes_shownItems style level others rest) (by omega))
          rw [List.cons_append, List.append_assoc, List.append_assoc]
          exact value_list (style.newline_blank (level + 1)) opens read
  | @obj entries keys each =>
      cases entries with
      | nil =>
          rw [shown, value.eq_def]
          rfl
      | cons entry others =>
          rw [shown] at short ⊢
          simp only [List.length_cons, List.length_append] at short
          have both : ∀ other ∈ entry :: others, Whole other.1 ∧ Printable style other.2 :=
            fun other member => ⟨keys other member, each other member⟩
          have read := reads.entries both level rest (by
            simp only [List.length_cons, List.length_append]
            omega)
          rw [List.cons_append, List.append_assoc, List.append_assoc]
          exact value_dict (style.newline_blank (level + 1)) read

theorem Reads.items_succ (reads : Reads style fuel) {first : Json} {others : List Json}
    (each : ∀ item ∈ first :: others, Printable style item) (level : Nat) (rest : List Char)
    (short : (shown style (level + 1) first ++ shownItems style level others).length ≤ fuel + 1) :
    Json.items (fuel + 1)
        (shown style (level + 1) first ++ (shownItems style level others ++ rest)) =
      some (first :: others, rest) := by
  have filled := length_shownItems style level others
  rw [List.length_append] at short
  have read := reads.value (each first List.mem_cons_self) (level + 1)
    (closes_shownItems style level others rest) (by omega)
  cases others with
  | nil =>
      rw [shownItems, List.append_assoc] at read ⊢
      exact items_close (style.newline_blank level) read
  | cons second others =>
      have later := (List.forall_mem_cons.mp each).2
      have blank : ∀ c ∈ style.comma ++ style.newline (level + 1), isBlank c = true :=
        List.forall_mem_append.mpr ⟨style.comma_blank, style.newline_blank (level + 1)⟩
      have last := length_shownItems style level others
      rw [shownItems] at read short ⊢
      simp only [List.length_cons, List.length_append] at short
      have after := reads.items later level rest (by rw [List.length_append]; omega)
      have opens := opens_of_value (reads.value (later second List.mem_cons_self) (level + 1)
        (closes_shownItems style level others rest) (by omega))
      rw [List.cons_append, List.append_assoc, List.append_assoc] at read ⊢
      exact items_comma blank read opens after

theorem Reads.entries_succ (reads : Reads style fuel) {key : List Nat} {first : Json}
    {others : List (List Nat × Json)}
    (each : ∀ entry ∈ (key, first) :: others, Whole entry.1 ∧ Printable style entry.2)
    (level : Nat) (rest : List Char)
    (short : (quoted key ++ ':' :: (style.colon ++ shown style (level + 1) first) ++
      shownEntries style level others).length ≤ fuel + 1) :
    Json.entries (fuel + 1) (quoted key ++ ':' :: (style.colon ++ shown style (level + 1) first) ++
      (shownEntries style level others ++ rest)) = some ((key, first) :: others, rest) := by
  rcases List.forall_mem_cons.mp each with ⟨⟨whole, printable⟩, later⟩
  have filled := length_shownEntries style level others
  simp only [List.length_cons, List.length_append] at short
  have fits : (shown style (level + 1) first).length ≤ fuel := by omega
  have read := reads.value printable (level + 1) (closes_shownEntries style level others rest) fits
  have opens := opens_of_value read
  rw [List.append_assoc, List.cons_append, List.append_assoc]
  cases others with
  | nil =>
      rw [shownEntries, List.append_assoc] at read opens ⊢
      exact entries_close whole style.colon_blank (style.newline_blank level) opens read
  | cons entry others =>
      rcases entry with ⟨nextKey, second⟩
      have blank : ∀ c ∈ style.comma ++ style.newline (level + 1), isBlank c = true :=
        List.forall_mem_append.mpr ⟨style.comma_blank, style.newline_blank (level + 1)⟩
      rw [shownEntries] at read short opens ⊢
      simp only [List.length_cons, List.length_append] at short
      have after := reads.entries later level rest (by
        simp only [List.length_cons, List.length_append]
        omega)
      rw [List.cons_append, List.append_assoc, List.append_assoc] at read opens ⊢
      exact entries_comma whole style.colon_blank blank opens read after

theorem reads (style : Style) (fuel : Nat) : Reads style fuel := by
  induction fuel with
  | zero => exact reads_zero
  | succ fuel ih => exact ⟨ih.value_succ, ih.items_succ, ih.entries_succ⟩

/-- What `json.dumps` writes is read back by `json.loads` as the value with its keys in order,
whatever blanks follow it. -/
theorem loads_dumps {style : Style} {found : Json} (printable : Printable style found)
    {blanks : List Char} (blank : ∀ c ∈ blanks, isBlank c = true) :
    loads (dumps style found ++ blanks) = some (canonical found) := by
  have closes : Closes blanks := by
    cases blanks with
    | nil => simp [Closes]
    | cons c blanks =>
        intro head same
        cases same
        exact not_number_of_blank (blank c List.mem_cons_self)
  have read := (reads style ((dumps style found ++ blanks).length + 1)).value
    (printable_canonical printable) 0 closes (by
      rw [dumps, List.length_append]
      omega)
  have opens := opens_of_value read
  have start := opens.skipBlanks
  have noMark : ¬ (dumps style found ++ blanks).head? = some '\ufeff' := by
    rcases opens with ⟨c, rest, same, visible⟩
    rw [dumps, same]
    intro mark
    cases mark
    exact absurd (by decide) visible
  have ended : skipBlanks blanks = [] := List.dropWhile_eq_nil_iff.mpr blank
  rw [← dumps] at read start
  rw [loads, if_neg noMark, start, read, Option.bind_some]
  exact if_pos ended

end Documents

/-- A value as Python keeps it: each dictionary has its keys once. -/
structure Document where
  value : Json
  sorted : Canonical value

namespace Document

def of (value : Json) : Document := ⟨canonical value, canonical_canonical value⟩

def dumps (style : Style) (document : Document) : List Char := Json.dumps style document.value

def loads (text : List Char) : Option Document := (Json.loads text).map of

theorem of_value (document : Document) : of document.value = document := by
  cases document with
  | mk value sorted =>
      rw [of]
      congr
      exact canonical_eq sorted

theorem loads_dumps {style : Style} {document : Document}
    (printable : Printable style document.value) {blanks : List Char}
    (blank : ∀ c ∈ blanks, isBlank c = true) :
    loads (document.dumps style ++ blanks) = some document := by
  rw [loads, dumps, Json.loads_dumps printable blank, Option.map_some, canonical_eq document.sorted,
    of_value]

end Document

end Json
