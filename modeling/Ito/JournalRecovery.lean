import Ito.JournalFile
import Ito.Library.ByteLines
import Ito.Library.Machine

/-! Recovery of the journal file from whatever a torn write left behind. -/

namespace Ito

open Bytes

/-! The line of a record -/

def Printable (bytes : Bytes) : Prop := ∀ byte ∈ bytes, 0x20 ≤ byte.toNat

instance (bytes : Bytes) : Decidable (Printable bytes) :=
  List.decidableBAll (fun byte : UInt8 => 0x20 ≤ byte.toNat) bytes

theorem Printable.append {front rest : Bytes} (first : Printable front) (second : Printable rest) :
    Printable (front ++ rest) := by
  intro byte member
  rcases List.mem_append.mp member with inside | inside
  · exact first byte inside
  · exact second byte inside

theorem Printable.no_newline {bytes : Bytes} (printable : Printable bytes) :
    JournalFile.newline ∉ bytes := by
  intro member
  exact absurd (printable _ member) (by decide)

theorem printable_decimal (n : Nat) : Printable (decimal n) := by
  intro byte member
  have bounds := isDigit_bounds (isDigit_decimal n byte member)
  omega

theorem hexDigit_printable : ∀ n, n < 16 → Printable [hexDigit n] := by decide

theorem printable_escapeByte (byte : UInt8) : Printable (escapeByte byte) := by
  have control : byte < 0x20 →
      Printable (ofText "\\u00" ++ [hexDigit (byte.toNat / 16), hexDigit (byte.toNat % 16)]) := by
    intro control
    have small : byte.toNat < 32 := UInt8.lt_iff_toNat_lt.mp control
    have fixed : Printable (ofText "\\u00") := by decide
    exact fixed.append ((hexDigit_printable _ (by omega)).append (hexDigit_printable _ (by omega)))
  have large : ¬ byte < 0x20 → Printable [byte] := by
    intro large written member
    rw [List.mem_singleton.mp member]
    rw [UInt8.lt_iff_toNat_lt] at large
    exact Nat.not_lt.mp large
  rw [escapeByte]
  refine iteInduction (motive := Printable) (fun _ => by decide) fun _ => ?_
  refine iteInduction (motive := Printable) (fun _ => by decide) fun _ => ?_
  refine iteInduction (motive := Printable) (fun _ => by decide) fun _ => ?_
  refine iteInduction (motive := Printable) (fun _ => by decide) fun _ => ?_
  refine iteInduction (motive := Printable) (fun _ => by decide) fun _ => ?_
  refine iteInduction (motive := Printable) (fun _ => by decide) fun _ => ?_
  refine iteInduction (motive := Printable) (fun _ => by decide) fun _ => ?_
  exact iteInduction (motive := Printable) control large

theorem printable_writeEscapedJson (value : Bytes) : Printable (writeEscapedJson value) := by
  intro written member
  rw [writeEscapedJson] at member
  split at member
  · rcases List.mem_flatMap.mp member with ⟨byte, _, inside⟩
    exact printable_escapeByte byte written inside
  · rename_i plain
    simp only [List.any_eq_true, not_exists, not_and] at plain
    have clean := plain written member
    simp only [needsEscape, Bool.or_eq_true, decide_eq_true_eq, not_or] at clean
    have large := clean.2
    rw [UInt8.lt_iff_toNat_lt] at large
    exact Nat.not_lt.mp large

namespace JournalRecord

variable (event : JournalRecord)

theorem printable_head : Printable event.head := by
  have first : Printable (ofText "\x7b\"event_id\":") := by decide
  have second : Printable (ofText ",\"sequence\":") := by decide
  exact (first.append (printable_decimal _)).append second

theorem printable_body : Printable event.body := by
  have first : Printable (ofText ",\"event_type\":") := by decide
  have second : Printable (ofText ",\"payload\":\"") := by decide
  have third : Printable (ofText "\"\x7d") := by decide
  exact (((first.append (printable_decimal _)).append second).append
    (printable_writeEscapedJson _)).append third

theorem printable_line : Printable event.line :=
  (event.printable_head.append (printable_decimal _)).append event.printable_body

theorem after_head (rest : Bytes) :
    after JournalFile.sequenceMarker (event.head ++ rest) = some rest := by
  have noQuote : (34 : UInt8) ∉ decimal event.eventId.toNat := by
    intro member
    have bounds := isDigit_bounds (isDigit_decimal _ _ member)
    exact absurd bounds.1 (by decide)
  have marker : JournalFile.sequenceMarker = 34 :: ofText "sequence\":" := by decide
  have front : ∀ text, after JournalFile.sequenceMarker (ofText "\x7b\"event_id\":" ++ text) =
      after JournalFile.sequenceMarker text := by
    intro text
    rfl
  have comma : ofText ",\"sequence\":" = 44 :: JournalFile.sequenceMarker := by decide
  have skip : after JournalFile.sequenceMarker (ofText ",\"sequence\":" ++ rest) =
      after JournalFile.sequenceMarker (JournalFile.sequenceMarker ++ rest) := by
    rw [comma, List.cons_append, marker]
    exact after_cons_ne (by decide) _ _
  rw [head, List.append_assoc, List.append_assoc, front, marker,
    after_append_of_not_mem noQuote, ← marker, skip]
  exact after_self (by decide) rest

theorem after_front_of_head {front : Bytes} (torn : front <+: event.head) :
    after JournalFile.sequenceMarker front = none ∨
      after JournalFile.sequenceMarker front = some [] := by
  cases found : after JournalFile.sequenceMarker front with
  | none => exact Or.inl rfl
  | some digits =>
      right
      rcases torn with ⟨rest, whole⟩
      have here := after_append_of_some found rest
      have there := event.after_head []
      rw [List.append_nil] at there
      rw [whole, there, Option.some.injEq] at here
      rw [(List.append_eq_nil_iff.mp here.symm).1]

end JournalRecord

namespace JournalFile

def readSequence (line : Bytes) : Option UInt64 := (after sequenceMarker line).bind stoull

def completeLines (content : Bytes) : List Bytes := (finished newline content).1

def tornLine (content : Bytes) : Bytes := (finished newline content).2

theorem readSequence_line (event : JournalRecord) :
    readSequence event.line = some event.sequence := by
  have stops : ∀ byte ∈ event.body.head?, isDigit byte = false := by
    intro byte first
    have comma : event.body.head? = some 44 := rfl
    rw [comma, Option.mem_some_iff] at first
    rw [← first]
    decide
  rw [readSequence, JournalRecord.line, List.append_assoc, event.after_head, Option.bind_some,
    stoull_decimal event.sequence.toNat_lt stops, UInt64.ofNat_toNat]

theorem readSequence_glued {tail : Bytes} (absent : after sequenceMarker tail = none)
    (event : JournalRecord) : readSequence (tail ++ event.line) = some event.sequence := by
  have foreign : (123 : UInt8) ∉ sequenceMarker := by decide
  have own := readSequence_line event
  rw [readSequence] at own ⊢
  have starts : ∃ rest, event.line = 123 :: rest := ⟨_, rfl⟩
  rcases starts with ⟨rest, starts⟩
  rw [starts] at own ⊢
  rw [after_append_foreign foreign absent, own]

theorem scanLines_readable (file : JournalFile) {lines : List Bytes} {sequences : List UInt64}
    (readable : lines.map readSequence = sequences.map some) (rest : List Bytes) :
    scanLines file (lines ++ rest) =
      scanLines { file with lastSequence := sequences.getLastD file.lastSequence } rest := by
  induction lines generalizing file sequences with
  | nil =>
      rw [List.map_nil, eq_comm, List.map_eq_nil_iff] at readable
      rw [readable]
      rfl
  | cons line lines ih =>
      cases sequences with
      | nil => simp at readable
      | cons sequence sequences =>
          simp only [List.map_cons, List.cons.injEq] at readable
          rcases readable with ⟨first, others⟩
          rcases Option.bind_eq_some_iff.mp first with ⟨digits, found, value⟩
          rw [List.cons_append, scanLines, found]
          simp only [value]
          rw [ih _ others, List.getLastD_cons]

theorem scanLines_content (file : JournalFile) (lines : List Bytes) :
    (file.scanLines lines).content = file.content := by
  induction lines generalizing file with
  | nil => rfl
  | cons line lines ih =>
      rw [scanLines]
      split
      · exact ih file
      · split
        · exact ih _
        · rfl

theorem create_lines {lines : List Bytes} {sequences : List UInt64} {tail : Bytes}
    (clean : ∀ line ∈ lines, newline ∉ line) (cleanTail : newline ∉ tail)
    (readable : lines.map readSequence = sequences.map some) :
    create (lines.flatMap (· ++ [newline]) ++ tail) =
      match after sequenceMarker tail with
      | none =>
          { content := lines.flatMap (· ++ [newline]) ++ tail
            lastSequence := sequences.getLastD 0 }
      | some digits =>
          match stoull digits with
          | some sequence =>
              { content := lines.flatMap (· ++ [newline]) ++ tail, lastSequence := sequence }
          | none =>
              { content := lines.flatMap (· ++ [newline]) ++ tail
                good := false
                lastSequence := sequences.getLastD 0 } := by
  rw [create, pieces_eq, finished_lines clean cleanTail, scanLines_readable _ readable]
  by_cases empty : tail = []
  · rw [if_pos empty, empty]
    rfl
  · rw [if_neg empty, scanLines]
    rfl

theorem create_unread {lines : List Bytes} {sequences : List UInt64} {tail : Bytes}
    (clean : ∀ line ∈ lines, newline ∉ line) (cleanTail : newline ∉ tail)
    (readable : lines.map readSequence = sequences.map some) (unread : readSequence tail = none) :
    (create (lines.flatMap (· ++ [newline]) ++ tail)).good = false ∨
      after sequenceMarker tail = none ∧
        (create (lines.flatMap (· ++ [newline]) ++ tail)).lastSequence = sequences.getLastD 0 := by
  rw [create_lines clean cleanTail readable]
  rw [readSequence] at unread
  cases found : after sequenceMarker tail with
  | none => exact Or.inr ⟨rfl, rfl⟩
  | some digits =>
      rw [found, Option.bind_some] at unread
      simp only [unread]
      exact Or.inl trivial

theorem create_read {lines : List Bytes} {sequences : List UInt64} {tail : Bytes}
    {sequence : UInt64} (clean : ∀ line ∈ lines, newline ∉ line) (cleanTail : newline ∉ tail)
    (readable : lines.map readSequence = sequences.map some)
    (read : readSequence tail = some sequence) :
    (create (lines.flatMap (· ++ [newline]) ++ tail)).good = true ∧
      (create (lines.flatMap (· ++ [newline]) ++ tail)).lastSequence = sequence := by
  rcases Option.bind_eq_some_iff.mp read with ⟨digits, found, value⟩
  rw [create_lines clean cleanTail readable, found]
  simp only [value]
  exact ⟨trivial, trivial⟩

/-! One tear -/

theorem body_stops {event : JournalRecord} {rest : Bytes} (front : rest <+: event.body) :
    ∀ byte ∈ rest.head?, isDigit byte = false := by
  intro byte first
  rcases front with ⟨others, whole⟩
  have comma : event.body.head? = some 44 := rfl
  cases rest with
  | nil => simp at first
  | cons head tail =>
      rw [← whole, List.cons_append, List.head?_cons, Option.some.injEq] at comma
      rw [List.head?_cons, Option.mem_some_iff] at first
      rw [← first, comma]
      decide

theorem stoull_torn {event : JournalRecord} {torn : Bytes} (nonempty : torn ≠ [])
    (front : torn <+: decimal event.sequence.toNat ++ event.body) :
    ∃ sequence, stoull torn = some sequence ∧ sequence + 1 ≠ event.sequence := by
  have digits : ∃ digits rest, torn = digits ++ rest ∧ digits <+: decimal event.sequence.toNat ∧
      digits ≠ [] ∧ rest <+: event.body := by
    rcases Nat.le_total torn.length (decimal event.sequence.toNat).length with inside | beyond
    · have short := List.prefix_of_prefix_length_le front (List.prefix_append _ _) inside
      exact ⟨torn, [], by simp, short, nonempty, List.nil_prefix⟩
    · rcases List.prefix_of_prefix_length_le (List.prefix_append _ _) front beyond with ⟨rest, whole⟩
      rw [← whole, List.prefix_append_right_inj] at front
      exact ⟨_, rest, whole.symm, List.prefix_rfl, decimal_ne_nil _, front⟩
  rcases digits with ⟨digits, rest, whole, starts, some, stops⟩
  have small := event.sequence.toNat_lt
  have value := digitsValue_front starts some
  have allDigits : ∀ byte ∈ digits, isDigit byte = true := by
    intro byte member
    exact isDigit_decimal _ byte (starts.subset member)
  rw [whole]
  constructor
  constructor
  · exact stoull_digits some allDigits (body_stops stops) (by omega)
  · intro same
    have same := congrArg UInt64.toNat same
    rw [UInt64.toNat_add, UInt64.toNat_ofNat', UInt64.toNat_one] at same
    omega

theorem ofNat_succ (n : Nat) : UInt64.ofNat (n + 1) = UInt64.ofNat n + 1 := by
  rw [UInt64.ofNat_add]
  rfl

/-- The guard of `append`. -/
def Accepts (file : JournalFile) (event : JournalRecord) : Prop :=
  file.good = true ∧ event.sequence = file.lastSequence + 1

instance (file : JournalFile) (event : JournalRecord) : Decidable (file.Accepts event) :=
  inferInstanceAs (Decidable (_ ∧ _))

theorem refused_iff (file : JournalFile) (event : JournalRecord) :
    (!file.good || event.sequence ≠ file.lastSequence + 1) = true ↔ ¬ file.Accepts event := by
  rw [Accepts]
  cases file.good <;> simp

theorem append_refused {file : JournalFile} {event : JournalRecord}
    (refused : ¬ file.Accepts event) (landed : Option Nat) :
    file.append event landed = (file, false) := by
  rw [append.eq_def, if_pos ((refused_iff file event).mpr refused)]

theorem append_whole {file : JournalFile} {event : JournalRecord}
    (accepts : file.Accepts event) :
    file.append event none =
      ({ file with
         content := file.content ++ (event.line ++ [newline])
         lastSequence := event.sequence }, true) := by
  rw [append.eq_def, if_neg (mt (refused_iff file event).mp (not_not.mpr accepts))]

theorem append_torn {file : JournalFile} {event : JournalRecord}
    (accepts : file.Accepts event) (count : Nat) :
    file.append event (some count) =
      ({ file with
         content := file.content ++ (event.line ++ [newline]).take count
         good := false }, false) := by
  rw [append.eq_def, if_neg (mt (refused_iff file event).mp (not_not.mpr accepts))]

theorem appendAll_eq {file after : JournalFile} {events : List JournalRecord}
    (accepted : file.appendAll events = some after) :
    after.content = file.content ++ (events.map JournalRecord.line).flatMap (· ++ [newline]) ∧
    ∀ index event, events[index]? = some event →
      event.sequence = file.lastSequence + UInt64.ofNat (index + 1) := by
  induction events generalizing file with
  | nil =>
      rw [appendAll, Option.some.injEq] at accepted
      simp [accepted]
  | cons event events ih =>
      rw [appendAll] at accepted
      by_cases accepts : file.Accepts event
      · rw [append_whole accepts] at accepted
        rcases ih accepted with ⟨content, sequences⟩
        have next := accepts.2
        constructor
        · rw [content]
          simp
        · intro index other found
          cases index with
          | zero =>
              rw [List.getElem?_cons_zero, Option.some.injEq] at found
              rw [← found, next]
              rfl
          | succ index =>
              rw [List.getElem?_cons_succ] at found
              rw [sequences index other found, next, ofNat_succ (index + 1), UInt64.add_assoc,
                UInt64.add_comm 1]
      · rw [append_refused accepts] at accepted
        simp at accepted

theorem cut_cases {file : JournalFile} {events : List JournalRecord}
    (accepted : (create []).appendAll events = some file) (count : Nat) :
    ∃ complete tail, complete ≤ events.length ∧
      file.content.take count =
        ((events.take complete).map JournalRecord.line).flatMap (· ++ [newline]) ++ tail ∧
      (tail = [] ∨ ∃ event, events[complete]? = some event ∧ tail <+: event.line) := by
  have content := (appendAll_eq accepted).1
  rw [show (create []).content = [] from rfl, List.nil_append] at content
  rcases take_lines newline (events.map JournalRecord.line) count with
    ⟨complete, tail, bound, cut, torn⟩
  constructor
  constructor
  constructor
  · simpa using bound
  constructor
  · rw [content, cut, List.map_take]
  · rcases torn with empty | ⟨line, found, front⟩
    · exact Or.inl empty
    · rw [List.getElem?_map, Option.map_eq_some_iff] at found
      rcases found with ⟨event, found, same⟩
      rw [← same] at front
      exact Or.inr ⟨event, found, front⟩

def lastComplete (events : List JournalRecord) (complete : Nat) : UInt64 :=
  ((events.take complete).map JournalRecord.sequence).getLastD 0

theorem lastComplete_eq {file : JournalFile} {events : List JournalRecord}
    (accepted : (create []).appendAll events = some file) {complete : Nat}
    (bound : complete ≤ events.length) : lastComplete events complete = UInt64.ofNat complete := by
  cases complete with
  | zero => rfl
  | succ complete =>
      have found : events[complete]? = some (events[complete]) := List.getElem?_eq_getElem bound
      have sequence := (appendAll_eq accepted).2 complete _ found
      rw [show (create []).lastSequence = 0 from rfl, UInt64.zero_add] at sequence
      rw [lastComplete, List.take_add_one, found, List.map_append]
      simp only [Option.toList_some, List.map_cons, List.map_nil, List.getLastD_concat, sequence]

theorem readSequence_early {event : JournalRecord} {tail : Bytes} (front : tail <+: event.line)
    (early : tail.length ≤ event.head.length) : readSequence tail = none := by
  rw [JournalRecord.line, List.append_assoc] at front
  have inside := List.prefix_of_prefix_length_le front (List.prefix_append _ _) early
  rw [readSequence]
  rcases event.after_front_of_head inside with none | nothing
  · rw [none]
    rfl
  · rw [nothing]
    rfl

theorem readSequence_late {event : JournalRecord} {tail : Bytes} (front : tail <+: event.line)
    (late : event.head.length < tail.length) :
    ∃ sequence, readSequence tail = some sequence ∧ sequence + 1 ≠ event.sequence := by
  rw [JournalRecord.line, List.append_assoc] at front
  rcases List.prefix_of_prefix_length_le (List.prefix_append _ _) front late.le with
    ⟨digits, whole⟩
  have nonempty : digits ≠ [] := by
    intro empty
    rw [empty, List.append_nil] at whole
    rw [whole] at late
    exact absurd late (lt_irrefl _)
  rw [← whole, List.prefix_append_right_inj] at front
  rcases stoull_torn nonempty front with ⟨sequence, value, other⟩
  apply Exists.intro sequence
  rw [readSequence, ← whole, event.after_head, Option.bind_some]
  exact ⟨value, other⟩

theorem recovered_iff {file : JournalFile} {events : List JournalRecord}
    (accepted : (create []).appendAll events = some file) (count : Nat) :
    ((create (file.content.take count)).good = false ∨
      (create (file.content.take count)).lastSequence =
        lastComplete events (completeLines (file.content.take count)).length) ↔
    ∀ event, events[(completeLines (file.content.take count)).length]? = some event →
      (tornLine (file.content.take count)).length ≤ event.head.length := by
  rcases cut_cases accepted count with ⟨complete, tail, bound, cut, torn⟩
  have clean : ∀ line ∈ (events.take complete).map JournalRecord.line, newline ∉ line := by
    intro line member
    rcases List.mem_map.mp member with ⟨event, _, same⟩
    rw [← same]
    exact event.printable_line.no_newline
  have cleanTail : newline ∉ tail := by
    rcases torn with empty | ⟨event, _, front⟩
    · simp [empty]
    · intro member
      exact event.printable_line.no_newline (front.subset member)
  have readable : ((events.take complete).map JournalRecord.line).map readSequence =
      ((events.take complete).map JournalRecord.sequence).map some := by
    rw [List.map_map, List.map_map]
    apply List.map_congr_left
    intro event _
    exact readSequence_line event
  have lines := finished_lines clean cleanTail
  have last := lastComplete_eq accepted bound
  rw [cut, completeLines, tornLine, lines]
  simp only [List.length_map, List.length_take, Nat.min_eq_left bound]
  rcases torn with empty | ⟨event, found, front⟩
  · have unread : readSequence tail = none := by
      rw [empty]
      rfl
    constructor
    · intro _ event _
      simp [empty]
    · intro _
      exact (create_unread clean cleanTail readable unread).imp_right And.right
  rw [found]
  simp only [Option.some.injEq, forall_eq']
  by_cases early : tail.length ≤ event.head.length
  · have unread := readSequence_early front early
    constructor
    · intro _
      exact early
    · intro _
      exact (create_unread clean cleanTail readable unread).imp_right And.right
  · rcases readSequence_late front (by omega) with ⟨sequence, read, other⟩
    rcases create_read clean cleanTail readable read with ⟨good, recovered⟩
    rw [good, recovered, last]
    constructor
    · intro right
      rcases right with bad | same
      · exact absurd bad (by simp)
      · have own := (appendAll_eq accepted).2 complete event found
        rw [show (create []).lastSequence = 0 from rfl, UInt64.zero_add, ofNat_succ] at own
        rw [same, own] at other
        exact absurd rfl other
    · intro short
      exact absurd short early

/-! Runs -/

/-- A torn append leaves the line without a digit of its sequence number, or whole. -/
def TornEarly (file : JournalFile) (op : Op) (_ : Bool) (_ : JournalFile) : Prop :=
  match op with
  | .append event (some count) =>
      file.Accepts event → count ≤ event.head.length ∨ event.line.length < count
  | _ => True

instance (file : JournalFile) (result : Bool) (after : JournalFile) :
    (op : Op) → Decidable (TornEarly file op result after)
  | .append event (some count) =>
      inferInstanceAs (Decidable (file.Accepts event →
        count ≤ event.head.length ∨ event.line.length < count))
  | .append _ none => isTrue trivial
  | .restart => isTrue trivial

def counted (count : Nat) : List UInt64 :=
  (List.range count).map fun index => UInt64.ofNat (index + 1)

theorem counted_succ (count : Nat) :
    counted (count + 1) = counted count ++ [UInt64.ofNat count + 1] := by
  rw [counted, List.range_succ, List.map_append, List.map_singleton, ofNat_succ]
  rfl

theorem getLastD_counted (count : Nat) : (counted count).getLastD 0 = UInt64.ofNat count := by
  cases count with
  | zero => rfl
  | succ count => rw [counted_succ, List.getLastD_concat, ofNat_succ]

/-- The lines of the file are numbered without a gap, and what is torn behind them
is not read as a record. -/
structure Numbered (lines : List Bytes) (tail : Bytes) (file : JournalFile) : Prop where
  content : file.content = lines.flatMap (· ++ [newline]) ++ tail
  clean : ∀ line ∈ lines, newline ∉ line
  cleanTail : newline ∉ tail
  readable : lines.map readSequence = (counted lines.length).map some
  unread : readSequence tail = none
  last : file.good = true →
    after sequenceMarker tail = none ∧ file.lastSequence = UInt64.ofNat lines.length

namespace Numbered

variable {lines : List Bytes} {tail : Bytes} {file : JournalFile} {event : JournalRecord}

theorem finished_eq (numbered : Numbered lines tail file) :
    finished newline file.content = (lines, tail) := by
  rw [numbered.content]
  exact finished_lines numbered.clean numbered.cleanTail

theorem empty : Numbered [] [] (create []) := by
  constructor
  · rfl
  · simp
  · simp
  · rfl
  · rfl
  · intro _
    exact ⟨rfl, rfl⟩

/-- A restart recovers the number of complete lines, or refuses to go on. -/
theorem restart (numbered : Numbered lines tail file) :
    Numbered lines tail (create file.content) := by
  have recovered := create_unread numbered.clean numbered.cleanTail numbered.readable numbered.unread
  have kept := scanLines_content { content := file.content } (pieces newline file.content)
  constructor
  · rw [create, kept]
    exact numbered.content
  · exact numbered.clean
  · exact numbered.cleanTail
  · exact numbered.readable
  · exact numbered.unread
  · intro good
    rw [numbered.content] at good ⊢
    rcases recovered with bad | ⟨absent, last⟩
    · rw [bad] at good
      exact absurd good (by simp)
    · rw [last, getLastD_counted]
      exact ⟨absent, rfl⟩

/-- The record that is accepted next completes the torn line. -/
theorem complete (numbered : Numbered lines tail file) (accepts : file.Accepts event)
    {after : JournalFile} (content : after.content = file.content ++ (event.line ++ [newline]))
    (last : after.good = true → after.lastSequence = event.sequence) :
    Numbered (lines ++ [tail ++ event.line]) [] after := by
  rcases numbered.last accepts.1 with ⟨absent, recovered⟩
  have next : event.sequence = UInt64.ofNat lines.length + 1 := by
    rw [accepts.2, recovered]
  constructor
  · rw [content, numbered.content]
    simp
  · intro line member
    rcases List.mem_append.mp member with earlier | new
    · exact numbered.clean line earlier
    · rw [List.mem_singleton.mp new]
      intro member
      rcases List.mem_append.mp member with torn | own
      · exact numbered.cleanTail torn
      · exact event.printable_line.no_newline own
  · simp
  · rw [List.map_append, numbered.readable, List.length_append, List.length_singleton,
      counted_succ, List.map_append, List.map_singleton, readSequence_glued absent, next]
    rfl
  · rfl
  · intro good
    rw [last good, List.length_append, List.length_singleton, ofNat_succ, next]
    exact ⟨rfl, rfl⟩

/-- A tear inside the head of the record leaves nothing to read. -/
theorem torn (numbered : Numbered lines tail file) (accepts : file.Accepts event)
    {front : Bytes} (inside : front <+: event.head) {after : JournalFile}
    (content : after.content = file.content ++ front) (bad : after.good = false) :
    Numbered lines (tail ++ front) after := by
  constructor
  · rw [content, numbered.content, List.append_assoc]
  · exact numbered.clean
  · intro member
    rcases List.mem_append.mp member with earlier | own
    · exact numbered.cleanTail earlier
    · exact event.printable_head.no_newline (inside.subset own)
  · exact numbered.readable
  · cases front with
    | nil =>
        rw [List.append_nil]
        exact numbered.unread
    | cons byte others =>
        have brace : byte = 123 := by
          rcases inside with ⟨rest, whole⟩
          exact (List.cons.inj whole).1
        have foreign : byte ∉ sequenceMarker := by
          rw [brace]
          decide
        rw [readSequence, after_append_foreign foreign (numbered.last accepts.1).1]
        rcases event.after_front_of_head inside with none | nothing
        · rw [none]
          rfl
        · rw [nothing]
          rfl
  · intro good
    rw [bad] at good
    exact absurd good (by simp)

end Numbered

theorem step_numbered {file after : JournalFile} {op : Op} {result : Bool}
    (taken : file.step op = some (after, result)) (early : TornEarly file op result after)
    (numbered : ∃ lines tail, Numbered lines tail file) :
    ∃ lines tail, Numbered lines tail after := by
  rcases numbered with ⟨lines, tail, numbered⟩
  cases op with
  | restart =>
      simp only [step, Option.some.injEq, Prod.mk.injEq] at taken
      rw [← taken.1]
      exact ⟨lines, tail, numbered.restart⟩
  | append event landed =>
      simp only [step, Option.some.injEq] at taken
      by_cases accepts : file.Accepts event
      · cases landed with
        | none =>
            rw [append_whole accepts, Prod.mk.injEq] at taken
            rw [← taken.1]
            exact ⟨_, _, numbered.complete accepts rfl fun _ => rfl⟩
        | some count =>
            rw [append_torn accepts, Prod.mk.injEq] at taken
            rw [← taken.1]
            rcases early accepts with inside | whole
            · have front : (event.line ++ [newline]).take count = event.head.take count := by
                rw [JournalRecord.line, List.append_assoc, List.append_assoc,
                  List.take_append_of_le_length inside]
              exact ⟨_, _, numbered.torn accepts (List.take_prefix count event.head)
                (congrArg (file.content ++ ·) front) rfl⟩
            · have all : (event.line ++ [newline]).take count = event.line ++ [newline] := by
                apply List.take_of_length_le
                rw [List.length_append, List.length_singleton]
                exact whole
              exact ⟨_, _, numbered.complete accepts (congrArg (file.content ++ ·) all) (by simp)⟩
      · rw [append_refused accepts, Prod.mk.injEq] at taken
        rw [← taken.1]
        exact ⟨lines, tail, numbered⟩

/-- After one tear recovery is right exactly when the torn line ends before the first
digit of its sequence number. In a run whose torn appends all stop there, or behind the
whole line, the complete lines carry the numbers 1, 2, 3 and so on. -/
theorem recovery_exact (events : List JournalRecord) (count : Nat) (ops : List Op) :
    (∀ file : JournalFile, (create []).appendAll events = some file →
      let cut := file.content.take count
      let complete := (completeLines cut).length
      (((create cut).good = false ∨
          (create cut).lastSequence =
            ((events.take complete).map JournalRecord.sequence).getLastD 0) ↔
        ∀ event, events[complete]? = some event →
          (tornLine cut).length ≤ event.head.length)) ∧
    (∀ (file : JournalFile) (log : List (Op × Bool)),
      Machine.exec step (create []) ops = some (file, log) →
      Machine.Along step TornEarly (create []) ops →
      (completeLines file.content).map readSequence =
        (List.range (completeLines file.content).length).map
          fun index => some (UInt64.ofNat (index + 1))) := by
  constructor
  · intro file accepted
    exact recovered_iff accepted count
  · intro file log ran early
    have kept : Machine.Along step (fun _ _ _ after => ∃ lines tail, Numbered lines tail after)
        (create []) ops := by
      apply Machine.along_of_keep (fun file => ∃ lines tail, Numbered lines tail file)
        (A := fun _ => True) _ ⟨_, _, Numbered.empty⟩ (fun _ _ => trivial) early
      intro file op result after numbered _ taken early
      have next := step_numbered taken early numbered
      exact ⟨next, next⟩
    rcases Machine.last_of_along (P := fun file => ∃ lines tail, Numbered lines tail file)
      ⟨_, _, Numbered.empty⟩ kept ran with ⟨lines, tail, numbered⟩
    rw [completeLines, numbered.finished_eq, numbered.readable, counted, List.map_map]
    rfl

/-- One record, torn inside the marker of the next, and the next record appended
behind the tear after a restart. -/
theorem recovery_exact_glued :
    let first : JournalRecord := ⟨1, 1, .intent, ofText "a"⟩
    let second : JournalRecord := ⟨2, 2, .orderSent, ofText "b"⟩
    let ops : List Op := [.append first none, .append second (some 18), .restart,
      .append second none]
    (∃ file, (create []).appendAll [first, second] = some file ∧
      (completeLines (file.content.take 70)).length = 1 ∧
      ((create (file.content.take 70)).good = false ∨
        (create (file.content.take 70)).lastSequence =
          (([first, second].take (completeLines (file.content.take 70)).length).map
            JournalRecord.sequence).getLastD 0)) ∧
    ∃ file log, Machine.exec step (create []) ops = some (file, log) ∧
      (completeLines file.content).length = 2 ∧
      (completeLines file.content).map readSequence =
        (List.range (completeLines file.content).length).map
          fun index => some (UInt64.ofNat (index + 1)) := by
  intro first second ops
  constructor
  · cases accepted : (create []).appendAll [first, second] with
    | none => exact absurd accepted (by decide +kernel)
    | some file =>
        have shape : ((create []).appendAll [first, second]).map (fun file =>
            ((completeLines (file.content.take 70)).length,
              (tornLine (file.content.take 70)).length)) = some (1, 13) := by
          decide +kernel
        rw [accepted, Option.map_some, Option.some.injEq, Prod.mk.injEq] at shape
        have early : (tornLine (file.content.take 70)).length ≤ second.head.length := by
          rw [shape.2]
          decide
        have exact := ((recovery_exact [first, second] 70 ops).1 file accepted).mpr (by
          intro event found
          rw [shape.1] at found
          rw [← Option.some.inj found]
          exact early)
        exact ⟨file, rfl, shape.1, exact⟩
  · have early : Machine.Along step TornEarly (create []) ops := by decide
    cases ran : Machine.exec step (create []) ops with
    | none => exact absurd ran (by decide)
    | some result =>
        have two : (Machine.exec step (create []) ops).map
            (fun result => (completeLines result.1.content).length) = some 2 := by
          decide +kernel
        rw [ran, Option.map_some, Option.some.injEq] at two
        exact ⟨result.1, result.2, rfl, two,
          (recovery_exact [first, second] 70 ops).2 result.1 result.2 ran early⟩

/-- A first record torn right behind its sequence number: recovery takes it for a
complete record, and the record that would be number 1 is refused from then on. -/
theorem torn_number_taken_for_record :
    let first : JournalRecord := ⟨1, 1, .intent, ofText "a"⟩
    ∃ file, (create []).appendAll [first] = some file ∧
      completeLines (file.content.take 26) = [] ∧
      (create (file.content.take 26)).good = true ∧
      (create (file.content.take 26)).lastSequence = 1 ∧
      ((create (file.content.take 26)).append first).2 = false := by
  exact ⟨_, rfl, by decide⟩

end JournalFile

end Ito
