import Ito.JournalRecovery
import Ito.Library.JsonScan
import Ito.Replay

/-! What the replay tool reads from a journal that the native code wrote. -/

namespace Ito

open Bytes PythonText

/-! The text of a line -/

def hexChar (n : Nat) : Char := if n < 10 then Char.ofNat (48 + n) else Char.ofNat (87 + n)

/-- What `write_escaped_json` writes for one character. -/
def escapeChar (c : Char) : List Char :=
  if c = '\\' then ['\\', '\\']
  else if c = '"' then ['\\', '"']
  else if c = '\x08' then ['\\', 'b']
  else if c = '\x0c' then ['\\', 'f']
  else if c = '\n' then ['\\', 'n']
  else if c = '\r' then ['\\', 'r']
  else if c = '\t' then ['\\', 't']
  else if c.toNat < 0x20 then ['\\', 'u', '0', '0', hexChar (c.toNat / 16), hexChar (c.toNat % 16)]
  else [c]

theorem escapeByte_plain {byte : UInt8} (plain : needsEscape byte = false) :
    escapeByte byte = [byte] := by
  simp only [needsEscape, Bool.or_eq_false_iff, decide_eq_false_iff_not] at plain
  rcases plain with ⟨⟨noEscape, noQuote⟩, large⟩
  have control : ∀ small : UInt8, small < 0x20 → byte ≠ small := by
    intro small below same
    rw [same] at large
    exact large below
  rw [escapeByte, if_neg noEscape, if_neg noQuote, if_neg (control 8 (by decide)),
    if_neg (control 12 (by decide)), if_neg (control 10 (by decide)),
    if_neg (control 13 (by decide)), if_neg (control 9 (by decide)), if_neg large]

theorem writeEscapedJson_eq (value : Bytes) : writeEscapedJson value = value.flatMap escapeByte := by
  rw [writeEscapedJson]
  split
  · rfl
  · rename_i plain
    simp only [Bool.not_eq_true, List.any_eq_false] at plain
    have each : ∀ byte ∈ value, escapeByte byte = [byte] := by
      intro byte member
      exact escapeByte_plain (by simpa using plain byte member)
    rw [List.flatMap_congr each, List.flatMap_singleton']

theorem escapeChar_ascii : ∀ n, n < 128 →
    encodeUtf8 (escapeChar (Char.ofNat n)) = escapeByte (UInt8.ofNat n) := by
  decide +kernel

theorem escapeChar_large {c : Char} (large : 128 ≤ c.toNat) : escapeChar c = [c] := by
  have differs : ∀ d : Char, d.toNat < 128 → c ≠ d := by
    intro d small same
    rw [same] at large
    omega
  rw [escapeChar, if_neg (differs _ (by decide)), if_neg (differs _ (by decide)),
    if_neg (differs _ (by decide)), if_neg (differs _ (by decide)),
    if_neg (differs _ (by decide)), if_neg (differs _ (by decide)),
    if_neg (differs _ (by decide)), if_neg (by omega)]

theorem encodeUtf8_escapeChar (c : Char) :
    encodeUtf8 (escapeChar c) = (String.utf8EncodeChar c).flatMap escapeByte := by
  by_cases ascii : c.toNat < 128
  · have single : String.utf8EncodeChar c = [UInt8.ofNat c.toNat] := by
      have encoded := @encodeUtf8_ascii [c] (by simpa using ascii)
      simpa [encodeUtf8, ofChar] using encoded
    have escaped := escapeChar_ascii c.toNat ascii
    rw [Char.ofNat_toNat] at escaped
    rw [escaped, single, List.flatMap_singleton]
  · have large : 128 ≤ c.toNat := Nat.not_lt.mp ascii
    have each : ∀ byte ∈ String.utf8EncodeChar c, escapeByte byte = [byte] := by
      intro byte member
      have outside := utf8EncodeChar_large large byte member
      apply escapeByte_plain
      simp only [needsEscape, Bool.or_eq_false_iff, decide_eq_false_iff_not, ← UInt8.toNat_inj,
        UInt8.lt_iff_toNat_lt]
      have escape : (ofChar '\\').toNat = 92 := by decide
      have quote : (ofChar '"').toNat = 34 := by decide
      have control : (0x20 : UInt8).toNat = 32 := by decide
      omega
    rw [escapeChar_large large, List.flatMap_congr each, List.flatMap_singleton', encodeUtf8,
      List.flatMap_singleton]

theorem writeEscapedJson_encodeUtf8 (text : List Char) :
    writeEscapedJson (encodeUtf8 text) = encodeUtf8 (text.flatMap escapeChar) := by
  rw [writeEscapedJson_eq]
  induction text with
  | nil => rfl
  | cons c rest ih =>
      rw [List.flatMap_cons, encodeUtf8_append, encodeUtf8_escapeChar, ← ih, encodeUtf8,
        List.flatMap_cons, List.flatMap_append]
      rfl

theorem hexUnit_control : ∀ n, n < 0x20 →
    Json.hexUnit '0' '0' (hexChar (n / 16)) (hexChar (n % 16)) = some n := by
  decide

/-- `json.loads` reads a text as the character. -/
def ReadAs (c : Char) (text : List Char) : Prop :=
  ∀ rest, Json.scanUnits (text ++ rest) = (Json.scanUnits rest).map (Json.prepend c.toNat)

theorem readAs_simple {c escape : Char} (noUnit : escape ≠ 'u')
    (known : Json.simpleEscape escape = some c.toNat) : ReadAs c ['\\', escape] := by
  intro rest
  rw [List.cons_append, List.singleton_append, Json.scanUnits.eq_def]
  simp only [Char.reduceEq, if_false, if_true]
  split
  · rename_i impossible
    exact absurd impossible (by simp)
  · rename_i unit
    exact absurd (List.cons.inj unit).1 noUnit
  · rename_i same
    rcases List.cons.inj same with ⟨rfl, rfl⟩
    rw [known, Option.bind_some]

theorem readAs_control {c : Char} (control : c.toNat < 0x20) :
    ReadAs c ['\\', 'u', '0', '0', hexChar (c.toNat / 16), hexChar (c.toNat % 16)] := by
  intro rest
  rw [Json.scanUnits.eq_def]
  simp only [List.cons_append, List.nil_append, Char.reduceEq, if_false, if_true,
    hexUnit_control _ control, Option.bind_some]

theorem readAs_escapeChar (c : Char) : ReadAs c (escapeChar c) := by
  have escaped : ∀ d escape : Char, escape ≠ 'u' → Json.simpleEscape escape = some d.toNat →
      c = d → ReadAs c ['\\', escape] := by
    intro d escape noUnit known same
    rw [same]
    exact readAs_simple noUnit known
  rw [escapeChar]
  refine iteInduction (escaped '\\' '\\' (by decide) rfl) fun noEscape => ?_
  refine iteInduction (escaped '"' '"' (by decide) rfl) fun noQuote => ?_
  refine iteInduction (escaped '\x08' 'b' (by decide) rfl) fun _ => ?_
  refine iteInduction (escaped '\x0c' 'f' (by decide) rfl) fun _ => ?_
  refine iteInduction (escaped '\n' 'n' (by decide) rfl) fun _ => ?_
  refine iteInduction (escaped '\r' 'r' (by decide) rfl) fun _ => ?_
  refine iteInduction (escaped '\t' 't' (by decide) rfl) fun _ => ?_
  exact iteInduction readAs_control fun large rest =>
    Json.scanUnits_plain ⟨noQuote, noEscape, Nat.not_lt.mp large⟩ rest

theorem scanUnits_escapeChar (c : Char) (rest : List Char) :
    Json.scanUnits (escapeChar c ++ rest) =
      (Json.scanUnits rest).map (Json.prepend c.toNat) :=
  readAs_escapeChar c rest

namespace JournalRecord

def lineStart (event : JournalRecord) (rest : List Char) : List Char :=
  '\x7b' :: '"' :: ("event_id".toList ++ '"' :: ':' :: (Nat.toDigits 10 event.eventId.toNat ++
    ',' :: '"' :: ("sequence".toList ++ '"' :: ':' :: (Nat.toDigits 10 event.sequence.toNat ++
      ',' :: '"' :: ("event_type".toList ++ '"' :: ':' :: (Nat.toDigits 10 event.type.number ++
        ',' :: '"' :: ("payload".toList ++ '"' :: ':' :: '"' :: rest)))))))

def lineText (event : JournalRecord) (payload : List Char) : List Char :=
  event.lineStart (payload.flatMap escapeChar ++ ['"', '\x7d'])

variable (event : JournalRecord)

theorem lineStart_append (front rest : List Char) :
    event.lineStart (front ++ rest) = event.lineStart front ++ rest := by
  simp only [lineStart, List.cons_append, List.append_assoc]

theorem toDigits_ascii (n : Nat) : ∀ c ∈ Nat.toDigits 10 n, 0x20 ≤ c.toNat ∧ c.toNat < 128 := by
  intro c member
  have digit := Nat.isDigit_of_mem_toDigits (by omega) (by omega) member
  rw [Char.isDigit] at digit
  simp only [ge_iff_le, Bool.and_eq_true, decide_eq_true_eq, UInt32.le_iff_toNat_le] at digit
  have low : 48 ≤ c.toNat := digit.1
  have high : c.toNat ≤ 57 := digit.2
  omega

theorem lineStart_ascii : ∀ c ∈ event.lineStart [], 0x20 ≤ c.toNat ∧ c.toNat < 128 := by
  simp only [lineStart, List.forall_mem_cons, List.forall_mem_append]
  and_intros
  all_goals first | exact toDigits_ascii _ | exact forall_mem_of_checked (by decide) | decide

theorem encodeUtf8_lineText {payload : List Char} (written : event.payload = encodeUtf8 payload) :
    encodeUtf8 (event.lineText payload) = event.line := by
  have start : (event.lineStart []).map ofChar = event.head ++ decimal event.sequence.toNat ++
      (ofText ",\"event_type\":" ++ decimal event.type.number ++ ofText ",\"payload\":\"") := by
    simp [lineStart, head, decimal, ofText]
  have stop : encodeUtf8 ['"', '\x7d'] = ofText "\"\x7d" := by decide
  have split := event.lineStart_append [] (payload.flatMap escapeChar ++ ['"', '\x7d'])
  rw [List.nil_append] at split
  rw [lineText, split, encodeUtf8_append, encodeUtf8_append,
    encodeUtf8_ascii fun c member => (event.lineStart_ascii c member).2, start, stop,
    ← writeEscapedJson_encodeUtf8, ← written, line, body]
  simp only [List.append_assoc]

/-- The entries of a line, as `json.loads` returns them. -/
def entries (payload : List Char) : List (List Nat × Json) :=
  [(Json.codes "event_id".toList, .int event.eventId.toNat),
    (Json.codes "sequence".toList, .int event.sequence.toNat),
    (Json.codes "event_type".toList, .int event.type.number),
    (Json.codes "payload".toList, .str (Json.codes payload))]

theorem plain_keys :
    (∀ c ∈ "event_id".toList, Json.Plain c) ∧ (∀ c ∈ "sequence".toList, Json.Plain c) ∧
    (∀ c ∈ "event_type".toList, Json.Plain c) ∧ (∀ c ∈ "payload".toList, Json.Plain c) := by
  and_intros
  all_goals exact forall_mem_of_checked (by decide)

theorem entries_lineStart (fuel : Nat) (rest : List Char) :
    Json.value (fuel + 6) (event.lineStart rest) =
      (Json.entries (fuel + 2) ('"' :: ("payload".toList ++ '"' :: ':' :: '"' :: rest))).map
        fun found =>
          (.obj ((Json.codes "event_id".toList, .int event.eventId.toNat) ::
            (Json.codes "sequence".toList, .int event.sequence.toNat) ::
            (Json.codes "event_type".toList, .int event.type.number) :: found.1), found.2) := by
  rcases plain_keys with ⟨eventId, sequence, eventType, _⟩
  rw [lineStart, Json.value_object, Json.entries_int _ _ eventId, Json.entries_int _ _ sequence,
    Json.entries_int _ _ eventType]
  simp only [Option.map_map]
  rfl

theorem loads_lineStart (rest : List Char) :
    Json.loads (event.lineStart rest) =
      (Json.value ((event.lineStart rest).length + 1) (event.lineStart rest)).bind
        fun found => if Json.skipBlanks found.2 = [] then some found.1 else none := by
  rw [Json.loads, if_neg (by simp [lineStart])]
  have visible : Json.skipBlanks (event.lineStart rest) = event.lineStart rest := by
    rw [lineStart, Json.skipBlanks_of_not_blank (by decide)]
  rw [visible]

theorem lineStart_fuel (rest : List Char) :
    ∃ fuel, (event.lineStart rest).length + 1 = fuel + 6 := by
  have long : 6 ≤ (event.lineStart rest).length + 1 := by
    simp only [lineStart, List.length_cons, List.length_append]
    omega
  exact ⟨_, (Nat.sub_add_cancel long).symm⟩

theorem loads_lineText (payload : List Char) :
    Json.loads (event.lineText payload) = some (.obj (event.entries payload)) := by
  rcases plain_keys with ⟨_, _, _, key⟩
  rcases event.lineStart_fuel (payload.flatMap escapeChar ++ ['"', '\x7d']) with ⟨fuel, enough⟩
  have closed := Json.scanString_flatMap escapeChar payload
    (fun c _ rest => scanUnits_escapeChar c rest) ['\x7d']
  rw [lineText, loads_lineStart, enough, entries_lineStart, Json.entries_last key closed]
  rfl

theorem loads_torn (payload : List Char) :
    Json.loads (event.lineStart (payload.flatMap escapeChar)) = none := by
  rcases plain_keys with ⟨_, _, _, key⟩
  rcases event.lineStart_fuel (payload.flatMap escapeChar) with ⟨fuel, enough⟩
  have unclosed := Json.scanString_unclosed escapeChar payload
    (fun c _ rest => scanUnits_escapeChar c rest)
  rw [loads_lineStart, enough, entries_lineStart, Json.entries_unclosed key unclosed]
  rfl

end JournalRecord

/-! Lines of the file -/

theorem escapeChar_ascii_printable : ∀ n, n < 128 →
    ∀ d ∈ escapeChar (Char.ofNat n), 0x20 ≤ d.toNat ∧ d.toNat < 128 := by
  have checked : ∀ n, n < 128 → ((escapeChar (Char.ofNat n)).all fun d =>
      decide (0x20 ≤ d.toNat ∧ d.toNat < 128)) = true := by
    decide +kernel
  intro n ascii
  exact forall_mem_of_checked (checked n ascii)

theorem isLineBreak_of_ascii {c : Char} (ascii : 0x20 ≤ c.toNat ∧ c.toNat < 128) :
    isLineBreak c = false := by
  have apart : ∀ d : Char, d.toNat < 0x20 ∨ 128 ≤ d.toNat → c ≠ d := by
    intro d outside same
    rw [same] at ascii
    omega
  simp [isLineBreak, apart]

theorem escapeChar_cases (c : Char) :
    (∀ d ∈ escapeChar c, 0x20 ≤ d.toNat ∧ d.toNat < 128) ∨
      (escapeChar c = [c] ∧ 128 ≤ c.toNat) := by
  by_cases ascii : c.toNat < 128
  · left
    have printable := escapeChar_ascii_printable c.toNat ascii
    rwa [Char.ofNat_toNat] at printable
  · right
    have large := Nat.not_lt.mp ascii
    exact ⟨escapeChar_large large, large⟩

theorem escapeChar_printable (c : Char) : ∀ d ∈ escapeChar c, 0x20 ≤ d.toNat := by
  intro d member
  rcases escapeChar_cases c with ascii | ⟨raw, large⟩
  · exact (ascii d member).1
  · rw [raw] at member
    rw [List.mem_singleton.mp member]
    omega

theorem escaped_boundary (text : List Char) :
    (∀ c ∈ text.flatMap escapeChar, isLineBreak c = false) ∨
    ∃ (front : List Char) (boundary : Char) (rest : List Char),
      text.flatMap escapeChar = front.flatMap escapeChar ++ boundary :: rest ∧
      isLineBreak boundary = true ∧ ∀ c ∈ front.flatMap escapeChar, isLineBreak c = false := by
  induction text with
  | nil => exact Or.inl (by simp)
  | cons c text ih =>
      have own : (∀ d ∈ escapeChar c, isLineBreak d = false) ∨
          (escapeChar c = [c] ∧ isLineBreak c = true) := by
        rcases escapeChar_cases c with ascii | ⟨raw, _⟩
        · exact Or.inl fun d member => isLineBreak_of_ascii (ascii d member)
        · cases breaks : isLineBreak c with
          | true => exact Or.inr ⟨raw, rfl⟩
          | false => exact Or.inl (by simpa [raw] using breaks)
      rcases own with clean | ⟨raw, breaks⟩
      · rcases ih with all | ⟨front, boundary, rest, split, stops, before⟩
        · left
          intro d member
          rcases List.mem_append.mp member with inside | inside
          · exact clean d inside
          · exact all d inside
        · right
          have longer : (c :: text).flatMap escapeChar =
              (c :: front).flatMap escapeChar ++ boundary :: rest := by
            rw [List.flatMap_cons, split, List.flatMap_cons, List.append_assoc]
          apply Exists.intro (c :: front)
          apply Exists.intro boundary
          apply Exists.intro rest
          constructor
          · exact longer
          constructor
          · exact stops
          · intro d member
            rcases List.mem_append.mp member with inside | inside
            · exact clean d inside
            · exact before d inside
      · right
        exact ⟨[], c, text.flatMap escapeChar, by rw [List.flatMap_cons, raw]; rfl, breaks, by simp⟩

namespace JournalRecord

variable (event : JournalRecord)

def payloadText : List Char := (decodeUtf8 event.payload).getD []

theorem encodeUtf8_payloadText {event : JournalRecord}
    (valid : ∃ text, event.payload = encodeUtf8 text) :
    event.payload = encodeUtf8 event.payloadText := by
  rcases valid with ⟨text, written⟩
  rw [payloadText, written, decodeUtf8_encodeUtf8, Option.getD_some]

theorem lineText_printable (payload : List Char) :
    ∀ c ∈ event.lineText payload, 0x20 ≤ c.toNat := by
  have split := event.lineStart_append [] (payload.flatMap escapeChar ++ ['"', '\x7d'])
  rw [List.nil_append] at split
  intro c member
  rw [lineText, split] at member
  rcases List.mem_append.mp member with start | rest
  · exact (event.lineStart_ascii c start).1
  rcases List.mem_append.mp rest with escaped | stop
  · rcases List.mem_flatMap.mp escaped with ⟨d, _, inside⟩
    exact escapeChar_printable d c inside
  · have visible : ∀ c ∈ ['"', '\x7d'], 0x20 ≤ c.toNat := forall_mem_of_checked (by decide)
    exact visible c stop

end JournalRecord

def fileText (events : List JournalRecord) : List Char :=
  events.flatMap fun event => event.lineText event.payloadText ++ ['\n']

theorem encodeUtf8_fileText {events : List JournalRecord}
    (valid : ∀ event ∈ events, ∃ text, event.payload = encodeUtf8 text) :
    encodeUtf8 (fileText events) =
      (events.map JournalRecord.line).flatMap (· ++ [JournalFile.newline]) := by
  induction events with
  | nil => rfl
  | cons event events ih =>
      rcases List.forall_mem_cons.mp valid with ⟨first, others⟩
      have line := event.encodeUtf8_lineText (JournalRecord.encodeUtf8_payloadText first)
      have newline : encodeUtf8 ['\n'] = [JournalFile.newline] := by decide
      rw [fileText, List.flatMap_cons, encodeUtf8_append, encodeUtf8_append, line, newline,
        ← fileText, ih others, List.map_cons, List.flatMap_cons]

theorem fileText_no_return (events : List JournalRecord) : '\r' ∉ fileText events := by
  intro member
  rcases List.mem_flatMap.mp member with ⟨event, _, inside⟩
  rcases List.mem_append.mp inside with line | newline
  · exact absurd (event.lineText_printable _ _ line) (by decide)
  · exact absurd newline (by decide)

theorem decode_content {events : List JournalRecord} {file : JournalFile}
    (accepted : (JournalFile.create []).appendAll events = some file)
    (valid : ∀ event ∈ events, ∃ text, event.payload = encodeUtf8 text) :
    (decodeUtf8 file.content).map universalNewlines = some (fileText events) := by
  have content := (JournalFile.appendAll_eq accepted).1
  rw [show (JournalFile.create []).content = [] from rfl, List.nil_append,
    ← encodeUtf8_fileText valid] at content
  rw [content, decodeUtf8_encodeUtf8, Option.map_some,
    universalNewlines_clean (fileText_no_return events)]

namespace Replay

theorem loadLine_lineText (event : JournalRecord) (payload : List Char) :
    loadLine (event.lineText payload) = .error (.keyError "correlation_id") := by
  rw [loadLine, event.loads_lineText]
  rfl

theorem loadLine_torn (event : JournalRecord) (payload : List Char) :
    loadLine (event.lineStart (payload.flatMap escapeChar)) = .error .jsonDecode := by
  rw [loadLine, event.loads_torn]

theorem loadLines_error {line : List Char} {rest : List (List Char)} {reason : LoadError}
    (visible : strip line ≠ []) (raised : loadLine line = .error reason) :
    loadLines (line :: rest) = .error reason := by
  rw [loadLines, if_neg visible, raised]
  rfl

theorem strip_lineStart (event : JournalRecord) (rest : List Char) :
    strip (event.lineStart rest) ≠ [] :=
  strip_ne_nil (by decide) _

/-- The first line of a journal raises: it has no correlation id, or it is cut off at
a line boundary inside the payload. -/
theorem loadLines_fileText (event : JournalRecord) (events : List JournalRecord) :
    ∃ reason, loadLines (splitlines (fileText (event :: events))) = .error reason := by
  have text : fileText (event :: events) =
      event.lineText event.payloadText ++ '\n' :: fileText events := by
    rw [fileText, List.flatMap_cons, List.append_assoc]
    rfl
  have start : ∀ c ∈ event.lineStart [], isLineBreak c = false := fun c member =>
    isLineBreak_of_ascii (event.lineStart_ascii c member)
  have split : ∀ rest, event.lineStart rest = event.lineStart [] ++ rest := fun rest =>
    event.lineStart_append [] rest
  rcases escaped_boundary event.payloadText with clean | ⟨front, boundary, rest, cut, stops, before⟩
  · have line : ∀ c ∈ event.lineText event.payloadText, isLineBreak c = false := by
      intro c member
      rw [JournalRecord.lineText, split] at member
      rcases List.mem_append.mp member with inside | inside
      · exact start c inside
      rcases List.mem_append.mp inside with inside | inside
      · exact clean c inside
      · have closing : ∀ c ∈ ['"', '\x7d'], isLineBreak c = false :=
          forall_mem_of_checked (by decide)
        exact closing c inside
    rcases splitlines_front line (by decide : isLineBreak '\n' = true) (fileText events) with
      ⟨others, broken⟩
    rw [text, broken]
    exact ⟨_, loadLines_error (strip_lineStart event _) (loadLine_lineText event _)⟩
  · have line : ∀ c ∈ event.lineStart (front.flatMap escapeChar), isLineBreak c = false := by
      intro c member
      rw [split] at member
      rcases List.mem_append.mp member with inside | inside
      · exact start c inside
      · exact before c inside
    rcases splitlines_front line stops (rest ++ ['"', '\x7d'] ++ '\n' :: fileText events) with
      ⟨others, broken⟩
    have torn : event.lineText event.payloadText ++ '\n' :: fileText events =
        event.lineStart (front.flatMap escapeChar) ++
          boundary :: (rest ++ ['"', '\x7d'] ++ '\n' :: fileText events) := by
      rw [JournalRecord.lineText, cut, split, split (front.flatMap escapeChar)]
      simp
    rw [text, torn, broken]
    exact ⟨_, loadLines_error (strip_lineStart event _) (loadLine_torn event _)⟩

/-- The events come back, and are found well numbered where their ids are. -/
def RoundTrips (events : List JournalRecord) (content : Bytes) : Prop :=
  ∃ loaded, loadEvents content = .ok loaded ∧
    loaded.map (fun event => (event.eventId, event.sequence, event.eventType, event.payload)) =
      events.map (fun event => ((event.eventId.toNat : Int), (event.sequence.toNat : Int),
        Json.int event.type.number, Json.str (Json.codes event.payloadText))) ∧
    ((events.map JournalRecord.eventId).Nodup → (∀ event ∈ events, 0 < event.eventId) →
      validate loaded = [])

theorem loadEvents_raises {events : List JournalRecord} {file : JournalFile}
    (accepted : (JournalFile.create []).appendAll events = some file)
    (valid : ∀ event ∈ events, ∃ text, event.payload = encodeUtf8 text) (written : events ≠ []) :
    ∃ reason, loadEvents file.content = .error reason := by
  rcases Option.map_eq_some_iff.mp (decode_content accepted valid) with ⟨text, decoded, read⟩
  rw [loadEvents, decoded]
  simp only [read]
  cases events with
  | nil => exact absurd rfl written
  | cons event events => exact loadLines_fileText event events

/-- The replay tool reads back exactly the journal without events. -/
theorem round_trip_iff_empty {events : List JournalRecord} {file : JournalFile}
    (accepted : (JournalFile.create []).appendAll events = some file)
    (valid : ∀ event ∈ events, ∃ text, event.payload = encodeUtf8 text) :
    RoundTrips events file.content ↔ events = [] := by
  constructor
  · intro trip
    by_contra written
    rcases trip with ⟨loaded, ok, _⟩
    rcases loadEvents_raises accepted valid written with ⟨reason, raised⟩
    rw [raised] at ok
    exact absurd ok (by simp)
  · intro empty
    rw [empty, JournalFile.appendAll, Option.some.injEq] at accepted
    rw [empty, ← accepted]
    exact ⟨[], rfl, rfl, fun _ _ => rfl⟩

theorem round_trip_iff_empty_separator :
    let event : JournalRecord := ⟨1, 1, .intent, encodeUtf8 ['a', '\u2028', 'b']⟩
    ∃ file, (JournalFile.create []).appendAll [event] = some file ∧
      (RoundTrips [event] file.content ↔ [event] = []) := by
  intro event
  have valid : ∀ other ∈ [event], ∃ text, other.payload = encodeUtf8 text := by
    intro other member
    rw [List.mem_singleton.mp member]
    exact ⟨_, rfl⟩
  exact ⟨_, rfl, @round_trip_iff_empty [event] _ rfl valid⟩

/-- The journal of one event raises a `KeyError` in `load_events`. -/
theorem single_event_raises :
    let event : JournalRecord := ⟨1, 1, .intent, ofText "a"⟩
    ∃ file, (JournalFile.create []).appendAll [event] = some file ∧
      loadEvents file.content = .error (.keyError "correlation_id") ∧
      ¬ RoundTrips [event] file.content := by
  intro event
  have accepted : (JournalFile.create []).appendAll [event] =
      some ⟨event.line ++ [JournalFile.newline], true, 1⟩ := by rfl
  have payload : event.payload = encodeUtf8 ['a'] := by decide
  have valid : ∀ other ∈ [event], ∃ text, other.payload = encodeUtf8 text := by
    intro other member
    rw [List.mem_singleton.mp member]
    exact ⟨['a'], payload⟩
  have text : fileText [event] = event.lineText ['a'] ++ ['\n'] := by
    rw [fileText, List.flatMap_singleton, JournalRecord.payloadText, payload,
      decodeUtf8_encodeUtf8, Option.getD_some]
  have lines : splitlines (event.lineText ['a'] ++ ['\n']) = [event.lineText ['a']] := by
    decide +kernel
  rcases Option.map_eq_some_iff.mp (decode_content accepted valid) with ⟨raw, decoded, read⟩
  have raised : loadEvents (event.line ++ [JournalFile.newline]) =
      .error (.keyError "correlation_id") := by
    rw [loadEvents, decoded]
    simp only [read, text, lines]
    exact loadLines_error (strip_lineStart event _) (loadLine_lineText event _)
  constructor
  constructor
  · exact accepted
  constructor
  · exact raised
  · intro trip
    rcases trip with ⟨loaded, ok, _⟩
    rw [raised] at ok
    exact absurd ok (by simp)

end Replay

end Ito
