import Ito.JournalReplay
import Ito.Library.OStream
import Mathlib.Data.List.Induction

/-! The escaping of journal payloads, as the stream writes it and as a reader undoes it.

The stream keeps what the hex case sets, so a journal line is followed through it. -/

namespace Ito

open Bytes OStream PythonText

/-- One round of the loop in `write_escaped_json`. -/
def escapeTo (stream : OStream) (character : UInt8) : OStream :=
  if character = ofChar '\\' then stream.write (ofText "\\\\")
  else if character = ofChar '"' then stream.write (ofText "\\\"")
  else if character = 8 then stream.write (ofText "\\b")
  else if character = 12 then stream.write (ofText "\\f")
  else if character = 10 then stream.write (ofText "\\n")
  else if character = 13 then stream.write (ofText "\\r")
  else if character = 9 then stream.write (ofText "\\t")
  else if character < 0x20 then
    (((((stream.write (ofText "\\u00")).setBase 16).setw 2).setfill (ofChar '0')).number
      character.toNat).setBase 10
  else stream.put character

/-- `write_escaped_json`. -/
def writeEscapedTo (stream : OStream) (value : Bytes) : OStream :=
  if value.any needsEscape then value.foldl escapeTo stream else stream.write value

/-- What `JournalFile::append` inserts for an event. -/
def writeLineTo (stream : OStream) (event : JournalRecord) : OStream :=
  let stream := (stream.write (ofText "\x7b\"event_id\":")).number event.eventId.toNat
  let stream := (stream.write (ofText ",\"sequence\":")).number event.sequence.toNat
  let stream := (stream.write (ofText ",\"event_type\":")).number event.type.number
  (writeEscapedTo (stream.write (ofText ",\"payload\":\"")) event.payload).write
    (ofText "\"\x7d\n")

/-! The stream -/

theorem hex_digits : ∀ n, n < 32 →
    List.replicate (2 - (Nat.toDigits 16 n).length) (ofChar '0') ++
      (Nat.toDigits 16 n).map ofChar = [hexDigit (n / 16), hexDigit (n % 16)] := by
  decide

theorem escapeTo_adds (stream : OStream) (character : UInt8) (plain : stream.Plain) :
    Adds (escapeByte character) stream (escapeTo stream character) := by
  have control : character < 0x20 →
      Adds (ofText "\\u00" ++ [hexDigit (character.toNat / 16), hexDigit (character.toNat % 16)])
        stream ((((((stream.write (ofText "\\u00")).setBase 16).setw 2).setfill
          (ofChar '0')).number character.toNat).setBase 10) := by
    intro control
    have small : character.toNat < 32 := UInt8.lt_iff_toNat_lt.mp control
    have start := write_adds plain (ofText "\\u00")
    refine ⟨?_, rfl, rfl⟩
    rw [← hex_digits _ small, ← List.append_assoc, ← start.content, ← List.length_map ofChar]
    rfl
  apply Adds.branch fun _ => write_adds plain _
  intro
  apply Adds.branch fun _ => write_adds plain _
  intro
  apply Adds.branch fun _ => write_adds plain _
  intro
  apply Adds.branch fun _ => write_adds plain _
  intro
  apply Adds.branch fun _ => write_adds plain _
  intro
  apply Adds.branch fun _ => write_adds plain _
  intro
  apply Adds.branch fun _ => write_adds plain _
  intro
  exact Adds.branch control fun _ => put_adds plain character

theorem writeEscapedTo_adds {stream : OStream} (plain : stream.Plain) (value : Bytes) :
    Adds (writeEscapedJson value) stream (writeEscapedTo stream value) := by
  rw [writeEscapedJson, writeEscapedTo]
  split
  · exact foldl_adds escapeTo_adds value plain
  · exact write_adds plain value

theorem writeLineTo_adds {stream : OStream} (plain : stream.Plain) (event : JournalRecord) :
    Adds (event.line ++ [JournalFile.newline]) stream (writeLineTo stream event) := by
  have opened := write_adds plain (ofText "\x7b\"event_id\":")
  have eventId := opened.trans (number_adds opened.plain event.eventId.toNat)
  have sequenceKey := eventId.trans (write_adds eventId.plain (ofText ",\"sequence\":"))
  have sequence := sequenceKey.trans (number_adds sequenceKey.plain event.sequence.toNat)
  have typeKey := sequence.trans (write_adds sequence.plain (ofText ",\"event_type\":"))
  have type := typeKey.trans (number_adds typeKey.plain event.type.number)
  have payloadKey := type.trans (write_adds type.plain (ofText ",\"payload\":\""))
  have payload := payloadKey.trans (writeEscapedTo_adds payloadKey.plain event.payload)
  have closed := payload.trans (write_adds payload.plain (ofText "\"\x7d\n"))
  have stop : ofText "\"\x7d\n" = ofText "\"\x7d" ++ [JournalFile.newline] := by decide
  refine ⟨?_, closed.plain⟩
  calc
    (writeLineTo stream event).content = stream.content ++ _ := closed.content
    _ = stream.content ++ (event.line ++ [JournalFile.newline]) := by
      simp only [JournalRecord.line, JournalRecord.head, JournalRecord.body, List.append_assoc, stop]

/-! The bytes -/

def pending (escaping : Bool) (byte : UInt8) : Bool := !escaping && byte = ofChar '\\'

def Guarded (escaping : Bool) : Bytes → Prop
  | [] => True
  | byte :: rest => (byte = ofChar '"' → escaping = true) ∧ Guarded (pending escaping byte) rest

instance decidableGuarded : ∀ (escaping : Bool) (bytes : Bytes), Decidable (Guarded escaping bytes)
  | _, [] => inferInstanceAs (Decidable True)
  | escaping, byte :: rest =>
      have := decidableGuarded (pending escaping byte) rest
      inferInstanceAs (Decidable ((byte = ofChar '"' → escaping = true) ∧
        Guarded (pending escaping byte) rest))

theorem guarded_append {escaping : Bool} {front back : Bytes} :
    Guarded escaping (front ++ back) ↔
      Guarded escaping front ∧ Guarded (front.foldl pending escaping) back := by
  induction front generalizing escaping with
  | nil => simp [Guarded]
  | cons byte front ih =>
      rw [List.cons_append, Guarded, ih, Guarded, List.foldl_cons, and_assoc]

theorem guarded_escapeByte : ∀ n, n < 256 → Guarded false (escapeByte (UInt8.ofNat n)) ∧
    (escapeByte (UInt8.ofNat n)).foldl pending false = false := by
  decide +kernel

theorem guarded_escaped (value : Bytes) : Guarded false (value.flatMap escapeByte) := by
  induction value with
  | nil => trivial
  | cons byte value ih =>
      rcases guarded_escapeByte byte.toNat byte.toNat_lt with ⟨guarded, complete⟩
      rw [UInt8.ofNat_toNat] at guarded complete
      rw [List.flatMap_cons, guarded_append, complete]
      exact ⟨guarded, ih⟩

theorem pending_iff_odd (bytes : Bytes) : bytes.foldl pending false = true ↔
    (bytes.reverse.takeWhile (· = ofChar '\\')).length % 2 = 1 := by
  induction bytes using List.reverseRecOn with
  | nil => simp
  | append_singleton bytes byte ih =>
      rw [List.foldl_append, List.foldl_cons, List.foldl_nil, pending, List.reverse_append,
        List.reverse_singleton, List.singleton_append, Bool.and_eq_true, Bool.not_eq_true',
        ← Bool.not_eq_true, ih, decide_eq_true_eq]
      by_cases backslash : byte = ofChar '\\'
      · rw [List.takeWhile_cons_of_pos (by simpa using backslash), List.length_cons]
        simp only [backslash, and_true]
        omega
      · rw [List.takeWhile_cons_of_neg (by simpa using backslash)]
        simp [backslash]

/-! Reading back -/

/-- The bytes of the JSON string with this body. -/
def readBody (body : Bytes) : Option Bytes :=
  (decodeUtf8 body).bind fun text =>
    (Json.scanString (text ++ ['"'])).bind fun scanned =>
      if scanned.2 = [] then some (encodeUtf8 (scanned.1.map Char.ofNat)) else none

theorem readBody_writeEscapedJson (text : List Char) :
    readBody (writeEscapedJson (encodeUtf8 text)) = some (encodeUtf8 text) := by
  have closed := Json.scanString_flatMap escapeChar text
    (fun c _ rest => scanUnits_escapeChar c rest) []
  rw [readBody, writeEscapedJson_encodeUtf8, decodeUtf8_encodeUtf8, Option.bind_some, closed,
    Option.bind_some, if_pos rfl, Json.codes, List.map_map]
  have same : Char.ofNat ∘ Char.toNat = id := by
    funext c
    exact Char.ofNat_toNat c
  rw [same, List.map_id]

theorem append_content {file : JournalFile} {event : JournalRecord} {landed : Option Nat}
    (accepted : (file.append event landed).2 = true) :
    (file.append event landed).1.content =
      file.content ++ (event.line ++ [JournalFile.newline]) := by
  unfold JournalFile.append at accepted ⊢
  split
  case isTrue refused =>
    rw [if_pos refused] at accepted
    cases accepted
  case isFalse taken =>
    rw [if_neg taken] at accepted
    cases landed with
    | none => rfl
    | some count => cases accepted

/-- What is written for a payload: no control byte, no quote without an odd number of backslashes
before it, one line for an accepted event, the text that a reader gives back, and the same
whichever way the stream takes. -/
theorem journal_escaping (value : Bytes) :
    (∀ byte ∈ writeEscapedJson value, 0x20 ≤ byte.toNat) ∧
    (∀ front back, writeEscapedJson value = front ++ ofChar '"' :: back →
      (front.reverse.takeWhile (· = ofChar '\\')).length % 2 = 1) ∧
    (∀ event : JournalRecord, event.payload = value → JournalFile.newline ∉ event.line ∧
      (∀ stream : OStream, stream.Plain →
        Adds (event.line ++ [JournalFile.newline]) stream (writeLineTo stream event)) ∧
      ∀ (file : JournalFile) (landed : Option Nat), (file.append event landed).2 = true →
        (file.append event landed).1.content =
          file.content ++ (event.line ++ [JournalFile.newline])) ∧
    (∀ text, value = encodeUtf8 text → readBody (writeEscapedJson value) = some value) ∧
    (∀ stream : OStream, stream.Plain →
      Adds (writeEscapedJson value) stream (writeEscapedTo stream value) ∧
      Adds (writeEscapedJson value) stream (value.foldl escapeTo stream)) := by
  refine ⟨printable_writeEscapedJson value, ?_, ?_, ?_, ?_⟩
  · intro front back split
    have guarded := guarded_escaped value
    rw [← writeEscapedJson_eq, split, guarded_append, Guarded] at guarded
    exact (pending_iff_odd front).mp (guarded.2.1 rfl)
  · intro event _
    exact ⟨event.printable_line.no_newline, fun stream plain => writeLineTo_adds plain event,
      fun file landed accepted => append_content accepted⟩
  · rintro text rfl
    exact readBody_writeEscapedJson text
  · intro stream plain
    refine ⟨writeEscapedTo_adds plain value, ?_⟩
    rw [writeEscapedJson_eq]
    exact foldl_adds escapeTo_adds value plain

end Ito
