import Ito.Library.ByteText

/-! Output streams with what their manipulators leave behind.

The base and the fill stay until they are set again, the width until the next formatted
insertion. Text is adjusted to the right. -/

structure OStream where
  content : Bytes := []
  base : Nat := 10
  width : Nat := 0
  fill : UInt8 := Bytes.ofChar ' '
  deriving DecidableEq, Repr

namespace OStream

def put (stream : OStream) (byte : UInt8) : OStream :=
  { stream with content := stream.content ++ [byte] }

def write (stream : OStream) (text : Bytes) : OStream :=
  { stream with
    content := stream.content ++ (List.replicate (stream.width - text.length) stream.fill ++ text)
    width := 0 }

def number (stream : OStream) (n : Nat) : OStream :=
  stream.write ((Nat.toDigits stream.base n).map Bytes.ofChar)

def setBase (stream : OStream) (base : Nat) : OStream := { stream with base }

def setw (stream : OStream) (width : Nat) : OStream := { stream with width }

def setfill (stream : OStream) (fill : UInt8) : OStream := { stream with fill }

/-- Numbers are decimal, and nothing is padded. -/
structure Plain (stream : OStream) : Prop where
  base : stream.base = 10
  width : stream.width = 0

/-- From a plain stream, a plain stream with a text behind the content. -/
structure Adds (text : Bytes) (before after : OStream) : Prop where
  content : after.content = before.content ++ text
  plain : after.Plain

variable {stream : OStream}

theorem put_adds (plain : stream.Plain) (byte : UInt8) : Adds [byte] stream (stream.put byte) :=
  ⟨rfl, plain.base, plain.width⟩

theorem write_adds (plain : stream.Plain) (text : Bytes) : Adds text stream (stream.write text) := by
  refine ⟨?_, plain.base, rfl⟩
  rw [write, plain.width, Nat.zero_sub, List.replicate_zero, List.nil_append]

theorem number_adds (plain : stream.Plain) (n : Nat) :
    Adds (Bytes.decimal n) stream (stream.number n) := by
  rw [number, plain.base]
  exact write_adds plain _

theorem Adds.trans {first second : Bytes} {before between after : OStream}
    (one : Adds first before between) (two : Adds second between after) :
    Adds (first ++ second) before after := by
  refine ⟨?_, two.plain⟩
  rw [two.content, one.content, List.append_assoc]

/-- Branch rule: the text and the insertion are chosen alike. -/
theorem Adds.branch {c : Prop} [Decidable c] {first second : Bytes} {before one two : OStream}
    (yes : c → Adds first before one) (no : ¬ c → Adds second before two) :
    Adds (if c then first else second) before (if c then one else two) := by
  by_cases here : c
  · rw [if_pos here, if_pos here]
    exact yes here
  · rw [if_neg here, if_neg here]
    exact no here

theorem foldl_adds {α : Type*} {insert : OStream → α → OStream} {text : α → Bytes}
    (each : ∀ stream a, stream.Plain → Adds (text a) stream (insert stream a)) (values : List α)
    (plain : stream.Plain) : Adds (values.flatMap text) stream (values.foldl insert stream) := by
  induction values generalizing stream with
  | nil => exact ⟨(List.append_nil _).symm, plain⟩
  | cons a values ih =>
      have first := each stream a plain
      rw [List.flatMap_cons, List.foldl_cons]
      exact first.trans (ih first.plain)

end OStream
