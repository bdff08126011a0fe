import Ito.Library.LittleEndian
import Mathlib.Data.List.Perm.Basic

/-! Several fields of one byte string. Fields that do not overlap can be written in any order. -/

namespace Layout

open LittleEndian

variable {α : Type*} {bytes out : List α} {writes other : List (Nat × List α)}

/-- The field has the position. A field is where it starts, with its content. -/
def Covers (write : Nat × List α) (position : Nat) : Prop :=
  write.1 ≤ position ∧ position < write.1 + write.2.length

instance (write : Nat × List α) (position : Nat) : Decidable (Covers write position) :=
  inferInstanceAs (Decidable (_ ∧ _))

def Apart (first second : Nat × List α) : Prop :=
  ∀ position, Covers first position → ¬ Covers second position

def writeAll (bytes : List α) (writes : List (Nat × List α)) : Option (List α) :=
  writes.foldlM (fun bytes write => splice bytes write.1 write.2) bytes

theorem Apart.symm {first second : Nat × List α} (apart : Apart first second) :
    Apart second first := fun position late early => apart position early late

theorem length_splice {start : Nat} {part : List α} (written : splice bytes start part = some out) :
    out.length = bytes.length := by
  rw [splice] at written
  split at written
  case isFalse => cases written
  case isTrue fits =>
    rcases Option.some.inj written with rfl
    simp only [List.length_append, List.length_take, List.length_drop]
    omega

theorem getElem?_splice {start : Nat} {part : List α}
    (written : splice bytes start part = some out) (position : Nat) :
    out[position]? =
      if Covers (start, part) position then part[position - start]? else bytes[position]? := by
  rw [splice] at written
  split at written
  case isFalse => cases written
  case isTrue fits =>
    rcases Option.some.inj written with rfl
    have front : (bytes.take start).length = start := by
      rw [List.length_take]
      omega
    by_cases covers : Covers (start, part) position
    · have low : start ≤ position := covers.1
      have high : position < start + part.length := covers.2
      rw [if_pos covers, List.getElem?_append_right (by omega), front,
        List.getElem?_append_left (by omega)]
    · rw [if_neg covers]
      by_cases early : position < start
      · rw [List.getElem?_append_left (by omega), List.getElem?_take_of_lt early]
      · have late : start + part.length ≤ position :=
          not_lt.mp fun high => covers ⟨not_lt.mp early, high⟩
        rw [List.getElem?_append_right (by omega), front,
          List.getElem?_append_right (by omega), List.getElem?_drop]
        congr 1
        omega

theorem writeAll_cons (bytes : List α) (write : Nat × List α) (writes : List (Nat × List α)) :
    writeAll bytes (write :: writes) =
      (splice bytes write.1 write.2).bind fun bytes => writeAll bytes writes := rfl

/-- Fields that lie within the bytes can be written, and where they are apart, every one of them is
there afterwards and nothing else has changed. -/
theorem writeAll_spec (fits : ∀ write ∈ writes, write.1 + write.2.length ≤ bytes.length)
    (apart : writes.Pairwise Apart) :
    ∃ out, writeAll bytes writes = some out ∧ out.length = bytes.length ∧
      ∀ position,
        (∀ write ∈ writes, Covers write position →
          out[position]? = write.2[position - write.1]?) ∧
        ((∀ write ∈ writes, ¬ Covers write position) → out[position]? = bytes[position]?) := by
  induction writes generalizing bytes with
  | nil => exact ⟨bytes, rfl, rfl, fun position => by simp⟩
  | cons write writes ih =>
      rcases List.forall_mem_cons.mp fits with ⟨here, others⟩
      rcases List.pairwise_cons.mp apart with ⟨alone, rest⟩
      have spliced : splice bytes write.1 write.2 = some _ := if_pos here
      have length := length_splice spliced
      rcases ih (fun later member => by rw [length]; exact others later member) rest with
        ⟨out, written, same, each⟩
      refine ⟨out, ?_, same.trans length, ?_⟩
      · rw [writeAll_cons, spliced]
        exact written
      · intro position
        rcases each position with ⟨inside, outside⟩
        have before := getElem?_splice spliced position
        constructor
        · intro chosen member covers
          rcases List.mem_cons.mp member with rfl | later
          · rw [outside fun later member => alone later member position covers, before,
              if_pos covers]
          · exact inside chosen later covers
        · intro free
          rcases List.forall_mem_cons.mp free with ⟨first, later⟩
          rw [outside later, before, if_neg first]

theorem field_writeAll (fits : ∀ write ∈ writes, write.1 + write.2.length ≤ bytes.length)
    (apart : writes.Pairwise Apart) (written : writeAll bytes writes = some out)
    {write : Nat × List α} (member : write ∈ writes) :
    field out write.1 write.2.length = write.2 := by
  rcases writeAll_spec fits apart with ⟨result, same, length, each⟩
  rcases Option.some.inj (written.symm.trans same) with rfl
  apply List.ext_getElem?
  intro position
  rw [field]
  by_cases inside : position < write.2.length
  · rw [List.getElem?_take_of_lt inside, List.getElem?_drop,
      (each (write.1 + position)).1 write member ⟨by omega, by omega⟩]
    congr 1
    omega
  · rw [List.getElem?_eq_none (by rw [List.length_take]; omega), List.getElem?_eq_none (by omega)]

theorem writeAll_perm (perm : writes.Perm other)
    (fits : ∀ write ∈ writes, write.1 + write.2.length ≤ bytes.length)
    (apart : writes.Pairwise Apart) : writeAll bytes writes = writeAll bytes other := by
  have apart' : other.Pairwise Apart := (perm.pairwise_iff Apart.symm).mp apart
  rcases writeAll_spec fits apart with ⟨first, written, -, each⟩
  rcases writeAll_spec (fun write member => fits write (perm.mem_iff.mpr member)) apart' with
    ⟨second, written', -, each'⟩
  rw [written, written']
  refine congrArg some (List.ext_getElem? fun position => ?_)
  by_cases covered : ∃ write ∈ writes, Covers write position
  · rcases covered with ⟨write, member, covers⟩
    rw [(each position).1 write member covers,
      (each' position).1 write (perm.mem_iff.mp member) covers]
  · have free : ∀ write ∈ writes, ¬ Covers write position := fun write member covers =>
      covered ⟨write, member, covers⟩
    rw [(each position).2 free,
      (each' position).2 fun write member => free write (perm.mem_iff.mpr member)]

end Layout
