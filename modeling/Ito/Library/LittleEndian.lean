import Mathlib.Algebra.Order.Ring.Nat
import Mathlib.Data.List.Basic

/-! Numbers as little-endian bytes, and fields at fixed offsets of a byte string. -/

namespace LittleEndian

/-- The lowest `n` bytes of a number, the least one first. -/
def toBytes : Nat → Nat → List UInt8
  | 0, _ => []
  | n + 1, value => UInt8.ofNat (value % 256) :: toBytes n (value / 256)

def ofBytes : List UInt8 → Nat
  | [] => 0
  | byte :: bytes => byte.toNat + 256 * ofBytes bytes

@[simp] theorem length_toBytes (n value : Nat) : (toBytes n value).length = n := by
  induction n generalizing value with
  | zero => rfl
  | succ n ih => rw [toBytes, List.length_cons, ih]

theorem ofBytes_lt (bytes : List UInt8) : ofBytes bytes < 256 ^ bytes.length := by
  induction bytes with
  | nil => exact Nat.one_pos
  | cons byte bytes ih =>
      have small := byte.toNat_lt
      rw [ofBytes, List.length_cons, Nat.pow_succ]
      omega

theorem ofBytes_toBytes {n value : Nat} (fits : value < 256 ^ n) :
    ofBytes (toBytes n value) = value := by
  induction n generalizing value with
  | zero =>
      rw [Nat.pow_zero] at fits
      exact (Nat.lt_one_iff.mp fits).symm
  | succ n ih =>
      have rest : value / 256 < 256 ^ n := by
        rw [Nat.pow_succ] at fits
        exact Nat.div_lt_of_lt_mul (by omega)
      have byte : (UInt8.ofNat (value % 256)).toNat = value % 256 := by
        rw [UInt8.toNat_ofNat']
        omega
      rw [toBytes, ofBytes, ih rest, byte]
      omega

theorem toBytes_ofBytes (bytes : List UInt8) : toBytes bytes.length (ofBytes bytes) = bytes := by
  induction bytes with
  | nil => rfl
  | cons byte bytes ih =>
      have small := byte.toNat_lt
      have low : UInt8.ofNat ((byte.toNat + 256 * ofBytes bytes) % 256) = byte := by
        apply UInt8.toNat_inj.mp
        rw [UInt8.toNat_ofNat']
        omega
      have high : (byte.toNat + 256 * ofBytes bytes) / 256 = ofBytes bytes := by omega
      rw [ofBytes, List.length_cons, toBytes, low, high, ih]

variable {α : Type*}

/-- The `n` bytes from an offset on. -/
def field (bytes : List α) (start n : Nat) : List α := (bytes.drop start).take n

theorem length_field {bytes : List α} {start n : Nat} (fits : start + n ≤ bytes.length) :
    (field bytes start n).length = n := by
  rw [field, List.length_take, List.length_drop]
  omega

theorem drop_eq_field (bytes : List α) {start n stop : Nat} (next : start + n = stop) :
    bytes.drop start = field bytes start n ++ bytes.drop stop := by
  rw [field, ← next, ← List.drop_drop, List.take_append_drop]

theorem field_field (bytes : List α) (start : Nat) {n inner m : Nat} (inside : inner + m ≤ n) :
    field (field bytes start n) inner m = field bytes (start + inner) m := by
  rw [field, field, field, List.drop_take, List.take_take, List.drop_drop, Nat.min_eq_left]
  omega

theorem field_skip {front rest : List α} {start n : Nat} (past : front.length ≤ start) :
    field (front ++ rest) start n = field rest (start - front.length) n := by
  rw [field, List.drop_append, List.drop_eq_nil_of_le past, List.nil_append, field]

theorem field_head {front rest : List α} {n : Nat} (whole : front.length = n) :
    field (front ++ rest) 0 n = front := by
  rw [field, List.drop_zero, ← whole, List.take_left]

theorem field_whole {bytes : List α} {n : Nat} (whole : bytes.length = n) :
    field bytes 0 n = bytes := by
  rw [field, List.drop_zero, ← whole, List.take_length]

/-- The bytes with a part overwritten from an offset on, if it lies within them. -/
def splice (bytes : List α) (start : Nat) (part : List α) : Option (List α) :=
  if start + part.length ≤ bytes.length then
    some (bytes.take start ++ (part ++ bytes.drop (start + part.length)))
  else none

theorem splice_skip {front rest part : List α} {start : Nat} (past : front.length ≤ start) :
    splice (front ++ rest) start part =
      (splice rest (start - front.length) part).map (front ++ ·) := by
  have fits : start + part.length ≤ (front ++ rest).length ↔
      start - front.length + part.length ≤ rest.length := by
    rw [List.length_append]
    omega
  have behind : start + part.length - front.length = start - front.length + part.length := by
    omega
  simp only [splice, fits]
  split
  · rw [List.take_append, List.take_of_length_le past, List.drop_append,
      List.drop_eq_nil_of_le (by omega), List.nil_append, behind, Option.map_some,
      List.append_assoc]
  · rfl

theorem splice_head {old rest part : List α} (same : old.length = part.length) :
    splice (old ++ rest) 0 part = some (part ++ rest) := by
  rw [splice, if_pos (by rw [List.length_append]; omega), List.take_zero, List.nil_append,
    Nat.zero_add, ← same, List.drop_left]

theorem splice_whole {old part : List α} (same : old.length = part.length) :
    splice old 0 part = some part := by
  have head : splice (old ++ []) 0 part = some (part ++ []) := splice_head same
  rwa [List.append_nil, List.append_nil] at head

end LittleEndian
