import Ito.Library.LittleEndian

/-! Unsigned numbers packed into a fixed number of bytes, in either order.

A value that the width cannot hold has no packed form. -/

namespace StructPack

open LittleEndian

def big (width value : Nat) : List UInt8 := (toBytes width value).reverse

def ofBig (bytes : List UInt8) : Nat := ofBytes bytes.reverse

@[simp] theorem length_big (width value : Nat) : (big width value).length = width := by
  rw [big, List.length_reverse, length_toBytes]

theorem ofBig_big {width value : Nat} (fits : value < 256 ^ width) :
    ofBig (big width value) = value := by
  rw [ofBig, big, List.reverse_reverse, ofBytes_toBytes fits]

theorem ofBig_lt {bytes : List UInt8} {width : Nat} (whole : bytes.length = width) :
    ofBig bytes < 256 ^ width := by
  have small := ofBytes_lt bytes.reverse
  rwa [List.length_reverse, whole] at small

theorem big_ofBig {bytes : List UInt8} {width : Nat} (whole : bytes.length = width) :
    big width (ofBig bytes) = bytes := by
  have same := toBytes_ofBytes bytes.reverse
  rw [List.length_reverse, whole] at same
  rw [big, ofBig, same, List.reverse_reverse]

def Fits (width : Nat) (value : Int) : Prop := 0 ≤ value ∧ value < (256 ^ width : Nat)

instance (width : Nat) (value : Int) : Decidable (Fits width value) :=
  inferInstanceAs (Decidable (_ ∧ _))

def packBig (width : Nat) (value : Int) : Option (List UInt8) :=
  if Fits width value then some (big width value.toNat) else none

def packLittle (width : Nat) (value : Int) : Option (List UInt8) :=
  if Fits width value then some (toBytes width value.toNat) else none

theorem Fits.toNat_lt {width : Nat} {value : Int} (fits : Fits width value) :
    value.toNat < 256 ^ width :=
  (Int.toNat_lt fits.1).mpr fits.2

theorem fits_nat {width value : Nat} : Fits width value ↔ value < 256 ^ width := by
  rw [Fits, Int.ofNat_lt]
  exact and_iff_right (Int.natCast_nonneg value)

theorem packBig_of_fits {width : Nat} {value : Int} (fits : Fits width value) :
    packBig width value = some (big width value.toNat) :=
  if_pos fits

theorem ofBig_toNat {width : Nat} {value : Int} (fits : Fits width value) :
    (ofBig (big width value.toNat) : Int) = value := by
  rw [ofBig_big fits.toNat_lt, Int.toNat_of_nonneg fits.1]

end StructPack
