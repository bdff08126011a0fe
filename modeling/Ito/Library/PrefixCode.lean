import Ito.Library.StructPack
import Mathlib.Data.List.Basic

/-! Codes that can be read off the front of a text without knowing where they end.

Such codes compose: pairs of them, and sequences of nonempty ones, are told apart by their texts. -/

namespace PrefixCode

variable {α β B : Type*}

/-- No code of the domain is followed by anything that another one could be followed by. -/
def Framed (domain : α → Prop) (code : α → List B) : Prop :=
  ∀ a b, domain a → domain b → ∀ rest others,
    code a ++ rest = code b ++ others → a = b ∧ rest = others

theorem Framed.append {first : α → Prop} {second : β → Prop} {code : α → List B}
    {code' : β → List B} (framed : Framed first code) (framed' : Framed second code') :
    Framed (fun pair : α × β => first pair.1 ∧ second pair.2)
      fun pair => code pair.1 ++ code' pair.2 := by
  intro a b inside inside' rest others same
  rw [List.append_assoc, List.append_assoc] at same
  rcases framed a.1 b.1 inside.1 inside'.1 _ _ same with ⟨left, later⟩
  rcases framed' a.2 b.2 inside.2 inside'.2 _ _ later with ⟨right, tail⟩
  exact ⟨Prod.ext left right, tail⟩

/-- A framed code read through an injective view of the values. -/
theorem Framed.comp {domain : β → Prop} {code : β → List B} (framed : Framed domain code)
    (view : α → β) {inside : α → Prop} (maps : ∀ a, inside a → domain (view a))
    (injective : ∀ a b, inside a → inside b → view a = view b → a = b) :
    Framed inside fun a => code (view a) := by
  intro a b here here' rest others same
  rcases framed _ _ (maps a here) (maps b here') rest others same with ⟨equal, tail⟩
  exact ⟨injective a b here here' equal, tail⟩

theorem framed_sized (width : ℕ) :
    Framed (fun text : List UInt8 => text.length < 256 ^ width)
      fun text => StructPack.big width text.length ++ text := by
  intro a b small small' rest others same
  rw [List.append_assoc, List.append_assoc] at same
  rcases List.append_inj same (by rw [StructPack.length_big, StructPack.length_big])
    with ⟨sizes, texts⟩
  have length : a.length = b.length := by
    have read := congrArg StructPack.ofBig sizes
    rwa [StructPack.ofBig_big small, StructPack.ofBig_big small'] at read
  exact List.append_inj texts length

theorem Framed.flatMap_injective {domain : α → Prop} {code : α → List B}
    (framed : Framed domain code) (some' : ∀ a, domain a → code a ≠ []) {first second : List α}
    (inside : ∀ a ∈ first, domain a) (inside' : ∀ a ∈ second, domain a)
    (same : first.flatMap code = second.flatMap code) : first = second := by
  induction first generalizing second with
  | nil =>
      cases second with
      | nil => rfl
      | cons b second =>
          rw [List.flatMap_nil, List.flatMap_cons] at same
          exact absurd (List.append_eq_nil_iff.mp same.symm).1
            (some' b (inside' b List.mem_cons_self))
  | cons a first ih =>
      rcases List.forall_mem_cons.mp inside with ⟨here, rest⟩
      cases second with
      | nil =>
          rw [List.flatMap_nil, List.flatMap_cons] at same
          exact absurd (List.append_eq_nil_iff.mp same).1 (some' a here)
      | cons b second =>
          rcases List.forall_mem_cons.mp inside' with ⟨here', rest'⟩
          rw [List.flatMap_cons, List.flatMap_cons] at same
          rcases framed a b here here' _ _ same with ⟨rfl, tails⟩
          rw [ih rest rest' tails]

end PrefixCode
