import Mathlib.Data.List.Sort
import Mathlib.Data.List.Nodup

/-! Stable sorting by a key.

A sorted list is determined by what it holds of each key, and a stable sort leaves that alone. -/

namespace StableSort

variable {α K : Type*} [LinearOrder K] {key : α → K} {front back first second : List α}

/-- Python's `sorted` with a key. -/
def sorted (key : α → K) (items : List α) : List α := items.insertionSort fun a b => key a ≤ key b

def withKey (key : α → K) (k : K) (items : List α) : List α := items.filter fun a => key a = k

theorem withKey_append (k : K) :
    withKey key k (front ++ back) = withKey key k front ++ withKey key k back :=
  List.filter_append _ _

theorem withKey_cons_self (a : α) (items : List α) :
    withKey key (key a) (a :: items) = a :: withKey key (key a) items :=
  List.filter_cons_of_pos (by simp)

theorem withKey_cons_ne {a : α} {k : K} (differ : key a ≠ k) (items : List α) :
    withKey key k (a :: items) = withKey key k items :=
  List.filter_cons_of_neg (by simpa using differ)

theorem sorted_perm (items : List α) : (sorted key items).Perm items := List.perm_insertionSort _ _

theorem sorted_pairwise (items : List α) :
    (sorted key items).Pairwise fun a b => key a ≤ key b := by
  have total : Std.Total fun a b : α => key a ≤ key b := ⟨fun a b => le_total (key a) (key b)⟩
  have trans : IsTrans α fun a b => key a ≤ key b := ⟨fun _ _ _ => le_trans⟩
  exact List.pairwise_insertionSort _ _

theorem withKey_orderedInsert (k : K) (a : α) (items : List α) :
    withKey key k (items.orderedInsert (fun a b => key a ≤ key b) a) =
      withKey key k (a :: items) := by
  induction items with
  | nil => rfl
  | cons b items ih =>
      rw [List.orderedInsert_cons]
      split
      case isTrue => rfl
      case isFalse above =>
        by_cases here : key b = k
        · have other : key a ≠ k := fun same => above (same.trans here.symm).le
          subst here
          rw [withKey_cons_self, ih, withKey_cons_ne other, withKey_cons_ne other,
            withKey_cons_self]
        · rw [withKey_cons_ne here, ih]
          by_cases same : key a = k
          · subst same
            rw [withKey_cons_self, withKey_cons_self, withKey_cons_ne here]
          · rw [withKey_cons_ne same, withKey_cons_ne same, withKey_cons_ne here]

theorem withKey_sorted (k : K) (items : List α) :
    withKey key k (sorted key items) = withKey key k items := by
  induction items with
  | nil => rfl
  | cons a items ih =>
      rw [sorted, List.insertionSort_cons, withKey_orderedInsert]
      by_cases same : key a = k
      · subst same
        rw [withKey_cons_self, withKey_cons_self]
        exact congrArg (a :: ·) ih
      · rw [withKey_cons_ne same, withKey_cons_ne same]
        exact ih

theorem mem_withKey {a : α} {k : K} {items : List α} :
    a ∈ withKey key k items ↔ a ∈ items ∧ key a = k := by
  rw [withKey, List.mem_filter, decide_eq_true_eq]

theorem eq_of_withKey (early : first.Pairwise fun a b => key a ≤ key b)
    (late : second.Pairwise fun a b => key a ≤ key b)
    (same : ∀ k, withKey key k first = withKey key k second) : first = second := by
  induction first generalizing second with
  | nil =>
      cases second with
      | nil => rfl
      | cons b second =>
          have none := same (key b)
          rw [withKey_cons_self] at none
          cases none
  | cons a first ih =>
      cases second with
      | nil =>
          have none := same (key a)
          rw [withKey_cons_self] at none
          cases none
      | cons b second =>
          rcases List.pairwise_cons.mp early with ⟨least, restEarly⟩
          rcases List.pairwise_cons.mp late with ⟨leastLate, restLate⟩
          have there : a ∈ withKey key (key a) (b :: second) := by
            rw [← same, withKey_cons_self]
            exact List.mem_cons_self
          have here : b ∈ withKey key (key b) (a :: first) := by
            rw [same, withKey_cons_self]
            exact List.mem_cons_self
          have keys : key a = key b := by
            apply le_antisymm
            · rcases List.mem_cons.mp (mem_withKey.mp here).1 with rfl | later
              · exact le_rfl
              · exact least b later
            · rcases List.mem_cons.mp (mem_withKey.mp there).1 with rfl | later
              · exact le_rfl
              · exact leastLate a later
          have heads := same (key a)
          rw [withKey_cons_self, keys, withKey_cons_self] at heads
          rcases List.cons.inj heads with ⟨rfl, -⟩
          refine congrArg (a :: ·) (ih restEarly restLate fun k => ?_)
          have both := same k
          by_cases this : key a = k
          · subst this
            rw [withKey_cons_self, withKey_cons_self] at both
            exact (List.cons.inj both).2
          · rwa [withKey_cons_ne this, withKey_cons_ne this] at both

theorem sorted_eq_iff :
    sorted key first = sorted key second ↔ ∀ k, withKey key k first = withKey key k second := by
  constructor
  · intro same k
    rw [← withKey_sorted, same, withKey_sorted]
  · intro same
    apply eq_of_withKey (sorted_pairwise first) (sorted_pairwise second)
    intro k
    rw [withKey_sorted, withKey_sorted, same]

theorem sorted_eq_of_perm (perm : first.Perm second) (distinct : (first.map key).Nodup) :
    sorted key first = sorted key second := by
  have both : (sorted key first).Perm (sorted key second) :=
    (sorted_perm first).trans (perm.trans (sorted_perm second).symm)
  apply both.eq_of_pairwise _ (sorted_pairwise first) (sorted_pairwise second)
  intro a b early late below above
  have late := perm.mem_iff.mpr ((sorted_perm second).mem_iff.mp late)
  exact List.inj_on_of_nodup_map distinct ((sorted_perm first).mem_iff.mp early) late
    (le_antisymm below above)

theorem sorted_append (before : ∀ a ∈ front, ∀ b ∈ back, key a ≤ key b) :
    sorted key (front ++ back) = sorted key front ++ sorted key back := by
  apply eq_of_withKey (sorted_pairwise _)
  · refine List.pairwise_append.mpr ⟨sorted_pairwise front, sorted_pairwise back, ?_⟩
    intro a member b other
    exact before a ((sorted_perm front).mem_iff.mp member) b ((sorted_perm back).mem_iff.mp other)
  · intro k
    rw [withKey_sorted, withKey_append, withKey_append, withKey_sorted, withKey_sorted]

theorem sorted_map {β : Type*} (f : β → α) (items : List β) :
    sorted key (items.map f) = (sorted (fun b => key (f b)) items).map f := by
  rw [sorted, sorted]
  exact (List.map_insertionSort _ _ f items fun _ _ _ _ => Iff.rfl).symm

theorem sorted_filter (keep : α → Bool) (items : List α) :
    (sorted key items).filter keep = sorted key (items.filter keep) := by
  apply eq_of_withKey ((sorted_pairwise items).filter keep) (sorted_pairwise _)
  intro k
  have swap : ∀ others : List α, withKey key k (others.filter keep) =
      (withKey key k others).filter keep := by
    intro others
    rw [withKey, withKey, List.filter_filter, List.filter_filter]
    exact List.filter_congr fun a _ => Bool.and_comm _ _
  rw [swap, withKey_sorted, withKey_sorted, swap]

end StableSort
