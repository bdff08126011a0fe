import Mathlib.Data.Finmap

/-! An index from keys to the elements of a list.

The index and the list hold the same elements, and no key occurs twice. -/

namespace Index

variable {K : Type*} [DecidableEq K] {α : Type*} (key : α → K)

structure Of (index : Finmap fun _ : K => α) (list : List α) : Prop where
  nodup : (list.map key).Nodup
  lookup : ∀ k x, index.lookup k = some x ↔ x ∈ list ∧ key x = k

variable {key} {index : Finmap fun _ : K => α} {list : List α} {x y : α}

theorem of_empty : Of key ∅ [] := by
  constructor <;> simp

theorem of_perm {other : List α} (same : list.Perm other) (held : Of key index list) :
    Of key index other where
  nodup := (same.map key).nodup_iff.mp held.nodup
  lookup k x := by rw [held.lookup, same.mem_iff]

theorem mem_iff (held : Of key index list) (k : K) : k ∈ index ↔ k ∈ list.map key := by
  rw [Finmap.mem_iff, List.mem_map]
  constructor
  · intro present
    rcases present with ⟨x, found⟩
    exact ⟨x, (held.lookup k x).mp found⟩
  · intro present
    rcases present with ⟨x, member⟩
    exact ⟨x, (held.lookup k x).mpr member⟩

theorem perm_cons_filter (nodup : (list.map key).Nodup) (member : x ∈ list) :
    list.Perm (x :: list.filter fun y => key y ≠ key x) := by
  have inner : x ∉ list.filter fun y => key y ≠ key x := by simp
  apply (List.perm_ext_iff_of_nodup nodup.of_map
    (List.nodup_cons.mpr ⟨inner, nodup.of_map.filter _⟩)).mpr
  intro y
  rw [List.mem_cons, List.mem_filter, decide_eq_true_eq]
  constructor
  · intro among
    by_cases same : key y = key x
    · exact Or.inl (List.inj_on_of_nodup_map nodup among member same)
    · exact Or.inr ⟨among, same⟩
  · rintro (rfl | ⟨among, _⟩)
    · exact member
    · exact among

theorem of_insert (held : Of key index list) (fresh : key x ∉ list.map key) :
    Of key (index.insert (key x) x) (x :: list) where
  nodup := List.nodup_cons.mpr ⟨fresh, held.nodup⟩
  lookup k y := by
    by_cases same : k = key x
    · subst same
      rw [Finmap.lookup_insert, Option.some.injEq, List.mem_cons]
      constructor
      · rintro rfl
        exact ⟨Or.inl rfl, rfl⟩
      · rintro ⟨rfl | old, equal⟩
        · rfl
        · exact absurd (List.mem_map.mpr ⟨y, old, equal⟩) fresh
    · rw [Finmap.lookup_insert_of_ne _ same, held.lookup, List.mem_cons]
      constructor
      · intro entry
        rcases entry with ⟨old, equal⟩
        exact ⟨Or.inr old, equal⟩
      · rintro ⟨rfl | old, equal⟩
        · exact absurd equal.symm same
        · exact ⟨old, equal⟩

theorem of_erase (held : Of key index (x :: list)) : Of key (index.erase (key x)) list where
  nodup := (List.nodup_cons.mp held.nodup).2
  lookup k y := by
    have absent := (List.nodup_cons.mp held.nodup).1
    by_cases same : k = key x
    · subst same
      rw [Finmap.lookup_erase]
      constructor
      · intro none
        cases none
      · intro entry
        rcases entry with ⟨member, equal⟩
        exact absurd (List.mem_map.mpr ⟨y, member, equal⟩) absent
    · rw [Finmap.lookup_erase_ne same, held.lookup, List.mem_cons]
      constructor
      · rintro ⟨rfl | member, equal⟩
        · exact absurd equal.symm same
        · exact ⟨member, equal⟩
      · intro entry
        rcases entry with ⟨member, equal⟩
        exact ⟨Or.inr member, equal⟩

theorem of_update (held : Of key index (x :: list)) (same : key y = key x) :
    Of key (index.insert (key x) y) (y :: list) := by
  have fresh : key y ∉ list.map key := same ▸ (List.nodup_cons.mp held.nodup).1
  have inserted := of_insert (of_erase held) fresh
  rw [same] at inserted
  constructor
  · exact inserted.nodup
  · intro k z
    rw [← inserted.lookup k z]
    by_cases equal : k = key x
    · rw [equal, Finmap.lookup_insert, Finmap.lookup_insert]
    · rw [Finmap.lookup_insert_of_ne _ equal, Finmap.lookup_insert_of_ne _ equal,
        Finmap.lookup_erase_ne equal]

theorem card_keys (held : Of key index list) : index.keys.card = list.length := by
  have same : index.keys = (list.map key).toFinset := by
    ext k
    rw [Finmap.mem_keys, mem_iff held, List.mem_toFinset]
  rw [same, List.toFinset_card_of_nodup held.nodup, List.length_map]

/-! An index of all the elements, where a later element takes the place of an earlier one -/

section Latest

variable (key)

def latest (items : List α) : Finmap fun _ : K => α :=
  items.foldl (fun index item => index.insert (key item) item) ∅

theorem lookup_latest (items : List α) (k : K) :
    (latest key items).lookup k = (items.filter fun item => key item = k).getLast? := by
  induction items using List.reverseRecOn with
  | nil => simp [latest]
  | append_singleton items item ih =>
      rw [latest, List.foldl_concat, ← latest, List.filter_append]
      by_cases own : k = key item
      · rw [own, Finmap.lookup_insert]
        simp
      · rw [Finmap.lookup_insert_of_ne _ own, ih, List.filter_cons_of_neg]
        · simp
        · exact fun same => own (of_decide_eq_true same).symm

theorem mem_latest (items : List α) (k : K) : k ∈ latest key items ↔ k ∈ items.map key := by
  rw [← Finmap.lookup_isSome, lookup_latest, List.getLast?_isSome, List.mem_map, ne_eq,
    List.filter_eq_nil_iff]
  simp

theorem lookup_latest_nodup {items : List α} (nodup : (items.map key).Nodup) {k : K} {item : α} :
    (latest key items).lookup k = some item ↔ item ∈ items ∧ key item = k := by
  rw [lookup_latest]
  constructor
  · intro found
    have member := List.mem_filter.mp (List.mem_of_getLast? found)
    exact ⟨member.1, of_decide_eq_true member.2⟩
  · rintro ⟨member, rfl⟩
    have alone : ∀ other ∈ items.filter (fun other => key other = key item), other = item := by
      intro other among
      rcases List.mem_filter.mp among with ⟨inside, same⟩
      exact List.inj_on_of_nodup_map nodup inside member (of_decide_eq_true same)
    have own : item ∈ items.filter fun other => key other = key item :=
      List.mem_filter.mpr ⟨member, decide_eq_true rfl⟩
    rw [List.getLast?_eq_getLast_of_ne_nil (List.ne_nil_of_mem own)]
    exact congrArg some (alone _ (List.getLast_mem _))

end Latest

end Index
