import Mathlib.Order.Defs.Unbundled
import Mathlib.Data.List.Perm.Basic
import Mathlib.Algebra.BigOperators.Group.List.Basic
import Mathlib.Data.String.Basic

/-! Maps kept as association lists in the order of their keys.

The order is a parameter, so one map iterates upwards and another downwards.
The first entry is the one an iteration starts from. -/

structure SortedMap {K : Type*} (before : K → K → Prop) (V : Type*) where
  entries : List (K × V)
  sorted : entries.Pairwise fun a b => before a.1 b.1

namespace SortedMap

variable {K V : Type*} {before : K → K → Prop}

instance textBefore : IsTrans String fun a b => a < b := ⟨fun _ _ _ => lt_trans⟩

def empty : SortedMap before V := ⟨[], List.Pairwise.nil⟩

def find? [DecidableEq K] (map : SortedMap before V) (key : K) : Option V :=
  map.entries.lookup key

def erase [DecidableEq K] (map : SortedMap before V) (key : K) : SortedMap before V :=
  ⟨map.entries.filter fun entry => entry.1 ≠ key, map.sorted.filter _⟩

def set [DecidableRel before] [IsTrans K before] (map : SortedMap before V) (key : K) (value : V) :
    SortedMap before V where
  entries := map.entries.filter (fun entry => before entry.1 key) ++
    (key, value) :: map.entries.filter fun entry => before key entry.1
  sorted := by
    simp only [List.pairwise_append, List.pairwise_cons, List.mem_filter, List.mem_cons,
      decide_eq_true_eq]
    refine ⟨map.sorted.filter _, ⟨fun entry later => later.2, map.sorted.filter _⟩, ?_⟩
    rintro first ⟨_, earlier⟩ second (rfl | ⟨_, later⟩)
    · exact earlier
    · exact trans_of before earlier later

def mapValues {W : Type*} (map : SortedMap before V) (f : K → V → W) : SortedMap before W :=
  ⟨map.entries.map fun entry => (entry.1, f entry.1 entry.2), List.pairwise_map.mpr map.sorted⟩

def best (n : Nat) (map : SortedMap before V) : SortedMap before V :=
  ⟨map.entries.take n, map.sorted.sublist (List.take_sublist n map.entries)⟩

def flat {α : Type*} (map : SortedMap before (List α)) : List α := map.entries.flatMap Prod.snd

theorem mem_flat {α : Type*} {levels : SortedMap before (List α)} {x : α} :
    x ∈ levels.flat ↔ ∃ key level, (key, level) ∈ levels.entries ∧ x ∈ level := by
  simp [flat]

variable (map : SortedMap before V) {key other : K} {value old : V}

@[simp] theorem entries_best (n : Nat) : (map.best n).entries = map.entries.take n := rfl

theorem mem_erase [DecidableEq K] : (other, value) ∈ (map.erase key).entries ↔
    other ≠ key ∧ (other, value) ∈ map.entries := by
  simp [erase, and_comm]

variable [IsStrictTotalOrder K before]

theorem entries_nodup : map.entries.Nodup := by
  apply map.sorted.imp
  intro first second earlier same
  rw [same] at earlier
  exact irrefl_of before second.1 earlier

theorem keys_nodup : (map.entries.map Prod.fst).Nodup := by
  refine List.pairwise_map.mpr (map.sorted.imp ?_)
  intro first second earlier same
  rw [same] at earlier
  exact irrefl_of before second.1 earlier

section Find

variable [DecidableEq K]

theorem lookup_eq_some_iff_mem {entries : List (K × V)}
    (sorted : entries.Pairwise fun a b => before a.1 b.1) :
    entries.lookup key = some value ↔ (key, value) ∈ entries := by
  induction entries with
  | nil => simp
  | cons entry rest ih =>
      rcases List.pairwise_cons.mp sorted with ⟨least, tail⟩
      rw [List.lookup_cons, List.mem_cons]
      by_cases same : key = entry.1
      · subst same
        have absent : (entry.1, value) ∉ rest := fun member =>
          irrefl_of before entry.1 (least (entry.1, value) member)
        simp [absent, Prod.ext_iff, eq_comm]
      · have differs : (key, value) ≠ entry := fun equal => same (congrArg Prod.fst equal)
        rw [beq_eq_false_iff_ne.mpr same, ih tail]
        simp [differs]

theorem find?_eq_some : map.find? key = some value ↔ (key, value) ∈ map.entries :=
  lookup_eq_some_iff_mem map.sorted

theorem mem_keys_iff : key ∈ map.entries.map Prod.fst ↔ (map.find? key).isSome := by
  rw [Option.isSome_iff_exists, List.mem_map]
  constructor
  · rintro ⟨⟨_, value⟩, member, rfl⟩
    exact ⟨value, (find?_eq_some map).mpr member⟩
  · rintro ⟨value, found⟩
    exact ⟨(key, value), (find?_eq_some map).mp found, rfl⟩

theorem ext_find? {map other : SortedMap before V}
    (same : ∀ key, map.find? key = other.find? key) : map = other := by
  have perm : map.entries.Perm other.entries := by
    apply (List.perm_ext_iff_of_nodup map.entries_nodup other.entries_nodup).mpr
    rintro ⟨key, value⟩
    rw [← find?_eq_some, ← find?_eq_some, same]
  have entries : map.entries = other.entries := by
    apply perm.eq_of_pairwise _ map.sorted other.sorted
    intro first second _ _ earlier later
    exact absurd later (asymm_of before earlier)
  cases map
  cases other
  cases entries
  rfl

theorem find?_mapValues {W : Type*} (f : K → V → W) (key : K) :
    (map.mapValues f).find? key = (map.find? key).map (f key) := by
  apply Option.ext
  intro value
  rw [find?_eq_some, Option.map_eq_some_iff]
  simp [mapValues, find?_eq_some]

theorem find?_erase (key other : K) :
    (map.erase key).find? other = if other = key then none else map.find? other := by
  apply Option.ext
  intro value
  rw [find?_eq_some, mem_erase]
  split
  case isTrue same => simp [same]
  case isFalse differ => simp [differ, find?_eq_some]

theorem entries_erase_first {rest : List (K × V)} (first : map.entries = (key, value) :: rest) :
    (map.erase key).entries = rest := by
  have sorted := map.sorted
  rw [first, List.pairwise_cons] at sorted
  simp only [erase, first, ne_eq, not_true_eq_false, decide_false, Bool.false_eq_true,
    not_false_eq_true, List.filter_cons_of_neg]
  apply List.filter_eq_self.mpr
  intro entry member
  apply decide_eq_true
  intro same
  have later := sorted.1 entry member
  rw [same] at later
  exact irrefl_of before key later

theorem perm_cons_erase (member : (key, value) ∈ map.entries) :
    map.entries.Perm ((key, value) :: (map.erase key).entries) := by
  have fresh : (key, value) ∉ (map.erase key).entries := by simp [mem_erase]
  apply (List.perm_ext_iff_of_nodup map.entries_nodup
    (List.nodup_cons.mpr ⟨fresh, (map.erase key).entries_nodup⟩)).mpr
  intro entry
  rcases entry with ⟨other, old⟩
  rw [List.mem_cons, mem_erase, Prod.mk.injEq]
  by_cases same : other = key
  · subst same
    simp only [true_and, ne_eq, not_true_eq_false, false_and, or_false]
    constructor
    · intro entry
      have found := (find?_eq_some map).mpr entry
      rw [(find?_eq_some map).mpr member] at found
      exact (Option.some.inj found).symm
    · rintro rfl
      exact member
  · simp [same]

theorem entries_erase :
    (map.erase key).entries = map.entries.eraseIdx (map.entries.findIdx fun e => e.1 = key) := by
  rcases map with ⟨entries, sorted⟩
  simp only [erase]
  induction entries with
  | nil => rfl
  | cons entry rest ih =>
      rcases List.pairwise_cons.mp sorted with ⟨least, tail⟩
      by_cases same : entry.1 = key
      · have kept : rest.filter (fun e => e.1 ≠ key) = rest := by
          apply List.filter_eq_self.mpr
          intro later member
          apply decide_eq_true
          intro again
          have order := least later member
          rw [same, again] at order
          exact irrefl_of before key order
        rw [List.filter_cons_of_neg (by simp [same]), kept, List.findIdx_cons]
        simp [same]
      · rw [List.filter_cons_of_pos (by simp [same]), ih tail, List.findIdx_cons]
        simp [same]

theorem entries_erase_absent (absent : map.find? key = none) :
    (map.erase key).entries = map.entries := by
  apply List.filter_eq_self.mpr
  intro entry member
  apply decide_eq_true
  intro same
  have present := (find?_eq_some map).mpr member
  rw [same, absent] at present
  cases present

end Find

section Set

variable [DecidableRel before]

theorem mem_set : (other, old) ∈ (map.set key value).entries ↔
    (other = key ∧ old = value) ∨ (other ≠ key ∧ (other, old) ∈ map.entries) := by
  simp only [set, List.mem_append, List.mem_filter, List.mem_cons, decide_eq_true_eq,
    Prod.mk.injEq]
  rcases trichotomous_of before other key with earlier | same | later
  · have differ : other ≠ key := ne_of_irrefl earlier
    have order : ¬ before key other := asymm_of before earlier
    simp [earlier, differ, order]
  · subst same
    simp [irrefl_of before]
  · have differ : other ≠ key := (ne_of_irrefl later).symm
    have order : ¬ before other key := asymm_of before later
    simp [later, differ, order]

theorem entries_set_first {rest : List (K × V)} (first : map.entries = (key, old) :: rest) :
    (map.set key value).entries = (key, value) :: rest := by
  have sorted := map.sorted
  rw [first, List.pairwise_cons] at sorted
  have none_before : rest.filter (fun entry => before entry.1 key) = [] := by
    apply List.filter_eq_nil_iff.mpr
    intro entry member
    simpa using asymm_of before (sorted.1 entry member)
  have all_after : rest.filter (fun entry => before key entry.1) = rest := by
    apply List.filter_eq_self.mpr
    intro entry member
    simpa using sorted.1 entry member
  simp [set, first, irrefl_of before, none_before, all_after]

theorem entries_set_absent (absent : ∀ entry ∈ map.entries, entry.1 ≠ key) :
    (map.set key value).entries =
      map.entries.insertIdx (map.entries.findIdx fun e => before key e.1) (key, value) := by
  rcases map with ⟨entries, sorted⟩
  simp only [set]
  induction entries with
  | nil => rfl
  | cons entry rest ih =>
      rcases List.pairwise_cons.mp sorted with ⟨least, tail⟩
      rcases List.forall_mem_cons.mp absent with ⟨differ, others⟩
      rw [List.findIdx_cons]
      by_cases later : before key entry.1
      · have all : ∀ e ∈ entry :: rest, before key e.1 := by
          intro e member
          rcases List.mem_cons.mp member with rfl | among
          · exact later
          · exact trans_of before later (least e among)
        have none : (entry :: rest).filter (fun e => before e.1 key) = [] := by
          apply List.filter_eq_nil_iff.mpr
          intro e member
          simpa using asymm_of before (all e member)
        have whole : (entry :: rest).filter (fun e => before key e.1) = entry :: rest := by
          apply List.filter_eq_self.mpr
          intro e member
          exact decide_eq_true (all e member)
        rw [none, whole]
        simp [later]
      · have earlier : before entry.1 key := by
          rcases trichotomous_of before entry.1 key with first | same | last
          · exact first
          · exact absurd same differ
          · exact absurd last later
        rw [List.filter_cons_of_pos (by simp [earlier]),
          List.filter_cons_of_neg (by simp [later]), List.cons_append, ih tail others]
        simp [later]

variable [DecidableEq K]

theorem find?_set_self : (map.set key value).find? key = some value := by
  rw [find?_eq_some, mem_set]
  exact Or.inl ⟨rfl, rfl⟩

theorem find?_set_ne (differ : other ≠ key) : (map.set key value).find? other = map.find? other := by
  apply Option.ext
  intro old
  rw [find?_eq_some, mem_set, find?_eq_some]
  simp [differ]

theorem find?_set (key other : K) (value : V) :
    (map.set key value).find? other = if other = key then some value else map.find? other := by
  split
  case isTrue same =>
    rw [same]
    exact map.find?_set_self
  case isFalse differ => exact map.find?_set_ne differ

theorem set_perm_cons_erase :
    (map.set key value).entries.Perm ((key, value) :: (map.erase key).entries) := by
  have fresh : (key, value) ∉ (map.erase key).entries := by simp [mem_erase]
  apply (List.perm_ext_iff_of_nodup (map.set key value).entries_nodup
    (List.nodup_cons.mpr ⟨fresh, (map.erase key).entries_nodup⟩)).mpr
  intro entry
  rcases entry with ⟨other, old⟩
  rw [mem_set, List.mem_cons, mem_erase, Prod.mk.injEq]

theorem entries_set_between (absent : map.find? key = none) (value : V) :
    ∃ first last, map.entries = first ++ last ∧
      (map.set key value).entries = first ++ (key, value) :: last := by
  have kept : (map.set key value).erase key = map := by
    apply ext_find?
    intro other
    rw [find?_erase, find?_set]
    split
    case isTrue same => rw [same, absent]
    case isFalse => rfl
  have others : ∀ entries : List (K × V), (∀ entry ∈ entries, entry.1 ≠ key) →
      entries.filter (fun entry => entry.1 ≠ key) = entries := by
    intro entries differ
    exact List.filter_eq_self.mpr fun entry member => decide_eq_true (differ entry member)
  refine ⟨map.entries.filter fun entry => before entry.1 key,
    map.entries.filter fun entry => before key entry.1, ?_, rfl⟩
  have split : (map.entries.filter (fun entry => before entry.1 key) ++
      (key, value) :: map.entries.filter fun entry => before key entry.1).filter
        (fun entry => entry.1 ≠ key) = map.entries := congrArg SortedMap.entries kept
  rw [List.filter_append, List.filter_cons_of_neg (by simp), others, others] at split
  · exact split.symm
  · intro entry member
    have later := of_decide_eq_true (List.mem_filter.mp member).2
    exact (ne_of_irrefl later).symm
  · intro entry member
    have earlier := of_decide_eq_true (List.mem_filter.mp member).2
    exact ne_of_irrefl earlier

theorem entries_set_present (present : (key, old) ∈ map.entries) :
    (map.set key value).entries =
      map.entries.map fun entry => if entry.1 = key then (key, value) else entry := by
  have keys : ∀ entry : K × V,
      (if entry.1 = key then (key, value) else entry).1 = entry.1 := by
    intro entry
    split
    · next same => exact same.symm
    · rfl
  have sorted : (map.entries.map fun entry => if entry.1 = key then (key, value) else entry).Pairwise
      fun a b => before a.1 b.1 := by
    rw [List.pairwise_map]
    apply map.sorted.imp
    intro first second earlier
    rw [keys, keys]
    exact earlier
  have perm : (map.set key value).entries.Perm
      (map.entries.map fun entry => if entry.1 = key then (key, value) else entry) := by
    apply (List.perm_ext_iff_of_nodup (map.set key value).entries_nodup
      (entries_nodup (⟨_, sorted⟩ : SortedMap before V))).mpr
    intro entry
    rcases entry with ⟨other, kept⟩
    rw [mem_set, List.mem_map]
    constructor
    · intro either
      rcases either with ⟨rfl, rfl⟩ | ⟨differ, member⟩
      · exact ⟨_, present, if_pos rfl⟩
      · exact ⟨_, member, if_neg differ⟩
    · intro found
      rcases found with ⟨entry, member, same⟩
      split at same
      · left
        rw [Prod.mk.injEq] at same
        exact ⟨same.1.symm, same.2.symm⟩
      · next differ =>
        right
        rw [same] at member differ
        exact ⟨differ, member⟩
  apply perm.eq_of_pairwise _ (map.set key value).sorted sorted
  intro first second _ _ earlier later
  exact absurd later (asymm_of before earlier)

theorem entries_set_found (value : V) (present : ∃ entry ∈ map.entries, entry.1 = key) :
    (map.set key value).entries =
      map.entries.set (map.entries.findIdx fun e => e.1 = key) (key, value) := by
  rcases map with ⟨entries, sorted⟩
  simp only [set]
  induction entries with
  | nil => simp at present
  | cons entry rest ih =>
      rcases List.pairwise_cons.mp sorted with ⟨least, tail⟩
      by_cases same : entry.1 = key
      · have first : ((⟨entry :: rest, sorted⟩ : SortedMap before V).set key value).entries =
            (key, value) :: rest :=
          entries_set_first _ (show entry :: rest = (key, entry.2) :: rest by rw [← same])
        rw [List.findIdx_cons]
        simpa [set, same] using first
      · have later : ∃ e ∈ rest, e.1 = key := by
          rcases present with ⟨e, member, found⟩
          rcases List.mem_cons.mp member with rfl | among
          · exact absurd found same
          · exact ⟨e, among, found⟩
        have earlier : before entry.1 key := by
          rcases later with ⟨e, member, rfl⟩
          exact least e member
        rw [List.filter_cons_of_pos (by simp [earlier]),
          List.filter_cons_of_neg (by simp [asymm_of before earlier]), List.cons_append,
          ih tail later, List.findIdx_cons]
        simp [same]

variable {A : Type*} [AddCommGroup A] (f : K → V → A)

theorem sum_set (key : K) (value : V) :
    ((map.set key value).entries.map fun entry => f entry.1 entry.2).sum =
      (map.entries.map fun entry => f entry.1 entry.2).sum -
        ((map.find? key).map (f key)).getD 0 + f key value := by
  have split : (map.set key value).entries.Perm ((key, value) :: (map.erase key).entries) :=
    map.set_perm_cons_erase
  rw [(split.map fun entry => f entry.1 entry.2).sum_eq, List.map_cons, List.sum_cons]
  cases found : map.find? key with
  | none => simp [map.entries_erase_absent found, add_comm]
  | some old =>
      have prior := (map.perm_cons_erase ((find?_eq_some map).mp found)).map
        (fun entry => f entry.1 entry.2)
      rw [prior.sum_eq, List.map_cons, List.sum_cons]
      simp [add_comm]

end Set

section Flat

variable {α : Type*} (levels : SortedMap before (List α)) {level : List α}

theorem flat_perm_erase [DecidableEq K] (member : (key, level) ∈ levels.entries) :
    levels.flat.Perm (level ++ (levels.erase key).flat) :=
  (levels.perm_cons_erase member).flatMap_right Prod.snd

theorem flat_perm_getD [DecidableEq K] (key : K) :
    levels.flat.Perm ((levels.find? key).getD [] ++ (levels.erase key).flat) := by
  cases found : levels.find? key with
  | none => simp [flat, levels.entries_erase_absent found]
  | some level => exact levels.flat_perm_erase ((find?_eq_some levels).mp found)

theorem flat_set_perm [DecidableEq K] [DecidableRel before] :
    (levels.set key level).flat.Perm (level ++ (levels.erase key).flat) :=
  levels.set_perm_cons_erase.flatMap_right Prod.snd

end Flat

end SortedMap
