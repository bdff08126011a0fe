import Ito.Library.Files

/-! Changes that keep to a part of a tree, and the part of a tree below a directory. -/

namespace Files

variable {N C : Type*} [LinearOrder N]

def Inside (directory path : List N) : Prop := directory <+: path ∧ path ≠ directory

def ChangedWithin (region : Set (List N)) (earlier later : Tree N C) : Prop :=
  ∀ path, path ∉ region → find? later path = find? earlier path

section Changes

variable {region larger : Set (List N)} {earlier middle later files files' : Tree N C}
  {path source target directory : List N} {content : C} {takes : List N → Bool}

theorem ChangedWithin.refl : ChangedWithin region files files := fun _ _ => rfl

theorem ChangedWithin.trans (first : ChangedWithin region earlier middle)
    (second : ChangedWithin region middle later) : ChangedWithin region earlier later :=
  fun path outside => (second path outside).trans (first path outside)

theorem ChangedWithin.mono (changed : ChangedWithin region earlier later)
    (more : region ⊆ larger) : ChangedWithin larger earlier later :=
  fun path outside => changed path fun member => outside (more member)

theorem changedWithin_put (inside : path ∈ region) :
    ChangedWithin region files (put files path content) := by
  intro other outside
  rw [find?_put, if_neg]
  rintro rfl
  exact outside inside

theorem changedWithin_remove (inside : path ∈ region) :
    ChangedWithin region files (remove files path) := by
  intro other outside
  rw [find?_remove, if_neg]
  rintro rfl
  exact outside inside

theorem changedWithin_write (inside : path ∈ region)
    (written : write takes files path content = some files') :
    ChangedWithin region files files' := by
  rw [(write_eq_some.mp written).2.2.2]
  exact changedWithin_put inside

theorem rename_eq_some (moved : rename takes files source target = some files') :
    ∃ content, find? files source = some content ∧
      files' = put (remove files source) target content := by
  rcases Option.bind_eq_some_iff.mp moved with ⟨content, found, placed⟩
  split at placed
  case isTrue => cases placed
  case isFalse => exact ⟨content, found, (Option.some.inj placed).symm⟩

theorem changedWithin_rename (inside : source ∈ region) (other : target ∈ region)
    (moved : rename takes files source target = some files') :
    ChangedWithin region files files' := by
  rcases rename_eq_some moved with ⟨content, -, rfl⟩
  exact (changedWithin_remove inside).trans (changedWithin_put other)

def prune (files : Tree N C) (directory : List N) : Tree N C :=
  ⟨files.entries.filter fun entry => ¬ directory <+: entry.1, files.sorted.filter _⟩

theorem find?_prune (files : Tree N C) (directory path : List N) :
    find? (prune files directory) path =
      if directory <+: path then none else find? files path := by
  apply Option.ext
  intro content
  rw [find?, SortedMap.find?_eq_some, prune, List.mem_filter, decide_eq_true_eq]
  split
  case isTrue below => simp [below]
  case isFalse other => simp [other, find?, SortedMap.find?_eq_some]

theorem prune_changed (fresh : ∀ path, directory <+: path → find? earlier path = none)
    (changed : ChangedWithin {path | directory <+: path} earlier later) :
    prune later directory = earlier := by
  apply SortedMap.ext_find?
  intro path
  rw [← find?, ← find?, find?_prune]
  split
  case isTrue below => exact (fresh path below).symm
  case isFalse other => exact changed path other

end Changes

section Below

variable {files files' : Tree N C} {directory path other : List N} {content : C}
  {takes within : List N → Bool}

theorem lt_of_append_lt {directory first second : List N}
    (less : directory ++ first < directory ++ second) : first < second := by
  rcases lt_trichotomy first second with here | same | there
  · exact here
  · rw [same] at less
    exact absurd less (lt_irrefl _)
  · exact absurd less (lt_asymm (List.append_left_lt there))

def below (files : Tree N C) (directory : List N) : Tree N C where
  entries := (files.entries.filter fun entry => directory <+: entry.1).map fun entry =>
    (entry.1.drop directory.length, entry.2)
  sorted := by
    refine List.pairwise_map.mpr (List.Pairwise.imp_of_mem ?_ (files.sorted.filter _))
    intro first second early late less
    rcases of_decide_eq_true (List.mem_filter.mp early).2 with ⟨front, whole⟩
    rcases of_decide_eq_true (List.mem_filter.mp late).2 with ⟨back, all⟩
    rw [← whole, ← all] at less ⊢
    rw [List.drop_left, List.drop_left]
    exact lt_of_append_lt less

theorem find?_below (files : Tree N C) (directory path : List N) :
    find? (below files directory) path = find? files (directory ++ path) := by
  apply Option.ext
  intro content
  rw [find?, find?, SortedMap.find?_eq_some, SortedMap.find?_eq_some, below, List.mem_map]
  constructor
  · rintro ⟨⟨whole, value⟩, member, same⟩
    rcases List.mem_filter.mp member with ⟨among, part⟩
    rcases of_decide_eq_true part with ⟨rest, rfl⟩
    rw [Prod.mk.injEq, List.drop_left] at same
    rwa [← same.1, ← same.2]
  · intro member
    refine ⟨_, List.mem_filter.mpr ⟨member, decide_eq_true (List.prefix_append _ _)⟩, ?_⟩
    rw [List.drop_left]

theorem below_eq (same : ∀ path, find? files' (directory ++ path) = find? files (directory ++ path)) :
    below files' directory = below files directory := by
  apply SortedMap.ext_find?
  intro path
  rw [← find?, ← find?, find?_below, find?_below, same]

theorem below_fresh (fresh : ∀ path, directory <+: path → find? files path = none) :
    below files directory = empty := by
  apply SortedMap.ext_find?
  intro path
  rw [← find?, find?_below]
  exact fresh _ (List.prefix_append _ _)

theorem below_put (files : Tree N C) (directory path : List N) (content : C) :
    below (put files (directory ++ path) content) directory =
      put (below files directory) path content := by
  apply SortedMap.ext_find?
  intro other
  rw [← find?, ← find?, find?_below, find?_put, find?_put, find?_below]
  exact if_congr (List.append_right_inj directory) rfl rfl

theorem below_remove (files : Tree N C) (directory path : List N) :
    below (remove files (directory ++ path)) directory = remove (below files directory) path := by
  apply SortedMap.ext_find?
  intro other
  rw [← find?, ← find?, find?_below, find?_remove, find?_remove, find?_below]
  exact if_congr (List.append_right_inj directory) rfl rfl

theorem mem_keys_below : path ∈ keys (below files directory) ↔ directory ++ path ∈ keys files := by
  simp only [mem_keys, find?_below]

def Clear (files : Tree N C) (directory : List N) : Prop :=
  ∀ key ∈ keys files, ¬ key <+: directory

theorem Clear.put (clear : Clear files directory) (other : ¬ path <+: directory) :
    Clear (put files path content) directory := by
  intro key member
  rcases mem_keys_put.mp member with rfl | old
  · exact other
  · exact clear key old

theorem Clear.not_found (clear : Clear files directory) : find? files directory = none := by
  cases found : find? files directory with
  | none => rfl
  | some content => exact absurd List.prefix_rfl (clear _ (mem_keys.mpr ⟨content, found⟩))

theorem Clear.remove (clear : Clear files directory) : Clear (remove files path) directory := by
  intro key member
  rcases mem_keys.mp member with ⟨content, found⟩
  rw [find?_remove] at found
  split at found
  case isTrue => cases found
  case isFalse => exact clear key (mem_keys.mpr ⟨content, found⟩)

theorem isDirectory_below (named : path ≠ []) :
    IsDirectory files (directory ++ path) ↔ IsDirectory (below files directory) path := by
  have part : ∀ rest, directory ++ path <+: directory ++ rest ↔ path <+: rest :=
    fun rest => List.prefix_append_right_inj directory
  constructor
  · rintro (empty | ⟨key, member, above, differ⟩)
    · exact absurd (List.append_eq_nil_iff.mp empty).2 named
    · rcases (List.prefix_append directory path).trans above with ⟨rest, rfl⟩
      exact Or.inr ⟨rest, mem_keys_below.mpr member, (part rest).mp above,
        fun same => differ (congrArg (directory ++ ·) same)⟩
  · rintro (empty | ⟨rest, member, above, differ⟩)
    · exact absurd empty named
    · exact Or.inr ⟨directory ++ rest, mem_keys_below.mp member, (part rest).mpr above,
        fun same => differ (List.append_cancel_left same)⟩

theorem obstructed_below (clear : Clear files directory) :
    Obstructed files (directory ++ path) ↔ Obstructed (below files directory) path := by
  have part : ∀ rest, directory ++ rest <+: directory ++ path ↔ rest <+: path :=
    fun rest => List.prefix_append_right_inj directory
  constructor
  · rintro ⟨key, member, above, differ⟩
    rcases List.prefix_or_prefix_of_prefix above (List.prefix_append directory path) with
      higher | ⟨rest, rfl⟩
    · exact absurd higher (clear key member)
    · exact ⟨rest, mem_keys_below.mpr member, (part rest).mp above,
        fun same => differ (congrArg (directory ++ ·) same)⟩
  · rintro ⟨rest, member, above, differ⟩
    exact ⟨directory ++ rest, mem_keys_below.mp member, (part rest).mpr above,
      fun same => differ (List.append_cancel_left same)⟩

theorem write_below (clear : Clear files directory) (named : path ≠ [])
    (same : takes (directory ++ path) = within path) (content : C) :
    (write takes files (directory ++ path) content).map (fun files => below files directory) =
      write within (below files directory) path content := by
  rw [write, write, same]
  simp only [isDirectory_below named, obstructed_below clear]
  split
  · rfl
  · rw [Option.map_some, below_put]

theorem rename_below (clear : Clear files directory) (named : path ≠ [])
    (same : takes (directory ++ path) = within path) (other : List N) :
    (rename takes files (directory ++ other) (directory ++ path)).map
        (fun files => below files directory) =
      rename within (below files directory) other path := by
  rw [rename, rename, same, find?_below]
  cases find? files (directory ++ other) with
  | none => rfl
  | some content =>
      simp only [Option.bind_some, isDirectory_below named, obstructed_below clear]
      split
      · rfl
      · rw [Option.map_some, below_put, below_remove]

end Below

end Files
