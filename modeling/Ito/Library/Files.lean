import Ito.Library.SortedMap
import Mathlib.Data.List.Induction
import Mathlib.Data.List.Lex
import Mathlib.Order.Lattice
import Mathlib.Tactic.Common

/-! Trees of regular files, named by the parts of their paths.

A directory is there exactly while a file is below it. Files may be written in place, or
installed through a temporary file beside their target, which is then moved over it. -/

namespace Files

variable {N C : Type*} [LinearOrder N]

instance pathBefore : IsTrans (List N) fun a b => a < b := ⟨fun _ _ _ => lt_trans⟩

abbrev Tree (N C : Type*) [LinearOrder N] := SortedMap (fun a b : List N => a < b) C

def empty : Tree N C := SortedMap.empty

def find? (files : Tree N C) (path : List N) : Option C := SortedMap.find? files path

def put (files : Tree N C) (path : List N) (content : C) : Tree N C :=
  SortedMap.set files path content

def remove (files : Tree N C) (path : List N) : Tree N C := SortedMap.erase files path

def keys (files : Tree N C) : List (List N) := files.entries.map Prod.fst

/-- The path names a directory: the root, or one with a file below it. -/
def IsDirectory (files : Tree N C) (path : List N) : Prop :=
  path = [] ∨ ∃ key ∈ keys files, path <+: key ∧ path ≠ key

def Obstructed (files : Tree N C) (path : List N) : Prop :=
  ∃ key ∈ keys files, key <+: path ∧ key ≠ path

instance (files : Tree N C) (path : List N) : Decidable (IsDirectory files path) :=
  inferInstanceAs (Decidable (_ ∨ ∃ key ∈ keys files, path <+: key ∧ path ≠ key))

instance (files : Tree N C) (path : List N) : Decidable (Obstructed files path) :=
  inferInstanceAs (Decidable (∃ key ∈ keys files, key <+: path ∧ key ≠ path))

/-- Creating the parents of a file and writing it, on a file system that takes some paths. -/
def write (takes : List N → Bool) (files : Tree N C) (path : List N) (content : C) :
    Option (Tree N C) :=
  if takes path = false ∨ IsDirectory files path ∨ Obstructed files path then none
  else some (put files path content)

def writeAll (takes : List N → Bool) (files : Tree N C) (items : List (List N × C)) :
    Option (Tree N C) :=
  items.foldlM (fun files item => write takes files item.1 item.2) files

def latest (items : List (List N × C)) (path : List N) : Option C :=
  items.foldl (fun found item => if item.1 = path then some item.2 else found) none

def rename (takes : List N → Bool) (files : Tree N C) (source target : List N) :
    Option (Tree N C) :=
  (find? files source).bind fun content =>
    if takes target = false ∨ IsDirectory files target ∨ Obstructed files target then none
    else some (put (remove files source) target content)

def install (takes : List N → Bool) (temporary : List N → List N) (files : Tree N C)
    (target : List N) (content : C) : Option (Tree N C) :=
  (write takes files (temporary target) content).bind fun files =>
    rename takes files (temporary target) target

def place (files : Tree N C) (source target : List N) (content : C) : Tree N C :=
  put (remove (put files source content) source) target content

def installAll (takes : List N → Bool) (temporary : List N → List N) (content : List N → C)
    (files : Tree N C) (targets : List (List N)) : Option (Tree N C) :=
  targets.foldlM (fun files target => install takes temporary files target (content target)) files

def Apart (paths : Set (List N)) : Prop :=
  ∀ first ∈ paths, ∀ second ∈ paths, first <+: second → first = second

/-- A temporary name is another name in the directory of its target. -/
structure Beside (temporary : List N → List N) : Prop where
  parent : ∀ path, path ≠ [] → (temporary path).dropLast = path.dropLast
  other : ∀ path, path ≠ [] → temporary path ≠ path
  named : ∀ path, path ≠ [] → temporary path ≠ []

section Keys

variable {takes : List N → Bool} {files : Tree N C} {path other : List N} {content : C}
  {paths : Set (List N)}

theorem find?_empty : find? (Files.empty : Tree N C) path = none := rfl

theorem find?_put (files : Tree N C) (path other : List N) (content : C) :
    find? (put files path content) other = if other = path then some content else find? files other :=
  SortedMap.find?_set files path other content

theorem find?_remove (files : Tree N C) (path other : List N) :
    find? (remove files path) other = if other = path then none else find? files other :=
  SortedMap.find?_erase files path other

theorem find?_place (files : Tree N C) (source target other : List N) (content : C) :
    find? (place files source target content) other =
      if other = target then some content else if other = source then none else find? files other := by
  rw [place, find?_put, find?_remove, find?_put]
  split_ifs <;> rfl

theorem mem_keys : path ∈ keys files ↔ ∃ content, find? files path = some content := by
  simp [keys, find?, SortedMap.find?_eq_some]

theorem mem_keys_put :
    other ∈ keys (put files path content) ↔ other = path ∨ other ∈ keys files := by
  rw [mem_keys, mem_keys]
  by_cases same : other = path <;> simp [find?_put, same]

omit [LinearOrder N] in
theorem prefix_dropLast (part : path <+: other) (differ : path ≠ other) :
    path <+: other.dropLast := by
  obtain ⟨rest, rfl⟩ := part
  have more : rest ≠ [] := by
    rintro rfl
    exact differ (List.append_nil path).symm
  rw [List.dropLast_append_of_ne_nil more]
  exact List.prefix_append _ _

omit [LinearOrder N] in
theorem eq_of_prefix_sibling (part : path <+: other) (parent : path.dropLast = other.dropLast)
    (named : path ≠ []) : path = other := by
  by_contra differ
  have above := prefix_dropLast part differ
  rw [← parent] at above
  have long := above.length_le
  have positive := List.length_pos_iff.mpr named
  rw [List.length_dropLast] at long
  omega

theorem not_isDirectory (apart : Apart paths) (within : ∀ key ∈ keys files, key ∈ paths)
    (member : path ∈ paths) (named : path ≠ []) : ¬ IsDirectory files path := by
  rintro (empty | ⟨key, inside, part, differ⟩)
  · exact named empty
  · exact differ (apart path member key (within key inside) part)

theorem not_obstructed (apart : Apart paths) (within : ∀ key ∈ keys files, key ∈ paths)
    (member : path ∈ paths) : ¬ Obstructed files path := by
  rintro ⟨key, inside, part, differ⟩
  exact differ (apart key (within key inside) path member part)

end Keys

section Write

variable {takes : List N → Bool} {files : Tree N C} {path : List N} {content : C}
  {paths : Set (List N)} {items : List (List N × C)}

theorem write_eq_some {files' : Tree N C} : write takes files path content = some files' ↔
    takes path = true ∧ ¬ IsDirectory files path ∧ ¬ Obstructed files path ∧
      files' = put files path content := by
  rw [write]
  split
  case isTrue bad =>
    have never : ¬ (takes path = true ∧ ¬ IsDirectory files path ∧ ¬ Obstructed files path) := by
      rintro ⟨taken, free, clear⟩
      simp [taken, free, clear] at bad
    simp only [reduceCtorEq, false_iff]
    tauto
  case isFalse fine =>
    push Not at fine
    simp only [Option.some.injEq, fine.2.1, fine.2.2, not_false_eq_true, true_and]
    simp [Bool.eq_true_of_not_eq_false fine.1, eq_comm]

theorem write_apart (apart : Apart paths) (within : ∀ key ∈ keys files, key ∈ paths)
    (member : path ∈ paths) (named : path ≠ []) :
    write takes files path content = if takes path then some (put files path content) else none := by
  have free := not_isDirectory apart within member named
  have clear := not_obstructed apart within member
  cases taken : takes path <;> simp [write, taken, free, clear]

theorem foldl_latest (items : List (List N × C)) (path : List N) (found : Option C) :
    items.foldl (fun found item => if item.1 = path then some item.2 else found) found =
      (latest items path).or found := by
  induction items generalizing found with
  | nil => rfl
  | cons item rest ih =>
      rw [latest, List.foldl_cons, List.foldl_cons, ih, ih (if item.1 = path then _ else _),
        Option.or_assoc]
      split <;> rfl

theorem latest_cons (item : List N × C) (path : List N) :
    latest (item :: items) path =
      (latest items path).or (if item.1 = path then some item.2 else none) := by
  rw [latest, List.foldl_cons, foldl_latest]

theorem latest_map (content : List N → C) (targets : List (List N)) (path : List N) :
    latest (targets.map fun target => (target, content target)) path =
      if path ∈ targets then some (content path) else none := by
  induction targets with
  | nil => rfl
  | cons target rest ih =>
      rw [List.map_cons, latest_cons, ih]
      by_cases later : path ∈ rest
      · simp [later]
      · by_cases same : target = path
        · subst same
          simp [later]
        · simp [later, same, Ne.symm same]

theorem writeAll_apart (apart : Apart paths) (within : ∀ key ∈ keys files, key ∈ paths)
    (member : ∀ item ∈ items, item.1 ∈ paths) (named : ∀ item ∈ items, item.1 ≠ [])
    (taken : ∀ item ∈ items, takes item.1 = true) :
    ∃ written, writeAll takes files items = some written ∧
      ∀ path, find? written path = (latest items path).or (find? files path) := by
  induction items generalizing files with
  | nil => exact ⟨files, rfl, fun path => rfl⟩
  | cons item rest ih =>
      rw [List.forall_mem_cons] at member named taken
      have first : write takes files item.1 item.2 = some (put files item.1 item.2) := by
        rw [write_apart apart within member.1 named.1, if_pos taken.1]
      have within' : ∀ key ∈ keys (put files item.1 item.2), key ∈ paths := by
        intro key inside
        rcases mem_keys_put.mp inside with rfl | inside
        · exact member.1
        · exact within key inside
      obtain ⟨written, done, found⟩ := ih within' member.2 named.2 taken.2
      refine ⟨written, ?_, ?_⟩
      · rw [writeAll, List.foldlM_cons, first]
        exact done
      · intro path
        rw [found path, latest_cons, find?_put, Option.or_assoc]
        by_cases same : path = item.1
        · simp [same]
        · simp [same, Ne.symm same]

theorem writeAll_unobstructed {written : Tree N C} (done : writeAll takes files items = some written) :
    ∀ item ∈ items, takes item.1 = true ∧ ¬ Obstructed files item.1 := by
  induction items generalizing files with
  | nil => simp
  | cons item rest ih =>
      rw [writeAll, List.foldlM_cons, Option.bind_eq_bind, Option.bind_eq_some_iff] at done
      obtain ⟨next, first, rest⟩ := done
      obtain ⟨taken, _, clear, rfl⟩ := write_eq_some.mp first
      rw [List.forall_mem_cons]
      refine ⟨⟨taken, clear⟩, ?_⟩
      intro later member
      obtain ⟨taken, clear⟩ := ih rest later member
      refine ⟨taken, fun blocked => clear ?_⟩
      obtain ⟨key, inside, part⟩ := blocked
      exact ⟨key, mem_keys_put.mpr (Or.inr inside), part⟩

end Write

section Install

variable {takes : List N → Bool} {temporary : List N → List N} {paths : Set (List N)}
  {files : Tree N C} {target : List N} {content : C}

theorem install_eq (beside : Beside temporary) (apart : Apart paths)
    (within : ∀ key ∈ keys files, key ∈ paths) (member : target ∈ paths) (named : target ≠ []) :
    install takes temporary files target content =
      if takes (temporary target) ∧ takes target ∧ ¬ IsDirectory files (temporary target) then
        some (place files (temporary target) target content)
      else none := by
  have parent := beside.parent target named
  have clear : ¬ Obstructed files (temporary target) := by
    rintro ⟨key, inside, part, differ⟩
    have above : key <+: target := by
      have upper := prefix_dropLast part differ
      rw [parent] at upper
      exact upper.trans (List.dropLast_prefix target)
    have same := apart key (within key inside) target member above
    rw [same] at part
    exact beside.other target named (eq_of_prefix_sibling part parent.symm named).symm
  have free : ¬ IsDirectory (put files (temporary target) content) target := by
    rintro (empty | ⟨key, inside, part, differ⟩)
    · exact named empty
    · rcases mem_keys_put.mp inside with rfl | inside
      · exact differ (eq_of_prefix_sibling part parent.symm named)
      · exact differ (apart target member key (within key inside) part)
  have reached : ¬ Obstructed (put files (temporary target) content) target := by
    rintro ⟨key, inside, part, differ⟩
    rcases mem_keys_put.mp inside with rfl | inside
    · exact differ (eq_of_prefix_sibling part parent (beside.named target named))
    · exact differ (apart key (within key inside) target member part)
  rw [install, write]
  cases first : takes (temporary target) with
  | false => simp
  | true =>
      by_cases blocked : IsDirectory files (temporary target)
      · simp [blocked]
      · cases second : takes target <;>
          simp [rename, place, find?_put, blocked, clear, free, reached, second]

def Unblocked (temporary : List N → List N) (targets : List (List N)) : Prop :=
  targets.Pairwise fun path later => temporary later <+: path → temporary later = path

def Stays (temporary : List N → List N) (targets : List (List N)) (path : List N) : Prop :=
  ∃ before after, targets = before ++ path :: after ∧ ∀ later ∈ after, temporary later ≠ path

omit [LinearOrder N] in
theorem Stays.mem {targets : List (List N)} {path : List N} (stays : Stays temporary targets path) :
    path ∈ targets := by
  obtain ⟨before, after, rfl, _⟩ := stays
  simp

omit [LinearOrder N] in
theorem stays_concat {targets : List (List N)} {path : List N} :
    Stays temporary (targets ++ [target]) path ↔
      path = target ∨ Stays temporary targets path ∧ temporary target ≠ path := by
  constructor
  · rintro ⟨before, after, split, spared⟩
    induction after using List.reverseRec with
    | nil =>
        rw [List.append_singleton_inj] at split
        exact Or.inl split.2.symm
    | append_singleton after last =>
        rw [← List.cons_append, ← List.append_assoc, List.append_singleton_inj] at split
        obtain ⟨split, rfl⟩ := split
        rw [List.forall_mem_append] at spared
        exact Or.inr ⟨⟨before, after, split, spared.1⟩, spared.2 target (by simp)⟩
  · rintro (rfl | ⟨⟨before, after, rfl, spared⟩, differ⟩)
    · exact ⟨targets, [], rfl, by simp⟩
    · refine ⟨before, after ++ [target], by simp, ?_⟩
      rw [List.forall_mem_append]
      exact ⟨spared, by simpa using differ⟩

omit [LinearOrder N] in
theorem stays_cons {targets : List (List N)} {path : List N} :
    Stays temporary (target :: targets) path ↔
      (target = path ∧ ∀ later ∈ targets, temporary later ≠ path) ∨ Stays temporary targets path := by
  constructor
  · rintro ⟨before, after, split, spared⟩
    rcases before with - | ⟨first, before⟩
    · rw [List.nil_append, List.cons.injEq] at split
      obtain ⟨rfl, rfl⟩ := split
      exact Or.inl ⟨rfl, spared⟩
    · rw [List.cons_append, List.cons.injEq] at split
      exact Or.inr ⟨before, after, split.2, spared⟩
  · rintro (⟨rfl, spared⟩ | ⟨before, after, rfl, spared⟩)
    · exact ⟨[], targets, rfl, spared⟩
    · exact ⟨target :: before, after, rfl, spared⟩

/-- What the installed files are after a list of targets. -/
structure Installed (temporary : List N → List N) (content : List N → C) (targets : List (List N))
    (files : Tree N C) : Prop where
  stays : ∀ path, Stays temporary targets path → find? files path = some (content path)
  gone : ∀ path, ¬ Stays temporary targets path → find? files path = none
  /-- A directory that was needed still has a file. -/
  sibling : ∀ path ∈ targets, ∃ other, Stays temporary targets other ∧
    other.dropLast = path.dropLast

theorem Installed.mem_keys {content : List N → C} {targets : List (List N)}
    (installed : Installed temporary content targets files) (path : List N) :
    path ∈ keys files ↔ Stays temporary targets path := by
  rw [Files.mem_keys]
  constructor
  · rintro ⟨found, present⟩
    by_contra left
    rw [installed.gone path left] at present
    cases present
  · intro stays
    exact ⟨_, installed.stays path stays⟩

theorem Installed.isDirectory_iff {content : List N → C} {targets : List (List N)}
    (installed : Installed temporary content targets files) {path : List N} (named : path ≠ []) :
    IsDirectory files path ↔ ∃ earlier ∈ targets, path <+: earlier ∧ path ≠ earlier := by
  constructor
  · rintro (empty | ⟨key, inside, part⟩)
    · exact absurd empty named
    · exact ⟨key, ((installed.mem_keys key).mp inside).mem, part⟩
  · rintro ⟨earlier, member, part, differ⟩
    obtain ⟨other, stays, parent⟩ := installed.sibling earlier member
    have above := prefix_dropLast part differ
    rw [← parent] at above
    refine Or.inr ⟨other, (installed.mem_keys other).mpr stays,
      above.trans (List.dropLast_prefix other), ?_⟩
    rintro rfl
    have long := above.length_le
    have positive := List.length_pos_iff.mpr named
    rw [List.length_dropLast] at long
    omega

theorem Installed.concat {content : List N → C} {targets : List (List N)}
    (beside : Beside temporary) (installed : Installed temporary content targets files)
    (named : target ≠ []) :
    Installed temporary content (targets ++ [target])
      (place files (temporary target) target (content target)) where
  stays path stays := by
    rw [find?_place]
    obtain rfl | ⟨stays, spared⟩ := stays_concat.mp stays
    · rw [if_pos rfl]
    · split
      case isTrue same => rw [same]
      case isFalse =>
        rw [if_neg (Ne.symm spared)]
        exact installed.stays path stays
  gone path gone := by
    rw [stays_concat, not_or, not_and_or, not_not] at gone
    rw [find?_place, if_neg gone.1]
    split
    case isTrue => rfl
    case isFalse differ =>
      obtain left | same := gone.2
      · exact installed.gone path left
      · exact absurd same.symm differ
  sibling path member := by
    rw [List.mem_append, List.mem_singleton] at member
    obtain member | rfl := member
    · obtain ⟨other, stays, parent⟩ := installed.sibling path member
      by_cases moved : temporary target = other
      · refine ⟨target, stays_concat.mpr (Or.inl rfl), ?_⟩
        rw [← parent, ← moved, beside.parent target named]
      · exact ⟨other, stays_concat.mpr (Or.inr ⟨stays, moved⟩), parent⟩
    · exact ⟨path, stays_concat.mpr (Or.inl rfl), rfl⟩

def Taken (takes : List N → Bool) (temporary : List N → List N) (targets : List (List N)) : Prop :=
  ∀ path ∈ targets, takes (temporary path) = true ∧ takes path = true

theorem installAll_concat {content : List N → C} {targets : List (List N)} :
    installAll takes temporary content files (targets ++ [target]) =
      (installAll takes temporary content files targets).bind fun files =>
        install takes temporary files target (content target) := by
  simp [installAll, List.foldlM_append]

omit [LinearOrder N] in
theorem unblocked_concat {targets : List (List N)} :
    Unblocked temporary (targets ++ [target]) ↔ Unblocked temporary targets ∧
      ∀ path ∈ targets, temporary target <+: path → temporary target = path := by
  simp [Unblocked, List.pairwise_append]

omit [LinearOrder N] in
theorem taken_concat {targets : List (List N)} : Taken takes temporary (targets ++ [target]) ↔
    Taken takes temporary targets ∧ takes (temporary target) = true ∧ takes target = true := by
  simp [Taken, or_imp, forall_and, and_assoc, and_left_comm]

variable {content : List N → C} {targets : List (List N)}

theorem install_installed (beside : Beside temporary) (apart : Apart paths)
    (installed : Installed temporary content targets files)
    (within : ∀ path ∈ targets, path ∈ paths) (member : target ∈ paths) (named : target ≠ []) :
    install takes temporary files target (content target) =
      if (takes (temporary target) = true ∧ takes target = true) ∧
          ∀ path ∈ targets, temporary target <+: path → temporary target = path then
        some (place files (temporary target) target (content target))
      else none := by
  have inside : ∀ key ∈ keys files, key ∈ paths := fun key present =>
    within key ((installed.mem_keys key).mp present).mem
  rw [install_eq beside apart inside member named]
  congr 1
  rw [installed.isDirectory_iff (beside.named target named), ← and_assoc]
  simp

theorem installAll_sound (beside : Beside temporary) (apart : Apart paths)
    (within : ∀ path ∈ targets, path ∈ paths) (named : ∀ path ∈ targets, path ≠ [])
    (done : installAll takes temporary content Files.empty targets = some files) :
    Taken takes temporary targets ∧ Unblocked temporary targets ∧
      Installed temporary content targets files := by
  induction targets using List.reverseRec generalizing files with
  | nil =>
      obtain rfl := Option.some.inj done
      refine ⟨by simp [Taken], List.Pairwise.nil, ?_, fun path _ => find?_empty, by simp⟩
      intro path stays
      exact absurd stays.mem List.not_mem_nil
  | append_singleton targets target ih =>
      rw [List.forall_mem_append, List.forall_mem_singleton] at within named
      rw [installAll_concat, Option.bind_eq_some_iff] at done
      obtain ⟨earlier, before, last⟩ := done
      obtain ⟨taken, unblocked, installed⟩ := ih within.1 named.1 before
      rw [install_installed beside apart installed within.1 within.2 named.2] at last
      split at last
      case isFalse => cases last
      case isTrue fine =>
        rw [taken_concat, unblocked_concat]
        rw [Option.some.injEq] at last
        rw [← last]
        exact ⟨⟨taken, fine.1⟩, ⟨unblocked, fine.2⟩, installed.concat beside named.2⟩

theorem installAll_complete (content : List N → C) (beside : Beside temporary) (apart : Apart paths)
    (within : ∀ path ∈ targets, path ∈ paths) (named : ∀ path ∈ targets, path ≠ [])
    (taken : Taken takes temporary targets) (unblocked : Unblocked temporary targets) :
    ∃ files, installAll takes temporary content Files.empty targets = some files := by
  induction targets using List.reverseRec with
  | nil => exact ⟨Files.empty, rfl⟩
  | append_singleton targets target ih =>
      rw [List.forall_mem_append, List.forall_mem_singleton] at within named
      rw [taken_concat] at taken
      rw [unblocked_concat] at unblocked
      obtain ⟨earlier, before⟩ := ih within.1 named.1 taken.1 unblocked.1
      have installed := (installAll_sound beside apart within.1 named.1 before).2.2
      rw [installAll_concat, before, Option.bind_some,
        install_installed beside apart installed within.1 within.2 named.2,
        if_pos ⟨taken.2, unblocked.2⟩]
      exact ⟨_, rfl⟩

end Install

section Order

variable {temporary : List N → List N} {targets : List (List N)}

omit [LinearOrder N] in
theorem unblocked_stays_iff (distinct : targets.Nodup) :
    (Unblocked temporary targets ∧ ∀ path ∈ targets, Stays temporary targets path) ↔
      targets.Pairwise fun path later => ¬ temporary later <+: path := by
  induction targets with
  | nil => simp [Unblocked]
  | cons first rest ih =>
      rw [List.nodup_cons] at distinct
      have others : (∀ path ∈ rest, Stays temporary (first :: rest) path) ↔
          ∀ path ∈ rest, Stays temporary rest path := by
        apply forall₂_congr
        intro path member
        have differ : first ≠ path := fun same => distinct.1 (same ▸ member)
        rw [stays_cons]
        simp [differ]
      have own : Stays temporary (first :: rest) first ↔ ∀ later ∈ rest, temporary later ≠ first := by
        rw [stays_cons]
        have absent : ¬ Stays temporary rest first := fun stays => distinct.1 stays.mem
        simp [absent]
      rw [Unblocked, List.pairwise_cons, List.forall_mem_cons, List.pairwise_cons, own, others,
        ← ih distinct.2, Unblocked]
      constructor
      · rintro ⟨⟨free, unblocked⟩, spared, stays⟩
        refine ⟨?_, unblocked, stays⟩
        intro later member part
        exact spared later member (free later member part)
      · rintro ⟨apart, unblocked, stays⟩
        refine ⟨⟨?_, unblocked⟩, ?_, stays⟩
        · intro later member part
          exact absurd part (apart later member)
        · intro later member same
          exact apart later member (same ▸ List.prefix_refl _)

theorem pairwise_iff_of_sorted {R : List N → List N → Prop}
    (sorted : targets.Pairwise fun a b => a < b) :
    targets.Pairwise R ↔ ∀ path ∈ targets, ∀ later ∈ targets, path < later → R path later := by
  constructor
  · intro related
    induction targets with
    | nil => simp
    | cons first rest ih =>
        rw [List.pairwise_cons] at sorted related
        intro path member later member' less
        rw [List.mem_cons] at member member'
        rcases member with rfl | member <;> rcases member' with rfl | member'
        · exact absurd less (lt_irrefl _)
        · exact related.1 later member'
        · exact absurd less (lt_asymm (sorted.1 path member))
        · exact ih sorted.2 related.2 path member later member' less
  · intro related
    apply sorted.imp_of_mem
    intro path later member member' less
    exact related path member later member' less

end Order

end Files
