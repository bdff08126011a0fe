import Ito.Library.FileRegions
import Mathlib.Logic.Function.Basic

/-! Trees of files in which several names may lead to one file.

A name leads to an inode and the inode holds the content. A file that is written under a name that
is there already keeps its inode, so its other names see the new content. -/

namespace LinkedFiles

variable {N C : Type*} [LinearOrder N]

/-- Every inode that has a name is below the next new one. -/
structure Volume (N C : Type*) [LinearOrder N] where
  names : Files.Tree N Nat
  contents : Nat → C
  next : Nat
  numbered : ∀ path inode, Files.find? names path = some inode → inode < next

def view (volume : Volume N C) : Files.Tree N C :=
  SortedMap.mapValues volume.names fun _ inode => volume.contents inode

def SameFile (volume : Volume N C) (first second : List N) : Prop :=
  ∃ inode, Files.find? volume.names first = some inode ∧
    Files.find? volume.names second = some inode

instance (volume : Volume N C) (first second : List N) : Decidable (SameFile volume first second) :=
  decidable_of_iff
    (Files.find? volume.names first ≠ none ∧
      Files.find? volume.names second = Files.find? volume.names first) (by
    rw [SameFile]
    cases Files.find? volume.names first <;> simp)

def Unshared (volume : Volume N C) : Prop :=
  ∀ first second, SameFile volume first second → first = second

def rewrite (volume : Volume N C) (inode : Nat) (content : C) : Volume N C :=
  { volume with contents := Function.update volume.contents inode content }

def link (volume : Volume N C) (path : List N) (inode : Nat) (given : inode < volume.next) :
    Volume N C where
  names := Files.put volume.names path inode
  contents := volume.contents
  next := volume.next
  numbered := by
    intro other found leads
    rw [Files.find?_put] at leads
    split at leads
    case isTrue => exact Option.some.inj leads ▸ given
    case isFalse => exact volume.numbered other found leads

def create (volume : Volume N C) (path : List N) (content : C) : Volume N C :=
  link
    { volume with
      contents := Function.update volume.contents volume.next content
      next := volume.next + 1
      numbered := fun other inode leads => (volume.numbered other inode leads).trans (by simp) }
    path volume.next (by simp)

def remove (volume : Volume N C) (path : List N) : Volume N C where
  names := Files.remove volume.names path
  contents := volume.contents
  next := volume.next
  numbered := by
    intro other inode leads
    rw [Files.find?_remove] at leads
    split at leads
    case isTrue => cases leads
    case isFalse => exact volume.numbered other inode leads

def prune (volume : Volume N C) (directory : List N) : Volume N C where
  names := Files.prune volume.names directory
  contents := volume.contents
  next := volume.next
  numbered := by
    intro other inode leads
    rw [Files.find?_prune] at leads
    split at leads
    case isTrue => cases leads
    case isFalse => exact volume.numbered other inode leads

def write (takes : List N → Bool) (volume : Volume N C) (path : List N) (content : C) :
    Option (Volume N C) :=
  if takes path = false ∨ Files.IsDirectory volume.names path ∨
      Files.Obstructed volume.names path then none
  else match Files.find? volume.names path with
    | some inode => some (rewrite volume inode content)
    | none => some (create volume path content)

/-- A name is moved over another one. Where both lead to one file, both stay. -/
def rename (takes : List N → Bool) (volume : Volume N C) (source target : List N) :
    Option (Volume N C) :=
  match found : Files.find? volume.names source with
  | none => none
  | some inode =>
      if takes target = false ∨ Files.IsDirectory volume.names target ∨
          Files.Obstructed volume.names target then none
      else if Files.find? volume.names target = some inode then some volume
      else some (link (remove volume source) target inode (volume.numbered source inode found))

theorem numbered_of_entries {names : Files.Tree N Nat} {next : Nat}
    (each : ∀ entry ∈ names.entries, entry.2 < next) :
    ∀ path inode, Files.find? names path = some inode → inode < next :=
  fun _ _ found => each _ ((SortedMap.find?_eq_some names).mp found)

section View

variable {volume : Volume N C} {takes : List N → Bool} {path source target : List N} {content : C}

theorem find?_view (volume : Volume N C) (path : List N) :
    Files.find? (view volume) path = (Files.find? volume.names path).map volume.contents :=
  SortedMap.find?_mapValues volume.names (fun _ inode => volume.contents inode) path

theorem keys_view (volume : Volume N C) : Files.keys (view volume) = Files.keys volume.names :=
  List.map_map

theorem isDirectory_view : Files.IsDirectory (view volume) path ↔ Files.IsDirectory volume.names path := by
  rw [Files.IsDirectory, Files.IsDirectory, keys_view]

theorem obstructed_view : Files.Obstructed (view volume) path ↔ Files.Obstructed volume.names path := by
  rw [Files.Obstructed, Files.Obstructed, keys_view]

theorem view_prune (volume : Volume N C) (directory : List N) :
    view (prune volume directory) = Files.prune (view volume) directory := by
  apply SortedMap.ext_find?
  intro path
  rw [← Files.find?, ← Files.find?, find?_view, Files.find?_prune, find?_view, prune,
    Files.find?_prune]
  split <;> rfl

theorem view_rewrite (unshared : Unshared volume) {inode : Nat}
    (leads : Files.find? volume.names path = some inode) (content : C) :
    view (rewrite volume inode content) = Files.put (view volume) path content := by
  apply SortedMap.ext_find?
  intro other
  rw [← Files.find?, ← Files.find?, find?_view, Files.find?_put, find?_view, rewrite]
  dsimp only
  split
  case isTrue same => rw [same, leads, Option.map_some, Function.update_self]
  case isFalse differ =>
    cases found : Files.find? volume.names other with
    | none => rfl
    | some second =>
        have apart : second ≠ inode := by
          rintro rfl
          exact differ (unshared other path ⟨second, found, leads⟩)
        rw [Option.map_some, Option.map_some, Function.update_of_ne apart]

theorem find?_create (volume : Volume N C) (path other : List N) (content : C) :
    Files.find? (create volume path content).names other =
      if other = path then some volume.next else Files.find? volume.names other :=
  Files.find?_put volume.names path other volume.next

theorem view_create (volume : Volume N C) (path : List N) (content : C) :
    view (create volume path content) = Files.put (view volume) path content := by
  apply SortedMap.ext_find?
  intro other
  rw [← Files.find?, ← Files.find?, find?_view, Files.find?_put, find?_view, find?_create]
  split
  case isTrue => exact congrArg some (Function.update_self _ _ _)
  case isFalse =>
    cases found : Files.find? volume.names other with
    | none => rfl
    | some inode =>
        have older : inode ≠ volume.next := (volume.numbered other inode found).ne
        exact congrArg some (Function.update_of_ne older _ _)

theorem unshared_create (unshared : Unshared volume) (path : List N) (content : C) :
    Unshared (create volume path content) := by
  rintro first second ⟨inode, here, there⟩
  rw [find?_create] at here there
  split at here
  case isTrue same =>
    split at there
    case isTrue also => rw [same, also]
    case isFalse =>
      have older := volume.numbered second inode there
      exact absurd (Option.some.inj here) older.ne'
  case isFalse =>
    split at there
    case isTrue =>
      have older := volume.numbered first inode here
      exact absurd (Option.some.inj there) older.ne'
    case isFalse => exact unshared first second ⟨inode, here, there⟩

theorem find?_move {inode : Nat} (given : inode < volume.next) (other : List N) :
    Files.find? (link (remove volume source) target inode given).names other =
      if other = target then some inode
      else if other = source then none else Files.find? volume.names other := by
  rw [← Files.find?_remove]
  exact Files.find?_put (Files.remove volume.names source) target other inode

theorem view_move {inode : Nat} (given : inode < volume.next) (source target : List N) :
    view (link (remove volume source) target inode given) =
      Files.put (Files.remove (view volume) source) target (volume.contents inode) := by
  apply SortedMap.ext_find?
  intro other
  rw [← Files.find?, ← Files.find?, find?_view, Files.find?_put, Files.find?_remove, find?_view,
    find?_move]
  split_ifs <;> rfl

theorem unshared_move (unshared : Unshared volume) {inode : Nat}
    (leads : Files.find? volume.names source = some inode) (given : inode < volume.next)
    (target : List N) : Unshared (link (remove volume source) target inode given) := by
  have other : ∀ path, path ≠ source → Files.find? volume.names path ≠ some inode :=
    fun path differ found => differ (unshared path source ⟨inode, found, leads⟩)
  rintro first second ⟨found, here, there⟩
  rw [find?_move] at here there
  split_ifs at here there with atFirst atSecond away gone after
  · rw [atFirst, atSecond]
  · exact absurd (there.trans here.symm) (other second away)
  · exact absurd (here.trans there.symm) (other first gone)
  · exact unshared first second ⟨found, here, there⟩

theorem write_eq_some {left : Volume N C} (written : write takes volume path content = some left) :
    (∃ inode, Files.find? volume.names path = some inode ∧ left = rewrite volume inode content) ∨
      Files.find? volume.names path = none ∧ left = create volume path content := by
  rw [write] at written
  split at written
  case isTrue => cases written
  case isFalse =>
    cases found : Files.find? volume.names path with
    | none =>
        rw [found] at written
        exact .inr ⟨rfl, (Option.some.inj written).symm⟩
    | some inode =>
        rw [found] at written
        exact .inl ⟨inode, rfl, (Option.some.inj written).symm⟩

theorem rename_eq_some {left : Volume N C} (moved : rename takes volume source target = some left) :
    left = volume ∨ ∃ inode, ∃ given : inode < volume.next,
      Files.find? volume.names source = some inode ∧
        left = link (remove volume source) target inode given := by
  rw [rename] at moved
  split at moved
  case h_1 => cases moved
  case h_2 inode found =>
    split at moved
    case isTrue => cases moved
    case isFalse =>
      split at moved
      case isTrue => exact .inl (Option.some.inj moved).symm
      case isFalse =>
        exact .inr ⟨inode, volume.numbered source inode found, found, (Option.some.inj moved).symm⟩

theorem write_view (takes : List N → Bool) (unshared : Unshared volume) (path : List N)
    (content : C) :
    Option.Rel (fun left seen => view left = seen ∧ Unshared left)
      (write takes volume path content) (Files.write takes (view volume) path content) := by
  rw [write, Files.write]
  simp only [isDirectory_view, obstructed_view]
  split
  case isTrue => exact .none
  case isFalse =>
    cases found : Files.find? volume.names path with
    | none => exact .some ⟨view_create volume path content, unshared_create unshared path content⟩
    | some inode => exact .some ⟨view_rewrite unshared found content, unshared⟩

theorem rename_view (takes : List N → Bool) (unshared : Unshared volume)
    (source target : List N) :
    Option.Rel (fun left seen => view left = seen ∧ Unshared left)
      (rename takes volume source target) (Files.rename takes (view volume) source target) := by
  rw [rename, Files.rename, find?_view]
  simp only [isDirectory_view, obstructed_view]
  split
  case h_1 found =>
    rw [found]
    exact .none
  case h_2 inode found =>
    have seen : (Files.find? volume.names source).map volume.contents =
        some (volume.contents inode) := by
      rw [found, Option.map_some]
    rw [seen, Option.bind_some]
    split
    case isTrue => exact .none
    case isFalse =>
      split
      case isTrue same =>
        have one : target = source := unshared target source ⟨inode, same, found⟩
        refine .some ⟨?_, unshared⟩
        apply SortedMap.ext_find?
        intro other
        rw [← Files.find?, ← Files.find?, Files.find?_put, Files.find?_remove, one]
        split
        case isTrue here => rw [here, find?_view, found, Option.map_some]
        case isFalse => rfl
      case isFalse =>
        have given := volume.numbered source inode found
        exact .some ⟨view_move given source target, unshared_move unshared found given target⟩

end View

/-- What has happened since an earlier time: names have changed in a region only, every name leads
where it led, to a new file or to a touched one, and the files before that are not touched hold
what they held. -/
structure Kept (region : Set (List N)) (touched : Set Nat) (earlier later : Volume N C) : Prop where
  next : earlier.next ≤ later.next
  names : Files.ChangedWithin region earlier.names later.names
  leads : ∀ path inode, Files.find? later.names path = some inode →
    Files.find? earlier.names path = some inode ∨ earlier.next ≤ inode ∨ inode ∈ touched
  contents : ∀ inode < earlier.next, inode ∉ touched →
    later.contents inode = earlier.contents inode

section Kept

variable {region larger : Set (List N)} {touched more : Set Nat} {earlier later left : Volume N C}
  {takes : List N → Bool} {path source target : List N} {content : C}

theorem Kept.refl : Kept region touched earlier earlier :=
  ⟨le_rfl, .refl, fun _ _ found => .inl found, fun _ _ _ => rfl⟩

theorem Kept.mono (kept : Kept region touched earlier later) (wider : region ⊆ larger)
    (others : touched ⊆ more) : Kept larger more earlier later where
  next := kept.next
  names := kept.names.mono wider
  leads := by
    intro path inode found
    rcases kept.leads path inode found with same | new | among
    · exact .inl same
    · exact .inr (.inl new)
    · exact .inr (.inr (others among))
  contents := fun inode older apart => kept.contents inode older fun among => apart (others among)

theorem Kept.write (kept : Kept region touched earlier later) (inside : path ∈ region)
    (known : ∀ inode, Files.find? earlier.names path = some inode → inode ∈ touched)
    (written : write takes later path content = some left) : Kept region touched earlier left := by
  rcases write_eq_some written with ⟨inode, found, rfl⟩ | ⟨-, rfl⟩
  · refine ⟨kept.next, kept.names, kept.leads, ?_⟩
    intro other older apart
    have differ : other ≠ inode := by
      rintro rfl
      rcases kept.leads path other found with same | new | among
      · exact apart (known other same)
      · omega
      · exact apart among
    exact (Function.update_of_ne differ _ _).trans (kept.contents other older apart)
  · have next := kept.next
    refine ⟨next.trans (Nat.le_succ _), ?_, ?_, ?_⟩
    · exact kept.names.trans (Files.changedWithin_put inside)
    · intro other inode found
      rw [find?_create] at found
      split at found
      case isTrue =>
        rw [← Option.some.inj found]
        exact .inr (.inl next)
      case isFalse => exact kept.leads other inode found
    · intro inode older apart
      have differ : inode ≠ later.next := by omega
      exact (Function.update_of_ne differ _ _).trans (kept.contents inode older apart)

theorem Kept.rename (kept : Kept region touched earlier later) (inside : source ∈ region)
    (other : target ∈ region)
    (known : ∀ inode, Files.find? earlier.names source = some inode → inode ∈ touched)
    (moved : rename takes later source target = some left) : Kept region touched earlier left := by
  rcases rename_eq_some moved with rfl | ⟨inode, given, found, rfl⟩
  · exact kept
  · refine ⟨kept.next, ?_, ?_, kept.contents⟩
    · exact (kept.names.trans (Files.changedWithin_remove inside)).trans
        (Files.changedWithin_put other)
    · intro path leads here
      rw [find?_move] at here
      split_ifs at here
      · rw [← Option.some.inj here]
        rcases kept.leads source inode found with same | new | among
        · exact .inr (.inr (known inode same))
        · exact .inr (.inl new)
        · exact .inr (.inr among)
      · exact kept.leads path leads here

theorem Kept.prune (kept : Kept region touched earlier later) (directory : List N) :
    Kept (region ∪ {path | directory <+: path}) touched earlier (prune later directory) where
  next := kept.next
  names := by
    intro path outside
    have elsewhere : ¬ directory <+: path := fun below => outside (.inr below)
    rw [LinkedFiles.prune, Files.find?_prune, if_neg elsewhere]
    exact kept.names path fun member => outside (.inl member)
  leads := by
    intro path inode found
    rw [LinkedFiles.prune, Files.find?_prune] at found
    split at found
    case isTrue => cases found
    case isFalse => exact kept.leads path inode found
  contents := kept.contents

theorem Kept.find?_view (kept : Kept region touched earlier later) (path : List N)
    (differs : Files.find? (view later) path ≠ Files.find? (view earlier) path) :
    Files.find? later.names path ≠ Files.find? earlier.names path ∨
      ∃ inode ∈ touched, Files.find? earlier.names path = some inode := by
  by_contra neither
  rcases not_or.mp neither with ⟨same, apart⟩
  apply differs
  rw [LinkedFiles.find?_view, LinkedFiles.find?_view, not_not.mp same]
  cases found : Files.find? earlier.names path with
  | none => rfl
  | some inode =>
      have older := earlier.numbered path inode found
      rw [Option.map_some, Option.map_some,
        kept.contents inode older fun among => apart ⟨inode, among, found⟩]

theorem Kept.view_eq (kept : Kept region ∅ earlier later) (names : later.names = earlier.names) :
    view later = view earlier := by
  apply SortedMap.ext_find?
  intro path
  by_contra differs
  rcases kept.find?_view path differs with moved | ⟨inode, none, -⟩
  · exact moved (by rw [names])
  · exact none

end Kept

end LinkedFiles
