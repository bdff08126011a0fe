import Ito.BackupRoundTrip
import Ito.Library.Fallible
import Ito.Library.LinkedFiles

/-! What a restore leaves in the whole file system, where it returns and where it raises.

Source: `scripts/operations/backup_restore.py`. A file system holds regular files, which may have
several names, and no symbolic links. The temporary directory is named by `staging`, and its files
are removed at the end in every case. -/

namespace Ito.BackupRestore

open LinkedFiles (Volume view SameFile Unshared Kept)

abbrev FileSystem := Volume Text Bytes

def follow (directory relative : Path) : Path :=
  relative.foldl (fun here part => if part = dotdot then here.dropLast else here ++ [part])
    directory

/-- What a turn leaves of the file system, and whether it raises. -/
abbrev Outcome := FileSystem × Except Error Unit

/-- A loop that ends where a turn raises. -/
def runAll {α : Type} (turn : FileSystem → α → Outcome) : FileSystem → List α → Outcome
  | files, [] => (files, .ok ())
  | files, item :: rest =>
      match turn files item with
      | (files, .ok _) => runAll turn files rest
      | (files, .error raised) => (files, .error raised)

section

variable (lib : Externals) (staging destination : Path)

/-- A file is created at a path; the directory and those above it are there already. -/
def writeBelow (directory : Path) (files : FileSystem) (path : Path) (content : Bytes) :
    Option FileSystem :=
  if path <+: directory then none else LinkedFiles.write lib.takes files path content

/-- One turn of `extractall`. -/
def extractMember (files : FileSystem) (member : Member) : Outcome :=
  match writeBelow lib staging files (follow staging (parts member.name)) member.content with
  | some files => (files, .ok ())
  | none => (files, .error .osError)

def copyEntry (files : FileSystem) (item : Json) : Outcome :=
  match entryPath lib item with
  | .error raised => (files, .error raised)
  | .ok relative =>
      let source := follow staging relative
      let target := follow destination relative
      match Files.find? (view files) source with
      | none => (files, .error .osError)
      | some content =>
          -- `copyfile` raises `SameFileError` there, and writes a file that is there in place
          if SameFile files source (temporary target) then (files, .error .osError)
          else match writeBelow lib destination files (temporary target) content with
          | none => (files, .error .osError)
          | some copied =>
              match LinkedFiles.rename lib.takes copied (temporary target) target with
              | none => (copied, .error .osError)
              | some moved => (moved, .ok ())

def readManifest (archive : List Member) : Except Error (List Json) := do
  verifyMembers archive
  let member ← getMember archive manifestName
  let data ← load lib member.content
  manifestFiles data

/-- The block under the temporary directory. -/
def stageAndCopy (archive : List Member) (files : FileSystem) (items : List Json) : Outcome :=
  match runAll (extractMember lib staging) files archive with
  | (staged, .error raised) => (staged, .error raised)
  | (staged, .ok _) =>
      match forM items (checkEntry lib (Files.below (view staged) staging)) with
      | .error raised => (staged, .error raised)
      | .ok _ => runAll (copyEntry lib staging destination) staged items

def restoreFiles (archive : List Member) (files : FileSystem) : Outcome :=
  match readManifest lib archive with
  | .error raised => (files, .error raised)
  | .ok items =>
      let left := stageAndCopy lib staging destination archive files items
      (LinkedFiles.prune left.1 staging, left.2)

end

/-! Paths -/

theorem follow_eq {directory relative : Path} (safe : dotdot ∉ relative) :
    follow directory relative = directory ++ relative := by
  induction relative generalizing directory with
  | nil => exact (List.append_nil directory).symm
  | cons part rest ih =>
      rcases List.ne_and_not_mem_of_not_mem_cons safe with ⟨differs, others⟩
      rw [follow, List.foldl_cons, if_neg (Ne.symm differs), ← follow, ih others,
        List.append_assoc, List.singleton_append]

theorem safeRelative_ok {value : Text} {relative : Path}
    (safe : safeRelative value = .ok relative) : relative = parts value ∧ dotdot ∉ relative := by
  rw [safeRelative] at safe
  split at safe
  case isTrue => cases safe
  case isFalse fine =>
    rw [← Except.ok.inj safe]
    exact ⟨rfl, fun member => fine (Or.inr member)⟩

theorem inside_append {directory relative : Path} (named : relative ≠ []) :
    Files.Inside directory (directory ++ relative) :=
  ⟨List.prefix_append _ _, fun same => named (List.append_right_eq_self.mp same)⟩

theorem temporary_append {directory relative : Path} (named : relative ≠ []) :
    temporary (directory ++ relative) = directory ++ temporary relative := by
  rw [temporary, temporary, List.dropLast_append_of_ne_nil named, List.append_assoc]
  congr 2
  rw [List.getLastD_eq_getLast?, List.getLastD_eq_getLast?, List.getLast?_append_of_ne_nil _ named]

theorem temporary_ne_nil (path : Path) : temporary path ≠ [] := by simp [temporary]

/-! The loops -/

section Loop

variable {α : Type} {turn : FileSystem → α → Outcome} {items : List α} {files : FileSystem}

theorem runAll_keeps {holds : FileSystem → Prop}
    (each : ∀ item ∈ items, ∀ files, holds files → holds (turn files item).1) (start : holds files) :
    holds (runAll turn files items).1 := by
  induction items generalizing files with
  | nil => exact start
  | cons item rest ih =>
      rcases List.forall_mem_cons.mp each with ⟨first, others⟩
      rw [runAll]
      have held := first files start
      cases turned : turn files item with
      | mk next result =>
          rw [turned] at held
          cases result with
          | ok => exact ih others held
          | error raised => exact held

theorem runAll_raises {raised : Error} (ended : (runAll turn files items).2 = .error raised) :
    ∃ item ∈ items, ∃ files, (turn files item).2 = .error raised := by
  induction items generalizing files with
  | nil => cases ended
  | cons item rest ih =>
      rw [runAll] at ended
      cases turned : turn files item with
      | mk next result =>
          rw [turned] at ended
          cases result with
          | ok =>
              rcases ih ended with ⟨later, among, before, raises⟩
              exact ⟨later, List.mem_cons_of_mem _ among, before, raises⟩
          | error other =>
              refine ⟨item, List.mem_cons_self, files, ?_⟩
              rw [turned]
              exact ended

end Loop

/-! The turns -/

section Turns

variable {lib : Externals} {archive : List Member} {staging destination : Path}

theorem verifyMembers_safe (verified : verifyMembers archive = .ok ()) :
    ∀ member ∈ archive, dotdot ∉ parts member.name := by
  intro member among
  have checked := Fallible.forM_eq_ok.mp verified member among
  rcases Fallible.bind_eq_ok.mp checked with ⟨relative, safe, -⟩
  rcases safeRelative_ok safe with ⟨rfl, clean⟩
  exact clean

theorem entryPath_safe {item : Json} {relative : Path}
    (named : entryPath lib item = .ok relative) : dotdot ∉ relative := by
  rcases Fallible.bind_eq_ok.mp named with ⟨value, -, safe⟩
  exact (safeRelative_ok safe).2

theorem checkEntry_found {staged : Files.Tree Text Bytes} {item : Json}
    (checked : checkEntry lib staged item = .ok ()) :
    ∃ relative content, entryPath lib item = .ok relative ∧
      Files.find? staged relative = some content := by
  rcases Fallible.bind_eq_ok.mp checked with ⟨relative, named, passed⟩
  cases found : Files.find? staged relative with
  | none =>
      simp only [found] at passed
      cases passed
  | some content => exact ⟨relative, content, named, found⟩

variable {region : Set Path} {touched : Set Nat} {start files : FileSystem}

theorem writeBelow_eq_some {directory path : Path} {content : Bytes} {next : FileSystem}
    (written : writeBelow lib directory files path content = some next) :
    ¬ path <+: directory ∧ LinkedFiles.write lib.takes files path content = some next := by
  rw [writeBelow] at written
  split at written
  case isTrue => cases written
  case isFalse below => exact ⟨below, written⟩

theorem extractMember_kept {member : Member} (safe : dotdot ∉ parts member.name)
    (fresh : ∀ path, staging <+: path → Files.find? start.names path = none)
    (kept : Kept {path | Files.Inside staging path} touched start files) :
    Kept {path | Files.Inside staging path} touched start
      (extractMember lib staging files member).1 := by
  rw [extractMember, follow_eq safe]
  cases written : writeBelow lib staging files (staging ++ parts member.name) member.content with
  | none => exact kept
  | some next =>
      rcases writeBelow_eq_some written with ⟨below, placed⟩
      have named : parts member.name ≠ [] := by
        intro empty
        rw [empty, List.append_nil] at below
        exact below List.prefix_rfl
      have inside : Files.Inside staging (staging ++ parts member.name) := inside_append named
      refine kept.write inside ?_ placed
      intro inode leads
      rw [fresh _ inside.1] at leads
      cases leads

variable {item : Json} {relative : Path}

theorem copyEntry_kept (found : entryPath lib item = .ok relative) (named : relative ≠ [])
    (within : ∀ path, Files.Inside destination path → path ∈ region)
    (known : ∀ inode, Files.find? start.names (temporary (destination ++ relative)) = some inode →
      inode ∈ touched) (kept : Kept region touched start files) :
    Kept region touched start (copyEntry lib staging destination files item).1 := by
  have beside : temporary (destination ++ relative) ∈ region := by
    apply within
    rw [temporary_append named]
    exact inside_append (temporary_ne_nil relative)
  rw [copyEntry, found]
  dsimp only
  rw [follow_eq (entryPath_safe found), follow_eq (entryPath_safe found)]
  split
  case h_1 => exact kept
  case h_2 content _ =>
    split_ifs
    case pos => exact kept
    case neg =>
      split
      case h_1 => exact kept
      case h_2 copied written =>
        have first := kept.write beside known (writeBelow_eq_some written).2
        split
        case h_1 => exact first
        case h_2 moved renamed =>
          exact first.rename beside (within _ (inside_append named)) known renamed

theorem copyEntry_raises (found : entryPath lib item = .ok relative) {files : FileSystem}
    {raised : Error}
    (failed : (copyEntry lib staging destination files item).2 = .error raised) :
    raised = .osError := by
  rw [copyEntry, found] at failed
  dsimp only at failed
  split at failed
  · exact (Except.error.inj failed).symm
  · split_ifs at failed
    · exact (Except.error.inj failed).symm
    · split at failed
      · exact (Except.error.inj failed).symm
      · split at failed
        · exact (Except.error.inj failed).symm
        · cases failed

end Turns

/-! The restore -/

section Restore

variable {lib : Externals} {archive : List Member} {staging destination : Path}
  {files : FileSystem}

theorem readManifest_verified {items : List Json} (read : readManifest lib archive = .ok items) :
    verifyMembers archive = .ok () := by
  rcases Fallible.bind_eq_ok.mp read with ⟨_, verified, -⟩
  exact verified

/-- What stood in the destination under the temporary names of the entries. -/
def temporaryInodes (lib : Externals) (destination : Path) (files : FileSystem)
    (items : List Json) : Set Nat :=
  {inode | ∃ item ∈ items, ∃ relative, entryPath lib item = .ok relative ∧ relative ≠ [] ∧
    Files.find? files.names (temporary (destination ++ relative)) = some inode}

/-- What the block under the temporary directory leaves, for a directory that was not there
before: the files below it, and files below the destination where every check has passed. -/
theorem stageAndCopy_kept (lib : Externals) (destination : Path)
    (fresh : ∀ path, staging <+: path → Files.find? files.names path = none)
    (verified : verifyMembers archive = .ok ()) (items : List Json) :
    let left := stageAndCopy lib staging destination archive files items
    Kept {path | staging <+: path} ∅ files left.1 ∨
    (Kept {path | staging <+: path ∨ Files.Inside destination path}
        (temporaryInodes lib destination files items) files left.1 ∧
      ∀ raised, left.2 = .error raised → raised = .osError) := by
  have safe := verifyMembers_safe verified
  have extracted : Kept {path | Files.Inside staging path} ∅ files
      (runAll (extractMember lib staging) files archive).1 :=
    runAll_keeps (fun member among _ kept => extractMember_kept (safe member among) fresh kept)
      .refl
  have below : {path | Files.Inside staging path} ⊆ {path | staging <+: path} :=
    fun _ inside => inside.1
  dsimp only
  rw [stageAndCopy]
  cases ran : runAll (extractMember lib staging) files archive with
  | mk staged result =>
      rw [ran] at extracted
      cases result with
      | error raised => exact Or.inl (extracted.mono below subset_rfl)
      | ok =>
          dsimp only
          cases checked : forM items (checkEntry lib (Files.below (view staged) staging)) with
          | error raised => exact Or.inl (extracted.mono below subset_rfl)
          | ok =>
              have paths : ∀ item ∈ items, ∃ relative, entryPath lib item = .ok relative ∧
                  relative ≠ [] := by
                intro item among
                rcases checkEntry_found (Fallible.forM_eq_ok.mp checked item among) with
                  ⟨relative, content, named, found⟩
                refine ⟨relative, named, ?_⟩
                rintro rfl
                rw [Files.find?_below, List.append_nil, LinkedFiles.find?_view,
                  extracted.names staging fun inside => inside.2 rfl,
                  fresh staging List.prefix_rfl] at found
                cases found
              refine Or.inr ⟨?_, fun raised ended => ?_⟩
              · refine runAll_keeps ?_ (extracted.mono (fun _ inside => Or.inl inside.1)
                  (Set.empty_subset _))
                intro item among files kept
                rcases paths item among with ⟨relative, found, named⟩
                exact copyEntry_kept found named (fun _ inside => Or.inr inside)
                  (fun inode leads => ⟨item, among, relative, found, named, leads⟩) kept
              · rcases runAll_raises ended with ⟨item, among, before, failed⟩
                rcases paths item among with ⟨relative, found, -⟩
                exact copyEntry_raises found failed

/-- The file at a path is the one that stood in the destination under the temporary name of an
entry of the manifest. -/
def LinkedToTemporary (lib : Externals) (archive : List Member) (destination : Path)
    (files : FileSystem) (path : Path) : Prop :=
  ∃ items, readManifest lib archive = .ok items ∧ ∃ item ∈ items, ∃ relative,
    entryPath lib item = .ok relative ∧ relative ≠ [] ∧
      SameFile files (temporary (destination ++ relative)) path

/-- A restore that raises a `BackupError` leaves every name and every file as it was. Whatever a
restore does, the names that it creates, moves or removes are below the destination, and so are
the files that it changes, up to other names of files that stood there under temporary names. -/
theorem restore_contained (lib : Externals) (archive : List Member) (destination : Path)
    (fresh : ∀ path, staging <+: path → Files.find? files.names path = none) :
    let left := restoreFiles lib staging destination archive files
    (∀ message, left.2 = .error (.backupError message) →
      left.1.names = files.names ∧ view left.1 = view files) ∧
    ∀ path,
      (Files.find? left.1.names path ≠ Files.find? files.names path →
        Files.Inside destination path) ∧
      (Files.find? (view left.1) path ≠ Files.find? (view files) path →
        Files.Inside destination path ∨ LinkedToTemporary lib archive destination files path) := by
  dsimp only
  rw [restoreFiles]
  cases read : readManifest lib archive with
  | error raised =>
      exact ⟨fun _ _ => ⟨rfl, rfl⟩, fun path =>
        ⟨fun differs => absurd rfl differs, fun differs => absurd rfl differs⟩⟩
  | ok items =>
      dsimp only
      rcases stageAndCopy_kept lib destination fresh (readManifest_verified read) items with
        kept | ⟨kept, raises⟩
      · have names : (LinkedFiles.prune
            (stageAndCopy lib staging destination archive files items).1 staging).names =
              files.names := Files.prune_changed fresh kept.names
        have same := (kept.prune staging).view_eq names
        exact ⟨fun _ _ => ⟨names, same⟩, fun path =>
          ⟨fun differs => absurd (by rw [names]) differs,
            fun differs => absurd (by rw [same]) differs⟩⟩
      · have pruned : ∀ path, Files.find? (LinkedFiles.prune
            (stageAndCopy lib staging destination archive files items).1 staging).names path ≠
              Files.find? files.names path → Files.Inside destination path := by
          intro path differs
          rw [LinkedFiles.prune, Files.find?_prune] at differs
          split at differs
          case isTrue below => exact absurd (fresh path below).symm differs
          case isFalse outside =>
            by_contra elsewhere
            exact differs (kept.names path fun either => either.elim outside elsewhere)
        refine ⟨fun message failed => ?_, fun path => ⟨pruned path, fun differs => ?_⟩⟩
        · cases raises _ failed
        · rcases (kept.prune staging).find?_view path differs with
            moved | ⟨inode, ⟨item, among, relative, found, named, leads⟩, here⟩
          · exact .inl (pruned path moved)
          · exact .inr ⟨items, read, item, among, relative, found, named, inode, leads, here⟩

end Restore

/-! The source's own test with a changed file -/

def versionText (version : String) : Bytes :=
  Bytes.ofText ("\x7b\"version\":" ++ version ++ "\x7d")

def versionSha256 (content : Bytes) : Text :=
  codes (if content = versionText "1" then policySha256
    else "732322c128ed67841ef5aa42c7cd04ffcd74a61b2d17d710cd502b713d62930d")

def tamperedLibraries : Externals :=
  librariesFor (manifest (librariesFor .null "" versionSha256) policyRoot [policyPath])
    (manifestLine (entryText "config/risk/policy.json" policySha256 "13") "workspace") versionSha256

def tamperedArchive : List Member :=
  [⟨manifestName, .regular, tamperedLibraries.dumps .null⟩,
    ⟨codes "config/risk/policy.json", .regular, versionText "2"⟩]

def linkedFiles : FileSystem where
  names := ⟨[([codes "outside"], 0), (temporary (codes "restored" :: policyPath), 0),
    (codes "restored" :: policyPath, 1)], by decide⟩
  contents := fun inode => versionText (if inode = 0 then "3" else "1")
  next := 2
  numbered := LinkedFiles.numbered_of_entries (by decide)

theorem linkedFiles_fresh (path : Path) (below : [codes "tmp"] <+: path) :
    Files.find? linkedFiles.names path = none := by
  cases found : Files.find? linkedFiles.names path with
  | none => rfl
  | some inode =>
      have apart : ∀ key ∈ Files.keys linkedFiles.names, ¬ [codes "tmp"] <+: key := by decide
      exact absurd below (apart path (Files.mem_keys.mpr ⟨inode, found⟩))

theorem restore_contained_tampered :
    let left := restoreFiles tamperedLibraries [codes "tmp"] [codes "restored"] tamperedArchive
      linkedFiles
    left.2 = .error (.backupError (codes "integrity_failure:config/risk/policy.json")) ∧
      left.1.names = linkedFiles.names ∧ view left.1 = view linkedFiles := by
  have raised : (restoreFiles tamperedLibraries [codes "tmp"] [codes "restored"] tamperedArchive
      linkedFiles).2 =
        .error (.backupError (codes "integrity_failure:config/risk/policy.json")) := by
    decide +kernel
  have unchanged := (restore_contained tamperedLibraries tamperedArchive [codes "restored"]
    linkedFiles_fresh).1 _ raised
  exact ⟨raised, unchanged⟩

def intactArchive : List Member :=
  [⟨manifestName, .regular, tamperedLibraries.dumps .null⟩,
    ⟨codes "config/risk/policy.json", .regular, versionText "1"⟩]

/-- The file outside of the destination has the temporary name as a second name, and holds the
restored content afterwards. -/
theorem restore_rewrites_linked :
    let left := restoreFiles tamperedLibraries [codes "tmp"] [codes "restored"] intactArchive
      linkedFiles
    left.2 = .ok () ∧ ¬ Files.Inside [codes "restored"] [codes "outside"] ∧
      Files.find? (view linkedFiles) [codes "outside"] = some (versionText "3") ∧
      Files.find? (view left.1) [codes "outside"] = some (versionText "1") := by
  intro left
  have computed : (left.2, Files.find? (view left.1) [codes "outside"]) =
      (.ok (), some (versionText "1")) := by
    decide +kernel
  rcases Prod.mk.inj computed with ⟨returned, rewritten⟩
  exact ⟨returned, fun inside => absurd inside.1 (by decide), by decide +kernel, rewritten⟩

/-! The restore of the destination alone -/

section Agreement

inductive Agrees {A : Type} (seen : FileSystem → A → Prop) : Outcome → Except Error A → Prop where
  | raised (left : FileSystem) (raised : Error) : Agrees seen (left, .error raised) (.error raised)
  | done {left : FileSystem} {part : A} (held : seen left part) : Agrees seen (left, .ok ()) (.ok part)

theorem runAll_agrees {α A : Type} {turn : FileSystem → α → Outcome}
    {abstract : A → α → Except Error A} {seen : FileSystem → A → Prop} {items : List α}
    (each : ∀ item ∈ items, ∀ files part, seen files part →
      Agrees seen (turn files item) (abstract part item))
    {files : FileSystem} {part : A} (start : seen files part) :
    Agrees seen (runAll turn files items) (items.foldlM abstract part) := by
  induction items generalizing files part with
  | nil => exact .done start
  | cons item rest ih =>
      rcases List.forall_mem_cons.mp each with ⟨first, others⟩
      rw [runAll, List.foldlM_cons]
      have here := first files part start
      generalize turn files item = outcome at here ⊢
      generalize abstract part item = result at here ⊢
      cases here with
      | raised => exact .raised _ _
      | done held => exact ih others held

variable {lib : Externals} {takes : Path → Bool} {first second : Path}

structure SideBySide (lib : Externals) (takes : Path → Bool) (first second : Path) : Prop where
  takesFirst : ∀ path, lib.takes (first ++ path) = takes path
  takesSecond : ∀ path, lib.takes (second ++ path) = takes path
  apart : ¬ first <+: second
  beside : ¬ second <+: first

theorem SideBySide.symm (sides : SideBySide lib takes first second) :
    SideBySide lib takes second first :=
  ⟨sides.takesSecond, sides.takesFirst, sides.beside, sides.apart⟩

theorem SideBySide.not_prefix_append (sides : SideBySide lib takes first second) (path : Path) :
    ¬ second <+: first ++ path := by
  intro part
  rcases List.prefix_or_prefix_of_prefix part (List.prefix_append first path) with up | down
  · exact sides.beside up
  · exact sides.apart down

/-- The files below two directories that are there, each under one name. -/
structure Carries (first second : Path) (files : FileSystem) (one two : Files.Tree Text Bytes) :
    Prop where
  one : Files.below (view files) first = one
  two : Files.below (view files) second = two
  firstClear : Files.Clear (view files) first
  secondClear : Files.Clear (view files) second
  unshared : Unshared files

variable {files : FileSystem} {one two : Files.Tree Text Bytes} {relative : Path}
  {archive : List Member}

theorem Carries.symm (held : Carries first second files one two) : Carries second first files two one :=
  ⟨held.two, held.one, held.secondClear, held.firstClear, held.unshared⟩

theorem not_above_append {directory relative : Path} (named : relative ≠ []) :
    ¬ directory ++ relative <+: directory := fun part =>
  named (List.append_right_eq_self.mp (part.eq_of_length_le (by simp)))

theorem Carries.second_unchanged (held : Carries first second files one two)
    (sides : SideBySide lib takes first second) {next : Files.Tree Text Bytes}
    (changed : Files.ChangedWithin {path | first <+: path} (view files) next) :
    Files.below next second = two := by
  rw [← held.two]
  exact Files.below_eq fun path => changed _ (sides.symm.not_prefix_append path)

/-- A step below the first directory, taken on the names and on the contents alike. -/
theorem Carries.step (held : Carries first second files one two)
    (sides : SideBySide lib takes first second) {outcome : Option FileSystem}
    {seen : Option (Files.Tree Text Bytes)}
    (same : Option.Rel (fun next tree => view next = tree ∧ Unshared next) outcome seen)
    (changed : ∀ tree, seen = some tree →
      Files.ChangedWithin {path | first <+: path} (view files) tree)
    (clear : ∀ tree, seen = some tree → Files.Clear tree first ∧ Files.Clear tree second) :
    Option.Rel (fun next after => Carries first second next after two) outcome
      (seen.map fun tree => Files.below tree first) := by
  cases same with
  | none => exact .none
  | some both =>
      rcases both with ⟨rfl, unshared⟩
      rcases clear _ rfl with ⟨firstClear, secondClear⟩
      have kept := held.second_unchanged sides (changed _ rfl)
      exact .some ⟨rfl, kept, firstClear, secondClear, unshared⟩

theorem Carries.write (held : Carries first second files one two)
    (sides : SideBySide lib takes first second) (relative : Path) (content : Bytes) :
    Option.Rel (fun next after => Carries first second next after two)
      (writeBelow lib first files (first ++ relative) content)
      (Files.write takes one relative content) := by
  rw [writeBelow]
  by_cases named : relative = []
  · have stopped : Files.write takes one relative content = none :=
      if_pos (Or.inr (Or.inl (Or.inl named)))
    rw [stopped, named, List.append_nil, if_pos List.prefix_rfl]
    exact .none
  · rw [if_neg (not_above_append named)]
    have same := Files.write_below held.firstClear named (sides.takesFirst relative) content
    rw [held.one] at same
    rw [← same]
    apply held.step sides (LinkedFiles.write_view lib.takes held.unshared _ content)
    · intro tree written
      have inside : first ++ relative ∈ {path | first <+: path} := List.prefix_append _ _
      exact Files.changedWithin_write inside written
    · intro tree written
      rw [(Files.write_eq_some.mp written).2.2.2]
      constructor
      · exact held.firstClear.put (not_above_append named)
      · exact held.secondClear.put fun part => sides.apart ((List.prefix_append _ _).trans part)

theorem Carries.rename (held : Carries first second files one two)
    (sides : SideBySide lib takes first second) (source : Path) (named : relative ≠ []) :
    Option.Rel (fun next after => Carries first second next after two)
      (LinkedFiles.rename lib.takes files (first ++ source) (first ++ relative))
      (Files.rename takes one source relative) := by
  have same := Files.rename_below held.firstClear named (sides.takesFirst relative) source
  rw [held.one] at same
  rw [← same]
  apply held.step sides (LinkedFiles.rename_view lib.takes held.unshared _ _)
  · intro tree moved
    have inside : ∀ rest, first ++ rest ∈ {path | first <+: path} :=
      fun rest => List.prefix_append _ _
    exact Files.changedWithin_rename (inside source) (inside relative) moved
  · intro tree moved
    rcases Files.rename_eq_some moved with ⟨content, -, placed⟩
    rw [placed]
    constructor
    · exact held.firstClear.remove.put (not_above_append named)
    · exact held.secondClear.remove.put fun part =>
        sides.apart ((List.prefix_append _ _).trans part)

theorem Carries.not_sameFile (held : Carries first second files one two)
    (sides : SideBySide lib takes first second) (source target : Path) :
    ¬ SameFile files (first ++ source) (second ++ target) := by
  intro same
  have path := held.unshared _ _ same
  exact sides.not_prefix_append source (path ▸ List.prefix_append second target)

def stageMember (takes : Path → Bool) (staged : Files.Tree Text Bytes) (member : Member) :
    Except Error (Files.Tree Text Bytes) :=
  match Files.write takes staged (parts member.name) member.content with
  | some staged => .ok staged
  | none => .error .osError

theorem extractAll_eq (archive : List Member) :
    extractAll lib archive = archive.foldlM (stageMember lib.takes) Files.empty := by
  rw [extractAll, Files.writeAll]
  generalize (Files.empty : Files.Tree Text Bytes) = start
  induction archive generalizing start with
  | nil => rfl
  | cons member rest ih =>
      rw [List.map_cons, List.foldlM_cons, List.foldlM_cons, stageMember]
      cases written : Files.write lib.takes start (parts member.name) member.content with
      | none => rfl
      | some next => exact ih next

theorem extractMember_agrees (sides : SideBySide lib takes first second) {member : Member}
    (safe : dotdot ∉ parts member.name) (held : Carries first second files one two) :
    Agrees (fun files one => Carries first second files one two)
      (extractMember lib first files member) (stageMember takes one member) := by
  rw [extractMember, stageMember, follow_eq safe]
  have written := held.write sides (parts member.name) member.content
  generalize writeBelow lib first files (first ++ parts member.name) member.content = outcome
    at written ⊢
  generalize Files.write takes one (parts member.name) member.content = result at written ⊢
  cases written with
  | none => exact .raised _ _
  | some after => exact .done after

theorem installEntry_eq (lib : Externals) (takes : Path → Bool) (one two : Files.Tree Text Bytes)
    (item : Json) :
    installEntry { lib with takes := takes } one two item =
      match entryPath lib item with
      | .error raised => .error raised
      | .ok relative =>
          match (Files.find? one relative).bind (Files.install takes temporary two relative) with
          | some installed => .ok installed
          | none => .error .osError := by
  have path : entryPath { lib with takes := takes } item = entryPath lib item := rfl
  rw [installEntry, path]
  cases entryPath lib item <;> rfl

theorem copyEntry_agrees (sides : SideBySide lib takes first second) {item : Json}
    (held : Carries second first files two one) :
    Agrees (fun files two => Carries second first files two one)
      (copyEntry lib first second files item)
      (installEntry { lib with takes := takes } one two item) := by
  rw [copyEntry, installEntry_eq]
  cases found : entryPath lib item with
  | error raised => exact .raised _ _
  | ok relative =>
      have safe := entryPath_safe found
      dsimp only
      rw [follow_eq safe, follow_eq safe, ← Files.find?_below, held.two]
      cases stored : Files.find? one relative with
      | none => exact .raised _ _
      | some content =>
          have named : relative ≠ [] := by
            rintro rfl
            rw [← held.two, Files.find?_below, List.append_nil, held.secondClear.not_found] at stored
            cases stored
          have differ := held.symm.not_sameFile sides relative (temporary relative)
          rw [temporary_append named, Option.bind_some, Files.install]
          dsimp only
          rw [if_neg differ]
          have written := held.write sides.symm (temporary relative) content
          generalize writeBelow lib second files (second ++ temporary relative) content = outcome
            at written ⊢
          generalize Files.write takes two (temporary relative) content = result at written ⊢
          cases written with
          | none => exact .raised _ _
          | @some copied after carried =>
              have moved := carried.rename sides.symm (temporary relative) named
              rw [Option.bind_some]
              dsimp only
              generalize LinkedFiles.rename lib.takes copied (second ++ temporary relative)
                (second ++ relative) = renamed at moved ⊢
              generalize Files.rename takes after (temporary relative) relative = installed
                at moved ⊢
              cases moved with
              | none => exact .raised _ _
              | some held => exact .done held

theorem restore_eq (lib : Externals) (takes : Path → Bool) (archive : List Member)
    (destination : Files.Tree Text Bytes) :
    restore { lib with takes := takes } archive destination =
      match readManifest lib archive with
      | .error raised => .error raised
      | .ok items =>
          match archive.foldlM (stageMember takes) Files.empty with
          | .error raised => .error raised
          | .ok staged =>
              match forM items (checkEntry lib staged) with
              | .error raised => .error raised
              | .ok _ => items.foldlM (installEntry { lib with takes := takes } staged) destination := by
  have read : restore { lib with takes := takes } archive destination =
      (readManifest lib archive >>= fun items => do
        let staged ← extractAll { lib with takes := takes } archive
        forM items (checkEntry lib staged)
        items.foldlM (installEntry { lib with takes := takes } staged) destination) := by
    rw [readManifest, restore]
    simp only [bind_assoc]
    rfl
  rw [read, extractAll_eq]
  cases readManifest lib archive with
  | error => rfl
  | ok items =>
      dsimp only
      cases archive.foldlM (stageMember takes) Files.empty with
      | error => rfl
      | ok staged =>
          dsimp only
          change (forM items (checkEntry lib staged) >>= _) = _
          cases forM items (checkEntry lib staged) <;> rfl

/-- On the files below the destination, the restore does what the restore of those files alone
does, where the temporary directory is a new one beside the destination and no file has two
names. -/
theorem restoreFiles_agrees (archive : List Member) (sides : SideBySide lib takes first second)
    (fresh : ∀ path, first <+: path → Files.find? (view files) path = none)
    (firstClear : Files.Clear (view files) first) (secondClear : Files.Clear (view files) second)
    (unshared : Unshared files) :
    Agrees (fun left restored => Files.below (view left) second = restored)
      (restoreFiles lib first second archive files)
      (restore { lib with takes := takes } archive (Files.below (view files) second)) := by
  rw [restoreFiles, restore_eq]
  generalize kept : Files.below (view files) second = two
  cases read : readManifest lib archive with
  | error => exact .raised _ _
  | ok items =>
      have safe := verifyMembers_safe (readManifest_verified read)
      have start : Carries first second files Files.empty two :=
        ⟨Files.below_fresh fresh, kept, firstClear, secondClear, unshared⟩
      have each : ∀ member ∈ archive, ∀ files one, Carries first second files one two →
          Agrees _ (extractMember lib first files member) (stageMember takes one member) :=
        fun member among _ _ held => extractMember_agrees sides (safe member among) held
      have extracted := runAll_agrees each start
      dsimp only
      rw [stageAndCopy]
      generalize runAll (extractMember lib first) files archive = outcome at extracted ⊢
      generalize archive.foldlM (stageMember takes) Files.empty = result at extracted ⊢
      cases extracted with
      | raised => exact .raised _ _
      | @done staged one held =>
          dsimp only
          rw [held.one]
          cases forM items (checkEntry lib one) with
          | error => exact .raised _ _
          | ok =>
              have turns : ∀ item ∈ items, ∀ files two, Carries second first files two one →
                  Agrees _ (copyEntry lib first second files item)
                    (installEntry { lib with takes := takes } one two item) :=
                fun _ _ _ _ held => copyEntry_agrees sides held
              have copied := runAll_agrees turns held.symm
              dsimp only
              generalize runAll (copyEntry lib first second) staged items = outcome at copied ⊢
              generalize items.foldlM (installEntry { lib with takes := takes } one) _ = result
                at copied ⊢
              cases copied with
              | raised => exact .raised _ _
              | done held =>
                  refine .done ?_
                  rw [LinkedFiles.view_prune, ← held.one]
                  refine Files.below_eq fun path => ?_
                  rw [Files.find?_prune, if_neg (sides.symm.not_prefix_append path)]

end Agreement

end Ito.BackupRestore
