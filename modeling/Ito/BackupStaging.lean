import Ito.BackupArchive
import Mathlib.Data.List.Forall2

/-! When an archive of collected files is restored, and from which manifest.

Source: `scripts/operations/backup_restore.py`. -/

namespace Ito.BackupRestore

open Fallible

/-! The two loops of a restore -/

section Entries

variable {lib : Externals} {staged : Files.Tree Text Bytes} {item : Json} {path : Path}

structure Describes (lib : Externals) (holds : Path → Bytes → Prop) (item : Json) (path : Path) :
    Prop where
  named : entryPath lib item = .ok path
  intact : ∃ content size sha256, holds path content ∧ getItem "size" item = .ok size ∧
    asInt lib size = .ok (content.length : Int) ∧ getItem "sha256" item = .ok sha256 ∧
    Json.same (.str (lib.digest content)) sha256 = true

def StagedFile (staged : Files.Tree Text Bytes) (path : Path) (content : Bytes) : Prop :=
  Files.find? staged path = some content

theorem checkEntry_eq_ok : checkEntry lib staged item = .ok () ↔
    ∃ path, Describes lib (StagedFile staged) item path := by
  rw [checkEntry, bind_eq_ok]
  constructor
  · rintro ⟨path, named, checked⟩
    cases found : Files.find? staged path with
    | none => simp [found, throw, throwThe, MonadExceptOf.throw] at checked
    | some content =>
        simp only [found] at checked
        obtain ⟨size, sized, checked⟩ := bind_eq_ok.mp checked
        obtain ⟨number, isNumber, checked⟩ := bind_eq_ok.mp checked
        obtain ⟨whole, checked⟩ := throw_else_eq_ok.mp checked
        obtain ⟨sha256, hashed, checked⟩ := bind_eq_ok.mp checked
        obtain ⟨same, _⟩ := throw_else_eq_ok.mp checked
        rw [← not_not.mp whole] at isNumber
        refine ⟨path, named, content, size, sha256, found, sized, isNumber, hashed, ?_⟩
        simpa using same
  · rintro ⟨path, named, content, size, sha256, held, sized, isNumber, hashed, same⟩
    refine ⟨path, named, ?_⟩
    rw [StagedFile] at held
    simp only [held]
    refine bind_eq_ok.mpr ⟨size, sized, bind_eq_ok.mpr ⟨_, isNumber, ?_⟩⟩
    refine throw_else_eq_ok.mpr ⟨not_not.mpr rfl, bind_eq_ok.mpr ⟨sha256, hashed, ?_⟩⟩
    exact throw_else_eq_ok.mpr ⟨by simp [same], rfl⟩

theorem checkEntries_eq_ok {items : List Json} : forM items (checkEntry lib staged) = .ok () ↔
    ∃ paths, List.Forall₂ (Describes lib (StagedFile staged)) items paths := by
  rw [forM_eq_ok]
  induction items with
  | nil => simp
  | cons item rest ih =>
      rw [List.forall_mem_cons, checkEntry_eq_ok, ih]
      constructor
      · rintro ⟨⟨path, first⟩, paths, others⟩
        exact ⟨path :: paths, List.Forall₂.cons first others⟩
      · rintro ⟨_, described⟩
        obtain _ | ⟨first, others⟩ := described
        exact ⟨⟨_, first⟩, _, others⟩

def stagedContent (staged : Files.Tree Text Bytes) (path : Path) : Bytes :=
  (Files.find? staged path).getD []

theorem installEntries_eq {items : List Json} {paths : List Path} {destination : Files.Tree Text Bytes}
    (described : List.Forall₂ (Describes lib (StagedFile staged)) items paths) :
    items.foldlM (installEntry lib staged) destination =
      match Files.installAll lib.takes temporary (stagedContent staged) destination paths with
      | some restored => .ok restored
      | none => .error .osError := by
  induction described generalizing destination with
  | nil => rfl
  | @cons item path items paths first _ ih =>
      obtain ⟨content, _, _, held, _⟩ := first.intact
      have present : Files.find? staged path = some content := held
      have kept : stagedContent staged path = content := by
        rw [stagedContent, present, Option.getD_some]
      rw [List.foldlM_cons, Files.installAll, List.foldlM_cons, installEntry, first.named, kept]
      cases installed : Files.install lib.takes temporary destination path content with
      | none =>
          simp [present, installed, Bind.bind, Except.bind, throw, throwThe, MonadExceptOf.throw]
      | some next =>
          simp only [present, installed, Bind.bind, Except.bind, Option.bind]
          exact ih

end Entries

theorem load_eq_ok {lib : Externals} {text : Bytes} {data : Json} :
    load lib text = .ok data ↔ lib.loads text = some data := by
  rw [load]
  cases lib.loads text <;> simp

/-! The staging directory -/

section Staging

variable {lib : Externals} {root : Root} {files : List Path} {payload : Bytes}
  {staged : Files.Tree Text Bytes}

def Stageable (lib : Externals) (files : List Path) : Prop :=
  lib.takes [manifestName] = true ∧
    ∀ path ∈ files, lib.takes path = true ∧ ([manifestName] <+: path → [manifestName] = path)

def extracted (root : Root) (files : List Path) (payload : Bytes) (path : Path) : Option Bytes :=
  if path ∈ files then some (fileAt root path).content
  else if path = [manifestName] then some payload else none

def extractedContent (root : Root) (files : List Path) (payload : Bytes) (path : Path) : Bytes :=
  (extracted root files payload path).getD []

def members (root : Root) (files : List Path) (payload : Bytes) : List Member :=
  ⟨manifestName, .regular, payload⟩ :: files.map (regular root)

theorem stageable_apart (apart : ∀ path ∈ files, ∀ other ∈ files, path <+: other → path = other)
    (named : ∀ path ∈ files, path ≠ []) (stageable : Stageable lib files) :
    Files.Apart {path | path = [manifestName] ∨ path ∈ files} := by
  rintro first (rfl | member) second (rfl | member') part
  · rfl
  · exact (stageable.2 second member').2 part
  · rcases List.prefix_cons_iff.mp part with rfl | ⟨rest, rfl, short⟩
    · exact absurd rfl (named [] member)
    · rw [List.prefix_nil.mp short]
  · exact apart first member second member' part

theorem members_paths (valid : ∀ path ∈ files, path ≠ [] ∧ ∀ part ∈ path, ValidName part) :
    (members root files payload).map (fun member => (parts member.name, member.content)) =
      ([manifestName], payload) :: files.map fun path => (path, (fileAt root path).content) := by
  have own : parts manifestName = [manifestName] := parts_asPosix (by decide) valid_manifestName
  rw [members, List.map_cons, List.map_map, own]
  apply congrArg (List.cons _)
  apply List.map_congr_left
  intro path member
  obtain ⟨named, each⟩ := valid path member
  simp only [Function.comp_apply, regular, parts_asPosix named each]

theorem stageable_of_extractAll
    (valid : ∀ path ∈ files, path ≠ [] ∧ ∀ part ∈ path, ValidName part)
    (done : extractAll lib (members root files payload) = .ok staged) : Stageable lib files := by
  rw [extractAll, members_paths valid] at done
  split at done
  case h_2 => cases done
  case h_1 written all =>
    have taken := (Files.writeAll_unobstructed all _ List.mem_cons_self).1
    rw [Files.writeAll, List.foldlM_cons, Option.bind_eq_bind, Option.bind_eq_some_iff] at all
    obtain ⟨own, first, others⟩ := all
    obtain ⟨_, _, _, rfl⟩ := Files.write_eq_some.mp first
    refine ⟨taken, ?_⟩
    intro path member
    obtain ⟨taken, clear⟩ := Files.writeAll_unobstructed others _ (List.mem_map_of_mem member)
    refine ⟨taken, fun part => ?_⟩
    by_contra differ
    exact clear ⟨[manifestName], Files.mem_keys_put.mpr (Or.inl rfl), part, differ⟩

variable (payload) in
theorem extractAll_ok (valid : ∀ path ∈ files, path ≠ [] ∧ ∀ part ∈ path, ValidName part)
    (apart : ∀ path ∈ files, ∀ other ∈ files, path <+: other → path = other)
    (stageable : Stageable lib files) :
    ∃ staged, extractAll lib (members root files payload) = .ok staged ∧
      ∀ path, Files.find? staged path = extracted root files payload path := by
  have separate := stageable_apart apart (fun path member => (valid path member).1) stageable
  have inside : ∀ item ∈ ([manifestName], payload) ::
      files.map (fun path => (path, (fileAt root path).content)),
      (item.1 = [manifestName] ∨ item.1 ∈ files) ∧ item.1 ≠ [] ∧ lib.takes item.1 = true := by
    rw [List.forall_mem_cons, List.forall_mem_map]
    refine ⟨⟨Or.inl rfl, by simp, stageable.1⟩, ?_⟩
    intro path member
    exact ⟨Or.inr member, (valid path member).1, (stageable.2 path member).1⟩
  have none : ∀ key ∈ Files.keys (Files.empty : Files.Tree Text Bytes),
      key ∈ {path | path = [manifestName] ∨ path ∈ files} := by
    simp [Files.keys, Files.empty, SortedMap.empty]
  obtain ⟨staged, written, found⟩ := Files.writeAll_apart separate none
    (fun item member => (inside item member).1) (fun item member => (inside item member).2.1)
    (fun item member => (inside item member).2.2)
  refine ⟨staged, ?_, ?_⟩
  · rw [extractAll, members_paths valid, written]
  · intro path
    rw [found path, Files.latest_cons, Files.latest_map, extracted]
    by_cases member : path ∈ files
    · simp [member]
    · by_cases own : path = [manifestName]
      · subst own
        simp [member]
      · simp [member, own, Ne.symm own, Files.find?_empty]

theorem stagedFile_eq (found : ∀ path, Files.find? staged path = extracted root files payload path) :
    StagedFile staged = fun path content => extracted root files payload path = some content := by
  funext path content
  rw [StagedFile, found]

theorem stagedContent_eq (found : ∀ path, Files.find? staged path = extracted root files payload path) :
    stagedContent staged = extractedContent root files payload := by
  funext path
  rw [stagedContent, found, extractedContent]

/-- A backup is restored when its files are different inodes that can be extracted, and the text
that is read as its manifest describes what was extracted. -/
theorem restore_eq_ok (valid : ∀ path ∈ files, path ≠ [] ∧ ∀ part ∈ path, ValidName part)
    (apart : ∀ path ∈ files, ∀ other ∈ files, path <+: other → path = other)
    {restored : Files.Tree Text Bytes} :
    restore lib (⟨manifestName, .regular, payload⟩ :: addFiles root [] files) Files.empty =
        .ok restored ↔
      files.Pairwise (fun a b => inodeAt root a ≠ inodeAt root b) ∧ Stageable lib files ∧
      ∃ data items paths, lib.loads (manifestText root files payload) = some data ∧
        manifestFiles data = .ok items ∧
        List.Forall₂ (Describes lib fun path content =>
          extracted root files payload path = some content) items paths ∧
        Files.installAll lib.takes temporary (extractedContent root files payload) Files.empty paths =
          some restored := by
  rw [restore, bind_eq_ok]
  constructor
  · rintro ⟨_, verified, done⟩
    have distinct := (verifyMembers_eq_ok payload valid).mp verified
    rw [addFiles_distinct (by simp) distinct] at done
    obtain ⟨member, last, text⟩ := getMember_manifest root payload valid
    obtain ⟨_, same, done⟩ := bind_eq_ok.mp done
    rw [last, Except.ok.injEq] at same
    subst same
    obtain ⟨data, loaded, done⟩ := bind_eq_ok.mp done
    obtain ⟨items, listed, done⟩ := bind_eq_ok.mp done
    obtain ⟨staged, unpacked, done⟩ := bind_eq_ok.mp done
    obtain ⟨_, checked, done⟩ := bind_eq_ok.mp done
    have stageable := stageable_of_extractAll valid unpacked
    obtain ⟨_, same, found⟩ := extractAll_ok payload valid apart stageable
    rw [members, unpacked, Except.ok.injEq] at same
    subst same
    obtain ⟨paths, described⟩ := checkEntries_eq_ok.mp checked
    rw [installEntries_eq described, stagedContent_eq found] at done
    rw [stagedFile_eq found] at described
    refine ⟨distinct, stageable, data, items, paths, text ▸ load_eq_ok.mp loaded, listed, described, ?_⟩
    split at done
    case h_2 => cases done
    case h_1 installed =>
      rw [← Except.ok.inj done]
      exact installed
  · rintro ⟨distinct, stageable, data, items, paths, loaded, listed, described, installed⟩
    refine ⟨(), (verifyMembers_eq_ok payload valid).mpr distinct, ?_⟩
    rw [addFiles_distinct (by simp) distinct]
    obtain ⟨member, last, text⟩ := getMember_manifest root payload valid
    obtain ⟨staged, unpacked, found⟩ := extractAll_ok payload valid apart stageable
    rw [← stagedFile_eq found] at described
    rw [← stagedContent_eq found] at installed
    rw [← text] at loaded
    refine bind_eq_ok.mpr ⟨member, last, bind_eq_ok.mpr ⟨data, load_eq_ok.mpr loaded, ?_⟩⟩
    refine bind_eq_ok.mpr ⟨items, listed, bind_eq_ok.mpr ⟨staged, unpacked, ?_⟩⟩
    refine bind_eq_ok.mpr ⟨(), checkEntries_eq_ok.mpr ⟨paths, described⟩, ?_⟩
    rw [installEntries_eq described, installed]

end Staging

end Ito.BackupRestore
