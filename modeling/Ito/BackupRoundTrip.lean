import Ito.BackupStaging
import Mathlib.Data.List.Nodup

/-! When a restored backup has the files that were selected.

Source: `scripts/operations/backup_restore.py`. The manifest, the copies that are moved over their
targets and the selected files share one space of names. -/

namespace Ito.BackupRestore

open Fallible

variable {lib : Externals} {root : Root} {requested : List Text} {files : List Path}

def Holds (root : Root) (requested : List Text) (path : Path) (content : Bytes) : Prop :=
  Selected root requested path ∧
    ∃ file, Files.find? root.files path = some file ∧ file.content = content

def RoundTrips (lib : Externals) (root : Root) (requested : List Text) : Prop :=
  ∃ archive restored, backup lib root requested = .ok archive ∧
    restore lib archive Files.empty = .ok restored ∧
    ∀ path content, Files.find? restored path = some content ↔ Holds root requested path content

def NoLinks (root : Root) (requested : List Text) : Prop :=
  ∀ path other, Selected root requested path → Selected root requested other →
    inodeAt root path = inodeAt root other → path = other

/-- The selection keeps out of the names that backup and restore use themselves. -/
structure KeepsOut (lib : Externals) (root : Root) (requested : List Text) : Prop where
  /-- Nothing is at or below `manifest.json`. -/
  manifest : ∀ path, Selected root requested path → ¬ [manifestName] <+: path
  /-- Nothing is at or below the temporary name of a file that is installed later. -/
  copies : ∀ path later, Selected root requested path → Selected root requested later →
    path < later → ¬ temporary later <+: path
  /-- The file system takes the names. -/
  manifestTaken : lib.takes [manifestName] = true
  taken : ∀ path, Selected root requested path →
    lib.takes (temporary path) = true ∧ lib.takes path = true

/-- A selected `manifest.json` is itself a manifest, of the selection and in an order in which no
file is moved away again. -/
structure OwnManifest (lib : Externals) (root : Root) (requested : List Text) : Prop where
  selected : Selected root requested [manifestName]
  lists : ∃ data items paths, lib.loads (fileAt root [manifestName]).content = some data ∧
    manifestFiles data = .ok items ∧
    List.Forall₂ (Describes lib (Holds root requested)) items paths ∧
    Files.Taken lib.takes temporary paths ∧ Files.Unblocked temporary paths ∧
    ∀ path, Selected root requested path → Files.Stays temporary paths path

def Restorable (lib : Externals) (root : Root) (requested : List Text) : Prop :=
  NoLinks root requested ∧ (KeepsOut lib root requested ∨ OwnManifest lib root requested)

/-! The collected files -/

namespace Collected

theorem key (collected : Collected root requested files) {path : Path} (member : path ∈ files) :
    path ∈ Files.keys root.files :=
  ((collected.members path).mp member).1

theorem valid (collected : Collected root requested files) :
    ∀ path ∈ files, path ≠ [] ∧ ∀ part ∈ path, ValidName part := by
  intro path member
  exact root.named path (List.mem_append_left _ (collected.key member))

theorem apart (collected : Collected root requested files) :
    ∀ path ∈ files, ∀ other ∈ files, path <+: other → path = other := by
  intro path member other member'
  exact root.apart path (collected.key member) other (List.mem_append_left _ (collected.key member'))

theorem nodup (collected : Collected root requested files) : files.Nodup :=
  collected.sorted.imp fun less => ne_of_lt less

theorem holds_iff (collected : Collected root requested files) {path : Path} {content : Bytes} :
    Holds root requested path content ↔ path ∈ files ∧ (fileAt root path).content = content := by
  rw [Holds, ← collected.members, and_congr_right_iff]
  intro member
  obtain ⟨file, found⟩ := Files.mem_keys.mp (collected.key member)
  rw [fileAt, found]
  simp

theorem noLinks_iff (collected : Collected root requested files) : NoLinks root requested ↔
    files.Pairwise fun a b => inodeAt root a ≠ inodeAt root b := by
  have pairs : (files.Pairwise fun a b => inodeAt root a ≠ inodeAt root b) ↔
      (files.map (inodeAt root)).Nodup := List.pairwise_map.symm
  rw [pairs, List.nodup_map_iff_inj_on collected.nodup]
  simp only [NoLinks, ← collected.members]
  constructor
  · intro distinct path member other member' same
    exact distinct path other member member' same
  · intro distinct path other member member' same
    exact distinct path member other member' same

theorem exactly_iff (collected : Collected root requested files) {content : Path → Bytes}
    {paths : List Path} {restored : Files.Tree Text Bytes}
    (installed : Files.Installed temporary content paths restored)
    (listed : ∀ path ∈ paths, path ∈ files ∧ (fileAt root path).content = content path) :
    (∀ path content, Files.find? restored path = some content ↔ Holds root requested path content) ↔
      ∀ path ∈ files, Files.Stays temporary paths path := by
  constructor
  · intro exactly path member
    by_contra gone
    have found := (exactly path _).mpr (collected.holds_iff.mpr ⟨member, rfl⟩)
    rw [installed.gone path gone] at found
    cases found
  · intro stays path found
    rw [collected.holds_iff]
    by_cases left : Files.Stays temporary paths path
    · obtain ⟨member, same⟩ := listed path left.mem
      rw [installed.stays path left, ← same, Option.some.injEq]
      simp [member]
    · rw [installed.gone path left]
      have absent : path ∉ files := fun member => left (stays path member)
      simp [absent]

end Collected

/-! Reading the manifest of the backup -/

theorem manifestFiles_manifest : manifestFiles (manifest lib root files) =
    .ok (files.map fun path => entry lib path (fileAt root path)) := by
  rfl

theorem entryPath_entry {path : Path} {file : File}
    (valid : path ≠ [] ∧ ∀ part ∈ path, ValidName part) : entryPath lib (entry lib path file) = .ok path :=
  safeRelative_asPosix valid.1 valid.2

theorem describes_entry {holds : Path → Bytes → Prop} {path : Path}
    (valid : path ≠ [] ∧ ∀ part ∈ path, ValidName part) (held : holds path (fileAt root path).content) :
    Describes lib holds (entry lib path (fileAt root path)) path where
  named := entryPath_entry valid
  intact := ⟨_, _, _, held, rfl, rfl, rfl, by simp [Json.same]⟩

theorem described_paths {holds : Path → Bytes → Prop} {paths : List Path}
    (valid : ∀ path ∈ files, path ≠ [] ∧ ∀ part ∈ path, ValidName part)
    (described : List.Forall₂ (Describes lib holds)
      (files.map fun path => entry lib path (fileAt root path)) paths) : paths = files := by
  induction files generalizing paths with
  | nil =>
      cases described
      rfl
  | cons path rest ih =>
      rw [List.forall_mem_cons] at valid
      rw [List.map_cons] at described
      obtain _ | ⟨first, others⟩ := described
      have same := first.named
      rw [entryPath_entry valid.1, Except.ok.injEq] at same
      rw [← same, ih valid.2 others]

theorem held_of_described {holds : Path → Bytes → Prop} {items : List Json} {paths : List Path}
    (described : List.Forall₂ (Describes lib holds) items paths) :
    ∀ path ∈ paths, ∃ content, holds path content := by
  induction described with
  | nil => simp
  | cons first _ ih =>
      rw [List.forall_mem_cons]
      obtain ⟨content, _, _, held, _⟩ := first.intact
      exact ⟨⟨content, held⟩, ih⟩

section Cases

variable {payload : Bytes}

def Restores (lib : Externals) (root : Root) (requested : List Text) (files : List Path)
    (payload : Bytes) : Prop :=
  ∃ restored, restore lib (⟨manifestName, .regular, payload⟩ :: addFiles root [] files) Files.empty =
      .ok restored ∧
    ∀ path content, Files.find? restored path = some content ↔ Holds root requested path content

theorem extracted_of_mem {path : Path} (member : path ∈ files) :
    extracted root files payload path = some (fileAt root path).content := if_pos member

theorem extracted_own (own : [manifestName] ∈ files) {path : Path} {content : Bytes} :
    extracted root files payload path = some content ↔
      path ∈ files ∧ (fileAt root path).content = content := by
  rw [extracted]
  by_cases member : path ∈ files
  · simp [member]
  · have other : path ≠ [manifestName] := by
      rintro rfl
      exact member own
    simp [member, other]

theorem restores_own (collected : Collected root requested files) (own : [manifestName] ∈ files) :
    Restores lib root requested files payload ↔
      NoLinks root requested ∧ OwnManifest lib root requested := by
  have text : manifestText root files payload = (fileAt root [manifestName]).content := if_pos own
  have held : (fun path content => extracted root files payload path = some content) =
      Holds root requested := by
    funext path content
    rw [extracted_own own, collected.holds_iff]
  have named : ∀ path ∈ files, path ≠ [] := fun path member => (collected.valid path member).1
  have listed : ∀ {items : List Json} {paths : List Path},
      List.Forall₂ (Describes lib (Holds root requested)) items paths →
      ∀ path ∈ paths, path ∈ files ∧
        (fileAt root path).content = extractedContent root files payload path := by
    intro items paths described path member
    obtain ⟨_, held⟩ := held_of_described described path member
    have inside := (collected.holds_iff.mp held).1
    rw [extractedContent, extracted_of_mem inside]
    exact ⟨inside, rfl⟩
  constructor
  · rintro ⟨restored, done, exactly⟩
    obtain ⟨distinct, stageable, data, items, paths, loaded, files', described, installed⟩ :=
      (restore_eq_ok collected.valid collected.apart).mp done
    rw [text] at loaded
    rw [held] at described
    have within := listed described
    obtain ⟨taken, unblocked, installed⟩ := Files.installAll_sound temporary_beside
      (stageable_apart collected.apart named stageable)
      (fun path member => Or.inr (within path member).1)
      (fun path member => named path (within path member).1) installed
    have stays := (collected.exactly_iff installed within).mp exactly
    refine ⟨collected.noLinks_iff.mpr distinct, (collected.members _).mp own, data, items, paths,
      loaded, files', described, taken, unblocked, ?_⟩
    intro path selected
    exact stays path ((collected.members path).mpr selected)
  · rintro ⟨distinct, _, data, items, paths, loaded, files', described, taken, unblocked, stays⟩
    have within := listed described
    have stageable : Stageable lib files := by
      have takes : ∀ path ∈ files, lib.takes path = true := by
        intro path member
        exact (taken path (stays path ((collected.members path).mp member)).mem).2
      refine ⟨takes _ own, ?_⟩
      intro path member
      exact ⟨takes path member, collected.apart _ own path member⟩
    have separate := stageable_apart collected.apart named stageable
    have inside : ∀ path ∈ paths, path ∈ {path | path = [manifestName] ∨ path ∈ files} :=
      fun path member => Or.inr (within path member).1
    have named' : ∀ path ∈ paths, path ≠ [] := fun path member => named path (within path member).1
    obtain ⟨restored, done⟩ := Files.installAll_complete (extractedContent root files payload)
      temporary_beside separate inside named' taken unblocked
    obtain ⟨_, _, installed⟩ := Files.installAll_sound temporary_beside separate inside named' done
    refine ⟨restored, (restore_eq_ok collected.valid collected.apart).mpr ?_, ?_⟩
    · rw [text, held]
      exact ⟨collected.noLinks_iff.mp distinct, stageable, data, items, paths, loaded, files',
        described, done⟩
    · apply (collected.exactly_iff installed within).mpr
      intro path member
      exact stays path ((collected.members path).mp member)

theorem restores_other (collected : Collected root requested files) (other : [manifestName] ∉ files)
    (faithful : lib.loads payload = some (manifest lib root files)) :
    Restores lib root requested files payload ↔
      NoLinks root requested ∧ KeepsOut lib root requested := by
  have text : manifestText root files payload = payload := if_neg other
  have named : ∀ path ∈ files, path ≠ [] := fun path member => (collected.valid path member).1
  have within : ∀ path ∈ files, path ∈ files ∧
      (fileAt root path).content = extractedContent root files payload path := by
    intro path member
    rw [extractedContent, extracted_of_mem member]
    exact ⟨member, rfl⟩
  have inside : ∀ path ∈ files, path ∈ {path | path = [manifestName] ∨ path ∈ files} :=
    fun path member => Or.inr member
  have names : (Files.Unblocked temporary files ∧ ∀ path ∈ files, Files.Stays temporary files path) ↔
      ∀ path ∈ files, ∀ later ∈ files, path < later → ¬ temporary later <+: path := by
    rw [Files.unblocked_stays_iff collected.nodup, Files.pairwise_iff_of_sorted collected.sorted]
  constructor
  · rintro ⟨restored, done, exactly⟩
    obtain ⟨distinct, stageable, data, items, paths, loaded, listed, described, installed⟩ :=
      (restore_eq_ok collected.valid collected.apart).mp done
    rw [text, faithful, Option.some.injEq] at loaded
    rw [← loaded, manifestFiles_manifest, Except.ok.injEq] at listed
    subst listed
    obtain rfl := described_paths collected.valid described
    obtain ⟨taken, unblocked, installed⟩ := Files.installAll_sound temporary_beside
      (stageable_apart collected.apart named stageable) inside named installed
    have stays := (collected.exactly_iff installed within).mp exactly
    have free := names.mp ⟨unblocked, stays⟩
    refine ⟨collected.noLinks_iff.mpr distinct, ?_, ?_, stageable.1, ?_⟩
    · intro path selected part
      have member := (collected.members path).mpr selected
      have same := (stageable.2 path member).2 part
      exact other (same ▸ member)
    · intro path later selected selected'
      exact free path ((collected.members path).mpr selected) later
        ((collected.members later).mpr selected')
    · intro path selected
      exact taken path ((collected.members path).mpr selected)
  · rintro ⟨distinct, apart, copies, manifestTaken, taken⟩
    have stageable : Stageable lib files := by
      refine ⟨manifestTaken, ?_⟩
      intro path member
      have selected := (collected.members path).mp member
      exact ⟨(taken path selected).2, fun part => absurd part (apart path selected)⟩
    have separate := stageable_apart collected.apart named stageable
    obtain ⟨unblocked, stays⟩ := names.mpr fun path member later member' =>
      copies path later ((collected.members path).mp member) ((collected.members later).mp member')
    obtain ⟨restored, done⟩ := Files.installAll_complete (extractedContent root files payload)
      temporary_beside separate inside named
      (fun path member => taken path ((collected.members path).mp member)) unblocked
    obtain ⟨_, _, installed⟩ := Files.installAll_sound temporary_beside separate inside named done
    refine ⟨restored, (restore_eq_ok collected.valid collected.apart).mpr ?_,
      (collected.exactly_iff installed within).mpr stays⟩
    rw [text]
    refine ⟨collected.noLinks_iff.mp distinct, stageable, _, _, files, faithful,
      manifestFiles_manifest, ?_, done⟩
    rw [List.forall₂_map_left_iff, List.forall₂_same]
    intro path member
    exact describes_entry (collected.valid path member) (extracted_of_mem member)

end Cases

theorem roundTrips_iff_restores (done : collect root requested = .ok files) :
    RoundTrips lib root requested ↔
      Restores lib root requested files (lib.dumps (manifest lib root files)) := by
  have archived : backup lib root requested =
      .ok (⟨manifestName, .regular, lib.dumps (manifest lib root files)⟩ ::
        addFiles root [] files) := by
    rw [backup, done]
    rfl
  simp [RoundTrips, Restores, archived]

/-- A selection of paths that are there is restored exactly when no two of its files are hard
links to one, and its names keep out of those that backup and restore use, or its `manifest.json`
describes it. -/
theorem roundTrips_iff (existing : Selectable root requested)
    (faithful : ∀ files, collect root requested = .ok files →
      lib.loads (lib.dumps (manifest lib root files)) = some (manifest lib root files)) :
    RoundTrips lib root requested ↔ Restorable lib root requested := by
  obtain ⟨files, done, collected⟩ := collect_ok existing
  rw [roundTrips_iff_restores done, Restorable]
  by_cases own : [manifestName] ∈ files
  · rw [restores_own collected own, and_congr_right_iff]
    intro _
    have outside : ¬ KeepsOut lib root requested := fun keeps =>
      keeps.manifest _ ((collected.members _).mp own) (List.prefix_refl _)
    simp [outside]
  · rw [restores_other collected own (faithful files done), and_congr_right_iff]
    intro _
    have absent : ¬ OwnManifest lib root requested := fun lists =>
      own ((collected.members _).mpr lists.selected)
    simp [absent]

/-! The libraries on one manifest -/

def entryText (path sha256 size : String) : String :=
  "\x7b\"path\":\"" ++ path ++ "\",\"sha256\":\"" ++ sha256 ++ "\",\"size\":" ++ size ++ "\x7d"

def manifestLine (entries name : String) : String :=
  "\x7b\"files\":[" ++ entries ++ "],\"format\":1,\"root\":\"" ++ name ++ "\"\x7d"

def librariesFor (data : Json) (line : String) (sha256 : Bytes → Text) : Externals where
  takes path := path.all fun name => name.length ≤ 255
  digest := sha256
  dumps _ := Bytes.ofText line
  loads text := if text = Bytes.ofText line then some data else none
  str _ := codes "None"
  int _ := none

theorem manifest_congr {lib' : Externals} (same : lib.digest = lib'.digest) :
    manifest lib root files = manifest lib' root files := by
  simp only [manifest, entry, same]

theorem librariesFor_faithful {line : String} {sha256 : Bytes → Text} :
    (librariesFor (manifest (librariesFor .null "" sha256) root files) line sha256).loads
        ((librariesFor (manifest (librariesFor .null "" sha256) root files) line sha256).dumps
          (manifest (librariesFor (manifest (librariesFor .null "" sha256) root files) line sha256)
            root files)) =
      some (manifest (librariesFor (manifest (librariesFor .null "" sha256) root files) line sha256)
        root files) := by
  generalize data : manifest (librariesFor .null "" sha256) root files = expected
  have same : manifest (librariesFor expected line sha256) root files = expected := by
    rw [← data]
    exact manifest_congr rfl
  rw [same]
  exact if_pos rfl

/-! The test of the repository restores one file -/

def policyPath : Path := [codes "config", codes "risk", codes "policy.json"]

def policyRoot : Root where
  name := codes "workspace"
  files := ⟨[(policyPath, ⟨7, Bytes.ofText "\x7b\"version\":1\x7d"⟩)], by decide⟩
  hollow := []
  named := by decide
  apart := by decide
  linked := by decide

def policySha256 : String := "2430f1a2ad2982d0067885488a4c89e21ad1d7c83b115ba8f1b20acc88dfaea8"

def policyLibraries : Externals :=
  librariesFor
    (manifest (librariesFor .null "" fun _ => codes policySha256) policyRoot [policyPath])
    (manifestLine (entryText "config/risk/policy.json" policySha256 "13") "workspace")
    fun _ => codes policySha256

theorem roundTrips_policy : RoundTrips policyLibraries policyRoot [codes "config/risk/policy.json"] := by
  have existing : Selectable policyRoot [codes "config/risk/policy.json"] := by
    intro value member
    rw [List.mem_singleton.mp member]
    exact ⟨policyPath, rfl, by decide⟩
  have only : ∀ path, Selected policyRoot [codes "config/risk/policy.json"] path →
      path = policyPath := fun path selected => List.mem_singleton.mp selected.1
  apply (roundTrips_iff existing _).mpr
  · refine ⟨?_, Or.inl ⟨?_, ?_, by decide, ?_⟩⟩
    · intro path other selected selected' _
      rw [only path selected, only other selected']
    · intro path selected
      rw [only path selected]
      decide
    · intro path later selected selected' less
      rw [only path selected, only later selected'] at less
      exact absurd less (lt_irrefl _)
    · intro path selected
      rw [only path selected]
      decide
  · intro files done
    have collected : collect policyRoot [codes "config/risk/policy.json"] = .ok [policyPath] := by rfl
    rw [collected, Except.ok.injEq] at done
    rw [← done]
    exact librariesFor_faithful

/-! A file and another one under its temporary name -/

def copyRoot : Root where
  name := codes "workspace"
  files := ⟨[([codes ".a.restore"], ⟨7, Bytes.ofText "1"⟩), ([codes "a"], ⟨8, Bytes.ofText "2"⟩)],
    by decide⟩
  hollow := []
  named := by decide
  apart := by decide
  linked := by decide

def copySha256 (content : Bytes) : String :=
  if content = Bytes.ofText "1" then
    "6b86b273ff34fce19d6b804eff5a3f5747ada4eaa22f1d49c01e52ddb7875b4b"
  else "d4735e3a265e16eee03f59718b9b5d03019c07d8b6c51f90da3a666eec13ab35"

def copyFiles : List Path := [[codes ".a.restore"], [codes "a"]]

def copyLibraries : Externals :=
  librariesFor
    (manifest (librariesFor .null "" fun content => codes (copySha256 content)) copyRoot copyFiles)
    (manifestLine
      (entryText ".a.restore" (copySha256 (Bytes.ofText "1")) "1" ++ "," ++
        entryText "a" (copySha256 (Bytes.ofText "2")) "1") "workspace")
    fun content => codes (copySha256 content)

/-- Restoring `a` moves the restored `.a.restore` away. -/
theorem copy_moved_away : Selectable copyRoot [codes "."] ∧
    (∀ files, collect copyRoot [codes "."] = .ok files →
      copyLibraries.loads (copyLibraries.dumps (manifest copyLibraries copyRoot files)) =
        some (manifest copyLibraries copyRoot files)) ∧
    ¬ RoundTrips copyLibraries copyRoot [codes "."] := by
  have existing : Selectable copyRoot [codes "."] := by
    intro value member
    rw [List.mem_singleton.mp member]
    exact ⟨[], rfl, Or.inl rfl⟩
  have done : collect copyRoot [codes "."] = .ok copyFiles := by rfl
  have faithful : copyLibraries.loads (copyLibraries.dumps (manifest copyLibraries copyRoot copyFiles)) =
      some (manifest copyLibraries copyRoot copyFiles) := librariesFor_faithful
  obtain ⟨files, done', collected⟩ := collect_ok existing
  rw [done, Except.ok.injEq] at done'
  subst done'
  refine ⟨existing, ?_, ?_⟩
  · intro files done'
    rw [done, Except.ok.injEq] at done'
    rw [← done']
    exact faithful
  · intro roundTrips
    have restores := (roundTrips_iff_restores done).mp roundTrips
    have keeps := ((restores_other collected (by decide) faithful).mp restores).2
    exact keeps.copies [codes ".a.restore"] [codes "a"] ((collected.members _).mp (by decide))
      ((collected.members _).mp (by decide)) (by decide) (by decide)

end Ito.BackupRestore
