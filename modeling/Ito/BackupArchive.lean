import Ito.BackupRestore
import Ito.Library.Fallible

/-! What a backup puts in its archive, and which archives pass.

Source: `scripts/operations/backup_restore.py`. -/

namespace Ito.BackupRestore

open Fallible

/-! Names -/

theorem asPosix_eq {path : Path} (named : path ≠ []) : asPosix path = [slash].intercalate path :=
  if_neg named

theorem parts_asPosix {path : Path} (named : path ≠ []) (valid : ∀ part ∈ path, ValidName part) :
    parts (asPosix path) = path := by
  have noSlash : ∀ part ∈ path, slash ∉ part := fun part member => (valid part member).2.2.2
  rw [asPosix_eq named, parts, List.splitOn_intercalate slash noSlash named, List.filter_eq_self]
  intro part member
  obtain ⟨some, noDot, _⟩ := valid part member
  simp [some, noDot]

theorem head?_asPosix {path : Path} (named : path ≠ []) (valid : ∀ part ∈ path, ValidName part) :
    (asPosix path).head? ≠ some slash := by
  obtain ⟨first, rest, rfl⟩ := List.exists_cons_of_ne_nil named
  obtain ⟨some, _, _, noSlash⟩ := valid first (by simp)
  obtain ⟨unit, units, rfl⟩ := List.exists_cons_of_ne_nil some
  rw [asPosix_eq named]
  rw [List.mem_cons, not_or] at noSlash
  cases rest with
  | nil => simpa [List.intercalate] using Ne.symm noSlash.1
  | cons second rest => simpa [List.intercalate] using Ne.symm noSlash.1

theorem safeRelative_asPosix {path : Path} (named : path ≠ [])
    (valid : ∀ part ∈ path, ValidName part) : safeRelative (asPosix path) = .ok path := by
  have plain : dotdot ∉ path := fun member => (valid dotdot member).2.2.1 rfl
  rw [safeRelative, parts_asPosix named valid, if_neg]
  simp [head?_asPosix named valid, plain]

theorem asPosix_injective {path other : Path} (named : path ≠ []) (named' : other ≠ [])
    (valid : ∀ part ∈ path, ValidName part) (valid' : ∀ part ∈ other, ValidName part)
    (same : asPosix path = asPosix other) : path = other := by
  rw [← parts_asPosix named valid, same, parts_asPosix named' valid']

theorem temporary_beside : Files.Beside temporary where
  parent path _ := List.dropLast_concat
  other path named same := by
    have last := congrArg List.getLast? same
    rw [temporary, List.getLast?_concat, List.getLastD_eq_getLast?,
      List.getLast?_eq_getLast_of_ne_nil named, Option.some.injEq] at last
    have long := congrArg List.length last
    simp [dot] at long
    omega
  named path _ := by simp [temporary]

/-! What is collected -/

section Collect

variable {root : Root} {requested : List Text}

def Selectable (root : Root) (requested : List Text) : Prop :=
  ∀ value ∈ effective requested, ∃ relative, safeRelative value = .ok relative ∧ root.Exists relative

def Selected (root : Root) (requested : List Text) (path : Path) : Prop :=
  path ∈ Files.keys root.files ∧
    ∃ value ∈ effective requested, ∃ relative, safeRelative value = .ok relative ∧ relative <+: path

theorem Root.mem_under {path relative : Path} :
    path ∈ root.under relative ↔ path ∈ Files.keys root.files ∧ relative <+: path := by
  rw [Root.under]
  split
  case isTrue file =>
    rw [List.mem_singleton]
    constructor
    · rintro rfl
      exact ⟨file, List.prefix_refl _⟩
    · rintro ⟨member, part⟩
      exact (root.apart relative file path (List.mem_append_left _ member) part).symm
  case isFalse => simp

theorem mem_keys_foldl_put {paths : List Path} {files : PathSet} {path : Path} :
    path ∈ Files.keys (paths.foldl (fun files path => Files.put files path ()) files) ↔
      path ∈ Files.keys files ∨ path ∈ paths := by
  induction paths generalizing files with
  | nil => simp
  | cons first rest ih =>
      rw [List.foldl_cons, ih, Files.mem_keys_put, List.mem_cons]
      tauto

theorem collectAll_ok {values : List Text} (files : PathSet)
    (existing : ∀ value ∈ values, ∃ relative, safeRelative value = .ok relative ∧ root.Exists relative) :
    ∃ collected, values.foldlM (collectOne root) files = .ok collected ∧
      ∀ path, path ∈ Files.keys collected ↔ path ∈ Files.keys files ∨
        (path ∈ Files.keys root.files ∧
          ∃ value ∈ values, ∃ relative, safeRelative value = .ok relative ∧ relative <+: path) := by
  induction values generalizing files with
  | nil => exact ⟨files, rfl, by simp⟩
  | cons value rest ih =>
      rw [List.forall_mem_cons] at existing
      obtain ⟨⟨relative, safe, present⟩, others⟩ := existing
      obtain ⟨collected, done, members⟩ :=
        ih ((root.under relative).foldl (fun files path => Files.put files path ()) files) others
      refine ⟨collected, ?_, ?_⟩
      · rw [List.foldlM_cons, collectOne, safe]
        simpa [present, Bind.bind, Except.bind, pure, Except.pure] using done
      · intro path
        rw [members, mem_keys_foldl_put, Root.mem_under]
        simp only [List.exists_mem_cons_iff, safe, Except.ok.injEq, exists_eq_left']
        tauto

structure Collected (root : Root) (requested : List Text) (files : List Path) : Prop where
  sorted : files.Pairwise fun a b => a < b
  members : ∀ path, path ∈ files ↔ Selected root requested path

theorem collect_ok (existing : Selectable root requested) :
    ∃ files, collect root requested = .ok files ∧ Collected root requested files := by
  obtain ⟨collected, done, members⟩ := collectAll_ok Files.empty existing
  refine ⟨Files.keys collected, ?_, ?_, ?_⟩
  · rw [collect, done]
    rfl
  · exact List.pairwise_map.mpr collected.sorted
  · intro path
    rw [members, Selected]
    simp [Files.keys, Files.empty, SortedMap.empty]

end Collect

/-! The archive of collected files -/

section Archive

variable {lib : Externals} {root : Root} {files : List Path}

def regular (root : Root) (path : Path) : Member :=
  ⟨asPosix path, .regular, (fileAt root path).content⟩

def inodeAt (root : Root) (path : Path) : Nat := (fileAt root path).inode

theorem addFiles_distinct {inodes : List (Nat × Text)}
    (fresh : ∀ path ∈ files, inodes.lookup (inodeAt root path) = none)
    (distinct : files.Pairwise fun a b => inodeAt root a ≠ inodeAt root b) :
    addFiles root inodes files = files.map (regular root) := by
  induction files generalizing inodes with
  | nil => rfl
  | cons path rest ih =>
      rw [List.forall_mem_cons] at fresh
      rw [List.pairwise_cons] at distinct
      have unseen : inodes.lookup (fileAt root path).inode = none := fresh.1
      have later : ∀ other ∈ rest,
          ((inodeAt root path, asPosix path) :: inodes).lookup (inodeAt root other) = none := by
        intro other member
        have differ : inodeAt root other ≠ inodeAt root path := (distinct.1 other member).symm
        rw [List.lookup_cons, beq_eq_false_iff_ne.mpr differ]
        exact fresh.2 other member
      rw [addFiles, unseen, List.map_cons]
      exact congrArg (List.cons (regular root path)) (ih later distinct.2)

theorem distinct_of_regular {inodes : List (Nat × Text)}
    (all : ∀ member ∈ addFiles root inodes files, member.kind = .regular) :
    (∀ path ∈ files, inodes.lookup (inodeAt root path) = none) ∧
      files.Pairwise fun a b => inodeAt root a ≠ inodeAt root b := by
  induction files generalizing inodes with
  | nil => simp
  | cons path rest ih =>
      rw [addFiles] at all
      cases seen : inodes.lookup (fileAt root path).inode with
      | some target =>
          rw [seen] at all
          have link := all _ List.mem_cons_self
          cases link
      | none =>
          rw [seen] at all
          obtain ⟨fresh, distinct⟩ := ih fun member later => all member (List.mem_cons_of_mem _ later)
          have apart : ∀ other ∈ rest, inodeAt root other ≠ inodeAt root path ∧
              inodes.lookup (inodeAt root other) = none := by
            intro other member
            have unseen := fresh other member
            rw [List.lookup_cons] at unseen
            split at unseen
            case h_1 => cases unseen
            case h_2 differ => exact ⟨beq_eq_false_iff_ne.mp differ, unseen⟩
          rw [List.forall_mem_cons, List.pairwise_cons]
          refine ⟨⟨seen, fun other member => (apart other member).2⟩, ?_, distinct⟩
          intro other member
          exact (apart other member).1.symm

theorem verifyMember_eq_ok {member : Member} : verifyMember member = .ok () ↔
    (∃ relative, safeRelative member.name = .ok relative) ∧ member.kind = .regular := by
  rw [verifyMember, bind_eq_ok]
  constructor
  · rintro ⟨relative, safe, kind⟩
    refine ⟨⟨relative, safe⟩, ?_⟩
    by_contra link
    by_cases own : relative = [manifestName] <;> simp [own, link, throw, throwThe,
      MonadExceptOf.throw] at kind
  · rintro ⟨⟨relative, safe⟩, kind⟩
    refine ⟨relative, safe, ?_⟩
    simp [kind, pure, Except.pure]

theorem valid_manifestName : ∀ part ∈ [manifestName], ValidName part := by decide

theorem asPosix_manifestName : asPosix [manifestName] = manifestName := rfl

theorem safeRelative_manifestName : safeRelative manifestName = .ok [manifestName] := by
  rw [← asPosix_manifestName]
  exact safeRelative_asPosix (by decide) valid_manifestName

variable (payload : Bytes)

theorem verifyMembers_eq_ok (valid : ∀ path ∈ files, path ≠ [] ∧ ∀ part ∈ path, ValidName part) :
    verifyMembers (⟨manifestName, .regular, payload⟩ :: addFiles root [] files) = .ok () ↔
      files.Pairwise fun a b => inodeAt root a ≠ inodeAt root b := by
  rw [verifyMembers, forM_eq_ok, List.forall_mem_cons]
  constructor
  · rintro ⟨_, others⟩
    exact (distinct_of_regular fun member inside =>
      (verifyMember_eq_ok.mp (others member inside)).2).2
  · intro distinct
    refine ⟨verifyMember_eq_ok.mpr ⟨⟨_, safeRelative_manifestName⟩, rfl⟩, ?_⟩
    intro member inside
    rw [addFiles_distinct (by simp) distinct] at inside
    obtain ⟨path, selected, rfl⟩ := List.mem_map.mp inside
    obtain ⟨named, parts⟩ := valid path selected
    exact verifyMember_eq_ok.mpr ⟨⟨path, safeRelative_asPosix named parts⟩, rfl⟩

def manifestText (root : Root) (files : List Path) (payload : Bytes) : Bytes :=
  if [manifestName] ∈ files then (fileAt root [manifestName]).content else payload

variable (root) in
theorem getMember_manifest (valid : ∀ path ∈ files, path ≠ [] ∧ ∀ part ∈ path, ValidName part) :
    ∃ member, getMember (⟨manifestName, .regular, payload⟩ :: files.map (regular root)) manifestName =
      .ok member ∧ member.content = manifestText root files payload := by
  rw [getMember, List.reverse_cons, List.find?_append, manifestText]
  cases found : (files.map (regular root)).reverse.find? fun member => member.name = manifestName with
  | some member =>
      have named := List.find?_some found
      have inside := List.mem_reverse.mp (List.mem_of_find?_eq_some found)
      obtain ⟨path, selected, rfl⟩ := List.mem_map.mp inside
      have own : path = [manifestName] := by
        obtain ⟨some, parts⟩ := valid path selected
        exact asPosix_injective some (by decide) parts valid_manifestName (of_decide_eq_true named)
      subst own
      exact ⟨_, rfl, (if_pos selected).symm⟩
  | none =>
      have absent : [manifestName] ∉ files := by
        intro selected
        have other := List.find?_eq_none.mp found (regular root [manifestName])
          (List.mem_reverse.mpr (List.mem_map_of_mem selected))
        exact other (decide_eq_true asPosix_manifestName)
      refine ⟨⟨manifestName, .regular, payload⟩, ?_, (if_neg absent).symm⟩
      simp

end Archive

end Ito.BackupRestore
