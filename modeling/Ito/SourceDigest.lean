import Ito.Library.PrefixCode
import Ito.Library.PythonText
import Ito.Library.StableSort
import Mathlib.Data.List.Lex
import Mathlib.Data.String.Basic

/-! The digest of the sources that a release carries.

Source: `source_digest` of `scripts/operations/generate_sbom.py`. The digest is taken of the
texts that are fed to it one after the other. -/

namespace Ito.SourceDigest

open PythonText PrefixCode

def ValidName (name : List Char) : Prop := name ≠ [] ∧ '/' ∉ name

instance (name : List Char) : Decidable (ValidName name) := inferInstanceAs (Decidable (_ ∧ _))

abbrev Name := { name : List Char // ValidName name }

abbrev Path := List Name

/-- The directory that the digest is taken of: the parts of its own path, and what `rglob` yields
under it, in any order. A path with no content is no regular file. -/
structure Root where
  parts : List (List Char)
  listing : List (Path × Option Bytes)
  named : ∀ entry ∈ listing, entry.1 ≠ []
  distinct : (listing.map Prod.fst).Nodup

def excluded : List (List Char) :=
  ["build", "target", "_build", ".git", "__pycache__"].map String.toList

/-- `any(part in excluded for part in path.parts)`, with the parts of the root in front. -/
def isExcluded (root : Root) (path : Path) : Bool :=
  (root.parts ++ path.map Subtype.val).any fun part => part ∈ excluded

def paths (root : Root) : List (Path × Bytes) :=
  root.listing.filterMap fun entry =>
    if isExcluded root entry.1 then none else entry.2.map fun content => (entry.1, content)

def asPosix (path : Path) : List Char := ['/'].intercalate (path.map Subtype.val)

/-- What one file adds to the hash. `to_bytes` raises an `OverflowError` where a length does not
fit. -/
def frame (file : Path × Bytes) : Option Bytes := do
  let relative := encodeUtf8 (asPosix file.1)
  let head ← StructPack.packBig 4 relative.length
  let size ← StructPack.packBig 8 file.2.length
  return head ++ relative ++ (size ++ file.2)

def hashed (root : Root) : Option Bytes :=
  ((StableSort.sorted Prod.fst (paths root)).mapM frame).map List.flatten

def sourceDigest {D : Type*} (sha256 : Bytes → D) (root : Root) : Option D :=
  (hashed root).map sha256

/-! The files that count -/

variable {root first second : Root} {path other : Path} {content : Bytes}

theorem mem_paths :
    (path, content) ∈ paths root ↔
      (path, some content) ∈ root.listing ∧ isExcluded root path = false := by
  rw [paths, List.mem_filterMap]
  constructor
  · rintro ⟨⟨listed, held⟩, member, given⟩
    dsimp only at given
    split at given
    case isTrue => cases given
    case isFalse kept =>
      rcases Option.map_eq_some_iff.mp given with ⟨same, rfl, equal⟩
      rcases Prod.mk.inj equal with ⟨rfl, rfl⟩
      exact ⟨member, by simpa using kept⟩
  · rintro ⟨member, kept⟩
    exact ⟨_, member, by simp [kept]⟩

theorem distinct_paths (root : Root) : ((paths root).map Prod.fst).Nodup := by
  have fewer : ((paths root).map Prod.fst).Sublist (root.listing.map Prod.fst) := by
    rw [paths, List.map_filterMap]
    have each : ∀ entry : Path × Option Bytes,
        ((if isExcluded root entry.1 then none
          else entry.2.map fun content => (entry.1, content)).map Prod.fst) =
            if isExcluded root entry.1 ∨ entry.2 = none then none else some entry.1 := by
      rintro ⟨path, _ | content⟩ <;> by_cases gone : isExcluded root path <;> simp [gone]
    simp only [each]
    generalize root.listing = listing
    induction listing with
    | nil => exact List.Sublist.slnil
    | cons entry listing ih =>
        rw [List.filterMap_cons, List.map_cons]
        split
        case h_1 => exact ih.cons _
        case h_2 kept given =>
          split at given
          · cases given
          · cases given
            exact ih.cons_cons _
  exact fewer.nodup root.distinct

/-! What a file adds -/

theorem asPosix_injective (named : path ≠ []) (named' : other ≠ [])
    (same : asPosix path = asPosix other) : path = other := by
  have split : ∀ path : Path, path ≠ [] →
      (asPosix path).splitOn '/' = path.map Subtype.val := by
    intro path named
    refine List.splitOn_intercalate '/' ?_ fun none => named (List.map_eq_nil_iff.mp none)
    intro part member
    rcases List.mem_map.mp member with ⟨name, -, rfl⟩
    exact name.property.2
  have parts : path.map Subtype.val = other.map Subtype.val := by
    rw [← split path named, same, split other named']
  exact List.map_injective_iff.mpr Subtype.val_injective parts

theorem encodeUtf8_injective : Function.Injective encodeUtf8 := by
  intro text other same
  have read := congrArg decodeUtf8 same
  rw [decodeUtf8_encodeUtf8, decodeUtf8_encodeUtf8] at read
  exact Option.some.inj read

def Fits (file : Path × Bytes) : Prop :=
  (encodeUtf8 (asPosix file.1)).length < 256 ^ 4 ∧ file.2.length < 256 ^ 8

def framed (file : Path × Bytes) : Bytes :=
  StructPack.big 4 (encodeUtf8 (asPosix file.1)).length ++ encodeUtf8 (asPosix file.1) ++
    (StructPack.big 8 file.2.length ++ file.2)

theorem frame_eq_some {file : Path × Bytes} {text : Bytes} :
    frame file = some text ↔ Fits file ∧ text = framed file := by
  have packed : ∀ width length : ℕ, StructPack.packBig width (length : Int) =
      if length < 256 ^ width then some (StructPack.big width length) else none := by
    intro width length
    simp only [StructPack.packBig, StructPack.fits_nat, Int.toNat_natCast]
  simp only [frame, packed, Option.bind_eq_bind, Option.bind_eq_some_iff,
    Option.ite_none_right_eq_some, Option.some.injEq]
  constructor
  · rintro ⟨head, ⟨small, rfl⟩, size, ⟨small', rfl⟩, same⟩
    exact ⟨⟨small, small'⟩, (Option.some.inj same).symm⟩
  · rintro ⟨fits, rfl⟩
    exact ⟨_, ⟨fits.1, rfl⟩, _, ⟨fits.2, rfl⟩, rfl⟩

theorem framed_files : Framed (fun file : Path × Bytes => file.1 ≠ [] ∧ Fits file) framed := by
  refine ((framed_sized 4).append (framed_sized 8)).comp
    (fun file : Path × Bytes => (encodeUtf8 (asPosix file.1), file.2)) ?_ ?_
  · exact fun _ inside => inside.2
  · rintro ⟨path, content⟩ ⟨other, content'⟩ inside inside' same
    rcases Prod.mk.inj same with ⟨relative, rfl⟩
    exact congrArg (·, content)
      (asPosix_injective inside.1 inside'.1 (encodeUtf8_injective relative))

theorem mapM_frame {files : List (Path × Bytes)} {texts : List Bytes} :
    files.mapM frame = some texts ↔ (∀ file ∈ files, Fits file) ∧ texts = files.map framed := by
  induction files generalizing texts with
  | nil => simp [eq_comm]
  | cons file files ih =>
      rw [List.mapM_cons, List.forall_mem_cons, List.map_cons]
      simp only [Option.bind_eq_bind, Option.bind_eq_some_iff, frame_eq_some, ih]
      constructor
      · rintro ⟨_, ⟨fits, rfl⟩, _, ⟨others, rfl⟩, same⟩
        exact ⟨⟨fits, others⟩, (Option.some.inj same).symm⟩
      · rintro ⟨⟨fits, others⟩, rfl⟩
        exact ⟨_, ⟨fits, rfl⟩, _, ⟨others, rfl⟩, rfl⟩

theorem mem_sorted {file : Path × Bytes} :
    file ∈ StableSort.sorted Prod.fst (paths root) ↔ file ∈ paths root :=
  (StableSort.sorted_perm (paths root)).mem_iff

theorem hashed_eq_some {text : Bytes} :
    hashed root = some text ↔ (∀ file ∈ paths root, Fits file) ∧
      text = (StableSort.sorted Prod.fst (paths root)).flatMap framed := by
  simp only [hashed, Option.map_eq_some_iff, mapM_frame, mem_sorted]
  constructor
  · rintro ⟨_, ⟨fits, rfl⟩, rfl⟩
    exact ⟨fits, rfl⟩
  · rintro ⟨fits, rfl⟩
    exact ⟨_, ⟨fits, rfl⟩, rfl⟩

/-- Two directories have the same text to hash exactly if they hold the same files, by path and
content, in whatever order they are listed. -/
theorem hashed_same {text text' : Bytes} (read : hashed first = some text)
    (read' : hashed second = some text') :
    text = text' ↔ ∀ file, file ∈ paths first ↔ file ∈ paths second := by
  rcases hashed_eq_some.mp read with ⟨fits, rfl⟩
  rcases hashed_eq_some.mp read' with ⟨fits', rfl⟩
  have named : ∀ root : Root, ∀ file ∈ paths root, file.1 ≠ [] := by
    rintro root ⟨path, content⟩ member
    exact root.named _ (mem_paths.mp member).1
  have inside : ∀ root : Root, (∀ file ∈ paths root, Fits file) →
      ∀ file ∈ StableSort.sorted Prod.fst (paths root), file.1 ≠ [] ∧ Fits file := by
    intro root fits file member
    exact ⟨named root file (mem_sorted.mp member), fits file (mem_sorted.mp member)⟩
  have nonempty : ∀ file : Path × Bytes, file.1 ≠ [] ∧ Fits file → framed file ≠ [] := by
    intro file _ empty
    have short := congrArg List.length empty
    simp only [framed, List.length_append, StructPack.length_big, List.length_nil] at short
    omega
  constructor
  · intro same file
    have sorts := framed_files.flatMap_injective nonempty (inside first fits) (inside second fits')
      same
    rw [← mem_sorted, sorts, mem_sorted]
  · intro same
    have perm : (paths first).Perm (paths second) := by
      rw [List.perm_ext_iff_of_nodup (distinct_paths first).of_map (distinct_paths second).of_map]
      exact same
    rw [StableSort.sorted_eq_of_perm perm (distinct_paths first)]

/-- Where the hash has no collision on two directories, their digests are the same exactly if they
hold the same regular files, by path and content, apart from those below an excluded name. The
order in which the files are listed is of no account. -/
theorem digest_same {D : Type*} (sha256 : Bytes → D) {first second : Root} {text text' : Bytes}
    (read : hashed first = some text) (read' : hashed second = some text')
    (collisionFree : sha256 text = sha256 text' → text = text') :
    sourceDigest sha256 first = sourceDigest sha256 second ↔
      ∀ path content,
        (path, some content) ∈ first.listing ∧ isExcluded first path = false ↔
          (path, some content) ∈ second.listing ∧ isExcluded second path = false := by
  rw [sourceDigest, sourceDigest, read, read', Option.map_some, Option.map_some,
    Option.some.injEq]
  constructor
  · intro same path content
    rw [← mem_paths, ← mem_paths]
    exact (hashed_same read read').mp (collisionFree same) (path, content)
  · intro same
    refine congrArg sha256 ((hashed_same read read').mpr ?_)
    rintro ⟨path, content⟩
    rw [mem_paths, mem_paths]
    exact same path content

def nameA : Name := ⟨['a'], by decide⟩
def nameB : Name := ⟨['b'], by decide⟩
def nameBuild : Name := ⟨"build".toList, by decide⟩

def demoRoot (content : UInt8) : Root where
  parts := ["/".toList, "ito".toList]
  listing := [([nameB], some [content]), ([nameBuild], none), ([nameBuild, nameB], some [0]),
    ([nameA], some [49])]
  named := by simp
  distinct := (by decide : [[nameB], [nameBuild], [nameBuild, nameB], [nameA]].Nodup)

def reordered : Root where
  parts := ["/".toList, "srv".toList]
  listing := [([nameA], some [49]), ([nameB], some [50])]
  named := by simp
  distinct := by decide

def demoText (content : UInt8) : Bytes :=
  [0, 0, 0, 1, 97, 0, 0, 0, 0, 0, 0, 0, 1, 49, 0, 0, 0, 1, 98, 0, 0, 0, 0, 0, 0, 0, 1, content]

def demoHash (text : Bytes) : Bytes :=
  if text = demoText 50 then
    [0x99, 0xa9, 0xa4, 0xbf, 0x76, 0xe6, 0xb8, 0xb1, 0xe5, 0x74, 0xb3, 0xb3, 0x1a, 0x32, 0xd9, 0x2e,
      0x56, 0x9b, 0x03, 0xb0, 0xaf, 0x26, 0xaf, 0x1b, 0x14, 0xe1, 0xa5, 0x18, 0xb3, 0xe1, 0xaf, 0xf9]
  else
    [0x26, 0x7c, 0xb3, 0x1b, 0x92, 0x5e, 0xfb, 0x50, 0x1d, 0x72, 0x00, 0x22, 0x8a, 0x98, 0x1d, 0x49,
      0x4d, 0xb6, 0x6a, 0xc3, 0x6a, 0x48, 0x0e, 0xb7, 0xd4, 0xde, 0xbf, 0xd7, 0x19, 0xde, 0xbc, 0x25]

/-- Another order, another place and a build directory do not change the digest, another content
does. -/
theorem digest_same_reordered :
    sourceDigest demoHash (demoRoot 50) = sourceDigest demoHash reordered ∧
      sourceDigest demoHash (demoRoot 51) ≠ sourceDigest demoHash reordered := by
  have moved : hashed reordered = some (demoText 50) := by decide +kernel
  have first : hashed (demoRoot 50) = some (demoText 50) := by decide +kernel
  have other : hashed (demoRoot 51) = some (demoText 51) := by decide +kernel
  have apart : demoHash (demoText 51) = demoHash (demoText 50) → demoText 51 = demoText 50 := by
    decide
  refine ⟨(digest_same demoHash first moved fun _ => rfl).mpr ?_, fun same => ?_⟩
  · intro path content
    rw [← mem_paths, ← mem_paths, (hashed_same first moved).mp rfl (path, content)]
  · have held := ((digest_same demoHash other moved apart).mp same [nameB] [51]).mp (by decide)
    exact absurd held (by decide)

end Ito.SourceDigest
