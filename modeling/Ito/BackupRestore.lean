import Ito.Library.ByteText
import Ito.Library.Files
import Ito.Library.Json

/-! Backups of a root directory in a tar archive, and their restore.

Source: `scripts/operations/backup_restore.py`. Texts and names are lists of code points. A root
holds regular files, directories and no links, so nothing resolves outside of it. What an exception
leaves in the destination is not kept. -/

namespace Ito.BackupRestore

abbrev Text := List Nat

abbrev Path := List Text

instance : LawfulBEq Path := inferInstance

def codes (text : String) : Text := Json.codes text.toList

inductive Error where
  | backupError (message : Text)
  | keyError
  | valueError
  | typeError
  | attributeError
  | osError
  deriving DecidableEq

structure Externals where
  /-- The file system takes a path. -/
  takes : Path → Bool
  /-- The hexadecimal digest of SHA-256. -/
  digest : Bytes → Text
  /-- `json.dumps`, as UTF-8. -/
  dumps : Json → Bytes
  loads : Bytes → Option Json
  /-- `str` of a value that is no string. -/
  str : Json → Text
  /-- `int` of a value that is no integer. -/
  int : Json → Option Int

def slash : Nat := 47
def dot : Text := [46]
def dotdot : Text := [46, 46]

def parts (value : Text) : Path := (value.splitOn slash).filter fun part => part ≠ [] ∧ part ≠ dot

def asPosix (path : Path) : Text := if path = [] then dot else [slash].intercalate path

def safeRelative (value : Text) : Except Error Path :=
  if value.head? = some slash ∨ dotdot ∈ parts value then
    .error (.backupError (codes "unsafe_path:" ++ value))
  else .ok (parts value)

/-! The source of a backup -/

structure File where
  inode : Nat
  content : Bytes
  deriving DecidableEq

def ValidName (name : Text) : Prop := name ≠ [] ∧ name ≠ dot ∧ name ≠ dotdot ∧ slash ∉ name

instance (name : Text) : Decidable (ValidName name) :=
  inferInstanceAs (Decidable (_ ∧ _ ∧ _ ∧ _))

structure Root where
  name : Text
  files : Files.Tree Text File
  /-- The directories with nothing in them. -/
  hollow : List Path
  named : ∀ path ∈ Files.keys files ++ hollow, path ≠ [] ∧ ∀ part ∈ path, ValidName part
  apart : ∀ path ∈ Files.keys files, ∀ other ∈ Files.keys files ++ hollow,
    path <+: other → path = other
  /-- The paths of one inode name one file. -/
  linked : ∀ first ∈ files.entries, ∀ second ∈ files.entries,
    first.2.inode = second.2.inode → first.2 = second.2

def Root.Exists (root : Root) (path : Path) : Prop :=
  path = [] ∨ ∃ entry ∈ Files.keys root.files ++ root.hollow, path <+: entry

instance (root : Root) (path : Path) : Decidable (root.Exists path) :=
  inferInstanceAs (Decidable (_ ∨ ∃ entry ∈ Files.keys root.files ++ root.hollow, path <+: entry))

def DEFAULT_PATHS : List Text :=
  [codes "config", codes "interfaces", codes "infra",
    codes "docs/production/readiness_matrix.json"]

def Root.under (root : Root) (path : Path) : List Path :=
  if path ∈ Files.keys root.files then [path]
  else (Files.keys root.files).filter fun file => path <+: file

abbrev PathSet := Files.Tree Text Unit

def collectOne (root : Root) (files : PathSet) (value : Text) : Except Error PathSet := do
  let relative ← safeRelative value
  if root.Exists relative then
    return (root.under relative).foldl (fun files path => Files.put files path ()) files
  else throw (.backupError (codes "missing_path:" ++ value))

def effective (requested : List Text) : List Text :=
  if requested = [] then DEFAULT_PATHS else requested

def collect (root : Root) (requested : List Text) : Except Error (List Path) := do
  let files ← (effective requested).foldlM (collectOne root) Files.empty
  return Files.keys files

/-! The archive -/

inductive Kind where
  | regular
  | hardLink (target : Text)
  | symbolicLink
  | other
  deriving DecidableEq

structure Member where
  name : Text
  kind : Kind
  content : Bytes

def entry (lib : Externals) (path : Path) (file : File) : Json :=
  .obj [(codes "path", .str (asPosix path)), (codes "sha256", .str (lib.digest file.content)),
    (codes "size", .int file.content.length)]

def fileAt (root : Root) (path : Path) : File := (Files.find? root.files path).getD ⟨0, []⟩

/-- The manifest, with its keys in the order that `sort_keys` gives them. -/
def manifest (lib : Externals) (root : Root) (files : List Path) : Json :=
  .obj [(codes "files", .arr (files.map fun path => entry lib path (fileAt root path))),
    (codes "format", .int 1), (codes "root", .str root.name)]

def manifestName : Text := codes "manifest.json"

/-- The members of the files. A second path of an archived inode becomes a link to the first. -/
def addFiles (root : Root) : List (Nat × Text) → List Path → List Member
  | _, [] => []
  | inodes, path :: rest =>
      let file := fileAt root path
      match inodes.lookup file.inode with
      | some target => ⟨asPosix path, .hardLink target, []⟩ :: addFiles root inodes rest
      | none =>
          ⟨asPosix path, .regular, file.content⟩ ::
            addFiles root ((file.inode, asPosix path) :: inodes) rest

def backup (lib : Externals) (root : Root) (requested : List Text) : Except Error (List Member) := do
  let files ← collect root requested
  return ⟨manifestName, .regular, lib.dumps (manifest lib root files)⟩ :: addFiles root [] files

/-! The restore -/

def verifyMember (member : Member) : Except Error Unit := do
  let relative ← safeRelative member.name
  if relative = [manifestName] then
    if member.kind ≠ .regular then throw (.backupError (codes "unsupported_member:" ++ member.name))
  else if member.kind ≠ .regular then
    throw (.backupError (codes "unsupported_member:" ++ member.name))

def verifyMembers (archive : List Member) : Except Error Unit := forM archive verifyMember

def getMember (archive : List Member) (name : Text) : Except Error Member :=
  match archive.reverse.find? fun member => member.name = name with
  | some member => .ok member
  | none => .error .keyError

def load (lib : Externals) (text : Bytes) : Except Error Json :=
  match lib.loads text with
  | some data => .ok data
  | none => .error .valueError

def manifestFiles : Json → Except Error (List Json)
  | .obj data =>
      if (Json.get? "format" data).any fun format => Json.same format (.int 1) then
        match Json.get? "files" data with
        | some (.arr items) => .ok items
        | _ => .error (.backupError (codes "invalid_manifest"))
      else .error (.backupError (codes "invalid_manifest"))
  | _ => .error .attributeError

def extractAll (lib : Externals) (archive : List Member) : Except Error (Files.Tree Text Bytes) :=
  match Files.writeAll lib.takes Files.empty
      (archive.map fun member => (parts member.name, member.content)) with
  | some staged => .ok staged
  | none => .error .osError

/-- `entry[key]` -/
def getItem (key : String) : Json → Except Error Json
  | .obj data =>
      match Json.get? key data with
      | some value => .ok value
      | none => .error .keyError
  | _ => .error .typeError

def asText (lib : Externals) : Json → Text
  | .str text => text
  | value => lib.str value

def asInt (lib : Externals) : Json → Except Error Int
  | .int value => .ok value
  | value =>
      match lib.int value with
      | some value => .ok value
      | none => .error .typeError

def entryPath (lib : Externals) (item : Json) : Except Error Path := do
  let value ← getItem "path" item
  safeRelative (asText lib value)

def checkEntry (lib : Externals) (staged : Files.Tree Text Bytes) (item : Json) :
    Except Error Unit := do
  let relative ← entryPath lib item
  let failure : Error := .backupError (codes "integrity_failure:" ++ asPosix relative)
  match Files.find? staged relative with
  | none => throw failure
  | some content =>
      let size ← asInt lib (← getItem "size" item)
      if (content.length : Int) ≠ size then throw failure
      else
        let sha256 ← getItem "sha256" item
        if Json.same (.str (lib.digest content)) sha256 = false then throw failure
        else return ()

def temporary (path : Path) : Path :=
  path.dropLast ++ [dot ++ path.getLastD [] ++ codes ".restore"]

def installEntry (lib : Externals) (staged destination : Files.Tree Text Bytes) (item : Json) :
    Except Error (Files.Tree Text Bytes) := do
  let relative ← entryPath lib item
  let installed := do
    let content ← Files.find? staged relative
    Files.install lib.takes temporary destination relative content
  match installed with
  | some destination => return destination
  | none => throw .osError

def restore (lib : Externals) (archive : List Member) (destination : Files.Tree Text Bytes) :
    Except Error (Files.Tree Text Bytes) := do
  verifyMembers archive
  let member ← getMember archive manifestName
  let data ← load lib member.content
  let items ← manifestFiles data
  let staged ← extractAll lib archive
  forM items (checkEntry lib staged)
  items.foldlM (installEntry lib staged) destination

end Ito.BackupRestore
