import Ito.BackupRoundTrip

/-! The inspection of the evidence of a release, which follows a backup and its restore.

Source: `inspect` of `scripts/operations/inspect_evidence.py`. The archive is the list of its
members, as for the backup. The root holds no links. -/

namespace Ito.Evidence

open BackupRestore

inductive InspectionError where
  | evidenceError (message : String)
  | raised (error : BackupRestore.Error)
  deriving DecidableEq

/-- The files below the root, and what a path leads to, from a directory, that is absolute or goes
up. -/
structure Disk where
  files : Files.Tree Text Bytes
  elsewhere : Path → Text → Option Bytes

/-- `(directory / value).read_bytes()`. -/
def Disk.read (disk : Disk) (directory : Path) (value : Text) : Except BackupRestore.Error Bytes :=
  let found :=
    if value.head? == some slash || (parts value).contains dotdot then
      disk.elsewhere directory value
    else Files.find? disk.files (directory ++ parts value)
  match found with
  | some content => .ok content
  | none => .error .osError

def snapshotPath : Path := [codes "build", codes "portfolio", codes "snapshot.json"]

def restoredDirectory : Path := [codes "build", codes "recovery", codes "restored"]

/-! The snapshot of the portfolio -/

def expected : List (String × Int) :=
  [("net_position", 6), ("gross_position", 6), ("gross_notional_ticks", 690),
    ("realized_pnl_ticks", 80), ("unrealized_pnl_ticks", 90), ("loss_ticks", -170)]

def pnlChecks : Json → Except BackupRestore.Error Bool
  | .obj snapshot =>
      .ok (expected.all fun check =>
        (Json.get? check.1 snapshot).any fun found => Json.same found (.int check.2))
  | _ => .error .attributeError

/-- `any(value.values())`. -/
def anyValue : Json → Except BackupRestore.Error Bool
  | .obj entries =>
      .ok (entries.any fun entry => (entries.reverse.lookup entry.1).any Json.truthy)
  | _ => .error .attributeError

/-! The archive and what was restored from it -/

/-- The content of the last member of a name; a link has that of the last member before it which
it names. The members are in reverse order. -/
def extractLatest (name : Text) : List Member → Except BackupRestore.Error Bytes
  | [] => .error .keyError
  | member :: earlier =>
      if member.name = name then
        match member.kind with
        | .regular => .ok member.content
        | .hardLink target => extractLatest target earlier
        | _ => .error .attributeError
      else extractLatest name earlier

/-- `Path(item["path"])` -/
def pathOf (item : Json) : Except BackupRestore.Error Text := do
  match ← getItem "path" item with
  | .str value => return value
  | _ => throw .typeError

def anchor : Text → Text
  | 47 :: 47 :: 47 :: _ => [slash]
  | 47 :: 47 :: _ => [slash, slash]
  | 47 :: _ => [slash]
  | _ => []

/-- `str(Path(value))` -/
def strPath (value : Text) : Text :=
  let named := anchor value ++ [slash].intercalate (parts value)
  if named = [] then dot else named

def intact (lib : Externals) (item : Json) (source restored : Bytes) :
    Except BackupRestore.Error Bool := do
  let sha256 ← getItem "sha256" item
  if Json.same (.str (lib.digest source)) sha256 && Json.same sha256 (.str (lib.digest restored)) then
    let size ← getItem "size" item
    return Json.same (.int source.length) size && Json.same (.int restored.length) size
  else return false

def recoveryCheck (lib : Externals) (disk : Disk) (item : Json) :
    Except BackupRestore.Error (Text × Bool) := do
  let value ← pathOf item
  let source ← disk.read [] value
  let restored ← disk.read restoredDirectory value
  return (strPath value, ← intact lib item source restored)

/-- What a `for` runs through. -/
def iterate : Json → Except BackupRestore.Error (List Json)
  | .arr items => .ok items
  | .str text => .ok (text.map fun unit => .str [unit])
  | .obj entries => .ok ((entries.map Prod.fst).dedup.map .str)
  | _ => .error .typeError

/-- `all(checks.values())`, where the last check of a name counts. -/
def allPass (checks : List (Text × Bool)) : Bool :=
  checks.all fun check => checks.reverse.lookup check.1 = some true

structure Report where
  limitsBreached : Json
  manifestFormat : Json
  files : List (Text × Bool)

def orRaise {A : Type} (attempt : Except BackupRestore.Error A) : Except InspectionError A :=
  attempt.mapError .raised

def recovery (lib : Externals) (disk : Disk) (archive : List Member) :
    Except InspectionError (Json × List (Text × Bool)) := do
  let data ← orRaise (extractLatest manifestName archive.reverse >>= load lib)
  let items ← orRaise (getItem "files" data >>= iterate)
  let checks ← orRaise (items.mapM (recoveryCheck lib disk))
  if allPass checks = false then throw (.evidenceError "recovery_manifest_mismatch")
  else return (data, checks)

/-- The values of `limits_breached`, if the snapshot passes. -/
def portfolio (lib : Externals) (disk : Disk) : Except InspectionError Json := do
  let snapshot ← orRaise (disk.read [] (asPosix snapshotPath) >>= load lib)
  let profits ← orRaise (pnlChecks snapshot)
  if profits = false then throw (.evidenceError "portfolio_pnl_mismatch")
  else
    let limits ← orRaise (getItem "limits_breached" snapshot)
    let breached ← orRaise (anyValue limits)
    if breached = true then throw (.evidenceError "portfolio_limit_breach")
    else return limits

def inspect (lib : Externals) (disk : Disk) (archive : List Member) :
    Except InspectionError Report := do
  let limits ← portfolio lib disk
  let (data, checks) ← recovery lib disk archive
  let format ← orRaise (getItem "format" data)
  return ⟨limits, format, checks⟩

/-! What a passing inspection says -/

/-- The file is there with the digest and the size that it was backed up with. -/
def Intact (lib : Externals) (root : Root) (path : Path) (found : Option Bytes) : Prop :=
  ∃ content, found = some content ∧ lib.digest content = lib.digest (fileAt root path).content ∧
    content.length = (fileAt root path).content.length

def source (disk : Disk) (path : Path) : Option Bytes := Files.find? disk.files path

def restored (disk : Disk) (path : Path) : Option Bytes :=
  Files.find? disk.files (restoredDirectory ++ path)

/-- The snapshot has the values that are expected, and breaks no limit. -/
def PortfolioPasses (lib : Externals) (disk : Disk) : Prop :=
  ∃ text snapshot limits, source disk snapshotPath = some text ∧
    lib.loads text = some (.obj snapshot) ∧
    (∀ check ∈ expected, ∃ found, Json.get? check.1 snapshot = some found ∧
      Json.same found (.int check.2) = true) ∧
    Json.get? "limits_breached" snapshot = some (.obj limits) ∧
    ∀ entry ∈ limits, ∀ value, limits.reverse.lookup entry.1 = some value → Json.truthy value = false

section Recovery

variable {lib : Externals} {disk : Disk} {root : Root} {requested : List Text} {files : List Path}

theorem read_asPosix (directory : Path) {path : Path}
    (valid : path ≠ [] ∧ ∀ part ∈ path, ValidName part) :
    disk.read directory (asPosix path) =
      match Files.find? disk.files (directory ++ path) with
      | some content => .ok content
      | none => .error .osError := by
  have safe := safeRelative_asPosix valid.1 valid.2
  rw [safeRelative] at safe
  split at safe
  case isTrue => cases safe
  case isFalse inside =>
    have below : ((asPosix path).head? == some slash ||
        (parts (asPosix path)).contains dotdot) = false := by
      simpa using inside
    rw [Disk.read, below]
    simp only [Bool.false_eq_true, if_false, parts_asPosix valid.1 valid.2]

theorem strPath_asPosix {path : Path} (valid : path ≠ [] ∧ ∀ part ∈ path, ValidName part) :
    strPath (asPosix path) = asPosix path := by
  have relative : anchor (asPosix path) = [] := by
    have first := head?_asPosix valid.1 valid.2
    unfold anchor
    split
    case h_1 same => exact absurd (congrArg List.head? same) first
    case h_2 same => exact absurd (congrArg List.head? same) first
    case h_3 same => exact absurd (congrArg List.head? same) first
    case h_4 => rfl
  have some : asPosix path ≠ [] := by
    intro empty
    have back := parts_asPosix valid.1 valid.2
    rw [empty] at back
    exact valid.1 back.symm
  rw [strPath, relative, parts_asPosix valid.1 valid.2, List.nil_append, ← asPosix_eq valid.1,
    if_neg some]

theorem same_str (left right : Text) :
    Json.same (.str left) (.str right) = decide (left = right) := by
  simp [Json.same]

theorem same_int (left right : ℤ) : Json.same (.int left) (.int right) = decide (left = right) := by
  simp [Json.same, Json.number?]

theorem intact_entry (path : Path) (file : File) (source restored : Bytes) :
    intact lib (entry lib path file) source restored =
      .ok (decide ((lib.digest source = lib.digest file.content ∧
          lib.digest restored = lib.digest file.content) ∧
        source.length = file.content.length ∧ restored.length = file.content.length)) := by
  have sha256 : getItem "sha256" (entry lib path file) = .ok (.str (lib.digest file.content)) := by
    rfl
  have size : getItem "size" (entry lib path file) = .ok (.int file.content.length) := by rfl
  simp only [intact, sha256, size, Bind.bind, Except.bind, same_str, same_int, Nat.cast_inj, pure,
    Except.pure]
  by_cases digests : lib.digest source = lib.digest file.content ∧
      lib.digest restored = lib.digest file.content
  · simp [digests]
  · rw [if_neg, decide_eq_false (fun all => digests all.1)]
    intro both
    rw [Bool.and_eq_true, decide_eq_true_eq, decide_eq_true_eq] at both
    exact digests ⟨both.1, both.2.symm⟩

theorem recoveryCheck_present {path : Path} (valid : path ≠ [] ∧ ∀ part ∈ path, ValidName part)
    (here : source disk path ≠ none) (there : restored disk path ≠ none) :
    ∃ passes : Bool, recoveryCheck lib disk (entry lib path (fileAt root path)) =
        .ok (asPosix path, passes) ∧
      (passes = true ↔
        Intact lib root path (source disk path) ∧ Intact lib root path (restored disk path)) := by
  rcases Option.ne_none_iff_exists'.mp here with ⟨live, isLive⟩
  rcases Option.ne_none_iff_exists'.mp there with ⟨kept, isKept⟩
  have named : pathOf (entry lib path (fileAt root path)) = .ok (asPosix path) := by rfl
  have readLive : disk.read [] (asPosix path) = .ok live := by
    rw [read_asPosix [] valid, List.nil_append, ← source, isLive]
  have readKept : disk.read restoredDirectory (asPosix path) = .ok kept := by
    rw [read_asPosix restoredDirectory valid, ← restored, isKept]
  refine ⟨decide ((lib.digest live = lib.digest (fileAt root path).content ∧
      lib.digest kept = lib.digest (fileAt root path).content) ∧
    live.length = (fileAt root path).content.length ∧
    kept.length = (fileAt root path).content.length), ?_, ?_⟩
  · rw [recoveryCheck, named]
    simp only [Bind.bind, Except.bind, readLive, readKept, intact_entry, strPath_asPosix valid]
    rfl
  · rw [decide_eq_true_iff]
    simp only [Intact, isLive, isKept, Option.some.injEq, exists_eq_left']
    tauto

theorem recoveryCheck_missing {path : Path} (valid : path ≠ [] ∧ ∀ part ∈ path, ValidName part)
    (missing : source disk path = none ∨ restored disk path = none) :
    recoveryCheck lib disk (entry lib path (fileAt root path)) = .error .osError := by
  have named : pathOf (entry lib path (fileAt root path)) = .ok (asPosix path) := by rfl
  have live := @read_asPosix disk [] path valid
  have kept := @read_asPosix disk restoredDirectory path valid
  rw [List.nil_append, ← source] at live
  rw [← restored] at kept
  rw [recoveryCheck, named]
  simp only [Bind.bind, Except.bind, live, kept]
  rcases missing with absent | absent
  · rw [absent]
  · rw [absent]
    cases source disk path with
    | none => rfl
    | some content => rfl

theorem allPass_iff {checks : List (Text × Bool)}
    (single : ∀ first ∈ checks, ∀ second ∈ checks, first.1 = second.1 → first.2 = second.2) :
    allPass checks = true ↔ ∀ check ∈ checks, check.2 = true := by
  rw [allPass, List.all_eq_true]
  refine forall₂_congr fun check member => ?_
  rw [decide_eq_true_iff]
  constructor
  · intro found
    rcases List.lookup_eq_some_iff.mp found with ⟨front, back, split, -⟩
    have among : (check.1, true) ∈ checks := by
      rw [← List.mem_reverse, split]
      simp
    exact single check member (check.1, true) among rfl
  · intro passes
    cases found : checks.reverse.lookup check.1 with
    | none =>
        have absent := List.lookup_eq_none_iff.mp found check (List.mem_reverse.mpr member)
        simp at absent
    | some value =>
        rcases List.lookup_eq_some_iff.mp found with ⟨front, back, split, -⟩
        have among : (check.1, value) ∈ checks := by
          rw [← List.mem_reverse, split]
          simp
        have same : check.2 = value := single check member (check.1, value) among rfl
        rw [← same, passes]

theorem extractLatest_append {name : Text} {newer earlier : List Member}
    (others : ∀ member ∈ newer, member.name ≠ name) :
    extractLatest name (newer ++ earlier) = extractLatest name earlier := by
  induction newer with
  | nil => rfl
  | cons member newer ih =>
      rw [List.forall_mem_cons] at others
      rw [List.cons_append, extractLatest, if_neg others.1, ih others.2]

theorem extractLatest_manifest (collected : Collected root requested files)
    (other : [manifestName] ∉ files) (payload : Bytes) :
    extractLatest manifestName
      (⟨manifestName, .regular, payload⟩ :: files.map (regular root)).reverse = .ok payload := by
  have others : ∀ member ∈ (files.map (regular root)).reverse, member.name ≠ manifestName := by
    intro member inside
    rw [List.mem_reverse, List.mem_map] at inside
    rcases inside with ⟨path, selected, rfl⟩
    intro same
    have valid := collected.valid path selected
    have both : path = [manifestName] :=
      asPosix_injective valid.1 (by simp) valid.2 valid_manifestName same
    exact other (both ▸ selected)
  rw [List.reverse_cons, extractLatest_append others, extractLatest, if_pos rfl]

theorem checks_present (collected : Collected root requested files)
    (present : ∀ path ∈ files, source disk path ≠ none ∧ restored disk path ≠ none) :
    ∃ checks, (files.map fun path => entry lib path (fileAt root path)).mapM (recoveryCheck lib disk) =
        .ok checks ∧
      (allPass checks = true ↔ ∀ path ∈ files,
        Intact lib root path (source disk path) ∧ Intact lib root path (restored disk path)) := by
  let agrees (path : Path) (check : Text × Bool) : Prop :=
    check.1 = asPosix path ∧ (check.2 = true ↔
      Intact lib root path (source disk path) ∧ Intact lib root path (restored disk path))
  have each : ∀ path ∈ files, ∃ check,
      recoveryCheck lib disk (entry lib path (fileAt root path)) = .ok check ∧ agrees path check := by
    intro path member
    rcases recoveryCheck_present (collected.valid path member) (present path member).1
      (present path member).2 with ⟨passes, computed, isIntact⟩
    exact ⟨(asPosix path, passes), computed, rfl, isIntact⟩
  rw [List.mapM_map]
  rcases Fallible.mapM_forall₂ each with ⟨checks, computed, all⟩
  refine ⟨checks, computed, ?_⟩
  have single : ∀ first ∈ checks, ∀ second ∈ checks, first.1 = second.1 → first.2 = second.2 := by
    intro first member second member' same
    rcases Fallible.forall₂_right all member with ⟨path, inside, named, passes⟩
    rcases Fallible.forall₂_right all member' with ⟨path', inside', named', passes'⟩
    have valid := collected.valid path inside
    have valid' := collected.valid path' inside'
    rw [named, named'] at same
    rw [asPosix_injective valid.1 valid'.1 valid.2 valid'.2 same] at passes
    rw [Bool.eq_iff_iff, passes, passes']
  rw [allPass_iff single]
  constructor
  · intro passing path inside
    rcases Fallible.forall₂_right all.flip inside with ⟨check, member, -, passes⟩
    exact passes.mp (passing check member)
  · intro isIntact check member
    rcases Fallible.forall₂_right all member with ⟨path, inside, -, passes⟩
    exact passes.mpr (isIntact path inside)

theorem checks_missing (collected : Collected root requested files)
    (missing : ∃ path ∈ files, source disk path = none ∨ restored disk path = none) :
    (files.map fun path => entry lib path (fileAt root path)).mapM (recoveryCheck lib disk) =
      .error .osError := by
  rw [List.mapM_map]
  apply Fallible.mapM_eq_error
  · intro path member
    by_cases absent : source disk path = none ∨ restored disk path = none
    · exact Or.inl (recoveryCheck_missing (collected.valid path member) absent)
    · rw [not_or] at absent
      rcases recoveryCheck_present (collected.valid path member) absent.1 absent.2 with
        ⟨passes, computed, -⟩
      exact Or.inr ⟨_, computed⟩
  · rcases missing with ⟨path, member, absent⟩
    exact ⟨path, member, recoveryCheck_missing (collected.valid path member) absent⟩

def archiveOf (lib : Externals) (root : Root) (files : List Path) : List Member :=
  ⟨manifestName, .regular, lib.dumps (manifest lib root files)⟩ :: files.map (regular root)

theorem recovery_archiveOf (collected : Collected root requested files)
    (other : [manifestName] ∉ files)
    (faithful : lib.loads (lib.dumps (manifest lib root files)) = some (manifest lib root files)) :
    recovery lib disk (archiveOf lib root files) =
      (match (files.map fun path => entry lib path (fileAt root path)).mapM
          (recoveryCheck lib disk) with
        | .error error => .error (.raised error)
        | .ok checks =>
            if allPass checks = false then .error (.evidenceError "recovery_manifest_mismatch")
            else .ok (manifest lib root files, checks)) := by
  have manifestRead : (extractLatest manifestName (archiveOf lib root files).reverse >>= load lib) =
      .ok (manifest lib root files) := by
    rw [archiveOf, extractLatest_manifest collected other]
    simp only [Bind.bind, Except.bind, load, faithful]
  have items : getItem "files" (manifest lib root files) =
      .ok (.arr (files.map fun path => entry lib path (fileAt root path))) := by rfl
  rw [recovery, manifestRead]
  simp only [orRaise, Except.mapError, Bind.bind, Except.bind, items, iterate]
  cases (files.map fun path => entry lib path (fileAt root path)).mapM (recoveryCheck lib disk) with
  | error error => rfl
  | ok checks => rfl

end Recovery

/-! The whole inspection -/

section Whole

variable {lib : Externals} {disk : Disk} {root : Root} {requested : List Text} {files : List Path}

theorem orRaise_eq_ok {A : Type} {attempt : Except BackupRestore.Error A} {value : A} :
    orRaise attempt = .ok value ↔ attempt = .ok value := by
  cases attempt with
  | error error => simp [orRaise, Except.mapError]
  | ok found => simp [orRaise, Except.mapError]

theorem pnlChecks_eq_true {snapshot : Json} : pnlChecks snapshot = .ok true ↔
    ∃ entries, snapshot = .obj entries ∧ ∀ check ∈ expected,
      ∃ found, Json.get? check.1 entries = some found ∧ Json.same found (.int check.2) = true := by
  cases snapshot with
  | obj entries => simp [pnlChecks, Option.any_eq_true]
  | _ => simp [pnlChecks]

theorem anyValue_eq_false {limits : Json} : anyValue limits = .ok false ↔
    ∃ entries, limits = .obj entries ∧ ∀ entry ∈ entries, ∀ value,
      entries.reverse.lookup entry.1 = some value → Json.truthy value = false := by
  cases limits with
  | obj entries =>
      simp only [anyValue, Except.ok.injEq, List.any_eq_false, Option.any_eq_true, not_exists,
        not_and, Bool.not_eq_true, Json.obj.injEq, exists_eq_left']
  | _ => simp [anyValue]

theorem getItem_eq_ok {key : String} {data value : Json} : getItem key data = .ok value ↔
    ∃ entries, data = .obj entries ∧ Json.get? key entries = some value := by
  cases data with
  | obj entries =>
      simp only [getItem, Json.obj.injEq, exists_eq_left']
      cases Json.get? key entries with
      | none => simp
      | some found => simp
  | _ => simp [getItem]

theorem valid_snapshotPath : snapshotPath ≠ [] ∧ ∀ part ∈ snapshotPath, ValidName part := by decide

theorem readSnapshot_eq_ok {text : Bytes} :
    disk.read [] (asPosix snapshotPath) = .ok text ↔ source disk snapshotPath = some text := by
  rw [read_asPosix [] valid_snapshotPath, List.nil_append, ← source]
  cases source disk snapshotPath with
  | none => simp
  | some found => simp

theorem portfolio_eq_ok : (∃ limits, portfolio lib disk = .ok limits) ↔ PortfolioPasses lib disk := by
  simp only [portfolio, Fallible.bind_eq_ok, orRaise_eq_ok, Fallible.throw_else_eq_ok,
    readSnapshot_eq_ok, load_eq_ok, getItem_eq_ok, Bool.not_eq_false]
  constructor
  · rintro ⟨_, snapshot, ⟨text, held, loaded⟩, profits, checked, isTrue, limits,
      ⟨entries, isObject, found⟩, breached, counted, isFalse, -⟩
    subst isTrue
    rw [Bool.not_eq_true] at isFalse
    subst isFalse
    rcases pnlChecks_eq_true.mp checked with ⟨others, same, values⟩
    rw [isObject, Json.obj.injEq] at same
    subst same
    rcases anyValue_eq_false.mp counted with ⟨flags, isFlags, quiet⟩
    exact ⟨text, entries, flags, held, isObject ▸ loaded, values, isFlags ▸ found, quiet⟩
  · rintro ⟨text, entries, flags, held, loaded, values, found, quiet⟩
    exact ⟨_, _, ⟨text, held, loaded⟩, true, pnlChecks_eq_true.mpr ⟨entries, rfl, values⟩, rfl,
      _, ⟨entries, rfl, found⟩, false, anyValue_eq_false.mpr ⟨flags, rfl, quiet⟩, by simp, rfl⟩

def Present (disk : Disk) (root : Root) (requested : List Text) : Prop :=
  ∀ path, Selected root requested path → source disk path ≠ none ∧ restored disk path ≠ none

def AllIntact (lib : Externals) (disk : Disk) (root : Root) (requested : List Text) : Prop :=
  ∀ path, Selected root requested path →
    Intact lib root path (source disk path) ∧ Intact lib root path (restored disk path)

theorem AllIntact.present (isIntact : AllIntact lib disk root requested) :
    Present disk root requested := by
  intro path selected
  rcases isIntact path selected with ⟨⟨live, isLive, -⟩, ⟨kept, isKept, -⟩⟩
  rw [isLive, isKept]
  exact ⟨Option.some_ne_none live, Option.some_ne_none kept⟩

theorem inspect_archiveOf (collected : Collected root requested files)
    (other : [manifestName] ∉ files)
    (faithful : lib.loads (lib.dumps (manifest lib root files)) = some (manifest lib root files))
    (passes : PortfolioPasses lib disk) :
    (¬ Present disk root requested →
      inspect lib disk (archiveOf lib root files) = .error (.raised .osError)) ∧
    (Present disk root requested → ¬ AllIntact lib disk root requested →
      inspect lib disk (archiveOf lib root files) =
        .error (.evidenceError "recovery_manifest_mismatch")) ∧
    (AllIntact lib disk root requested →
      ∃ report, inspect lib disk (archiveOf lib root files) = .ok report) := by
  rcases portfolio_eq_ok.mpr passes with ⟨limits, passed⟩
  have format : getItem "format" (manifest lib root files) = .ok (.int 1) := by rfl
  have present_iff : Present disk root requested ↔
      ∀ path ∈ files, source disk path ≠ none ∧ restored disk path ≠ none := by
    simp only [Present, collected.members]
  have intact_iff : AllIntact lib disk root requested ↔ ∀ path ∈ files,
      Intact lib root path (source disk path) ∧ Intact lib root path (restored disk path) := by
    simp only [AllIntact, collected.members]
  rw [inspect, passed, recovery_archiveOf collected other faithful]
  refine ⟨?_, ?_, ?_⟩
  · intro absent
    have missing : ∃ path ∈ files, source disk path = none ∨ restored disk path = none := by
      rw [present_iff] at absent
      push Not at absent
      rcases absent with ⟨path, member, some⟩
      by_cases gone : source disk path = none
      · exact ⟨path, member, Or.inl gone⟩
      · exact ⟨path, member, Or.inr (some gone)⟩
    rw [checks_missing collected missing]
    rfl
  · intro present broken
    rcases @checks_present lib disk root requested files collected (present_iff.mp present) with
      ⟨checks, computed, all⟩
    have fails : allPass checks = false := by
      rw [← Bool.not_eq_true, all, ← intact_iff]
      exact broken
    rw [computed]
    simp only [fails, if_true]
    rfl
  · intro isIntact
    rcases @checks_present lib disk root requested files collected (present_iff.mp isIntact.present) with
      ⟨checks, computed, all⟩
    have holds : allPass checks = true := all.mpr (intact_iff.mp isIntact)
    rw [computed]
    refine ⟨⟨limits, .int 1, checks⟩, ?_⟩
    simp only [holds, Bool.true_eq_false, if_false, Bind.bind, Except.bind, format]
    rfl

theorem allIntact_of_restored {tree : Files.Tree Text Bytes}
    (exactly : ∀ path content, Files.find? tree path = some content ↔ Holds root requested path content)
    (kept : ∀ path, restored disk path = Files.find? tree path) :
    AllIntact lib disk root requested ↔
      ∀ path, Selected root requested path → Intact lib root path (source disk path) := by
  constructor
  · intro isIntact path selected
    exact (isIntact path selected).1
  · intro isIntact path selected
    rcases Files.mem_keys.mp selected.1 with ⟨file, found⟩
    have content : (fileAt root path).content = file.content := by rw [fileAt, found]; rfl
    have there : restored disk path = some file.content := by
      rw [kept]
      exact (exactly path file.content).mpr ⟨selected, file, found, rfl⟩
    exact ⟨isIntact path selected, file.content, there, by rw [content], by rw [content]⟩

/-- A backup whose names keep apart restores, and on every later disk whose snapshot passes, the
inspection passes exactly if each selected file, live and restored, has the digest and the size that
it was backed up with. It names a mismatch where all these files are there, and fails to read
otherwise. Beside the files that the restore left, only the live ones decide. -/
theorem inspection_follows_backup (existing : Selectable root requested)
    (faithful : ∀ files, collect root requested = .ok files →
      lib.loads (lib.dumps (manifest lib root files)) = some (manifest lib root files))
    (distinct : NoLinks root requested) (apart : KeepsOut lib root requested) :
    ∃ archive tree, backup lib root requested = .ok archive ∧
      restore lib archive Files.empty = .ok tree ∧
      ∀ disk : Disk,
        ((∃ report, inspect lib disk archive = .ok report) ↔
          PortfolioPasses lib disk ∧ AllIntact lib disk root requested) ∧
        (PortfolioPasses lib disk →
          (inspect lib disk archive = .error (.evidenceError "recovery_manifest_mismatch") ↔
            Present disk root requested ∧ ¬ AllIntact lib disk root requested) ∧
          (inspect lib disk archive = .error (.raised .osError) ↔
            ¬ Present disk root requested)) ∧
        ((∀ path, restored disk path = Files.find? tree path) →
          (AllIntact lib disk root requested ↔
            ∀ path, Selected root requested path → Intact lib root path (source disk path))) := by
  rcases collect_ok existing with ⟨files, done, collected⟩
  have other : [manifestName] ∉ files := fun member =>
    apart.manifest _ ((collected.members _).mp member) (List.prefix_refl _)
  have separate := collected.noLinks_iff.mp distinct
  have members : addFiles root [] files = files.map (regular root) :=
    addFiles_distinct (by simp) separate
  have archived : backup lib root requested = .ok (archiveOf lib root files) := by
    rw [backup, done, archiveOf, ← members]
    rfl
  rcases (restores_other collected other (faithful files done)).mpr ⟨distinct, apart⟩ with
    ⟨tree, restores, exactly⟩
  rw [members] at restores
  refine ⟨archiveOf lib root files, tree, archived, restores, fun disk => ⟨?_, ?_, ?_⟩⟩
  · constructor
    · rintro ⟨report, inspected⟩
      have passes : PortfolioPasses lib disk := by
        rcases Fallible.bind_eq_ok.mp inspected with ⟨limits, passed, -⟩
        exact portfolio_eq_ok.mp ⟨limits, passed⟩
      rcases inspect_archiveOf collected other (faithful files done) passes with
        ⟨absent, broken, -⟩
      refine ⟨passes, ?_⟩
      by_contra changed
      by_cases present : Present disk root requested
      · rw [broken present changed] at inspected
        cases inspected
      · rw [absent present] at inspected
        cases inspected
    · rintro ⟨passes, isIntact⟩
      exact (inspect_archiveOf collected other (faithful files done) passes).2.2 isIntact
  · intro passes
    rcases inspect_archiveOf collected other (faithful files done) passes with
      ⟨absent, broken, intact⟩
    by_cases present : Present disk root requested
    · by_cases isIntact : AllIntact lib disk root requested
      · rcases intact isIntact with ⟨report, inspected⟩
        simp [inspected, present, isIntact]
      · simp [broken present isIntact, present, isIntact]
    · simp [absent present, present]
  · exact allIntact_of_restored exactly

end Whole

def versionText (version : ℕ) : Bytes :=
  Bytes.ofText ("\x7b\"version\":" ++ toString version ++ "\x7d")

def versionSha256 (content : Bytes) : Text :=
  if content = versionText 1 then codes policySha256
  else codes "732322c128ed67841ef5aa42c7cd04ffcd74a61b2d17d710cd502b713d62930d"

def snapshotText : Bytes := Bytes.ofText <|
  "\x7b\"net_position\":6,\"gross_position\":6,\"gross_notional_ticks\":690," ++
    "\"realized_pnl_ticks\":80,\"unrealized_pnl_ticks\":90,\"loss_ticks\":-170," ++
    "\"limits_breached\":\x7b\"loss\":false\x7d\x7d"

def snapshotEntries : List (Text × Json) :=
  [(codes "net_position", .int 6), (codes "gross_position", .int 6),
    (codes "gross_notional_ticks", .int 690), (codes "realized_pnl_ticks", .int 80),
    (codes "unrealized_pnl_ticks", .int 90), (codes "loss_ticks", .int (-170)),
    (codes "limits_breached", .obj [(codes "loss", .bool false)])]

def policyManifest : Json :=
  manifest (librariesFor .null "" versionSha256) policyRoot [policyPath]

def inspectionLibraries : Externals where
  takes path := path.all fun name => name.length ≤ 255
  digest := versionSha256
  dumps _ := Bytes.ofText (manifestLine (entryText "config/risk/policy.json" policySha256 "13")
    "workspace")
  loads text := if text = snapshotText then some (.obj snapshotEntries) else some policyManifest
  str _ := codes "None"
  int _ := none

theorem loads_snapshotText :
    inspectionLibraries.loads snapshotText = some (.obj snapshotEntries) := by
  simp only [inspectionLibraries, if_true]

theorem loads_other {text : Bytes} (other : text ≠ snapshotText) :
    inspectionLibraries.loads text = some policyManifest := by
  simp only [inspectionLibraries, if_neg other]

def releaseDisk (version : ℕ) : Disk where
  files := Files.put (Files.put (Files.put Files.empty snapshotPath snapshotText)
    (restoredDirectory ++ policyPath) (versionText 1)) policyPath (versionText version)
  elsewhere _ _ := none

theorem inspection_follows_backup_changed :
    ∃ archive tree, backup inspectionLibraries policyRoot [codes "config/risk/policy.json"] =
        .ok archive ∧
      restore inspectionLibraries archive Files.empty = .ok tree ∧
      (∃ report, inspect inspectionLibraries (releaseDisk 1) archive = .ok report) ∧
      inspect inspectionLibraries (releaseDisk 2) archive =
        .error (.evidenceError "recovery_manifest_mismatch") := by
  have existing : Selectable policyRoot [codes "config/risk/policy.json"] := by
    intro value member
    rw [List.mem_singleton.mp member]
    exact ⟨policyPath, rfl, by decide⟩
  have only : ∀ path, Selected policyRoot [codes "config/risk/policy.json"] path →
      path = policyPath := fun path selected => List.mem_singleton.mp selected.1
  have done : collect policyRoot [codes "config/risk/policy.json"] = .ok [policyPath] := by rfl
  have faithful : ∀ files, collect policyRoot [codes "config/risk/policy.json"] = .ok files →
      inspectionLibraries.loads (inspectionLibraries.dumps
        (manifest inspectionLibraries policyRoot files)) =
        some (manifest inspectionLibraries policyRoot files) := by
    intro files collected
    rw [done, Except.ok.injEq] at collected
    have line : inspectionLibraries.dumps (manifest inspectionLibraries policyRoot [policyPath]) ≠
        snapshotText := by decide +kernel
    rw [← collected]
    rw [loads_other line, policyManifest]
    exact congrArg some (manifest_congr rfl)
  have distinct : NoLinks policyRoot [codes "config/risk/policy.json"] := by
    intro path other selected selected' _
    rw [only path selected, only other selected']
  have apart : KeepsOut inspectionLibraries policyRoot [codes "config/risk/policy.json"] := by
    refine ⟨?_, ?_, by decide, ?_⟩
    · intro path selected
      rw [only path selected]
      decide
    · intro path later selected selected' less
      rw [only path selected, only later selected'] at less
      exact absurd less (lt_irrefl _)
    · intro path selected
      rw [only path selected]
      decide
  rcases inspection_follows_backup existing faithful distinct apart with
    ⟨archive, tree, archived, restores, inspected⟩
  have snapshot : ∀ version, source (releaseDisk version) snapshotPath = some snapshotText := by
    intro version
    rw [source, releaseDisk, Files.find?_put, if_neg (by decide), Files.find?_put,
      if_neg (by decide), Files.find?_put, if_pos rfl]
  have live : ∀ version, source (releaseDisk version) policyPath = some (versionText version) := by
    intro version
    rw [source, releaseDisk, Files.find?_put, if_pos rfl]
  have kept : ∀ version, restored (releaseDisk version) policyPath = some (versionText 1) := by
    intro version
    rw [restored, releaseDisk, Files.find?_put, if_neg (by decide), Files.find?_put, if_pos rfl]
  have passes : ∀ version, PortfolioPasses inspectionLibraries (releaseDisk version) := by
    intro version
    refine ⟨snapshotText, snapshotEntries, [(codes "loss", .bool false)], snapshot version,
      loads_snapshotText, ?_, by rfl, ?_⟩
    · intro check member
      have values : ∀ check ∈ expected, Json.get? check.1 snapshotEntries = some (.int check.2) := by
        simp only [expected, List.forall_mem_cons]
        exact ⟨rfl, rfl, rfl, rfl, rfl, rfl, by simp⟩
      exact ⟨_, values check member, by rw [same_int, decide_eq_true rfl]⟩
    · intro entry member value found
      rw [List.mem_singleton.mp member] at found
      cases found
      rfl
  have same : (fileAt policyRoot policyPath).content = versionText 1 := by decide +kernel
  refine ⟨archive, tree, archived, restores, ?_, ?_⟩
  · refine (inspected (releaseDisk 1)).1.mpr ⟨passes 1, fun path selected => ?_⟩
    rw [only path selected, live, kept, Intact, same]
    exact ⟨⟨_, rfl, rfl, rfl⟩, ⟨_, rfl, rfl, rfl⟩⟩
  · refine ((inspected (releaseDisk 2)).2.1 (passes 2)).1.mpr ⟨fun path selected => ?_, ?_⟩
    · rw [only path selected, live, kept]
      exact ⟨Option.some_ne_none _, Option.some_ne_none _⟩
    · intro isIntact
      have member : Selected policyRoot [codes "config/risk/policy.json"] policyPath :=
        ⟨List.mem_singleton_self _, codes "config/risk/policy.json", List.mem_singleton_self _,
          policyPath, rfl, List.prefix_refl _⟩
      rcases (isIntact policyPath member).1 with ⟨content, found, digest, -⟩
      rw [live, Option.some.injEq] at found
      rw [← found, same] at digest
      exact absurd digest (by decide +kernel)

end Ito.Evidence
