import Ito.Library.Fallible
import Ito.Library.SortedMap
import Ito.Replay
import Mathlib.Algebra.Order.Ring.Int
import Mathlib.Data.List.Nodup

/-! The tool that compares the orders on record with the records of a venue.

Source: `python/reconciliation/reconcile.py`. What `int` makes of a text is a parameter: Python
reads the digits of every script and bounds how many there are. -/

namespace Ito.RecordReconcile

open Replay (LoadError item pyInt)

abbrev Record := List (List Nat × Json)

/-- Dictionaries are read in the order of `sorted`. -/
abbrev ById (a b : Int) : Prop := a < b

instance byIdTrans : IsTrans Int ById := ⟨fun _ _ _ => lt_trans⟩

inductive State where
  | invalidRecord
  | duplicateRecord
  | missingVenue
  | quantityMismatch
  | priceMismatch
  | matched
  | missingLocal
  deriving DecidableEq, Repr

structure Finding where
  clientOrderId : Option Int
  state : State
  detail : String
  deriving DecidableEq, Repr

/-- The exceptions that `_index` catches. -/
def caught : LoadError → Bool
  | .overflowError => false
  | _ => true

section

variable (intOfText : List Nat → Option Int)

/-- `int(value)`. -/
def toInt : Json → Except LoadError Int
  | .str text => (intOfText text).elim (.error .valueError) .ok
  | value => pyInt value

/-- `int(record["client_order_id"])`. -/
def idOf (record : Record) : Except LoadError Int :=
  (item (.obj record) "client_order_id").bind (toInt intOfText)

/-- `int(record.get(key, 0))`. -/
def intField (record : Record) (key : String) : Except LoadError Int :=
  toInt intOfText ((Json.get? key record).getD (.int 0))

/-- What `_index` has built. -/
structure Indexed where
  byId : SortedMap ById Record := SortedMap.empty
  findings : List Finding := []

def Indexed.add (indexed : Indexed) (finding : Finding) : Indexed :=
  { indexed with findings := indexed.findings ++ [finding] }

/-- One turn of the loop of `_index`. -/
def indexRecord (source : String) (indexed : Indexed) (record : Record) :
    Except LoadError Indexed :=
  match idOf intOfText record with
  | .error raised =>
      if caught raised then
        .ok (indexed.add ⟨none, .invalidRecord, source ++ "_client_order_id_invalid"⟩)
      else .error raised
  | .ok id =>
      if id ≤ 0 then
        .ok (indexed.add ⟨some id, .invalidRecord, source ++ "_client_order_id_non_positive"⟩)
      else if (indexed.byId.find? id).isSome then
        .ok (indexed.add ⟨some id, .duplicateRecord, "duplicate_" ++ source ++ "_client_order_id"⟩)
      else .ok { indexed with byId := indexed.byId.set id record }

def index (records : List Record) (source : String) : Except LoadError Indexed :=
  records.foldlM (indexRecord intOfText source) {}

def compareOrder (id : Int) (order : Record) : Option Record → Except LoadError Finding
  | none => .ok ⟨some id, .missingVenue, "venue_report_missing"⟩
  | some report => do
      if (← intField intOfText report "executed_quantity") <
          (← intField intOfText order "executed_quantity") then
        return ⟨some id, .quantityMismatch, "venue_quantity_below_local"⟩
      let price ← intField intOfText order "average_price_ticks"
      if price ≠ 0 then
        if (← intField intOfText report "average_price_ticks") ≠ price then
          return ⟨some id, .priceMismatch, "average_price_differs"⟩
      return ⟨some id, .matched, "matched"⟩

def missingLocal (id : Int) : Finding := ⟨some id, .missingLocal, "local_order_missing"⟩

def compare (locals venue : List Record) : Except LoadError (List Finding) := do
  let localIndex ← index intOfText locals "local"
  let venueIndex ← index intOfText venue "venue"
  let compared ← localIndex.byId.entries.mapM fun entry =>
    compareOrder intOfText entry.1 entry.2 (venueIndex.byId.find? entry.1)
  let missing := (venueIndex.byId.entries.filter fun entry =>
    (localIndex.byId.find? entry.1).isNone).map fun entry => missingLocal entry.1
  return localIndex.findings ++ venueIndex.findings ++ compared ++ missing

end

/-! Every record is accounted for -/

section

variable (intOfText : List Nat → Option Int)

def ValidId (records : List Record) (id : Int) : Prop :=
  0 < id ∧ ∃ record ∈ records, idOf intOfText record = .ok id

def rejection (source : String) (earlier : List Record) (record : Record) : Option Finding :=
  match idOf intOfText record with
  | .error _ => some ⟨none, .invalidRecord, source ++ "_client_order_id_invalid"⟩
  | .ok id =>
      if id ≤ 0 then
        some ⟨some id, .invalidRecord, source ++ "_client_order_id_non_positive"⟩
      else if earlier.any fun other => (idOf intOfText other).toOption = some id then
        some ⟨some id, .duplicateRecord, "duplicate_" ++ source ++ "_client_order_id"⟩
      else none

/-- The findings of the records that are turned down, one for each. -/
def rejections (source : String) (earlier : List Record) : List Record → List Finding
  | [] => []
  | record :: rest =>
      (rejection intOfText source earlier record).toList ++
        rejections source (earlier ++ [record]) rest

/-- The numbers of a record are finite, and its quantity and its price are integers. -/
structure Convertible (record : Record) : Prop where
  finite : idOf intOfText record ≠ .error .overflowError
  quantity : ∃ quantity, intField intOfText record "executed_quantity" = .ok quantity
  price : ∃ price, intField intOfText record "average_price_ticks" = .ok price

structure Accounts (locals venue : List Record) (findings : List Finding) : Prop where
  distinct : (findings.map Finding.clientOrderId).Nodup
  ids : ∀ id, id ∈ findings.map Finding.clientOrderId ↔
    ∃ valid, id = some valid ∧ (ValidId intOfText locals valid ∨ ValidId intOfText venue valid)
  states : ∀ finding ∈ findings, finding.state ∈
    [.matched, .quantityMismatch, .priceMismatch, .missingVenue, .missingLocal]
  missingVenue : ∀ finding ∈ findings, ∀ id, finding.clientOrderId = some id →
    (finding.state = .missingVenue ↔
      ValidId intOfText locals id ∧ ¬ ValidId intOfText venue id)
  missingLocal : ∀ finding ∈ findings, ∀ id, finding.clientOrderId = some id →
    (finding.state = .missingLocal ↔
      ValidId intOfText venue id ∧ ¬ ValidId intOfText locals id)

structure Covers (byId : SortedMap ById Record) (records : List Record) : Prop where
  present : ∀ id, (byId.find? id).isSome ↔ ValidId intOfText records id
  among : ∀ id record, byId.find? id = some record → record ∈ records

variable {intOfText}

theorem validId_append {records : List Record} {record : Record} {id : Int} :
    ValidId intOfText (records ++ [record]) id ↔
      ValidId intOfText records id ∨ 0 < id ∧ idOf intOfText record = .ok id := by
  simp only [ValidId, List.mem_append, List.mem_singleton, or_and_right, exists_or,
    exists_eq_left, and_or_left]

theorem any_eq_isSome {records : List Record} {byId : SortedMap ById Record} {id : Int}
    (covers : Covers intOfText byId records) (positive : 0 < id) :
    (records.any fun other => (idOf intOfText other).toOption = some id) =
      (byId.find? id).isSome := by
  rw [Bool.eq_iff_iff, covers.present, List.any_eq_true]
  constructor
  · rintro ⟨record, member, same⟩
    refine ⟨positive, record, member, ?_⟩
    cases read : idOf intOfText record with
    | error raised => simp [read, Except.toOption] at same
    | ok other => simpa [read, Except.toOption] using same
  · rintro ⟨-, record, member, same⟩
    exact ⟨record, member, by simp [same, Except.toOption]⟩

theorem Covers.append_known {byId : SortedMap ById Record} {records : List Record} {record : Record}
    (covers : Covers intOfText byId records)
    (known : ∀ id, 0 < id → idOf intOfText record = .ok id → ValidId intOfText records id) :
    Covers intOfText byId (records ++ [record]) := by
  refine ⟨fun id => ?_, fun id held found => List.mem_append_left _ (covers.among id held found)⟩
  rw [covers.present, validId_append]
  exact ⟨Or.inl, fun valid => valid.elim (fun old => old) fun new => known id new.1 new.2⟩

theorem Covers.append_new {byId : SortedMap ById Record} {records : List Record} {record : Record}
    {id : Int} (covers : Covers intOfText byId records) (positive : 0 < id)
    (read : idOf intOfText record = .ok id) :
    Covers intOfText (byId.set id record) (records ++ [record]) := by
  refine ⟨fun other => ?_, fun other held found => ?_⟩
  · rw [validId_append, ← covers.present, read, SortedMap.find?_set]
    split
    case isTrue same => simp [same, positive]
    case isFalse differ => simp [Ne.symm differ]
  · rw [SortedMap.find?_set] at found
    split at found
    · rw [← Option.some.inj found]
      exact List.mem_append_right _ List.mem_cons_self
    · exact List.mem_append_left _ (covers.among other held found)

theorem indexRecord_covers (source : String) {indexed : Indexed} {earlier : List Record}
    {record : Record} (covers : Covers intOfText indexed.byId earlier)
    (finite : idOf intOfText record ≠ .error .overflowError) :
    ∃ next, indexRecord intOfText source indexed record = .ok next ∧
      Covers intOfText next.byId (earlier ++ [record]) ∧
      next.findings = indexed.findings ++ (rejection intOfText source earlier record).toList := by
  rw [indexRecord, rejection]
  cases read : idOf intOfText record with
  | error raised =>
      have caughtOne : caught raised = true := by
        cases raised with
        | overflowError => exact absurd read finite
        | _ => rfl
      dsimp only
      rw [if_pos caughtOne]
      refine ⟨_, rfl, covers.append_known ?_, rfl⟩
      intro id _ other
      rw [read] at other
      cases other
  | ok id =>
      dsimp only
      by_cases small : id ≤ 0
      · rw [if_pos small, if_pos small]
        refine ⟨_, rfl, covers.append_known ?_, rfl⟩
        intro other positive same
        rw [read] at same
        have equal := Except.ok.inj same
        omega
      · rw [if_neg small, if_neg small, any_eq_isSome covers (not_le.mp small)]
        by_cases known : (indexed.byId.find? id).isSome = true
        · rw [if_pos known, if_pos known]
          refine ⟨_, rfl, covers.append_known ?_, rfl⟩
          intro other _ same
          rw [read] at same
          rw [← Except.ok.inj same]
          exact (covers.present id).mp known
        · rw [if_neg known, if_neg known]
          exact ⟨_, rfl, covers.append_new (not_le.mp small) read, by simp⟩

theorem index_covers (source : String) {records : List Record}
    (finite : ∀ record ∈ records, idOf intOfText record ≠ .error .overflowError)
    {indexed : Indexed} {earlier : List Record}
    (covers : Covers intOfText indexed.byId earlier) :
    ∃ next, records.foldlM (indexRecord intOfText source) indexed = .ok next ∧
      Covers intOfText next.byId (earlier ++ records) ∧
      next.findings = indexed.findings ++ rejections intOfText source earlier records := by
  induction records generalizing indexed earlier with
  | nil => exact ⟨indexed, rfl, by rwa [List.append_nil], (List.append_nil _).symm⟩
  | cons record rest ih =>
      rcases List.forall_mem_cons.mp finite with ⟨first, others⟩
      rcases indexRecord_covers source covers first with ⟨next, stepped, held, found⟩
      rcases ih others held with ⟨last, folded, all, listed⟩
      refine ⟨last, ?_, ?_, ?_⟩
      · rw [List.foldlM_cons, stepped]
        exact folded
      · rwa [List.append_assoc, List.singleton_append] at all
      · rw [listed, found, rejections, List.append_assoc]

theorem index_all (source : String) {records : List Record}
    (finite : ∀ record ∈ records, idOf intOfText record ≠ .error .overflowError) :
    ∃ indexed, index intOfText records source = .ok indexed ∧
      Covers intOfText indexed.byId records ∧
      indexed.findings = rejections intOfText source [] records := by
  have none : Covers intOfText SortedMap.empty [] := by
    refine ⟨fun id => ?_, fun id record found => ?_⟩
    · simp [SortedMap.find?, SortedMap.empty, ValidId]
    · simp [SortedMap.find?, SortedMap.empty] at found
  have start : Covers intOfText ({} : Indexed).byId [] := none
  exact index_covers source finite start

structure Compared (id : Int) (report : Option Record) (finding : Finding) : Prop where
  own : finding.clientOrderId = some id
  state : finding.state ∈ [.matched, .quantityMismatch, .priceMismatch, .missingVenue]
  missing : finding.state = .missingVenue ↔ report = none

theorem compareOrder_compared (id : Int) {order : Record} {report : Option Record}
    (ordered : Convertible intOfText order)
    (reported : ∀ held, report = some held → Convertible intOfText held) :
    ∃ finding, compareOrder intOfText id order report = .ok finding ∧
      Compared id report finding := by
  cases report with
  | none => exact ⟨_, rfl, rfl, by simp, by simp⟩
  | some held =>
      rcases reported held rfl with ⟨-, ⟨filled, filledOk⟩, ⟨average, averageOk⟩⟩
      rcases ordered with ⟨-, ⟨executed, executedOk⟩, ⟨price, priceOk⟩⟩
      have computed : compareOrder intOfText id order (some held) =
          if filled < executed then
            .ok ⟨some id, .quantityMismatch, "venue_quantity_below_local"⟩
          else if price ≠ 0 ∧ average ≠ price then
            .ok ⟨some id, .priceMismatch, "average_price_differs"⟩
          else .ok ⟨some id, .matched, "matched"⟩ := by
        rw [compareOrder, filledOk, executedOk, priceOk, averageOk, ite_and]
        rfl
      rw [computed]
      split
      · exact ⟨_, rfl, rfl, by simp, by simp⟩
      · split <;> exact ⟨_, rfl, rfl, by simp, by simp⟩

def AllCompared (entries : List (Int × Record)) (venueById : SortedMap ById Record)
    (compared : List Finding) : Prop :=
  List.Forall₂ (fun entry finding => Compared entry.1 (venueById.find? entry.1) finding) entries
    compared

theorem compared_keys {entries : List (Int × Record)} {venueById : SortedMap ById Record}
    {compared : List Finding} (all : AllCompared entries venueById compared) :
    compared.map Finding.clientOrderId = (entries.map Prod.fst).map some := by
  induction all with
  | nil => rfl
  | cons comparison _ ih =>
      rw [List.map_cons, comparison.own, ih, List.map_cons, List.map_cons]

def unrecorded (localById venueById : SortedMap ById Record) : List Int :=
  (venueById.entries.map Prod.fst).filter fun id => (localById.find? id).isNone

section Keys

variable {locals venue : List Record} {localById venueById : SortedMap ById Record}
  {compared : List Finding}

theorem mem_keys (covers : Covers intOfText localById locals) {id : Int} :
    id ∈ localById.entries.map Prod.fst ↔ ValidId intOfText locals id :=
  localById.mem_keys_iff.trans (covers.present id)

theorem mem_unrecorded (localHeld : Covers intOfText localById locals)
    (venueHeld : Covers intOfText venueById venue) {id : Int} :
    id ∈ unrecorded localById venueById ↔
      ValidId intOfText venue id ∧ ¬ ValidId intOfText locals id := by
  rw [unrecorded, List.mem_filter, mem_keys venueHeld, ← localHeld.present,
    Option.not_isSome_iff_eq_none, Option.isNone_iff_eq_none]

theorem finding_keys (all : AllCompared localById.entries venueById compared) :
    (compared ++ (unrecorded localById venueById).map missingLocal).map Finding.clientOrderId =
      (localById.entries.map Prod.fst ++ unrecorded localById venueById).map some := by
  rw [List.map_append, compared_keys all, List.map_append]
  exact congrArg (_ ++ ·) List.map_map

theorem finding_cases (localHeld : Covers intOfText localById locals)
    (all : AllCompared localById.entries venueById compared) {finding : Finding}
    (member : finding ∈ compared ++ (unrecorded localById venueById).map missingLocal) :
    (∃ id, ValidId intOfText locals id ∧ Compared id (venueById.find? id) finding) ∨
      ∃ id ∈ unrecorded localById venueById, finding = missingLocal id := by
  rcases List.mem_append.mp member with recorded | new
  · rcases Fallible.forall₂_right all recorded with ⟨entry, among, comparison⟩
    exact Or.inl ⟨entry.1, (mem_keys localHeld).mp (List.mem_map_of_mem among), comparison⟩
  · rcases List.mem_map.mp new with ⟨id, among, rfl⟩
    exact Or.inr ⟨id, among, rfl⟩

theorem accounts_of (localHeld : Covers intOfText localById locals)
    (venueHeld : Covers intOfText venueById venue)
    (all : AllCompared localById.entries venueById compared) :
    Accounts intOfText locals venue
      (compared ++ (unrecorded localById venueById).map missingLocal) := by
  constructor
  case distinct =>
    rw [finding_keys all]
    refine List.Nodup.map (Option.some_injective Int) (List.nodup_append.mpr ⟨?_, ?_, ?_⟩)
    · exact localById.keys_nodup
    · exact venueById.keys_nodup.filter _
    · intro first known second new same
      rw [same] at known
      exact ((mem_unrecorded localHeld venueHeld).mp new).2 ((mem_keys localHeld).mp known)
  case ids =>
    intro id
    rw [finding_keys all, List.mem_map]
    constructor
    · rintro ⟨valid, member, rfl⟩
      refine ⟨valid, rfl, ?_⟩
      rcases List.mem_append.mp member with known | new
      · exact Or.inl ((mem_keys localHeld).mp known)
      · exact Or.inr ((mem_unrecorded localHeld venueHeld).mp new).1
    · rintro ⟨valid, rfl, either⟩
      refine ⟨valid, List.mem_append.mpr ?_, rfl⟩
      by_cases known : ValidId intOfText locals valid
      · exact Or.inl ((mem_keys localHeld).mpr known)
      · exact Or.inr ((mem_unrecorded localHeld venueHeld).mpr ⟨either.resolve_left known, known⟩)
  case states =>
    intro finding member
    rcases finding_cases localHeld all member with ⟨id, -, comparison⟩ | ⟨id, -, rfl⟩
    · exact List.mem_append_left [.missingLocal] comparison.state
    · simp [missingLocal]
  case missingVenue =>
    intro finding member id own
    rcases finding_cases localHeld all member with ⟨other, known, comparison⟩ | ⟨other, new, rfl⟩
    · have same : other = id := Option.some.inj (comparison.own.symm.trans own)
      subst same
      rw [comparison.missing, ← venueHeld.present, Option.not_isSome_iff_eq_none]
      exact (and_iff_right known).symm
    · have same : other = id := Option.some.inj own
      subst same
      exact ⟨fun state => (by cases state), fun both =>
        absurd both.1 ((mem_unrecorded localHeld venueHeld).mp new).2⟩
  case missingLocal =>
    intro finding member id own
    rcases finding_cases localHeld all member with ⟨other, known, comparison⟩ | ⟨other, new, rfl⟩
    · have same : other = id := Option.some.inj (comparison.own.symm.trans own)
      subst same
      refine ⟨fun state => ?_, fun both => absurd known both.2⟩
      have listed := comparison.state
      rw [state] at listed
      simp at listed
    · have same : other = id := Option.some.inj own
      subst same
      exact ⟨fun _ => (mem_unrecorded localHeld venueHeld).mp new, fun _ => rfl⟩

end Keys

/-- The findings are the rejected records of both lists in their order, and one finding for
every valid id of either list. -/
theorem compare_accounts {locals venue : List Record}
    (convertible : ∀ record ∈ locals ++ venue, Convertible intOfText record) :
    ∃ findings, compare intOfText locals venue =
        .ok (rejections intOfText "local" [] locals ++ rejections intOfText "venue" [] venue ++
          findings) ∧
      Accounts intOfText locals venue findings := by
  rcases index_all "local" (fun record member =>
    (convertible record (List.mem_append_left _ member)).finite) with
    ⟨localIndex, localRead, localHeld, localListed⟩
  rcases index_all "venue" (fun record member =>
    (convertible record (List.mem_append_right _ member)).finite) with
    ⟨venueIndex, venueRead, venueHeld, venueListed⟩
  have each : ∀ entry ∈ localIndex.byId.entries, ∃ finding,
      compareOrder intOfText entry.1 entry.2 (venueIndex.byId.find? entry.1) = .ok finding ∧
        Compared entry.1 (venueIndex.byId.find? entry.1) finding := by
    intro entry member
    have found := (SortedMap.find?_eq_some localIndex.byId).mpr member
    refine compareOrder_compared entry.1
      (convertible _ (List.mem_append_left _ (localHeld.among _ _ found))) fun held reported => ?_
    exact convertible _ (List.mem_append_right _ (venueHeld.among _ _ reported))
  rcases Fallible.mapM_forall₂ each with ⟨compared, computed, all⟩
  refine ⟨compared ++ (unrecorded localIndex.byId venueIndex.byId).map missingLocal, ?_, ?_⟩
  · have indexed : compare intOfText locals venue =
        (localIndex.byId.entries.mapM fun entry =>
          compareOrder intOfText entry.1 entry.2 (venueIndex.byId.find? entry.1)) >>=
          fun compared => .ok (localIndex.findings ++ venueIndex.findings ++ compared ++
            (venueIndex.byId.entries.filter fun entry =>
              (localIndex.byId.find? entry.1).isNone).map fun entry => missingLocal entry.1) := by
      rw [compare, localRead, venueRead]
      rfl
    rw [indexed, computed, localListed, venueListed, ← List.append_assoc, unrecorded,
      List.filter_map, List.map_map]
    rfl
  · exact accounts_of localHeld venueHeld all

end

def recordOf (id : Json) (executedQuantity : Int) : Record :=
  [(Json.codes "client_order_id".toList, id),
    (Json.codes "executed_quantity".toList, .int executedQuantity)]

theorem compare_accounts_test :
    ∃ findings, Accounts PythonText.intOfText
        [recordOf (.int 1) 10, recordOf (.int 1) 0, recordOf (.str [98, 97, 100]) 0]
        [recordOf (.int 1) 5, recordOf (.float 2) 7] findings ∧
      findings = [⟨some 1, .quantityMismatch, "venue_quantity_below_local"⟩, missingLocal 2] := by
  have convertible : ∀ record ∈ [recordOf (.int 1) 10, recordOf (.int 1) 0,
      recordOf (.str [98, 97, 100]) 0] ++ [recordOf (.int 1) 5, recordOf (.float 2) 7],
      Convertible PythonText.intOfText record := by
    simp only [List.cons_append, List.nil_append, List.forall_mem_cons]
    refine ⟨⟨?_, ⟨_, rfl⟩, ⟨_, rfl⟩⟩, ⟨?_, ⟨_, rfl⟩, ⟨_, rfl⟩⟩, ⟨?_, ⟨_, rfl⟩, ⟨_, rfl⟩⟩,
      ⟨?_, ⟨_, rfl⟩, ⟨_, rfl⟩⟩, ⟨?_, ⟨_, rfl⟩, ⟨_, rfl⟩⟩, by simp⟩
    all_goals decide +kernel
  rcases compare_accounts convertible with ⟨findings, compared, accounts⟩
  refine ⟨findings, accounts, ?_⟩
  have computed : (compare PythonText.intOfText
      [recordOf (.int 1) 10, recordOf (.int 1) 0, recordOf (.str [98, 97, 100]) 0]
      [recordOf (.int 1) 5, recordOf (.float 2) 7]).toOption =
      some [⟨some 1, .duplicateRecord, "duplicate_local_client_order_id"⟩,
        ⟨none, .invalidRecord, "local_client_order_id_invalid"⟩,
        ⟨some 1, .quantityMismatch, "venue_quantity_below_local"⟩, missingLocal 2] := by
    decide +kernel
  rw [compared] at computed
  exact List.append_cancel_left (Option.some.inj computed)

end Ito.RecordReconcile
