import Ito.Library.JsonDumps
import Ito.RegisterMap

/-! The failover drill, which reads what the reconciliation of the orders has printed.

Source: `drill` and `main` of `python/operations/failover_drill.py`, and `main` of
`python/reconciliation/reconcile.py`. -/

namespace Ito.Failover

open RecordReconcile
open Replay (LoadError item)
open RegisterMap (Python codes strField)

inductive Error where
  | raised (error : LoadError)
  | attributeError
  deriving DecidableEq, Repr

def lift {A : Type} : Except LoadError A → Except Error A
  | .ok value => .ok value
  | .error error => .error (.raised error)

/-! The report of the reconciliation -/

def stateText : State → String
  | .invalidRecord => "invalid_record"
  | .duplicateRecord => "duplicate_record"
  | .missingVenue => "missing_venue"
  | .quantityMismatch => "quantity_mismatch"
  | .priceMismatch => "price_mismatch"
  | .matched => "matched"
  | .missingLocal => "missing_local"

def findingJson (finding : Finding) : Json :=
  .obj [(codes "client_order_id", finding.clientOrderId.elim .null .int),
    (codes "detail", .str (codes finding.detail)),
    (codes "state", .str (codes (stateText finding.state)))]

def reportJson (findings : List Finding) : Json :=
  .obj [(codes "ambiguous", .bool (findings.any fun finding => finding.state ≠ .matched)),
    (codes "findings", .arr (findings.map findingJson))]

/-- What `main` of the reconciliation prints. -/
def reconcileMain (intOfText : List Nat → Option Int) (float : ℚ → List Char)
    (locals venue : List Record) : Except LoadError (List Char) := do
  let findings ← compare intOfText locals venue
  return Json.dumps (.indented 2 float) (reportJson findings) ++ ['\n']

/-! The drill -/

structure Decision where
  previousOwner : List Nat
  previousEpoch : Int
  expired : Bool
  ambiguous : Bool
  promoted : Bool
  action : String
  deriving DecidableEq, Repr

/-- `item.get("state") != "matched"`. -/
def unmatched (found : Record) : Bool :=
  match Json.get? "state" found with
  | some (.str text) => text ≠ codes "matched"
  | _ => true

/-- `any` stops at the first finding that is not matched. -/
def anyUnmatched : List Json → Except Error Bool
  | [] => .ok false
  | .obj found :: items => if unmatched found then .ok true else anyUnmatched items
  | _ :: _ => .error .attributeError

/-- What `any` iterates over is a list, or the keys of a dictionary, or the letters of a text. -/
def ambiguousOf : Json → Except Error Bool
  | .arr items => anyUnmatched items
  | .obj [] => .ok false
  | .str [] => .ok false
  | .obj _ => .error .attributeError
  | .str _ => .error .attributeError
  | _ => .error (.raised .typeError)

def drill (python : Python) (lease findings : Json) : Except Error Decision :=
  match lease with
  | .obj lease => do
      let owner := strField python lease "owner_id"
      let epoch ← lift (intField python.intOfText lease "epoch")
      let expiresAtNs ← lift (intField python.intOfText lease "expires_at_ns")
      let nowNs ← lift (intField python.intOfText lease "now_ns")
      let expired : Bool := expiresAtNs ≤ nowNs
      let ambiguous ← ambiguousOf findings
      let promoted := owner ≠ [] && 0 < epoch && !expired && !ambiguous
      return {
        previousOwner := owner
        previousEpoch := epoch
        expired := expired
        ambiguous := ambiguous
        promoted := promoted
        action := if promoted then "promote_standby" else "hold_and_escalate" }
  | _ => .error .attributeError

def load (text : List Char) : Except LoadError Json :=
  match Json.loads text with
  | some value => .ok value
  | none => .error .jsonDecode

/-- The decision that `main` of the drill prints. -/
def drillMain (python : Python) (leaseText findingsText : List Char) : Except Error Decision := do
  let lease ← lift (load leaseText)
  let findings ← lift ((load findingsText).bind fun report => item report "findings")
  drill python lease findings

/-! What the drill reads is what was printed -/

theorem canonical_reportJson (findings : List Finding) : Json.Canonical (reportJson findings) := by
  refine .of_keys [codes "ambiguous", codes "findings"] rfl (by decide +kernel) ?_
  simp only [List.forall_mem_cons, List.not_mem_nil, false_implies, implies_true, and_true]
  refine ⟨.bool _, .arr (List.forall_mem_map.mpr fun finding _ => ?_)⟩
  refine .of_keys [codes "client_order_id", codes "detail", codes "state"] rfl
    (by decide +kernel) ?_
  simp only [List.forall_mem_cons, List.not_mem_nil, false_implies, implies_true, and_true]
  refine ⟨?_, .str _, .str _⟩
  cases finding.clientOrderId with
  | none => exact .null
  | some id => exact .int id

theorem printable_reportJson (style : Json.Style) (findings : List Finding) :
    Json.Printable style (reportJson findings) := by
  have whole (text : String) : Json.Whole (codes text) := Json.whole_codes text.toList
  refine .obj (by simp [whole]) ?_
  simp only [List.forall_mem_cons, List.not_mem_nil, false_implies, implies_true, and_true]
  refine ⟨.bool _, .arr (List.forall_mem_map.mpr fun finding _ => ?_)⟩
  refine .obj (by simp [whole]) ?_
  simp only [List.forall_mem_cons, List.not_mem_nil, false_implies, implies_true, and_true]
  refine ⟨?_, .str (whole _), .str (whole _)⟩
  cases finding.clientOrderId with
  | none => exact .null
  | some id => exact .int id

theorem unmatched_finding (finding : Finding) :
    anyUnmatched [findingJson finding] = .ok (decide (finding.state ≠ .matched)) := by
  have same : Json.get? "state" [(codes "client_order_id",
      finding.clientOrderId.elim Json.null Json.int), (codes "detail", .str (codes finding.detail)),
      (codes "state", .str (codes (stateText finding.state)))] =
        some (.str (codes (stateText finding.state))) := rfl
  rw [findingJson, anyUnmatched, unmatched, same]
  cases finding.state <;> rfl

theorem ambiguousOf_findings (findings : List Finding) :
    ambiguousOf (.arr (findings.map findingJson)) =
      .ok (findings.any fun finding => finding.state ≠ .matched) := by
  rw [ambiguousOf]
  induction findings with
  | nil => rfl
  | cons finding findings ih =>
      have first := unmatched_finding finding
      rw [findingJson, anyUnmatched] at first
      rw [List.map_cons, findingJson, anyUnmatched, ih, List.any_cons]
      split at first
      · rw [if_pos ‹_›, ← Except.ok.inj first, Bool.true_or]
      · rw [if_neg ‹_›]
        have matched : decide (finding.state ≠ .matched) = false := (Except.ok.inj first).symm
        rw [matched, Bool.false_or]

theorem load_report (float : ℚ → List Char) (findings : List Finding) :
    (load (Json.dumps (.indented 2 float) (reportJson findings) ++ ['\n'])).bind
        (fun report => item report "findings") = .ok (.arr (findings.map findingJson)) := by
  have read := Json.loads_dumps (printable_reportJson (.indented 2 float) findings)
    (List.forall_mem_singleton.mpr (rfl : Json.isBlank '\n' = true))
  rw [load, read, Json.canonical_eq (canonical_reportJson findings)]
  rfl

/-! When everything matches -/

section

variable (intOfText : List Nat → Option Int)

/-- The venue has executed what is on record, or more, at the price on record, if there is one. -/
def Agrees (order report : Record) : Prop :=
  ∃ executed filled price average,
    intField intOfText order "executed_quantity" = .ok executed ∧
    intField intOfText report "executed_quantity" = .ok filled ∧
    intField intOfText order "average_price_ticks" = .ok price ∧
    intField intOfText report "average_price_ticks" = .ok average ∧
    executed ≤ filled ∧ (price = 0 ∨ average = price)

def HasId (records : List Record) (id : Int) : Prop :=
  ∃ record ∈ records, idOf intOfText record = .ok id

/-- Both sides list the same orders, each once, and agree on each. -/
structure Settled (locals venue : List Record) : Prop where
  identified : ∀ record ∈ locals ++ venue, ∃ id, 0 < id ∧ idOf intOfText record = .ok id
  localOnce : (locals.map (idOf intOfText)).Nodup
  venueOnce : (venue.map (idOf intOfText)).Nodup
  same : ∀ id, HasId intOfText locals id ↔ HasId intOfText venue id
  agree : ∀ order ∈ locals, ∀ report ∈ venue,
    idOf intOfText order = idOf intOfText report → Agrees intOfText order report

def Keyed (byId : SortedMap ById Record) : Prop :=
  ∀ id record, byId.find? id = some record → idOf intOfText record = .ok id

variable {intOfText}

theorem indexRecord_keyed {source : String} {indexed next : Indexed} {record : Record}
    (keyed : Keyed intOfText indexed.byId)
    (stepped : indexRecord intOfText source indexed record = .ok next) :
    Keyed intOfText next.byId := by
  rw [indexRecord] at stepped
  cases read : idOf intOfText record with
  | error raised =>
      rw [read] at stepped
      dsimp only at stepped
      split at stepped
      · rw [← Except.ok.inj stepped]
        exact keyed
      · cases stepped
  | ok id =>
      rw [read] at stepped
      dsimp only at stepped
      split at stepped
      · rw [← Except.ok.inj stepped]
        exact keyed
      · split at stepped
        · rw [← Except.ok.inj stepped]
          exact keyed
        · rw [← Except.ok.inj stepped]
          intro other held found
          rw [SortedMap.find?_set] at found
          split at found
          case isTrue same => rw [← Option.some.inj found, read, same]
          case isFalse => exact keyed other held found

theorem index_keyed {source : String} {records : List Record} {indexed next : Indexed}
    (keyed : Keyed intOfText indexed.byId)
    (folded : records.foldlM (indexRecord intOfText source) indexed = .ok next) :
    Keyed intOfText next.byId := by
  induction records generalizing indexed with
  | nil =>
      rw [List.foldlM_nil] at folded
      rw [← Except.ok.inj folded]
      exact keyed
  | cons record records ih =>
      rw [List.foldlM_cons] at folded
      rcases Fallible.bind_eq_ok.mp folded with ⟨middle, stepped, rest⟩
      exact ih (indexRecord_keyed keyed stepped) rest

theorem rejection_eq_none {source : String} {earlier : List Record} {record : Record} :
    rejection intOfText source earlier record = none ↔
      ∃ id, 0 < id ∧ idOf intOfText record = .ok id ∧ ¬ HasId intOfText earlier id := by
  rw [rejection]
  cases read : idOf intOfText record with
  | error raised => simp
  | ok id =>
      have known : (earlier.any fun other => (idOf intOfText other).toOption = some id) = true ↔
          HasId intOfText earlier id := by
        rw [List.any_eq_true]
        refine exists_congr fun other => and_congr_right fun _ => ?_
        cases idOf intOfText other <;> simp [Except.toOption]
      simp only [Except.ok.injEq, exists_eq_left', and_left_comm, ← known]
      by_cases small : id ≤ 0
      · simp [small, not_lt.mpr small]
      · simp [small, not_le.mp small]

theorem rejections_eq_nil {source : String} {earlier records : List Record} :
    rejections intOfText source earlier records = [] ↔
      (∀ record ∈ records, ∃ id, 0 < id ∧ idOf intOfText record = .ok id ∧
        ¬ HasId intOfText earlier id) ∧ (records.map (idOf intOfText)).Nodup := by
  induction records generalizing earlier with
  | nil => simp [rejections]
  | cons record records ih =>
      have has (id : Int) : HasId intOfText (earlier ++ [record]) id ↔
          HasId intOfText earlier id ∨ idOf intOfText record = .ok id := by
        simp [HasId, or_and_right, exists_or]
      rw [rejections, List.append_eq_nil_iff, Option.toList_eq_nil_iff, rejection_eq_none, ih,
        List.forall_mem_cons, List.map_cons, List.nodup_cons]
      constructor
      · rintro ⟨first, others, distinct⟩
        refine ⟨⟨first, fun other member => ?_⟩, ?_, distinct⟩
        · rcases others other member with ⟨id, positive, read, fresh⟩
          exact ⟨id, positive, read, fun known => fresh ((has id).mpr (Or.inl known))⟩
        · intro again
          rcases List.mem_map.mp again with ⟨other, member, same⟩
          rcases others other member with ⟨id, -, read, fresh⟩
          exact fresh ((has id).mpr (Or.inr (same.symm.trans read)))
      · rintro ⟨⟨first, others⟩, alone, distinct⟩
        refine ⟨first, fun other member => ?_, distinct⟩
        rcases others other member with ⟨id, positive, read, fresh⟩
        refine ⟨id, positive, read, fun known => ?_⟩
        rcases (has id).mp known with before | now
        · exact fresh before
        · exact alone (List.mem_map.mpr ⟨other, member, read.trans now.symm⟩)

theorem compareOrder_matched (id : Int) {order : Record} {report : Option Record}
    (ordered : Convertible intOfText order)
    (reported : ∀ held, report = some held → Convertible intOfText held) :
    ∃ finding, compareOrder intOfText id order report = .ok finding ∧
      (finding.state = .matched ↔ ∃ held, report = some held ∧ Agrees intOfText order held) := by
  cases report with
  | none => exact ⟨_, rfl, by simp⟩
  | some held =>
      rcases reported held rfl with ⟨-, ⟨filled, filledOk⟩, ⟨average, averageOk⟩⟩
      rcases ordered with ⟨-, ⟨executed, executedOk⟩, ⟨price, priceOk⟩⟩
      have agrees : Agrees intOfText order held ↔
          executed ≤ filled ∧ (price = 0 ∨ average = price) := by
        simp [Agrees, filledOk, averageOk, executedOk, priceOk]
      simp only [Option.some.injEq, exists_eq_left', agrees]
      have computed : compareOrder intOfText id order (some held) =
          if filled < executed then
            .ok ⟨some id, .quantityMismatch, "venue_quantity_below_local"⟩
          else if price ≠ 0 ∧ average ≠ price then
            .ok ⟨some id, .priceMismatch, "average_price_differs"⟩
          else .ok ⟨some id, .matched, "matched"⟩ := by
        rw [compareOrder, filledOk, executedOk, priceOk, averageOk, ite_and]
        rfl
      rw [computed]
      by_cases below : filled < executed
      · rw [if_pos below]
        refine ⟨_, rfl, ?_⟩
        simp only [reduceCtorEq, false_iff]
        omega
      · rw [if_neg below]
        by_cases differs : price ≠ 0 ∧ average ≠ price
        · rw [if_pos differs]
          refine ⟨_, rfl, ?_⟩
          simp only [reduceCtorEq, false_iff]
          tauto
        · rw [if_neg differs]
          refine ⟨_, rfl, ?_⟩
          simp only [true_iff]
          exact ⟨not_lt.mp below, by tauto⟩

/-- The findings are those of rejected records, one of each order on record, and one of each order
that the venue alone has. -/
theorem compare_findings {locals venue : List Record}
    (convertible : ∀ record ∈ locals ++ venue, Convertible intOfText record) :
    ∃ localById venueById compared,
      (Covers intOfText localById locals ∧ Keyed intOfText localById) ∧
      (Covers intOfText venueById venue ∧ Keyed intOfText venueById) ∧
      compare intOfText locals venue =
        .ok (rejections intOfText "local" [] locals ++ rejections intOfText "venue" [] venue ++
          compared ++ (unrecorded localById venueById).map missingLocal) ∧
      List.Forall₂ (fun entry finding => finding.state = .matched ↔
        ∃ report, venueById.find? entry.1 = some report ∧ Agrees intOfText entry.2 report)
        localById.entries compared := by
  rcases index_all "local" (fun record member =>
    (convertible record (List.mem_append_left _ member)).finite) with
    ⟨localIndex, localRead, localHeld, localListed⟩
  rcases index_all "venue" (fun record member =>
    (convertible record (List.mem_append_right _ member)).finite) with
    ⟨venueIndex, venueRead, venueHeld, venueListed⟩
  have empty : Keyed intOfText ({} : Indexed).byId := by
    intro id record found
    cases found
  have each : ∀ entry ∈ localIndex.byId.entries, ∃ finding,
      compareOrder intOfText entry.1 entry.2 (venueIndex.byId.find? entry.1) = .ok finding ∧
        (finding.state = .matched ↔ ∃ report, venueIndex.byId.find? entry.1 = some report ∧
          Agrees intOfText entry.2 report) := by
    intro entry member
    have found := (SortedMap.find?_eq_some localIndex.byId).mpr member
    refine compareOrder_matched entry.1
      (convertible _ (List.mem_append_left _ (localHeld.among _ _ found))) fun held reported => ?_
    exact convertible _ (List.mem_append_right _ (venueHeld.among _ _ reported))
  rcases Fallible.mapM_forall₂ each with ⟨compared, computed, all⟩
  refine ⟨localIndex.byId, venueIndex.byId, compared, ⟨localHeld, index_keyed empty localRead⟩,
    ⟨venueHeld, index_keyed empty venueRead⟩, ?_, all⟩
  rw [RecordReconcile.compare, localRead, venueRead]
  simp only [Bind.bind, Except.bind, computed, localListed, venueListed, unrecorded,
    List.filter_map, List.map_map]
  rfl

theorem eq_of_found {records : List Record} {byId : SortedMap ById Record}
    (held : Covers intOfText byId records ∧ Keyed intOfText byId)
    (once : (records.map (idOf intOfText)).Nodup) {id : Int} {record found : Record}
    (member : record ∈ records) (read : idOf intOfText record = .ok id)
    (stored : byId.find? id = some found) : record = found := by
  have same : idOf intOfText record = idOf intOfText found :=
    read.trans (held.2 id found stored).symm
  exact List.inj_on_of_nodup_map once member (held.1.among id found stored) same

theorem settled_iff {locals venue : List Record} {localById venueById : SortedMap ById Record}
    {compared : List Finding}
    (localHeld : Covers intOfText localById locals ∧ Keyed intOfText localById)
    (venueHeld : Covers intOfText venueById venue ∧ Keyed intOfText venueById)
    (all : List.Forall₂ (fun entry finding => finding.state = .matched ↔
      ∃ report, venueById.find? entry.1 = some report ∧ Agrees intOfText entry.2 report)
      localById.entries compared) :
    Settled intOfText locals venue ↔
      rejections intOfText "local" [] locals = [] ∧ rejections intOfText "venue" [] venue = [] ∧
        (∀ finding ∈ compared, finding.state = .matched) ∧
        unrecorded localById venueById = [] := by
  have valid {records : List Record} {id : Int} (positive : 0 < id) :
      ValidId intOfText records id ↔ HasId intOfText records id := and_iff_right positive
  have matchedIff : (∀ finding ∈ compared, finding.state = .matched) ↔
      ∀ id order, localById.find? id = some order →
        ∃ report, venueById.find? id = some report ∧ Agrees intOfText order report := by
    constructor
    · intro matched id order found
      have member := (SortedMap.find?_eq_some localById).mp found
      rcases Fallible.forall₂_right all.flip member with ⟨finding, among, state⟩
      exact state.mp (matched finding among)
    · intro agreed finding member
      rcases Fallible.forall₂_right all member with ⟨entry, among, state⟩
      exact state.mpr (agreed entry.1 entry.2 ((SortedMap.find?_eq_some localById).mpr among))
  rw [matchedIff, rejections_eq_nil, rejections_eq_nil]
  constructor
  · intro settled
    have positive {records : List Record} (part : ∀ record ∈ records, record ∈ locals ++ venue)
        {id : Int} (has : HasId intOfText records id) : 0 < id := by
      rcases has with ⟨record, member, read⟩
      rcases settled.identified record (part record member) with ⟨other, positive, same⟩
      rw [read] at same
      exact Except.ok.inj same ▸ positive
    have none (id : Int) : ¬ HasId intOfText [] id := by simp [HasId]
    refine ⟨⟨fun record member => ?_, settled.localOnce⟩,
      ⟨fun record member => ?_, settled.venueOnce⟩, fun id order found => ?_, ?_⟩
    · rcases settled.identified record (List.mem_append_left _ member) with ⟨id, above, read⟩
      exact ⟨id, above, read, none id⟩
    · rcases settled.identified record (List.mem_append_right _ member) with ⟨id, above, read⟩
      exact ⟨id, above, read, none id⟩
    · have member := localHeld.1.among id order found
      have read := localHeld.2 id order found
      have there := (settled.same id).mp ⟨order, member, read⟩
      have above := positive (fun record => List.mem_append_right locals) there
      rcases Option.isSome_iff_exists.mp ((venueHeld.1.present id).mpr ((valid above).mpr there))
        with ⟨report, stored⟩
      refine ⟨report, stored, settled.agree order member report (venueHeld.1.among id report stored)
        (read.trans (venueHeld.2 id report stored).symm)⟩
    · rw [List.eq_nil_iff_forall_not_mem]
      intro id member
      rcases (mem_unrecorded localHeld.1 venueHeld.1).mp member with ⟨there, absent⟩
      exact absent ⟨there.1, (settled.same id).mpr there.2⟩
  · rintro ⟨⟨localIds, localOnce⟩, ⟨venueIds, venueOnce⟩, agreed, recorded⟩
    have localValid {record : Record} (member : record ∈ locals) {id : Int}
        (read : idOf intOfText record = .ok id) : ∃ order, localById.find? id = some order := by
      rcases localIds record member with ⟨other, above, same, -⟩
      rw [read] at same
      rw [← Except.ok.inj same] at above
      exact Option.isSome_iff_exists.mp
        ((localHeld.1.present id).mpr ⟨above, record, member, read⟩)
    refine ⟨fun record member => ?_, localOnce, venueOnce, fun id => ⟨?_, ?_⟩, ?_⟩
    · rcases List.mem_append.mp member with here | there
      · rcases localIds record here with ⟨id, above, read, -⟩
        exact ⟨id, above, read⟩
      · rcases venueIds record there with ⟨id, above, read, -⟩
        exact ⟨id, above, read⟩
    · rintro ⟨record, member, read⟩
      rcases localValid member read with ⟨order, found⟩
      rcases agreed id order found with ⟨report, stored, -⟩
      exact ⟨report, venueHeld.1.among id report stored, venueHeld.2 id report stored⟩
    · rintro ⟨record, member, read⟩
      rcases venueIds record member with ⟨other, above, same, -⟩
      rw [read] at same
      rw [← Except.ok.inj same] at above
      by_contra absent
      have unrecordedOne : id ∈ unrecorded localById venueById :=
        (mem_unrecorded localHeld.1 venueHeld.1).mpr
          ⟨⟨above, record, member, read⟩, fun known => absent known.2⟩
      rw [recorded] at unrecordedOne
      cases unrecordedOne
    · intro order member report among same
      rcases localIds order member with ⟨id, above, read, -⟩
      rcases localValid member read with ⟨stored, found⟩
      rcases agreed id stored found with ⟨other, foundVenue, agrees⟩
      rw [eq_of_found localHeld localOnce member read found,
        eq_of_found venueHeld venueOnce among (same ▸ read) foundVenue]
      exact agrees

theorem rejections_unmatched {source : String} {earlier records : List Record} :
    ∀ finding ∈ rejections intOfText source earlier records, finding.state ≠ .matched := by
  induction records generalizing earlier with
  | nil => simp [rejections]
  | cons record records ih =>
      intro finding member
      rw [rejections] at member
      rcases List.mem_append.mp member with first | later
      · have turned := Option.mem_toList.mp first
        rw [rejection] at turned
        cases read : idOf intOfText record with
        | error raised =>
            rw [read] at turned
            cases turned
            exact State.noConfusion
        | ok id =>
            rw [read] at turned
            dsimp only at turned
            split at turned
            · cases turned
              exact State.noConfusion
            · split at turned
              · cases turned
                exact State.noConfusion
              · cases turned
      · exact ih finding later

theorem any_unmatched_iff {findings : List Finding}
    (never : ∀ finding ∈ findings, finding.state ≠ .matched) :
    (findings.any fun finding => finding.state ≠ .matched) = false ↔ findings = [] := by
  cases findings with
  | nil => simp
  | cons finding findings => simp [never finding List.mem_cons_self]

theorem ambiguous_iff {locals venue : List Record}
    (convertible : ∀ record ∈ locals ++ venue, Convertible intOfText record) :
    ∃ findings, compare intOfText locals venue = .ok findings ∧
      ((findings.any fun finding => finding.state ≠ .matched) = false ↔
        Settled intOfText locals venue) := by
  rcases compare_findings convertible with
    ⟨localById, venueById, compared, localHeld, venueHeld, computed, all⟩
  refine ⟨_, computed, ?_⟩
  have missing : ∀ finding ∈ (unrecorded localById venueById).map missingLocal,
      finding.state ≠ .matched := by
    intro finding member
    rcases List.mem_map.mp member with ⟨id, -, rfl⟩
    exact State.noConfusion
  rw [settled_iff localHeld venueHeld all, List.any_append, List.any_append, List.any_append,
    Bool.or_eq_false_iff, Bool.or_eq_false_iff, Bool.or_eq_false_iff,
    any_unmatched_iff rejections_unmatched, any_unmatched_iff rejections_unmatched,
    any_unmatched_iff missing, List.map_eq_nil_iff, and_assoc, and_assoc]
  simp

end

/-- The drill promotes the standby exactly when the lease names its owner, has an epoch and has not
expired, and the records that were reconciled agree on every order. -/
theorem promoted_iff (python : Python) (float : ℚ → List Char) {leaseText : List Char}
    {lease : Record} {epoch expiresAtNs nowNs : Int}
    (loaded : Json.loads leaseText = some (.obj lease))
    (epochRead : intField python.intOfText lease "epoch" = .ok epoch)
    (expiryRead : intField python.intOfText lease "expires_at_ns" = .ok expiresAtNs)
    (nowRead : intField python.intOfText lease "now_ns" = .ok nowNs) {locals venue : List Record}
    (convertible : ∀ record ∈ locals ++ venue, Convertible python.intOfText record) :
    ∃ report decision, reconcileMain python.intOfText float locals venue = .ok report ∧
      drillMain python leaseText report = .ok decision ∧
      (decision.promoted = true ↔ strField python lease "owner_id" ≠ [] ∧ 0 < epoch ∧
        nowNs < expiresAtNs ∧ Settled python.intOfText locals venue) ∧
      (decision.action = "promote_standby" ↔ decision.promoted = true) := by
  rcases ambiguous_iff convertible with ⟨findings, compared, settled⟩
  have printed : reconcileMain python.intOfText float locals venue =
      .ok (Json.dumps (.indented 2 float) (reportJson findings) ++ ['\n']) := by
    rw [reconcileMain, compared]
    rfl
  have decided := ambiguousOf_findings findings
  have read := load_report float findings
  have opened : load leaseText = .ok (.obj lease) := by
    rw [load, loaded]
  let ambiguous := findings.any fun finding => finding.state ≠ .matched
  let promoted := strField python lease "owner_id" ≠ [] && 0 < epoch &&
    !decide (expiresAtNs ≤ nowNs) && !ambiguous
  let action := if promoted then "promote_standby" else "hold_and_escalate"
  refine ⟨_, ⟨strField python lease "owner_id", epoch, expiresAtNs ≤ nowNs, ambiguous, promoted,
    action⟩, printed, ?_, ?_, ?_⟩
  · rw [drillMain, opened, read]
    simp only [drill, lift, Bind.bind, Except.bind, epochRead, expiryRead, nowRead, decided]
    rfl
  · have clear : (!ambiguous) = true ↔ Settled python.intOfText locals venue := by
      rw [← settled, Bool.not_eq_true']
    change promoted = true ↔ _
    simp only [promoted, Bool.and_eq_true, clear, Bool.not_eq_true', decide_eq_false_iff_not,
      decide_eq_true_eq, not_le, and_assoc]
  · change action = _ ↔ promoted = true
    rw [show action = if promoted then "promote_standby" else "hold_and_escalate" from rfl]
    cases promoted <;> simp

def liveLease : Record :=
  [(codes "epoch", .int 3), (codes "expires_at_ns", .int 20), (codes "now_ns", .int 10),
    (codes "owner_id", .str (codes "node-a"))]

def liveLeaseText : List Char := Json.dumps (.compact fun _ => []) (.obj liveLease)

theorem load_liveLease : Json.loads liveLeaseText = some (.obj liveLease) := by
  have canonical : Json.Canonical (.obj liveLease) := by
    refine .of_keys [codes "epoch", codes "expires_at_ns", codes "now_ns", codes "owner_id"] rfl
      (by decide +kernel) ?_
    simp only [liveLease, List.forall_mem_cons, List.not_mem_nil, false_implies, implies_true,
      and_true]
    exact ⟨.int 3, .int 20, .int 10, .str _⟩
  have printable : Json.Printable (.compact fun _ => []) (.obj liveLease) := by
    have whole (text : String) : Json.Whole (codes text) := Json.whole_codes text.toList
    refine .obj (by simp [liveLease, whole]) ?_
    simp only [liveLease, List.forall_mem_cons, List.not_mem_nil, false_implies, implies_true,
      and_true]
    exact ⟨.int 3, .int 20, .int 10, .str (whole _)⟩
  have read := Json.loads_dumps printable (List.forall_mem_nil _)
  rwa [List.append_nil, Json.canonical_eq canonical] at read

def executedOrder (id executedQuantity : Int) : Record :=
  [(codes "client_order_id", .int id), (codes "executed_quantity", .int executedQuantity)]

theorem executedOrder_convertible (intOfText : List Nat → Option Int) (id executedQuantity : Int) :
    Convertible intOfText (executedOrder id executedQuantity) where
  finite := by
    have read : idOf intOfText (executedOrder id executedQuantity) = .ok id := rfl
    rw [read]
    intro same
    cases same
  quantity := ⟨executedQuantity, rfl⟩
  price := ⟨0, rfl⟩

theorem promoted_iff_overfilled :
    ∃ report decision,
      reconcileMain RegisterMap.plainPython.intOfText (fun _ => [])
        [executedOrder 1 10, executedOrder 2 0] [executedOrder 2 4, executedOrder 1 10] =
          .ok report ∧
      drillMain RegisterMap.plainPython liveLeaseText report = .ok decision ∧
      decision.promoted = true := by
  have convertible : ∀ record ∈ [executedOrder 1 10, executedOrder 2 0] ++
      [executedOrder 2 4, executedOrder 1 10],
      Convertible RegisterMap.plainPython.intOfText record := by
    simp only [List.cons_append, List.nil_append, List.forall_mem_cons, executedOrder_convertible,
      List.not_mem_nil, false_implies, implies_true, and_true]
  have ids (id executed : Int) :
      idOf RegisterMap.plainPython.intOfText (executedOrder id executed) = .ok id := rfl
  have agrees {id : Int} {executed filled : Int} (enough : executed ≤ filled) :
      Agrees RegisterMap.plainPython.intOfText (executedOrder id executed)
        (executedOrder id filled) :=
    ⟨executed, filled, 0, 0, rfl, rfl, rfl, rfl, enough, Or.inl rfl⟩
  have settled : Settled RegisterMap.plainPython.intOfText
      [executedOrder 1 10, executedOrder 2 0] [executedOrder 2 4, executedOrder 1 10] := by
    constructor
    case identified => simp [ids]
    case localOnce => simp [ids]
    case venueOnce => simp [ids]
    case same => simp [HasId, ids, or_comm]
    case agree => simp [ids, agrees]
  rcases promoted_iff RegisterMap.plainPython (fun _ => []) load_liveLease
    rfl rfl rfl convertible with
    ⟨report, decision, printed, decided, promoted, -⟩
  refine ⟨report, decision, printed, decided, promoted.mpr ⟨?_, by decide, by decide, settled⟩⟩
  exact List.cons_ne_nil _ _

end Ito.Failover
