import Ito.Library.Index
import Ito.VenueAdapter
import Mathlib.Algebra.Order.Ring.Int

/-! The comparison of the orders on record with the reports of a venue.

Source: `cpp/ito_reconciliation/reconciler.cpp`. The findings come in the order of an
`unordered_map`, which is not specified: they are a multiset. The fields of an order that
are not compared are left out. -/

namespace Ito

inductive ReconciliationState where
  | matched
  | missingLocal
  | missingVenue
  | quantityMismatch
  | priceMismatch
  | uncertain
  deriving DecidableEq, Repr

structure LocalOrderState where
  clientOrderId : UInt64
  executedQuantity : Int64
  averagePriceTicks : Int64
  deriving DecidableEq, Repr

structure ReconciliationFinding where
  venueId : UInt16
  clientOrderId : UInt64
  state : ReconciliationState := .uncertain
  detail : String
  deriving DecidableEq, Repr

namespace Reconciler

variable (venueId : UInt16)

def pricesDiffer (order : LocalOrderState) (report : ExecutionReport) : Prop :=
  0 < order.averagePriceTicks ∧ 0 < report.priceTicks ∧
    report.priceTicks ≠ order.averagePriceTicks

instance (order : LocalOrderState) (report : ExecutionReport) :
    Decidable (pricesDiffer order report) :=
  inferInstanceAs (Decidable (_ ∧ _))

/-- One turn of the loop over the orders on record, with the report that was found. -/
def compareOrder (order : LocalOrderState) : Option ExecutionReport → ReconciliationFinding
  | none => ⟨venueId, order.clientOrderId, .missingVenue, "venue_report_missing"⟩
  | some report =>
      if report.quantity < order.executedQuantity ∨ report.leavesQuantity < 0 then
        ⟨venueId, order.clientOrderId, .quantityMismatch, "quantity_inconsistent"⟩
      else if pricesDiffer order report then
        ⟨venueId, order.clientOrderId, .priceMismatch, "price_inconsistent"⟩
      else ⟨venueId, order.clientOrderId, .matched, "matched"⟩

def missing (clientOrderId : UInt64) : ReconciliationFinding :=
  ⟨venueId, clientOrderId, .missingLocal, "local_order_missing"⟩

def compare (locals : List LocalOrderState) (venue : List ExecutionReport) :
    Multiset ReconciliationFinding :=
  let localById := Index.latest LocalOrderState.clientOrderId locals
  let venueById := Index.latest ExecutionReport.clientOrderId venue
  (localById.entries.map fun entry => compareOrder venueId entry.2 (venueById.lookup entry.1)) +
    (venueById.entries.filter fun entry => entry.1 ∉ localById).map fun entry =>
      missing venueId entry.1

/-! What is found -/

def reportsOf (venue : List ExecutionReport) (clientOrderId : UInt64) : List ExecutionReport :=
  venue.filter fun report => report.clientOrderId = clientOrderId

variable {locals : List LocalOrderState} {venue : List ExecutionReport}

theorem mem_reportsOf {clientOrderId : UInt64} {report : ExecutionReport} :
    report ∈ reportsOf venue clientOrderId ↔
      report ∈ venue ∧ report.clientOrderId = clientOrderId := by
  rw [reportsOf, List.mem_filter, decide_eq_true_eq]

theorem compareOrder_id (order : LocalOrderState) (report : Option ExecutionReport) :
    (compareOrder venueId order report).clientOrderId = order.clientOrderId := by
  rcases report with _ | report
  · rfl
  · rw [compareOrder]
    split
    · rfl
    · split <;> rfl

/-- Every order on record is compared with the last of its reports, and every other report
is of an order that is missing. -/
theorem mem_compare (distinct : (locals.map LocalOrderState.clientOrderId).Nodup)
    {finding : ReconciliationFinding} :
    finding ∈ compare venueId locals venue ↔
      (∃ order ∈ locals, finding =
        compareOrder venueId order (reportsOf venue order.clientOrderId).getLast?) ∨
      ∃ report ∈ venue, report.clientOrderId ∉ locals.map LocalOrderState.clientOrderId ∧
        finding = missing venueId report.clientOrderId := by
  have held : ∀ id order,
      ⟨id, order⟩ ∈ (Index.latest LocalOrderState.clientOrderId locals).entries ↔
        order ∈ locals ∧ order.clientOrderId = id := by
    intro id order
    rw [← Finmap.lookup_eq_some_iff]
    exact Index.lookup_latest_nodup _ distinct
  rw [compare, Multiset.mem_add, Multiset.mem_map, Multiset.mem_map]
  refine or_congr ⟨?_, ?_⟩ ⟨?_, ?_⟩
  · rintro ⟨⟨id, order⟩, member, rfl⟩
    rcases (held id order).mp member with ⟨among, rfl⟩
    exact ⟨order, among, by rw [Index.lookup_latest, reportsOf]⟩
  · rintro ⟨order, among, rfl⟩
    refine ⟨⟨_, order⟩, (held _ order).mpr ⟨among, rfl⟩, ?_⟩
    rw [Index.lookup_latest, reportsOf]
  · rintro ⟨⟨id, report⟩, member, rfl⟩
    rcases Multiset.mem_filter.mp member with ⟨present, other⟩
    rw [Index.mem_latest] at other
    have reported := (Index.mem_latest ExecutionReport.clientOrderId venue id).mp
      (Finmap.mem_of_lookup_eq_some (Finmap.lookup_eq_some_iff.mpr present))
    rcases List.mem_map.mp reported with ⟨witness, among, rfl⟩
    exact ⟨witness, among, other, rfl⟩
  · rintro ⟨report, among, other, rfl⟩
    have reported : report.clientOrderId ∈ Index.latest ExecutionReport.clientOrderId venue :=
      (Index.mem_latest _ _ _).mpr (List.mem_map_of_mem among)
    rcases Finmap.mem_iff.mp reported with ⟨last, found⟩
    refine ⟨⟨_, last⟩, Multiset.mem_filter.mpr ⟨Finmap.lookup_eq_some_iff.mp found, ?_⟩, rfl⟩
    rw [Index.mem_latest]
    exact other

theorem mem_compare_own (distinct : (locals.map LocalOrderState.clientOrderId).Nodup)
    {order : LocalOrderState} (among : order ∈ locals) {finding : ReconciliationFinding} :
    finding ∈ compare venueId locals venue ∧ finding.clientOrderId = order.clientOrderId ↔
      finding = compareOrder venueId order (reportsOf venue order.clientOrderId).getLast? := by
  rw [mem_compare venueId distinct]
  constructor
  · rintro ⟨⟨other, member, rfl⟩ | ⟨report, -, absent, rfl⟩, same⟩
    · rw [compareOrder_id] at same
      rw [List.inj_on_of_nodup_map distinct member among same]
    · rw [show report.clientOrderId = order.clientOrderId from same] at absent
      exact absurd (List.mem_map_of_mem among) absent
  · rintro rfl
    exact ⟨Or.inl ⟨order, among, rfl⟩, compareOrder_id venueId order _⟩

theorem own_state_iff (distinct : (locals.map LocalOrderState.clientOrderId).Nodup)
    {order : LocalOrderState} (among : order ∈ locals) (state : ReconciliationState) :
    (∃ finding ∈ compare venueId locals venue, finding.clientOrderId = order.clientOrderId ∧
        finding.state = state) ↔
      (compareOrder venueId order (reportsOf venue order.clientOrderId).getLast?).state = state := by
  constructor
  · rintro ⟨finding, inside, same, reached⟩
    rw [← (mem_compare_own venueId distinct among).mp ⟨inside, same⟩]
    exact reached
  · intro reached
    have listed : _ ∈ compare venueId locals venue ∧ _ :=
      (mem_compare_own venueId distinct among).mpr rfl
    exact ⟨_, listed.1, listed.2, reached⟩

theorem compareOrder_quantity {order : LocalOrderState} {report : ExecutionReport}
    (leaves : 0 ≤ report.leavesQuantity) :
    (compareOrder venueId order (some report)).state = .quantityMismatch ↔
      report.quantity < order.executedQuantity := by
  have positive : ¬ report.leavesQuantity < 0 := by
    rw [Int64.lt_iff_toInt_lt, not_lt]
    exact Int64.le_iff_toInt_le.mp leaves
  rw [compareOrder]
  split
  case isTrue short => exact ⟨fun _ => short.resolve_right positive, fun _ => rfl⟩
  case isFalse enough =>
    refine ⟨fun mismatch => ?_, fun short => absurd (Or.inl short) enough⟩
    split at mismatch <;> cases mismatch

/-! What the quantities say -/

def total (reports : List ExecutionReport) : Int :=
  (reports.map fun report => report.quantity.toInt).sum

structure QuantityExact (locals : List LocalOrderState) (venue : List ExecutionReport) : Prop where
  mismatch : ∀ order ∈ locals, reportsOf venue order.clientOrderId ≠ [] →
    ((∃ finding ∈ compare venueId locals venue, finding.clientOrderId = order.clientOrderId ∧
        finding.state = .quantityMismatch) ↔
      total (reportsOf venue order.clientOrderId) ≠ order.executedQuantity.toInt)
  excess : ∀ order ∈ locals,
    order.executedQuantity.toInt < total (reportsOf venue order.clientOrderId) →
    ∀ finding ∈ compare venueId locals venue, finding.clientOrderId = order.clientOrderId →
      finding.state ≠ .matched
  order_free : ∀ others, venue.Perm others → ∀ finding,
    finding ∈ compare venueId locals others ↔ finding ∈ compare venueId locals venue

/-- Each report of the order alone gives the verdict that all of them give together. -/
def Settled (order : LocalOrderState) (own : List ExecutionReport) : Prop :=
  (total own ≠ order.executedQuantity.toInt ∧
    ∀ report ∈ own, report.quantity < order.executedQuantity) ∨
  (total own = order.executedQuantity.toInt ∧
    (∀ report ∈ own, order.executedQuantity ≤ report.quantity) ∧
    ∀ first ∈ own, ∀ second ∈ own, pricesDiffer order first → pricesDiffer order second)

theorem passes {order : LocalOrderState} {report : ExecutionReport}
    (enough : order.executedQuantity ≤ report.quantity) (leaves : 0 ≤ report.leavesQuantity) :
    ¬ (report.quantity < order.executedQuantity ∨ report.leavesQuantity < 0) := by
  rw [Int64.le_iff_toInt_le] at enough leaves
  rw [Int64.lt_iff_toInt_lt, Int64.lt_iff_toInt_lt]
  omega

theorem compareOrder_price {order : LocalOrderState} {report : ExecutionReport}
    (enough : order.executedQuantity ≤ report.quantity) (leaves : 0 ≤ report.leavesQuantity) :
    (compareOrder venueId order (some report)).state = .priceMismatch ↔
      pricesDiffer order report := by
  rw [compareOrder, if_neg (passes enough leaves)]
  split
  case isTrue priced => exact ⟨fun _ => priced, fun _ => rfl⟩
  case isFalse equal => exact ⟨fun state => (by cases state), fun priced => absurd priced equal⟩

theorem settled_same {order : LocalOrderState} {own : List ExecutionReport}
    (settled : Settled order own) (leaves : ∀ report ∈ own, 0 ≤ report.leavesQuantity)
    {first second : ExecutionReport} (member : first ∈ own) (other : second ∈ own) :
    compareOrder venueId order (some first) = compareOrder venueId order (some second) := by
  rcases settled with ⟨-, short⟩ | ⟨-, enough, prices⟩
  · rw [compareOrder, compareOrder, if_pos (Or.inl (short first member)),
      if_pos (Or.inl (short second other))]
  · have same : pricesDiffer order first ↔ pricesDiffer order second :=
      ⟨prices first member second other, prices second other first member⟩
    rw [compareOrder, compareOrder, if_neg (passes (enough first member) (leaves first member)),
      if_neg (passes (enough second other) (leaves second other))]
    exact if_congr same rfl rfl

theorem last_report {clientOrderId : UInt64} {report : ExecutionReport}
    (member : report ∈ reportsOf venue clientOrderId) :
    ∃ others, venue.Perm others ∧ (reportsOf others clientOrderId).getLast? = some report := by
  rcases mem_reportsOf.mp member with ⟨among, own⟩
  refine ⟨venue.erase report ++ [report], ?_, ?_⟩
  · exact (List.perm_cons_erase among).trans (List.perm_append_singleton _ _).symm
  · rw [reportsOf, List.filter_append]
    simp [own]

theorem alike_of_exact (distinct : (locals.map LocalOrderState.clientOrderId).Nodup)
    (exactly : QuantityExact venueId locals venue) {order : LocalOrderState}
    (among : order ∈ locals) {report : ExecutionReport}
    (member : report ∈ reportsOf venue order.clientOrderId) :
    compareOrder venueId order (some report) =
      compareOrder venueId order (reportsOf venue order.clientOrderId).getLast? := by
  rcases last_report member with ⟨others, same, ends⟩
  have there : compareOrder venueId order (some report) ∈ compare venueId locals others ∧
      (compareOrder venueId order (some report)).clientOrderId = order.clientOrderId :=
    (mem_compare_own venueId distinct among).mpr (by rw [ends])
  have here := (exactly.order_free others same _).mp there.1
  exact (mem_compare_own venueId distinct among).mp ⟨here, there.2⟩

theorem settled_of_exact (distinct : (locals.map LocalOrderState.clientOrderId).Nodup)
    (leaves : ∀ report ∈ venue, 0 ≤ report.leavesQuantity)
    (exactly : QuantityExact venueId locals venue) {order : LocalOrderState}
    (among : order ∈ locals) : Settled order (reportsOf venue order.clientOrderId) := by
  cases found : (reportsOf venue order.clientOrderId).getLast? with
  | none =>
      rw [List.getLast?_eq_none_iff.mp found]
      rcases eq_or_ne (total []) order.executedQuantity.toInt with same | differ
      · exact .inr ⟨same, by simp, by simp⟩
      · exact .inl ⟨differ, by simp⟩
  | some last =>
      have own := List.mem_of_getLast? found
      have alike : ∀ report ∈ reportsOf venue order.clientOrderId,
          compareOrder venueId order (some report) = compareOrder venueId order (some last) := by
        intro report member
        rw [← found]
        exact alike_of_exact venueId distinct exactly among member
      have judged : (compareOrder venueId order (some last)).state = .quantityMismatch ↔
          total (reportsOf venue order.clientOrderId) ≠ order.executedQuantity.toInt := by
        rw [← exactly.mismatch order among (List.ne_nil_of_mem own), ← found]
        exact (own_state_iff venueId distinct among _).symm
      have lower : ∀ report ∈ reportsOf venue order.clientOrderId,
          report.quantity < order.executedQuantity ↔
            total (reportsOf venue order.clientOrderId) ≠ order.executedQuantity.toInt := by
        intro report member
        rw [← judged, ← alike report member]
        exact (compareOrder_quantity venueId (leaves report (mem_reportsOf.mp member).1)).symm
      rcases eq_or_ne (total (reportsOf venue order.clientOrderId))
        order.executedQuantity.toInt with same | differ
      · have enough : ∀ report ∈ reportsOf venue order.clientOrderId,
            order.executedQuantity ≤ report.quantity := by
          intro report member
          have above := mt (lower report member).mp (not_ne_iff.mpr same)
          rw [Int64.lt_iff_toInt_lt, not_lt] at above
          exact Int64.le_iff_toInt_le.mpr above
        have priced := fun report member => compareOrder_price venueId (enough report member)
          (leaves report (mem_reportsOf.mp member).1)
        refine .inr ⟨same, enough, fun first member second other differ => ?_⟩
        rw [← priced second other, alike second other, ← alike first member]
        exact (priced first member).mpr differ
      · exact .inl ⟨differ, fun report member => (lower report member).mpr differ⟩

theorem settled_mismatch {order : LocalOrderState} {own : List ExecutionReport}
    (settled : Settled order own) (leaves : ∀ report ∈ own, 0 ≤ report.leavesQuantity)
    {report : ExecutionReport} (member : report ∈ own) :
    (compareOrder venueId order (some report)).state = .quantityMismatch ↔
      total own ≠ order.executedQuantity.toInt := by
  rw [compareOrder_quantity venueId (leaves report member)]
  rcases settled with ⟨differ, short⟩ | ⟨same, enough, -⟩
  · exact ⟨fun _ => differ, fun _ => short report member⟩
  · refine ⟨fun short => ?_, fun differ => absurd same differ⟩
    have least := enough report member
    rw [Int64.lt_iff_toInt_lt] at short
    rw [Int64.le_iff_toInt_le] at least
    omega

theorem settled_perm {order : LocalOrderState} {own others : List ExecutionReport}
    (settled : Settled order own) (leaves : ∀ report ∈ own, 0 ≤ report.leavesQuantity)
    (same : own.Perm others) :
    compareOrder venueId order others.getLast? = compareOrder venueId order own.getLast? := by
  cases found : own.getLast? with
  | none =>
      rw [List.getLast?_eq_none_iff.mp found] at same
      rw [← same.nil_eq, List.getLast?_nil]
  | some report =>
      have member := List.mem_of_getLast? found
      have more : others ≠ [] := List.ne_nil_of_mem (same.mem_iff.mp member)
      rcases Option.ne_none_iff_exists'.mp (mt List.getLast?_eq_none_iff.mp more) with ⟨last, ends⟩
      rw [ends]
      exact settled_same venueId settled leaves (same.mem_iff.mpr (List.mem_of_getLast? ends)) member

theorem exact_of_settled (distinct : (locals.map LocalOrderState.clientOrderId).Nodup)
    (leaves : ∀ report ∈ venue, 0 ≤ report.leavesQuantity)
    (settled : ∀ order ∈ locals, Settled order (reportsOf venue order.clientOrderId)) :
    QuantityExact venueId locals venue := by
  have left : ∀ id, ∀ report ∈ reportsOf venue id, 0 ≤ report.leavesQuantity :=
    fun _ report member => leaves report (mem_reportsOf.mp member).1
  constructor
  case mismatch =>
    intro order among reported
    rcases Option.ne_none_iff_exists'.mp (mt List.getLast?_eq_none_iff.mp reported) with
      ⟨report, found⟩
    rw [own_state_iff venueId distinct among, found]
    exact settled_mismatch venueId (settled order among) (left _) (List.mem_of_getLast? found)
  case excess =>
    intro order among more finding inside same matched
    rw [(mem_compare_own venueId distinct among).mp ⟨inside, same⟩] at matched
    cases found : (reportsOf venue order.clientOrderId).getLast? with
    | none =>
        rw [found] at matched
        cases matched
    | some report =>
        rw [found] at matched
        have mismatch := (settled_mismatch venueId (settled order among) (left _)
          (List.mem_of_getLast? found)).mpr more.ne'
        rw [matched] at mismatch
        cases mismatch
  case order_free =>
    intro others same finding
    rw [mem_compare venueId distinct, mem_compare venueId distinct]
    refine or_congr (exists_congr fun order => and_congr_right fun among => ?_)
      (exists_congr fun report => and_congr_left' same.mem_iff.symm)
    have own : (reportsOf venue order.clientOrderId).Perm
        (reportsOf others order.clientOrderId) := same.filter _
    rw [settled_perm venueId (settled order among) (left _) own]

/-- The comparison is exact about quantities if and only if each report of an order gives the
verdict that all its reports give together. -/
theorem quantity_exact_iff (distinct : (locals.map LocalOrderState.clientOrderId).Nodup)
    (leaves : ∀ report ∈ venue, 0 ≤ report.leavesQuantity) :
    QuantityExact venueId locals venue ↔
      ∀ order ∈ locals, Settled order (reportsOf venue order.clientOrderId) :=
  ⟨fun exactly _ among => settled_of_exact venueId distinct leaves exactly among,
    exact_of_settled venueId distinct leaves⟩

/-- A fill of an order of the source's own test. -/
def fill (executionId : UInt64) (quantity leavesQuantity : Int64) : ExecutionReport :=
  ⟨11, 1, 50, executionId, if leavesQuantity = 0 then .filled else .partiallyFilled, 100, quantity,
    leavesQuantity, 1, 2, 0⟩

theorem quantity_exact_short : QuantityExact 5 [⟨1, 10, 100⟩] [fill 1 4 6, fill 2 3 3] := by
  refine (quantity_exact_iff 5 (by decide) (by decide)).mpr ?_
  intro order among
  rw [List.mem_singleton.mp among]
  exact .inl (by decide)

/-- Two fills of four and six lots make up the ten lots on record, and one fill of twelve lots
exceeds them. -/
theorem partial_fills_mismatch :
    compare 5 [⟨1, 10, 100⟩] [fill 1 4 6, fill 2 6 0] =
      {⟨5, 1, .quantityMismatch, "quantity_inconsistent"⟩} ∧
    total (reportsOf [fill 1 4 6, fill 2 6 0] 1) = 10 ∧
    compare 5 [⟨1, 10, 100⟩] [fill 1 12 0] = {⟨5, 1, .matched, "matched"⟩} ∧
    ¬ QuantityExact 5 [⟨1, 10, 100⟩] [fill 1 4 6, fill 2 6 0] ∧
    ¬ QuantityExact 5 [⟨1, 10, 100⟩] [fill 1 12 0] := by
  refine ⟨by decide +kernel, by decide, by decide +kernel, fun exactly => ?_, fun exactly => ?_⟩
  · have mismatch := (exactly.mismatch ⟨1, 10, 100⟩ (by decide) (by decide)).mp
    exact mismatch ⟨⟨5, 1, .quantityMismatch, "quantity_inconsistent"⟩, by decide +kernel, rfl,
      rfl⟩ (by decide)
  · have excess := exactly.excess ⟨1, 10, 100⟩ (by decide) (by decide)
    exact excess ⟨5, 1, .matched, "matched"⟩ (by decide +kernel) rfl rfl

end Reconciler

end Ito
