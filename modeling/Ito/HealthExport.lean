import Ito.Library.JsonDumps
import Ito.RegisterMap

/-! The health of a release, from the matrix of its gates to the metrics that are exported.

Source: `evaluate` and `main` of `scripts/production/readiness_check.py`, `build_report`,
`write_prometheus` and `main` of `scripts/operations/health_report.py`, and `load_snapshot`,
`render_audit_metrics`, `render_metrics` and `main` of `python/operations/prometheus_exporter.py`.
Each tool reads what the one before it has printed, and the health report also reads the matrix
itself. -/

namespace Ito.Health

open RecordReconcile (Record)
open RegisterMap (Python codes)

inductive Error where
  | jsonDecodeError
  | attributeError
  | typeError
  /-- What follows the colon of a message is left out. -/
  | healthError (message : String)
  | exporterError (message : String)
  deriving DecidableEq, Repr

/-- `record.get(key)`. -/
def field (record : Record) (key : String) : Json := (Json.get? key record).getD .null

/-- `json.dumps(record, indent=2, sort_keys=True) + "\n"`. -/
def printed (float : ℚ → List Char) (record : Record) : List Char :=
  Json.dumps (.indented 2 float) (.obj record) ++ ['\n']

def isText (value : Json) (text : String) : Bool :=
  match value with
  | .str found => found == codes text
  | _ => false

/-! The readiness check -/

def gatesOf : Json → Except Error (List Record)
  | .arr items => items.mapM fun item =>
      match item with
      | .obj gate => .ok gate
      | _ => .error .attributeError
  | .obj [] => .ok []
  | .str [] => .ok []
  | .obj _ => .error .attributeError
  | .str _ => .error .attributeError
  | _ => .error .typeError

/-- `gate.get("implemented")` in a condition. -/
def implemented (gate : Record) : Bool := (field gate "implemented").truthy

def blockersOf (gates : List Record) : List Record := gates.filter fun gate => !implemented gate

def blockerJson (gate : Record) : Json :=
  .obj [(codes "id", field gate "id"), (codes "domain", field gate "domain"),
    (codes "name", field gate "name"), (codes "evidence", field gate "evidence")]

def statusOf (gates : List Record) : String :=
  if (blockersOf gates).isEmpty then "production_ready" else "not_production_ready"

def readinessEntries (system : Json) (gates : List Record) : Record :=
  [(codes "system", system), (codes "status", .str (codes (statusOf gates))),
    (codes "implemented_count", .int (gates.filter implemented).length),
    (codes "gate_count", .int gates.length),
    (codes "blocker_count", .int (blockersOf gates).length),
    (codes "blockers", .arr ((blockersOf gates).map blockerJson))]

def evaluate (matrix : Record) : Except Error Record := do
  let gates ← gatesOf ((Json.get? "gates" matrix).getD (.arr []))
  return readinessEntries ((Json.get? "system" matrix).getD (.str (codes "Ito"))) gates

/-- What `main` of the readiness check prints, and its exit code. -/
def readinessMain (float : ℚ → List Char) (matrixText : List Char) :
    Except Error (List Char × Nat) :=
  match Json.loads matrixText with
  | none => .error .jsonDecodeError
  | some (.obj matrix) => do
      let result ← evaluate matrix
      return (printed float result,
        if isText (field result "status") "production_ready" then 0 else 1)
  | some _ => .error .attributeError

/-! Metrics -/

/-- The text of a value for which `isinstance(value, int)` holds; `bool` is a kind of `int`. -/
def intShown : Json → Option (List Nat)
  | .int value => some (Json.codes (Json.intText value))
  | .bool true => some (codes "True")
  | .bool false => some (codes "False")
  | _ => none

def metric (name value : List Nat) : List (List Nat) :=
  [codes "# TYPE " ++ name ++ codes " gauge", name ++ codes " " ++ value]

/-- `"\n".join(rows) + "\n"`, where there is a row. -/
def joined (rows : List (List Nat)) : List Nat := rows.flatMap fun row => row ++ codes "\n"

def gauge (up : Bool) : List Nat := codes (if up then "1" else "0")

/-! The health report -/

def localIds : List String :=
  ["GATE-SW-001", "GATE-SW-002", "GATE-SW-003", "GATE-SW-004", "GATE-HW-001", "GATE-OPS-001",
    "GATE-SEC-003", "GATE-SEC-004", "GATE-OPS-003", "GATE-OPS-004", "GATE-OPS-005"]

def isLocal (id : List Nat) : Bool := localIds.any fun known => codes known == id

/-- `gate.get("implemented") is True`. -/
def isTrue (gate : Record) : Bool :=
  match field gate "implemented" with
  | .bool value => value
  | _ => false

/-- `value in local_ids`, which hashes the value. -/
def amongLocal : Json → Except Error Bool
  | .str text => .ok (isLocal text)
  | .arr _ => .error .typeError
  | .obj _ => .error .typeError
  | _ => .ok false

section

variable (python : Python)

def localFailures : List Json → Except Error (List (List Nat))
  | [] => .ok []
  | .obj gate :: gates => do
      let known ← amongLocal (field gate "id")
      let rest ← localFailures gates
      return if known && !isTrue gate then python.str (field gate "id") :: rest else rest
  | _ :: gates => localFailures gates

def gateBlockers : List Json → List (List Nat)
  | [] => []
  | .obj gate :: gates =>
      if isTrue gate then gateBlockers gates
      else python.str (field gate "id") :: gateBlockers gates
  | _ :: gates => gateBlockers gates

/-- The ids of the blockers that a readiness report names. -/
def reportedBlockers : List Json → List (List Nat)
  | [] => []
  | .obj gate :: gates => python.str (field gate "id") :: reportedBlockers gates
  | _ :: gates => reportedBlockers gates

def healthEntries (status : List Nat) (failures blockers : List (List Nat)) (recovery : Bool) :
    Record :=
  [(codes "format", .int 1),
    (codes "local_status",
      .str (codes (if failures.isEmpty && recovery then "healthy" else "degraded"))),
    (codes "production_status", .str status),
    (codes "local_failures", .arr (failures.map .str)),
    (codes "external_blockers", .arr (blockers.map .str)),
    (codes "external_blocker_count", .int blockers.length),
    (codes "recovery_artifact_present", .bool recovery)]

def helped (name help : String) (value : List Nat) : List (List Nat) :=
  (codes "# HELP " ++ codes name ++ codes " " ++ codes help) :: metric (codes name) value

/-- The rows of `write_prometheus`; `build_report` makes the count an `int`. -/
def prometheusRows (report : Record) : List (List Nat) :=
  helped "ito_local_validation_pass" "Local repository controls and recovery artifact passed"
      (gauge (isText (field report "local_status") "healthy")) ++
    helped "ito_production_readiness" "Production readiness gate passed"
      (gauge (isText (field report "production_status") "production_ready")) ++
    helped "ito_external_blocker_count" "Unresolved external production gates"
      ((intShown (field report "external_blocker_count")).getD []) ++
    helped "ito_recovery_artifact_present" "Manifest-verified recovery artifact present"
      (gauge (field report "recovery_artifact_present").truthy)

def buildReport (readiness : Json) (recovery : Bool) : Except Error Record :=
  match readiness with
  | .obj entries =>
      let status := python.str ((Json.get? "status" entries).getD (.str (codes "unknown")))
      match Json.get? "gates" entries with
      | some (.arr gates) => do
          let failures ← localFailures python gates
          return healthEntries status failures (gateBlockers python gates) recovery
      | _ =>
          match Json.get? "blockers" entries with
          | some (.arr blockers) =>
              .ok (healthEntries status ((reportedBlockers python blockers).filter isLocal)
                (reportedBlockers python blockers) recovery)
          | _ => .error (.healthError "invalid_readiness")
  | _ => .error (.healthError "invalid_readiness")

structure Written where
  output : List Char
  prometheus : List Nat

def written (float : ℚ → List Char) (report : Record) : Written :=
  ⟨printed float report, joined (prometheusRows report)⟩

/-- What `main` of the health report writes. -/
def healthMain (float : ℚ → List Char) (readinessText : List Char) (recovery : Bool) :
    Except Error Written :=
  match Json.loads readinessText with
  | none => .error (.healthError "invalid_json:")
  | some readiness => do
      let report ← buildReport python readiness recovery
      return written float report

end

/-! The exporter -/

def loadSnapshot (text : List Char) : Except Error Record :=
  match Json.loads text with
  | some (.obj value) => .ok value
  | some _ => .error (.exporterError "snapshot_invalid")
  | none => .error (.exporterError "snapshot_invalid:")

def loadOptional : Option (List Char) → Except Error (Option Record)
  | none => .ok none
  | some text => do return some (← loadSnapshot text)

/-- The action of an entry of the audit, which is counted when it is a text. -/
def actionOf : Json → Option (List Nat)
  | .obj entry =>
      match field entry "action" with
      | .str action => some action
      | _ => none
  | _ => none

def countAction (counts : SortedMap Json.KeyBefore Nat) (action : List Nat) :
    SortedMap Json.KeyBefore Nat :=
  counts.set action ((counts.find? action).getD 0 + 1)

/-- What `for entry in audit` takes one after the other; of a dictionary these are the keys. -/
def entriesOf : Json → Except Error (List Json)
  | .arr items => .ok items
  | .obj entries => .ok (entries.map fun entry => .str entry.1)
  | .str text => .ok (text.map fun code => .str [code])
  | _ => .error .typeError

/-- `action.replace('-', '_')`. -/
def dashless (action : List Nat) : List Nat := action.map fun code => if code = 45 then 95 else code

def actionMetric (action : List Nat) : List Nat :=
  codes "ito_audit_action_" ++ dashless action ++ codes "_total"

def auditRows (total : Nat) (counts : SortedMap Json.KeyBefore Nat) : List (List Nat) :=
  metric (codes "ito_audit_total_events") (Json.codes (Json.intText total)) ++
    counts.entries.flatMap fun entry =>
      metric (actionMetric entry.1) (Json.codes (Json.intText entry.2))

def renderAuditMetrics (audit : Json) : Except Error (List Nat) := do
  let actions := (← entriesOf audit).filterMap actionOf
  return joined (auditRows actions.length (actions.foldl countAction SortedMap.empty))

def portfolioMetrics : List (String × String) :=
  [("ito_portfolio_net_position", "net_position"),
    ("ito_portfolio_gross_position", "gross_position"),
    ("ito_portfolio_gross_notional_ticks", "gross_notional_ticks"),
    ("ito_portfolio_realized_pnl_ticks", "realized_pnl_ticks"),
    ("ito_portfolio_unrealized_pnl_ticks", "unrealized_pnl_ticks"),
    ("ito_portfolio_loss_ticks", "loss_ticks")]

def portfolioRow (portfolio : Record) (row : String × String) : Except Error (List (List Nat)) :=
  match intShown (field portfolio row.2) with
  | some value => .ok (metric (codes row.1) value)
  | none => .error (.exporterError ("metric_invalid:" ++ row.1))

def portfolioRows (portfolio : Record) : Except Error (List (List Nat)) := do
  return (← portfolioMetrics.mapM (portfolioRow portfolio)).flatten

structure Gauges where
  localValidationPass : Bool
  productionReadiness : Bool
  externalBlockerCount : Json
  recoveryArtifactPresent : Bool

def gaugesOf (health : Record) : Gauges where
  localValidationPass := isText (field health "local_status") "healthy"
  productionReadiness := isText (field health "production_status") "production_ready"
  externalBlockerCount := (Json.get? "external_blocker_count" health).getD (.int 0)
  recoveryArtifactPresent :=
    match field health "recovery_artifact_present" with
    | .bool present => present
    | _ => false

def isNegative : Json → Bool
  | .int value => value < 0
  | _ => false

def Gauges.rows (gauges : Gauges) : Except Error (List (List Nat)) :=
  match intShown gauges.externalBlockerCount with
  | none => .error (.exporterError "blocker_count_invalid")
  | some blockers =>
      if isNegative gauges.externalBlockerCount then
        .error (.exporterError "blocker_count_invalid")
      else
        .ok (metric (codes "ito_local_validation_pass") (gauge gauges.localValidationPass) ++
          metric (codes "ito_production_readiness") (gauge gauges.productionReadiness) ++
          metric (codes "ito_external_blocker_count") blockers ++
          metric (codes "ito_recovery_artifact_present") (gauge gauges.recoveryArtifactPresent))

/-- `render_metrics`, of what it takes from the health: the rows of the gauges, and those of a
portfolio and an audit that are given. -/
def render (gauges : Gauges) (portfolio : Option Record) (audit : Option Json) :
    Except Error (List Nat) := do
  let rows ← gauges.rows
  let portfolioPart ← portfolio.elim (.ok []) portfolioRows
  let auditPart ← audit.elim (.ok []) fun audit => (renderAuditMetrics audit).map fun text => [text]
  return joined (rows ++ portfolioPart ++ auditPart)

/-- The export of gauges together with the snapshots that are given. -/
def exportGauges (gauges : Gauges) (portfolioText auditText : Option (List Char)) :
    Except Error (List Nat) := do
  let portfolio ← loadOptional portfolioText
  let audit ← loadOptional auditText
  render gauges portfolio (audit.map .obj)

/-- What `main` of the exporter prints. -/
def exporterMain (healthText : List Char) (portfolioText auditText : Option (List Char)) :
    Except Error (List Nat) := do
  let health ← loadSnapshot healthText
  exportGauges (gaugesOf health) portfolioText auditText

/-! The audit -/

section Counts

variable {actions : List (List Nat)}

theorem find?_counted (action : List Nat) :
    (actions.foldl countAction SortedMap.empty).find? action =
      if action ∈ actions then some (actions.count action) else none := by
  induction actions using List.reverseRecOn with
  | nil => rfl
  | append_singleton actions last ih =>
      rw [List.foldl_append, List.foldl_cons, List.foldl_nil, countAction, SortedMap.find?_set]
      by_cases same : action = last
      · subst same
        rw [ih, if_pos rfl, if_pos (List.mem_append_right _ List.mem_cons_self), List.count_append,
          List.count_singleton_self]
        split
        case isTrue known => rfl
        case isFalse new =>
            rw [List.count_eq_zero_of_not_mem new]
            rfl
      · have absent : [last].count action = 0 :=
          List.count_eq_zero_of_not_mem fun member => same (List.mem_singleton.mp member)
        rw [if_neg same, ih, List.count_append, absent, Nat.add_zero]
        simp [same]

theorem sum_countAction (counts : SortedMap Json.KeyBefore Nat) (action : List Nat) :
    ((countAction counts action).entries.map Prod.snd).sum =
      (counts.entries.map Prod.snd).sum + 1 := by
  have after (count : Nat) : (counts.set action count).entries.Perm
      ((action, count) :: (counts.erase action).entries) := counts.set_perm_cons_erase
  rw [countAction, ((after _).map Prod.snd).sum_eq]
  cases found : counts.find? action with
  | none =>
      rw [counts.entries_erase_absent found, List.map_cons, List.sum_cons]
      exact Nat.add_comm _ _
  | some before =>
      have member := counts.find?_eq_some.mp found
      rw [((counts.perm_cons_erase member).map Prod.snd).sum_eq]
      simp only [List.map_cons, List.sum_cons, Option.getD_some]
      omega

theorem sum_counted :
    ((actions.foldl countAction SortedMap.empty).entries.map Prod.snd).sum = actions.length := by
  induction actions using List.reverseRecOn with
  | nil => rfl
  | append_singleton actions last ih =>
      rw [List.foldl_append, List.foldl_cons, List.foldl_nil, sum_countAction, ih,
        List.length_append, List.length_singleton]

theorem actionMetric_inj {first second : List Nat} :
    actionMetric first = actionMetric second ↔ dashless first = dashless second := by
  rw [actionMetric, actionMetric, List.append_assoc, List.append_assoc, List.append_cancel_left_eq,
    List.append_cancel_right_eq]

theorem mem_counted {action : List Nat} :
    action ∈ (actions.foldl countAction SortedMap.empty).entries.map Prod.fst ↔
      action ∈ actions := by
  rw [SortedMap.mem_keys_iff, find?_counted]
  split <;> simp [*]

theorem actionMetrics_nodup :
    ((actions.foldl countAction SortedMap.empty).entries.map fun entry =>
        actionMetric entry.1).Nodup ↔
      ∀ first ∈ actions, ∀ second ∈ actions, dashless first = dashless second → first = second := by
  have named : ((actions.foldl countAction SortedMap.empty).entries.map fun entry =>
      actionMetric entry.1) =
        ((actions.foldl countAction SortedMap.empty).entries.map Prod.fst).map actionMetric := by
    rw [List.map_map]
    rfl
  rw [named, List.nodup_map_iff_inj_on (SortedMap.keys_nodup _)]
  simp only [mem_counted, actionMetric_inj]

/-- The metrics of a list of events: the total, and for each action how often it occurs, in the
order of the actions; no two metrics share a name exactly when the actions differ in more than
dashes and underscores. -/
theorem audit_rendered (items : List Json) :
    ∃ counts : SortedMap Json.KeyBefore Nat,
      renderAuditMetrics (.arr items) =
        .ok (joined (auditRows (items.filterMap actionOf).length counts)) ∧
      (∀ action, counts.find? action =
        if action ∈ items.filterMap actionOf then some ((items.filterMap actionOf).count action)
        else none) ∧
      (counts.entries.map Prod.snd).sum = (items.filterMap actionOf).length ∧
      ((counts.entries.map fun entry => actionMetric entry.1).Nodup ↔
        ∀ first ∈ items.filterMap actionOf, ∀ second ∈ items.filterMap actionOf,
          dashless first = dashless second → first = second) :=
  ⟨_, rfl, find?_counted, sum_counted, actionMetrics_nodup⟩

end Counts

theorem renderAuditMetrics_obj (audit : Record) :
    renderAuditMetrics (.obj audit) =
      .ok (joined (metric (codes "ito_audit_total_events") (codes "0"))) := by
  have none : (audit.map fun entry => Json.str entry.1).filterMap actionOf = [] := by
    rw [List.filterMap_map]
    exact List.filterMap_eq_nil_iff.mpr fun entry _ => rfl
  simp only [renderAuditMetrics, entriesOf, Bind.bind, Except.bind, none]
  rfl

theorem joined_append (first second : List (List Nat)) :
    joined (first ++ second) = joined first ++ joined second :=
  List.flatMap_append

theorem render_audit (gauges : Gauges) (portfolio : Option Record) (audit : Record) :
    render gauges portfolio (some (.obj audit)) =
      (render gauges portfolio none).map fun text =>
        text ++ (joined (metric (codes "ito_audit_total_events") (codes "0")) ++ codes "\n") := by
  simp only [render, Bind.bind, Except.bind, Option.elim_some, Option.elim_none,
    renderAuditMetrics_obj]
  cases gauges.rows with
  | error raised => rfl
  | ok rows =>
      cases portfolio.elim (Except.ok []) portfolioRows with
      | error raised => rfl
      | ok portfolioPart =>
          simp only [Except.map, pure, Except.pure, joined_append]
          simp [joined]

theorem loadOptional_some (text : List Char) :
    loadOptional (some text) = (loadSnapshot text).map some := by
  rw [loadOptional]
  cases loadSnapshot text with
  | error raised => rfl
  | ok value => rfl

theorem loadSnapshot_eq_ok {text : List Char} {value : Record} :
    loadSnapshot text = .ok value ↔ Json.loads text = some (.obj value) := by
  rw [loadSnapshot]
  split
  case h_1 found loaded => simp [loaded]
  case h_2 found other loaded =>
      constructor
      · intro same
        cases same
      · intro same
        exact (other value (Option.some.inj (loaded.symm.trans same))).elim
  case h_3 loaded => simp [loaded]

section Audit

variable {gauges : Gauges} {portfolioText : Option (List Char)} {auditText : List Char}

theorem exportGauges_audit {audit : Record} (loaded : loadSnapshot auditText = .ok audit) :
    exportGauges gauges portfolioText (some auditText) =
      (exportGauges gauges portfolioText none).map fun front =>
        front ++ (joined (metric (codes "ito_audit_total_events") (codes "0")) ++ codes "\n") := by
  have opened : loadOptional (some auditText) = .ok (some audit) := by
    rw [loadOptional_some, loaded]
    rfl
  rw [exportGauges, exportGauges, opened]
  cases loadOptional portfolioText with
  | error raised => rfl
  | ok portfolio => exact render_audit gauges portfolio audit

theorem exportGauges_refused {refusal : Error} (refused : loadSnapshot auditText = .error refusal)
    (output : List Nat) : exportGauges gauges portfolioText (some auditText) ≠ .ok output := by
  have unopened : loadOptional (some auditText) = .error refusal := by
    rw [loadOptional_some, refused]
    rfl
  rw [exportGauges, unopened]
  cases loadOptional portfolioText with
  | error raised =>
      intro same
      cases same
  | ok portfolio =>
      intro same
      cases same

end Audit

/-- Whatever an audit file holds, no event of it is counted: the exporter takes dictionaries only,
and of a dictionary it looks at the keys. -/
theorem exported_audit (healthText : List Char) (portfolioText : Option (List Char))
    (auditText : List Char) (output : List Nat) :
    exporterMain healthText portfolioText (some auditText) = .ok output ↔
      ∃ audit front, Json.loads auditText = some (.obj audit) ∧
        exporterMain healthText portfolioText none = .ok front ∧
        output = front ++
          (joined (metric (codes "ito_audit_total_events") (codes "0")) ++ codes "\n") := by
  rw [exporterMain, exporterMain]
  cases loadSnapshot healthText with
  | error raised => simp [Bind.bind, Except.bind]
  | ok health =>
      simp only [Bind.bind, Except.bind]
      cases read : loadSnapshot auditText with
      | error refusal =>
          refine iff_of_false (exportGauges_refused read output) ?_
          rintro ⟨audit, front, loaded, -⟩
          rw [loadSnapshot_eq_ok.mpr loaded] at read
          cases read
      | ok audit =>
          have loaded := loadSnapshot_eq_ok.mp read
          rw [exportGauges_audit read]
          cases exportGauges (gaugesOf health) portfolioText none with
          | error raised => simp [Except.map]
          | ok front => simp [Except.map, loaded, eq_comm]

/-! What the tools make of the gates -/

section Gates

variable {gates : List Record}

theorem field_canonical (entries : Record) (key : String) :
    field (Json.ordered (Json.canonicalEntries entries)).entries key =
      Json.canonical (field entries key) := by
  rw [field, Json.get?_canonical, field]
  cases Json.get? key entries with
  | none => rfl
  | some value => rfl

def idOf (gate : Record) : List Nat :=
  match field gate "id" with
  | .str text => text
  | _ => []

def Named (gates : List Record) : Prop := ∀ gate ∈ gates, ∃ id, field gate "id" = .str id

theorem Named.id (named : Named gates) {gate : Record} (member : gate ∈ gates) :
    field gate "id" = .str (idOf gate) := by
  rcases named gate member with ⟨id, found⟩
  rw [idOf, found]

theorem Named.filter (named : Named gates) (kept : Record → Bool) : Named (gates.filter kept) :=
  fun gate member => named gate (List.mem_of_mem_filter member)

theorem Named.tail {gate : Record} (named : Named (gate :: gates)) : Named gates :=
  fun other member => named other (List.mem_cons_of_mem gate member)

theorem implemented_of_isTrue {gate : Record} (passed : isTrue gate = true) :
    implemented gate = true := by
  rw [isTrue] at passed
  rw [implemented]
  cases found : field gate "implemented" with
  | bool value =>
      rw [found] at passed
      exact passed
  | _ =>
      rw [found] at passed
      cases passed

theorem gatesOf_map (gates : List Record) : gatesOf (.arr (gates.map .obj)) = .ok gates := by
  rw [gatesOf]
  induction gates with
  | nil => rfl
  | cons gate gates ih =>
      rw [List.map_cons, List.mapM_cons, ih]
      rfl

def failing (passed : Record → Bool) (gates : List Record) : List Record :=
  gates.filter fun gate => !passed gate

theorem failing_cons (passed : Record → Bool) (gate : Record) (gates : List Record) :
    failing passed (gate :: gates) =
      if passed gate then failing passed gates else gate :: failing passed gates := by
  rw [failing, List.filter_cons, ← failing]
  cases passed gate <;> rfl

variable (python : Python)

theorem localFailures_map (named : Named gates) :
    localFailures python (gates.map .obj) =
      .ok (((failing isTrue gates).map idOf).filter isLocal) := by
  induction gates with
  | nil => rfl
  | cons gate gates ih =>
      have first := named.id List.mem_cons_self
      rw [List.map_cons, localFailures, ih named.tail, first, amongLocal, python.str_text,
        failing_cons]
      cases passed : isTrue gate
      · cases known : isLocal (idOf gate) <;>
          simp [Bind.bind, Except.bind, pure, Except.pure, known]
      · simp [Bind.bind, Except.bind, pure, Except.pure]

theorem gateBlockers_map (named : Named gates) :
    gateBlockers python (gates.map .obj) = (failing isTrue gates).map idOf := by
  induction gates with
  | nil => rfl
  | cons gate gates ih =>
      have first := named.id List.mem_cons_self
      rw [List.map_cons, gateBlockers, ih named.tail, first, python.str_text, failing_cons]
      cases isTrue gate <;> rfl

theorem reportedBlockers_map (named : Named gates) :
    reportedBlockers python ((gates.map blockerJson).map Json.canonical) = gates.map idOf := by
  induction gates with
  | nil => rfl
  | cons gate gates ih =>
      have first := named.id List.mem_cons_self
      have held : field [(codes "id", field gate "id"), (codes "domain", field gate "domain"),
          (codes "name", field gate "name"), (codes "evidence", field gate "evidence")] "id" =
            field gate "id" := rfl
      rw [List.map_cons, List.map_cons, blockerJson, Json.canonical, reportedBlockers,
        ih named.tail, field_canonical, held, first, Json.canonical_eq (.str _), python.str_text,
        List.map_cons]

theorem isEmpty_failures (passed : Record → Bool) (gates : List Record) :
    (((failing passed gates).map idOf).filter isLocal).isEmpty =
      gates.all fun gate => passed gate || !isLocal (idOf gate) := by
  induction gates with
  | nil => rfl
  | cons gate gates ih =>
      rw [List.all_cons, ← ih, failing_cons]
      cases passed gate
      · cases known : isLocal (idOf gate) <;> simp [known]
      · simp

end Gates

/-! What is printed is read back -/

section Printed

variable {style : Json.Style} {float : ℚ → List Char}

theorem whole_text (text : String) : Json.Whole (codes text) := Json.whole_codes text.toList

theorem loads_printed {record : Record}
    (printable : Json.Printable (.indented 2 float) (.obj record)) :
    Json.loads (printed float record) =
      some (.obj (Json.ordered (Json.canonicalEntries record)).entries) := by
  rw [printed, Json.loads_dumps printable (List.forall_mem_singleton.mpr rfl), Json.canonical]

theorem printable_get? {record : Record} (printable : Json.Printable style (.obj record))
    {key : String} {value : Json} (found : Json.get? key record = some value) :
    Json.Printable style value := by
  cases printable with
  | obj keys each =>
      rcases List.lookup_eq_some_iff.mp found with ⟨front, rest, split, -⟩
      have member : (codes key, value) ∈ record.reverse := by
        rw [split]
        exact List.mem_append_right _ List.mem_cons_self
      exact each _ (List.mem_reverse.mp member)

theorem printable_field {record : Record} (printable : Json.Printable style (.obj record))
    (key : String) : Json.Printable style (field record key) := by
  rw [field]
  cases found : Json.get? key record with
  | none => exact .null
  | some value => exact printable_get? printable found

theorem printable_blocker {gate : Record} (printable : Json.Printable style (.obj gate)) :
    Json.Printable style (blockerJson gate) := by
  refine .obj (by simp [whole_text]) ?_
  simp only [List.forall_mem_cons, List.not_mem_nil, false_implies, implies_true, and_true]
  exact ⟨printable_field printable "id", printable_field printable "domain",
    printable_field printable "name", printable_field printable "evidence"⟩

theorem printable_readiness {system : Json} {gates : List Record}
    (printableSystem : Json.Printable style system)
    (each : ∀ gate ∈ gates, Json.Printable style (.obj gate)) :
    Json.Printable style (.obj (readinessEntries system gates)) := by
  refine .obj (by simp [readinessEntries, whole_text]) ?_
  simp only [readinessEntries, List.forall_mem_cons, List.not_mem_nil, false_implies, implies_true,
    and_true]
  refine ⟨printableSystem, .str (whole_text _), .int _, .int _, .int _, .arr ?_⟩
  exact List.forall_mem_map.mpr fun gate member =>
    printable_blocker (each gate (List.mem_of_mem_filter member))

theorem printable_texts {texts : List (List Nat)} (whole : ∀ text ∈ texts, Json.Whole text) :
    Json.Printable style (.arr (texts.map .str)) :=
  .arr (List.forall_mem_map.mpr fun text member => .str (whole text member))

theorem printable_health {status : List Nat} {failures blockers : List (List Nat)}
    (wholeStatus : Json.Whole status) (wholeFailures : ∀ text ∈ failures, Json.Whole text)
    (wholeBlockers : ∀ text ∈ blockers, Json.Whole text) (recovery : Bool) :
    Json.Printable style (.obj (healthEntries status failures blockers recovery)) := by
  refine .obj (by simp [healthEntries, whole_text]) ?_
  simp only [healthEntries, List.forall_mem_cons, List.not_mem_nil, false_implies, implies_true,
    and_true]
  exact ⟨.int 1, .str (whole_text _), .str wholeStatus, printable_texts wholeFailures,
    printable_texts wholeBlockers, .int _, .bool _⟩

theorem exported_health {status : List Nat} {failures blockers : List (List Nat)}
    (wholeStatus : Json.Whole status) (wholeFailures : ∀ text ∈ failures, Json.Whole text)
    (wholeBlockers : ∀ text ∈ blockers, Json.Whole text) (recovery : Bool)
    (portfolioText auditText : Option (List Char)) :
    exporterMain (printed float (healthEntries status failures blockers recovery)) portfolioText
        auditText =
      exportGauges ⟨failures.isEmpty && recovery, status == codes "production_ready",
        .int blockers.length, recovery⟩ portfolioText auditText := by
  let entries := healthEntries status failures blockers recovery
  have within : field entries "local_status" =
    .str (codes (if failures.isEmpty && recovery then "healthy" else "degraded")) := rfl
  have production : field entries "production_status" = .str status := rfl
  have counted : Json.get? "external_blocker_count" entries = some (.int blockers.length) := rfl
  have present : field entries "recovery_artifact_present" = .bool recovery := rfl
  have healthy : isText (.str (codes (if failures.isEmpty && recovery then "healthy"
      else "degraded"))) "healthy" = (failures.isEmpty && recovery) := by
    cases failures.isEmpty && recovery <;> decide
  have read : Json.loads (printed float entries) =
      some (.obj (Json.ordered (Json.canonicalEntries entries)).entries) :=
    loads_printed (printable_health wholeStatus wholeFailures wholeBlockers recovery)
  have gauges : gaugesOf (Json.ordered (Json.canonicalEntries entries)).entries =
      ⟨failures.isEmpty && recovery, status == codes "production_ready", .int blockers.length,
        recovery⟩ := by
    rw [gaugesOf, field_canonical, field_canonical, field_canonical, Json.get?_canonical, within,
      production, counted, present, Json.canonical_eq (.str _), Json.canonical_eq (.str _),
      Json.canonical_eq (.bool _), healthy]
    rfl
  rw [exporterMain, loadSnapshot, read, ← gauges]
  rfl

def isHelp (row : List Nat) : Bool := (codes "# HELP ").isPrefixOf row

/-- What is exported of a health report is what the report has written for Prometheus itself, but
for the rows of help. -/
def Mirrored (report : Written) : Prop :=
  ∃ rows, report.prometheus = joined rows ∧
    exporterMain report.output none none = .ok (joined (rows.filter fun row => !isHelp row))

theorem mirrored_health {status : List Nat} {failures blockers : List (List Nat)}
    (wholeStatus : Json.Whole status) (wholeFailures : ∀ text ∈ failures, Json.Whole text)
    (wholeBlockers : ∀ text ∈ blockers, Json.Whole text) (recovery : Bool) :
    Mirrored (written float (healthEntries status failures blockers recovery)) := by
  let entries := healthEntries status failures blockers recovery
  have healthy : isText (field entries "local_status") "healthy" =
      (failures.isEmpty && recovery) := by
    change isText (.str (codes (if failures.isEmpty && recovery then "healthy" else "degraded")))
      "healthy" = _
    cases failures.isEmpty && recovery <;> decide
  have notNegative : isNegative (.int blockers.length) = false :=
    decide_eq_false (Int.natCast_nonneg blockers.length).not_gt
  have rows : Gauges.rows ⟨failures.isEmpty && recovery, status == codes "production_ready",
      .int blockers.length, recovery⟩ =
        .ok ((prometheusRows entries).filter fun row => !isHelp row) := by
    rw [Gauges.rows, intShown]
    simp only [notNegative, Bool.false_eq_true, if_false]
    rw [prometheusRows, healthy, List.filter_append, List.filter_append, List.filter_append]
    rfl
  refine ⟨prometheusRows entries, rfl, ?_⟩
  rw [written, exported_health wholeStatus wholeFailures wholeBlockers recovery none none]
  simp only [exportGauges, loadOptional, render, Bind.bind, Except.bind, pure, Except.pure,
    Option.elim_none, Option.map_none, rows, List.append_nil]

end Printed

/-! The two ways to the metrics -/

def countedBy (passed : Record → Bool) (ready : Bool) (gates : List Record) (recovery : Bool) :
    Gauges where
  localValidationPass := (gates.all fun gate => passed gate || !isLocal (idOf gate)) && recovery
  productionReadiness := ready
  externalBlockerCount := .int (failing passed gates).length
  recoveryArtifactPresent := recovery

section Ways

variable (python : Python) {float : ℚ → List Char} {matrixText : List Char} {matrix : Record}
  {gates : List Record} {status : List Nat}

theorem isEmpty_failing (gates : List Record) :
    (failing implemented gates).isEmpty = gates.all implemented := by
  induction gates with
  | nil => rfl
  | cons gate gates ih =>
      rw [List.all_cons, ← ih, failing_cons]
      cases implemented gate <;> simp

theorem ready_statusOf (gates : List Record) :
    (codes (statusOf gates) == codes "production_ready") = gates.all implemented := by
  rw [statusOf, ← isEmpty_failing, failing, blockersOf]
  cases (gates.filter fun gate => !implemented gate).isEmpty <;> decide

theorem healthMain_readiness {system : Json} (named : Named gates)
    (printable : Json.Printable (.indented 2 float) (.obj (readinessEntries system gates)))
    (recovery : Bool) :
    healthMain python float (printed float (readinessEntries system gates)) recovery =
      .ok (written float (healthEntries (codes (statusOf gates))
        (((failing implemented gates).map idOf).filter isLocal)
        ((failing implemented gates).map idOf) recovery)) := by
  let entries := readinessEntries system gates
  have declared : Json.get? "status" entries = some (.str (codes (statusOf gates))) := rfl
  have unlisted : Json.get? "gates" entries = none := rfl
  have blockers : Json.get? "blockers" entries =
    some (.arr ((failing implemented gates).map blockerJson)) := rfl
  have read := reportedBlockers_map python (named.filter fun gate => !implemented gate)
  have report : buildReport python (.obj (Json.ordered (Json.canonicalEntries entries)).entries)
      recovery = .ok (healthEntries (codes (statusOf gates))
        (((failing implemented gates).map idOf).filter isLocal)
        ((failing implemented gates).map idOf) recovery) := by
    simp only [buildReport, Json.get?_canonical, declared, unlisted, blockers, Option.map_some,
      Option.map_none, Json.canonical, Json.canonicalItems_eq, Option.getD_some, python.str_text]
    rw [failing, read]
  rw [healthMain, loads_printed printable]
  dsimp only
  rw [report]
  rfl

theorem healthMain_matrix (named : Named gates)
    (loaded : Json.loads matrixText = some (.obj matrix))
    (listed : Json.get? "gates" matrix = some (.arr (gates.map .obj)))
    (declared : Json.get? "status" matrix = some (.str status)) (recovery : Bool) :
    healthMain python float matrixText recovery =
      .ok (written float (healthEntries status
        (((failing isTrue gates).map idOf).filter isLocal)
        ((failing isTrue gates).map idOf) recovery)) := by
  simp only [healthMain, loaded, buildReport, listed, declared, Option.getD_some, python.str_text,
    localFailures_map python named, gateBlockers_map python named]
  rfl

theorem implemented_eq_isTrue {gate : Record}
    (plain : implemented gate = true → isTrue gate = true) : implemented gate = isTrue gate :=
  Bool.eq_iff_iff.mpr ⟨plain, implemented_of_isTrue⟩

/-- Both ways count the same blockers when each flag that counts as true is `True`. -/
theorem failing_length_iff (gates : List Record) :
    (failing implemented gates).length = (failing isTrue gates).length ↔
      ∀ gate ∈ gates, implemented gate = true → isTrue gate = true := by
  have fewer : (failing implemented gates).Sublist (failing isTrue gates) := by
    apply List.monotone_filter_right
    intro gate failed
    cases passed : isTrue gate with
    | false => rfl
    | true =>
        rw [implemented_of_isTrue passed] at failed
        cases failed
  constructor
  · intro same gate member passed
    by_contra absent
    have among : gate ∈ failing isTrue gates := List.mem_filter.mpr ⟨member, by simp [absent]⟩
    rw [← fewer.eq_of_length same] at among
    have failed := (List.mem_filter.mp among).2
    rw [passed] at failed
    cases failed
  · intro plain
    have same : failing implemented gates = failing isTrue gates := by
      refine List.filter_congr fun gate member => ?_
      rw [implemented_eq_isTrue (plain gate member)]
    rw [same]

theorem countedBy_eq_iff {ready declared : Bool} (recovery : Bool) :
    countedBy implemented ready gates recovery = countedBy isTrue declared gates recovery ↔
      ready = declared ∧ ∀ gate ∈ gates, implemented gate = true → isTrue gate = true := by
  constructor
  · intro same
    have counted := Json.int.inj (congrArg Gauges.externalBlockerCount same)
    exact ⟨congrArg Gauges.productionReadiness same,
      (failing_length_iff gates).mp (Int.ofNat.inj counted)⟩
  · rintro ⟨rfl, plain⟩
    have within : (gates.all fun gate => implemented gate || !isLocal (idOf gate)) =
        gates.all fun gate => isTrue gate || !isLocal (idOf gate) := by
      rw [Bool.eq_iff_iff, List.all_eq_true, List.all_eq_true]
      refine forall₂_congr fun gate member => ?_
      rw [implemented_eq_isTrue (plain gate member)]
    rw [countedBy, countedBy, within, (failing_length_iff gates).mpr plain]

theorem whole_idOf {style : Json.Style} {gate : Record}
    (printable : Json.Printable style (.obj gate)) : Json.Whole (idOf gate) := by
  have read := printable_field printable "id"
  rw [idOf]
  cases found : field gate "id" with
  | str text =>
      rw [found] at read
      cases read with
      | str whole => exact whole
  | _ => exact whole_text ""

/-- The metrics by way of the readiness check count what is implemented in its condition, those
by way of the matrix itself what is `True`, and they are the same exactly when no other value of a
flag passes the check and the matrix declares the status that the check finds. -/
theorem health_exported (loaded : Json.loads matrixText = some (.obj matrix))
    (listed : Json.get? "gates" matrix = some (.arr (gates.map .obj)))
    (declared : Json.get? "status" matrix = some (.str status)) (named : Named gates)
    (printable : Json.Printable (.indented 2 float) (.obj matrix)) (recovery : Bool)
    (portfolioText auditText : Option (List Char)) :
    ∃ readiness checked direct,
      readinessMain float matrixText =
        .ok (readiness, if gates.all implemented then 0 else 1) ∧
      healthMain python float readiness recovery = .ok checked ∧
      healthMain python float matrixText recovery = .ok direct ∧
      Mirrored checked ∧ Mirrored direct ∧
      exporterMain checked.output portfolioText auditText =
        exportGauges (countedBy implemented (gates.all implemented) gates recovery) portfolioText
          auditText ∧
      exporterMain direct.output portfolioText auditText =
        exportGauges (countedBy isTrue (status == codes "production_ready") gates recovery)
          portfolioText auditText ∧
      (countedBy implemented (gates.all implemented) gates recovery =
          countedBy isTrue (status == codes "production_ready") gates recovery ↔
        gates.all implemented = (status == codes "production_ready") ∧
          ∀ gate ∈ gates, implemented gate = true → isTrue gate = true) := by
  let system := (Json.get? "system" matrix).getD (.str (codes "Ito"))
  have printableGate : ∀ gate ∈ gates, Json.Printable (.indented 2 float) (.obj gate) := by
    cases printable_get? printable listed with
    | arr each => exact fun gate member => each _ (List.mem_map_of_mem member)
  have printableSystem : Json.Printable (.indented 2 float) system := by
    unfold system
    cases found : Json.get? "system" matrix with
    | none => exact .str (whole_text "Ito")
    | some value => exact printable_get? printable found
  have wholeStatus : Json.Whole status := by
    cases printable_get? printable declared with
    | str whole => exact whole
  have wholeIds {passed : Record → Bool} : ∀ id ∈ (failing passed gates).map idOf, Json.Whole id :=
    List.forall_mem_map.mpr fun gate member =>
      whole_idOf (printableGate gate (List.mem_of_mem_filter member))
  have wholeLocal {passed : Record → Bool} :
      ∀ id ∈ ((failing passed gates).map idOf).filter isLocal, Json.Whole id :=
    fun id member => wholeIds id (List.mem_of_mem_filter member)
  have ready : isText (field (readinessEntries system gates) "status") "production_ready" =
      gates.all implemented := ready_statusOf gates
  have checked : readinessMain float matrixText =
      .ok (printed float (readinessEntries system gates),
        if gates.all implemented then 0 else 1) := by
    simp only [readinessMain, loaded, evaluate, listed, Option.getD_some, gatesOf_map, ← ready]
    rfl
  refine ⟨_, _, _, checked,
    healthMain_readiness python named (printable_readiness printableSystem printableGate) recovery,
    healthMain_matrix python named loaded listed declared recovery,
    mirrored_health (whole_text _) wholeLocal wholeIds recovery,
    mirrored_health wholeStatus wholeLocal wholeIds recovery, ?_, ?_, countedBy_eq_iff recovery⟩
  · rw [written, exported_health (whole_text _) wholeLocal wholeIds, isEmpty_failures,
      ready_statusOf, List.length_map]
    rfl
  · rw [written, exported_health wholeStatus wholeLocal wholeIds, isEmpty_failures, List.length_map]
    rfl

end Ways

/-- A gate whose flag is `1`. -/
def flaggedGate : Record :=
  [(codes "id", .str (codes "GATE-SW-001")), (codes "implemented", .int 1)]

def flaggedMatrix : Record :=
  [(codes "gates", .arr ([flaggedGate].map .obj)),
    (codes "status", .str (codes "production_ready"))]

def flaggedText : List Char := Json.dumps (.compact fun _ => []) (.obj flaggedMatrix)

theorem flaggedMatrix_canonical : Json.Canonical (.obj flaggedMatrix) := by
  have gate : Json.Canonical (.obj flaggedGate) := by
    refine .of_keys [codes "id", codes "implemented"] rfl (by decide +kernel) ?_
    simp only [flaggedGate, List.forall_mem_cons, List.not_mem_nil, false_implies, implies_true,
      and_true]
    exact ⟨.str _, .int 1⟩
  refine .of_keys [codes "gates", codes "status"] rfl (by decide +kernel) ?_
  simp only [flaggedMatrix, List.forall_mem_cons, List.not_mem_nil, false_implies, implies_true,
    and_true]
  exact ⟨.arr (List.forall_mem_singleton.mpr gate), .str _⟩

theorem flaggedMatrix_printable (style : Json.Style) :
    Json.Printable style (.obj flaggedMatrix) := by
  have gate : Json.Printable style (.obj flaggedGate) := by
    refine .obj (by simp [flaggedGate, whole_text]) ?_
    simp only [flaggedGate, List.forall_mem_cons, List.not_mem_nil, false_implies, implies_true,
      and_true]
    exact ⟨.str (whole_text _), .int 1⟩
  refine .obj (by simp [flaggedMatrix, whole_text]) ?_
  simp only [flaggedMatrix, List.forall_mem_cons, List.not_mem_nil, false_implies, implies_true,
    and_true]
  exact ⟨.arr (List.forall_mem_singleton.mpr gate), .str (whole_text _)⟩

theorem loads_flaggedText : Json.loads flaggedText = some (.obj flaggedMatrix) := by
  have read := Json.loads_dumps (flaggedMatrix_printable (.compact fun _ => []))
    (List.forall_mem_nil _)
  rwa [List.append_nil, Json.canonical_eq flaggedMatrix_canonical] at read

/-- A flag that is `1` passes the readiness check, and fails in the health report. -/
theorem health_exported_flagged :
    ∃ readiness checked direct,
      readinessMain (fun _ => []) flaggedText = .ok (readiness, 0) ∧
      healthMain RegisterMap.plainPython (fun _ => []) readiness true = .ok checked ∧
      healthMain RegisterMap.plainPython (fun _ => []) flaggedText true = .ok direct ∧
      exporterMain checked.output none none = exportGauges ⟨true, true, .int 0, true⟩ none none ∧
      exporterMain direct.output none none = exportGauges ⟨false, true, .int 1, true⟩ none none := by
  have named : Named [flaggedGate] := List.forall_mem_singleton.mpr ⟨codes "GATE-SW-001", rfl⟩
  rcases health_exported RegisterMap.plainPython loads_flaggedText rfl rfl named
    (flaggedMatrix_printable (.indented 2 fun _ => [])) true none none with
    ⟨readiness, checked, direct, printed, reported, straight, -, -, ofChecked, ofDirect, -⟩
  exact ⟨readiness, checked, direct, printed, reported, straight, ofChecked, ofDirect⟩

end Ito.Health
