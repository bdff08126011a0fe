import Ito.Library.Json
import Ito.Library.PythonText

/-! The tool that lists orders of uncertain fate from a journal file.

Source: `python/ops_tools/reconcile_uncertain_orders.py`. A line that raises is
passed over, as the source does. A file that is not UTF-8 raises: that is `none`
here. The time stamp of the report is left out. -/

namespace Ito.Reconcile

open PythonText

inductive OrderStatus where
  | uncertain
  | resolvedViaReconciliation
  deriving DecidableEq, Repr

structure UncertainOrder where
  line : Nat
  correlationId : Json
  eventId : Json
  status : OrderStatus := .uncertain

inductive ResolvedOrder where
  | acknowledged (correlationId : Json)
  | reconciled (order : UncertainOrder)

structure Progress where
  uncertainOrders : List UncertainOrder := []
  resolvedOrders : List ResolvedOrder := []

/-- `record.get(key, default)`. -/
def getD (record : List (List Nat × Json)) (key : String) (default : Json) : Json :=
  (Json.get? key record).getD default

def readRecord (progress : Progress) (lineNumber : Nat) (record : List (List Nat × Json)) :
    Progress :=
  if Json.same (getD record "event_type" .null) (.int 3) then
    let order : UncertainOrder :=
      { line := lineNumber
        correlationId := getD record "correlation_id" (.int 0)
        eventId := getD record "event_id" .null }
    { progress with uncertainOrders := progress.uncertainOrders ++ [order] }
  else if Json.same (getD record "event_type" .null) (.int 4) then
    let correlationId := getD record "correlation_id" (.int 0)
    { uncertainOrders := progress.uncertainOrders.filter fun order =>
        !Json.same order.correlationId correlationId
      resolvedOrders := progress.resolvedOrders ++ [.acknowledged correlationId] }
  else progress

def readLine (progress : Progress) (lineNumber : Nat) (line : List Char) : Progress :=
  if strip line = [] then progress
  else
    match Json.loads (strip line) with
    | some (.obj record) => readRecord progress lineNumber record
    | _ => progress

def readLines (progress : Progress) (lineNumber : Nat) : List (List Char) → Progress
  | [] => progress
  | line :: rest => readLines (readLine progress lineNumber line) (lineNumber + 1) rest

inductive Report where
  | notFound
  | reconciled (venueId : String) (uncertainCount resolvedCount : Nat)
      (uncertainOrders : List UncertainOrder)

/-- `reconcile_orders` on the content of the journal, or on a path without a file. -/
def reconcileOrders (journal : Option Bytes) (venueId : String) (autoResolve : Bool := false) :
    Option Report :=
  match journal with
  | none => some .notFound
  | some content =>
      (decodeUtf8 content).map fun text =>
        let progress := readLines {} 1 (fileLines (universalNewlines text))
        if autoResolve then
          let resolved := progress.uncertainOrders.map fun order =>
            ResolvedOrder.reconciled { order with status := .resolvedViaReconciliation }
          .reconciled venueId 0 (progress.resolvedOrders ++ resolved).length []
        else
          .reconciled venueId progress.uncertainOrders.length progress.resolvedOrders.length
            progress.uncertainOrders

end Ito.Reconcile
