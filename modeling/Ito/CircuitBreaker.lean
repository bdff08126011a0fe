import Ito.Library.SortedMap
import Ito.Library.WrappingInt
import Mathlib.Data.String.Basic

/-! The dynamic circuit-breaker engine.

Source: `ocaml/circuit_breaker/circuit_breaker.ml`. An `int64` of the source wraps. -/

namespace Ito.CircuitBreaker

inductive Scope where
  | strategy
  | venue
  | branch
  | group
  deriving DecidableEq, Repr

inductive State where
  | closed
  | open
  | halfOpen
  deriving DecidableEq, Repr

structure Rule where
  identifier : String
  scope : Scope
  threshold : Int64
  cooldownNs : Int64
  manualClear : Bool
  deriving DecidableEq, Repr

structure Runtime where
  rule : Rule
  state : State
  violations : Int64
  openedAtNs : Int64
  trips : Int64
  deriving DecidableEq, Repr

inductive PolicyUpdate where
  | add (rule : Rule)
  | replace (rule : Rule)
  | remove (identifier : String)
  deriving DecidableEq, Repr

abbrev Engine := SortedMap (fun a b : String => a < b) Runtime

def empty : Engine := SortedMap.empty

def saturatingAdd (left right : Int64) : Int64 :=
  if right > 0 ∧ left > Int64.maxValue - right then Int64.maxValue
  else if right < 0 ∧ left < Int64.minValue - right then Int64.minValue
  else left + right

def install (engine : Engine) (rule : Rule) : Engine :=
  if rule.identifier = "" ∨ rule.threshold ≤ 0 ∨ rule.cooldownNs < 0 then engine
  else engine.set rule.identifier
    { rule, state := .closed, violations := 0, openedAtNs := 0, trips := 0 }

def applyUpdate (engine : Engine) : PolicyUpdate → Engine
  | .add rule => install engine rule
  | .replace rule =>
      if (engine.find? rule.identifier).isSome then install engine rule
      else engine
  | .remove identifier => engine.erase identifier

def state (engine : Engine) (identifier : String) : Option State :=
  match engine.find? identifier with
  | some runtime => some runtime.state
  | none => none

def observe (engine : Engine) (identifier : String) (amount nowNs : Int64) : Engine :=
  match engine.find? identifier with
  | none => engine
  | some runtime =>
      if runtime.state = .open ∨ amount ≤ 0 then engine
      else
        let violations := saturatingAdd runtime.violations amount
        if violations ≥ runtime.rule.threshold then
          engine.set identifier
            { runtime with
              state := .open, violations, openedAtNs := nowNs
              trips := saturatingAdd runtime.trips 1 }
        else engine.set identifier { runtime with violations }

def advanceTime (engine : Engine) (nowNs : Int64) : Engine :=
  engine.mapValues fun _ runtime =>
    if runtime.state = .open ∧ !runtime.rule.manualClear ∧ nowNs ≥ runtime.openedAtNs ∧
        nowNs - runtime.openedAtNs ≥ runtime.rule.cooldownNs then
      { runtime with state := .halfOpen }
    else runtime

def clear (engine : Engine) (identifier : String) : Engine :=
  match engine.find? identifier with
  | some runtime =>
      if runtime.rule.manualClear ∨ runtime.state = .halfOpen then
        engine.set identifier { runtime with state := .closed, violations := 0, openedAtNs := 0 }
      else engine
  | none => engine

def tripCount (engine : Engine) (identifier : String) : Int64 :=
  match engine.find? identifier with
  | some runtime => runtime.trips
  | none => 0

inductive Op where
  | install (rule : Rule)
  | applyUpdate (update : PolicyUpdate)
  | observe (identifier : String) (amount nowNs : Int64)
  | advanceTime (nowNs : Int64)
  | clear (identifier : String)
  deriving DecidableEq, Repr

def apply (engine : Engine) : Op → Engine
  | .install rule => install engine rule
  | .applyUpdate update => applyUpdate engine update
  | .observe identifier amount nowNs => observe engine identifier amount nowNs
  | .advanceTime nowNs => advanceTime engine nowNs
  | .clear identifier => clear engine identifier

def run (engine : Engine) (ops : List Op) : Engine := ops.foldl apply engine

/-- The rules `install` accepts. -/
structure Rule.Valid (rule : Rule) : Prop where
  named : rule.identifier ≠ ""
  threshold : 0 < rule.threshold.toInt
  cooldown : 0 ≤ rule.cooldownNs.toInt

theorem Rule.valid_iff (rule : Rule) :
    rule.Valid ↔ ¬ (rule.identifier = "" ∨ rule.threshold ≤ 0 ∨ rule.cooldownNs < 0) := by
  simp only [not_or, Int64.lt_iff_toInt_lt, Int64.le_iff_toInt_le, Int64.toInt_zero, Int.not_le,
    Int.not_lt]
  constructor
  · intro valid
    exact ⟨valid.named, valid.threshold, valid.cooldown⟩
  · intro checks
    exact ⟨checks.1, checks.2.1, checks.2.2⟩

instance (rule : Rule) : Decidable rule.Valid := decidable_of_iff' _ rule.valid_iff

theorem toInt_saturatingAdd (left right : Int64) :
    (saturatingAdd left right).toInt =
      max (-2 ^ 63) (min (left.toInt + right.toInt) (2 ^ 63 - 1)) := by
  have leftLow := left.le_toInt
  have leftHigh := left.toInt_lt
  have rightLow := right.le_toInt
  have rightHigh := right.toInt_lt
  have top := Int64.toInt_maxValue
  have bottom := Int64.toInt_minValue
  rw [saturatingAdd]
  simp only [gt_iff_lt, Int64.lt_iff_toInt_lt, Int64.toInt_zero]
  by_cases positive : 0 < right.toInt
  · have room : (Int64.maxValue - right).toInt = 2 ^ 63 - 1 - right.toInt := by
      rw [WrappingInt.toInt_sub_of_fits (by omega) (by omega), top]
    rw [room]
    split
    · omega
    · rw [if_neg (by omega), WrappingInt.toInt_add_of_fits (by omega) (by omega)]
      omega
  · rw [if_neg (fun both => positive both.1)]
    by_cases negative : right.toInt < 0
    · have room : (Int64.minValue - right).toInt = -2 ^ 63 - right.toInt := by
        rw [WrappingInt.toInt_sub_of_fits (by omega) (by omega), bottom]
      rw [room]
      split
      · omega
      · rw [WrappingInt.toInt_add_of_fits (by omega) (by omega)]
        omega
    · rw [if_neg (fun both => negative both.1),
        WrappingInt.toInt_add_of_fits (by omega) (by omega)]
      omega

/-! One breaker of the engine. No call on it depends on any other. -/

def fresh (rule : Rule) : Runtime :=
  { rule, state := .closed, violations := 0, openedAtNs := 0, trips := 0 }

def Runtime.observed (runtime : Runtime) (amount nowNs : Int64) : Runtime :=
  if runtime.state = .open ∨ amount ≤ 0 then runtime
  else if saturatingAdd runtime.violations amount ≥ runtime.rule.threshold then
    { runtime with
      state := .open, violations := saturatingAdd runtime.violations amount, openedAtNs := nowNs
      trips := saturatingAdd runtime.trips 1 }
  else { runtime with violations := saturatingAdd runtime.violations amount }

def Runtime.cooled (runtime : Runtime) (nowNs : Int64) : Runtime :=
  if runtime.state = .open ∧ !runtime.rule.manualClear ∧ nowNs ≥ runtime.openedAtNs ∧
      nowNs - runtime.openedAtNs ≥ runtime.rule.cooldownNs then
    { runtime with state := .halfOpen }
  else runtime

def Runtime.cleared (runtime : Runtime) : Runtime :=
  if runtime.rule.manualClear ∨ runtime.state = .halfOpen then
    { runtime with state := .closed, violations := 0, openedAtNs := 0 }
  else runtime

/-- The call puts a new rule under the identifier, given what is there. -/
def Installs (identifier : String) (cell : Option Runtime) : Op → Prop
  | .install rule | .applyUpdate (.add rule) => rule.identifier = identifier ∧ rule.Valid
  | .applyUpdate (.replace rule) =>
      rule.identifier = identifier ∧ rule.Valid ∧ cell.isSome
  | _ => False

instance (identifier : String) (cell : Option Runtime) (op : Op) :
    Decidable (Installs identifier cell op) :=
  match op with
  | .install _ | .applyUpdate (.add _) => inferInstanceAs (Decidable (_ ∧ _))
  | .applyUpdate (.replace _) => inferInstanceAs (Decidable (_ ∧ _ ∧ _))
  | .applyUpdate (.remove _) | .observe _ _ _ | .advanceTime _ | .clear _ =>
      inferInstanceAs (Decidable False)

def step (identifier : String) (cell : Option Runtime) (op : Op) : Option Runtime :=
  match op with
  | .install rule | .applyUpdate (.add rule) | .applyUpdate (.replace rule) =>
      if Installs identifier cell op then some (fresh rule) else cell
  | .applyUpdate (.remove other) => if other = identifier then none else cell
  | .observe other amount nowNs =>
      if other = identifier then cell.map (·.observed amount nowNs) else cell
  | .advanceTime nowNs => cell.map (·.cooled nowNs)
  | .clear other => if other = identifier then cell.map Runtime.cleared else cell

theorem find?_stored (engine : Engine) (identifier other : String) (runtime : Runtime) :
    (engine.set other runtime).find? identifier =
      if other = identifier then some runtime else engine.find? identifier := by
  rw [SortedMap.find?_set]
  exact if_congr eq_comm rfl rfl

theorem find?_install (engine : Engine) (identifier : String) (rule : Rule) :
    (install engine rule).find? identifier =
      if rule.identifier = identifier ∧ rule.Valid then some (fresh rule)
      else engine.find? identifier := by
  rw [install]
  by_cases valid : rule.Valid
  · rw [if_neg (rule.valid_iff.mp valid), find?_stored]
    simp only [valid, and_true]
    rfl
  · rw [if_pos (not_not.mp (rule.valid_iff.not.mp valid)), if_neg (fun both => valid both.2)]

theorem find?_updated {engine next : Engine} {other : String} {f : Runtime → Runtime}
    (absent : engine.find? other = none → next = engine)
    (present : ∀ runtime, engine.find? other = some runtime →
      next = engine ∧ f runtime = runtime ∨ next = engine.set other (f runtime))
    (identifier : String) :
    next.find? identifier =
      if other = identifier then (engine.find? identifier).map f else engine.find? identifier := by
  cases found : engine.find? other with
  | none =>
      rw [absent found]
      split
      case isTrue same => rw [← same, found, Option.map_none]
      case isFalse => rfl
  | some runtime =>
      rcases present runtime found with ⟨kept, fixed⟩ | set
      · rw [kept]
        split
        case isTrue same => rw [← same, found, Option.map_some, fixed]
        case isFalse => rfl
      · rw [set, find?_stored]
        split
        case isTrue same => rw [← same, found, Option.map_some]
        case isFalse => rfl

theorem find?_observe (engine : Engine) (identifier other : String) (amount nowNs : Int64) :
    (observe engine other amount nowNs).find? identifier =
      if other = identifier then (engine.find? identifier).map (·.observed amount nowNs)
      else engine.find? identifier := by
  apply find?_updated
  · intro absent
    rw [observe, absent]
  · intro runtime found
    simp only [observe, found, Runtime.observed]
    by_cases idle : runtime.state = .open ∨ amount ≤ 0
    · rw [if_pos idle, if_pos idle]
      exact .inl ⟨rfl, rfl⟩
    · rw [if_neg idle, if_neg idle, apply_ite (engine.set other)]
      exact .inr rfl

theorem find?_clear (engine : Engine) (identifier other : String) :
    (clear engine other).find? identifier =
      if other = identifier then (engine.find? identifier).map Runtime.cleared
      else engine.find? identifier := by
  apply find?_updated
  · intro absent
    rw [clear, absent]
  · intro runtime found
    simp only [clear, found, Runtime.cleared]
    by_cases clears : runtime.rule.manualClear ∨ runtime.state = .halfOpen
    · rw [if_pos clears, if_pos clears]
      exact .inr rfl
    · rw [if_neg clears, if_neg clears]
      exact .inl ⟨rfl, rfl⟩

theorem find?_replace (engine : Engine) (identifier : String) (rule : Rule) :
    (applyUpdate engine (.replace rule)).find? identifier =
      if rule.identifier = identifier ∧ rule.Valid ∧ (engine.find? identifier).isSome then
        some (fresh rule)
      else engine.find? identifier := by
  rw [applyUpdate]
  by_cases same : rule.identifier = identifier
  · rw [same, apply_ite fun next : Engine => next.find? identifier, find?_install, ← ite_and]
    simp only [same, true_and, and_comm]
  · have kept : (install engine rule).find? identifier = engine.find? identifier := by
      rw [find?_install, if_neg fun both => same both.1]
    rw [apply_ite fun next : Engine => next.find? identifier, kept, ite_self,
      if_neg fun all => same all.1]

theorem find?_apply (engine : Engine) (identifier : String) (op : Op) :
    (apply engine op).find? identifier = step identifier (engine.find? identifier) op := by
  cases op with
  | install rule => exact find?_install engine identifier rule
  | applyUpdate update =>
      cases update with
      | add rule => exact find?_install engine identifier rule
      | replace rule => exact find?_replace engine identifier rule
      | remove other =>
          rw [apply, applyUpdate, SortedMap.find?_erase]
          exact if_congr eq_comm rfl rfl
  | observe other amount nowNs => exact find?_observe engine identifier other amount nowNs
  | advanceTime nowNs => exact SortedMap.find?_mapValues engine _ identifier
  | clear other => exact find?_clear engine identifier other

theorem find?_run (engine : Engine) (identifier : String) (ops : List Op) :
    (run engine ops).find? identifier = ops.foldl (step identifier) (engine.find? identifier) := by
  induction ops generalizing engine with
  | nil => rfl
  | cons op ops ih =>
      rw [List.foldl_cons, ← find?_apply]
      exact ih (apply engine op)

end Ito.CircuitBreaker
