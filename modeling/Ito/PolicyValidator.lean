import Ito.ReleaseBinding
import Mathlib.Data.List.Nodup

/-! The validator of the two policies, and what it promises the release that binds them.

Source: `ocaml/policy_engine/risk_policy_validator.ml`. A `Type_error` of `Yojson.Safe.Util` is
`none`. -/

namespace Ito.PolicyValidator

open Json (codes)

/-- `member`: the first entry with the key, or null. -/
def member (key : String) : Json → Option Json
  | .obj entries => some ((entries.lookup (codes key.toList)).getD .null)
  | _ => none

def toStringOption : Json → Option (Option (List Nat))
  | .str text => some (some text)
  | .null => some none
  | _ => none

/-- An integer of 63 bits; the reader keeps a larger one as its text. -/
def toInt : Json → Option Int
  | .int value => if -2 ^ 62 ≤ value ∧ value < 2 ^ 62 then some value else none
  | _ => none

def toList : Json → Option (List Json)
  | .arr items => some items
  | _ => none

def requiredString (value : Json) (key : String) : Option (Except String (List Nat)) :=
  ((member key value).bind toStringOption).map fun found =>
    match found with
    | some text => if text.length > 0 then .ok text else .error (key ++ "_missing")
    | none => .error (key ++ "_missing")

def requiredInt (value : Json) (key : String) : Except String Int :=
  match (member key value).bind toInt with
  | some found => if found > 0 then .ok found else .error (key ++ "_invalid")
  | none => .error (key ++ "_missing")

/-- `Result.bind` after an expression that may raise. -/
def andThen {A B : Type} (result : Option (Except String A))
    (next : A → Option (Except String B)) : Option (Except String B) :=
  match result with
  | none => none
  | some (.error reason) => some (.error reason)
  | some (.ok value) => next value

def validateBreaker (breaker : Json) : Option (Except String (List Nat)) :=
  andThen (requiredString breaker "id") fun _ =>
    andThen (requiredString breaker "scope") fun _ =>
      andThen (requiredString breaker "trigger") fun _ =>
        andThen (some (requiredInt breaker "threshold")) fun _ =>
          andThen (requiredString breaker "action") fun _ =>
            requiredString breaker "recovery"

def validateRiskPolicy (value : Json) (nowNs : Int) : Option (Except String Unit) :=
  andThen (some (requiredInt value "policy_version")) fun _ =>
    andThen (some (requiredInt value "expires_at_ns")) fun expiresAtNs =>
      if expiresAtNs ≤ nowNs then some (.error "policy_expired")
      else
        (member "pre_trade" value).bind fun preTrade =>
          andThen (some (requiredInt preTrade "max_order_quantity")) fun _ =>
            andThen (some (requiredInt preTrade "max_order_notional_ticks")) fun _ =>
              andThen (some (requiredInt preTrade "max_net_position")) fun _ =>
                andThen (some (requiredInt preTrade "max_orders_per_second")) fun _ =>
                  some (.ok ())

/-- `List.find_opt`, and the reason of the breaker that it finds. -/
def firstInvalid : List Json → Option (Option String)
  | [] => some none
  | breaker :: breakers =>
      match validateBreaker breaker with
      | none => none
      | some (.error reason) => some (some reason)
      | some (.ok _) => firstInvalid breakers

def validateCircuitBreakerPolicy (value : Json) (nowNs : Int) : Except String Unit := do
  let _ ← requiredInt value "policy_version"
  let expiresAtNs ← requiredInt value "expires_at_ns"
  if expiresAtNs ≤ nowNs then .error "policy_expired"
  else
    match ((member "breakers" value).bind toList).bind firstInvalid with
    | some (some reason) => .error reason
    | some none => .ok ()
    | none => .error "breakers_not_list"

inductive Verdict where
  | policyValid
  | policyInvalid (reason : String)
  | circuitBreakerInvalid (reason : String)
  | typeError
  deriving DecidableEq, Repr

/-- What `main` reports of two policies that it could read. -/
def verdict (riskPolicy breakerPolicy : Json) (nowNs : Int) : Verdict :=
  match validateRiskPolicy riskPolicy nowNs with
  | none => .typeError
  | some (.error reason) => .policyInvalid reason
  | some (.ok ()) =>
      match validateCircuitBreakerPolicy breakerPolicy nowNs with
      | .error reason => .circuitBreakerInvalid reason
      | .ok () => .policyValid

/-! What is accepted -/

def Positive (entries : List (List Nat × Json)) (key : String) (value : Int) : Prop :=
  entries.lookup (codes key.toList) = some (.int value) ∧ 0 < value ∧ value < 2 ^ 62

def Named (entries : List (List Nat × Json)) (key : String) : Prop :=
  ∃ text, entries.lookup (codes key.toList) = some (.str text) ∧ text ≠ []

structure Current (entries : List (List Nat × Json)) (nowNs : Int) : Prop where
  version : ∃ version, Positive entries "policy_version" version
  expires : ∃ expires, Positive entries "expires_at_ns" expires ∧ nowNs < expires

def limits : List String :=
  ["max_order_quantity", "max_order_notional_ticks", "max_net_position", "max_orders_per_second"]

def RiskValid (policy : Json) (nowNs : Int) : Prop :=
  ∃ entries preTrade, policy = .obj entries ∧ Current entries nowNs ∧
    entries.lookup (codes "pre_trade".toList) = some (.obj preTrade) ∧
    ∀ key ∈ limits, ∃ value, Positive preTrade key value

def BreakerValid (breaker : Json) : Prop :=
  ∃ entries, breaker = .obj entries ∧ (∃ threshold, Positive entries "threshold" threshold) ∧
    ∀ key ∈ ["id", "scope", "trigger", "action", "recovery"], Named entries key

def BreakersValid (policy : Json) (nowNs : Int) : Prop :=
  ∃ entries breakers, policy = .obj entries ∧ Current entries nowNs ∧
    entries.lookup (codes "breakers".toList) = some (.arr breakers) ∧
    ∀ breaker ∈ breakers, BreakerValid breaker

theorem member_eq_some {value found : Json} {key : String} (present : found ≠ .null) :
    member key value = some found ↔
      ∃ entries, value = .obj entries ∧ entries.lookup (codes key.toList) = some found := by
  cases value with
  | obj entries =>
      simp only [member, Option.some.injEq, Json.obj.injEq, exists_eq_left']
      cases entries.lookup (codes key.toList) with
      | none => simp [present.symm]
      | some other => simp
  | _ => simp [member]

theorem requiredInt_eq_ok {value : Json} {key : String} {found : Int} :
    requiredInt value key = .ok found ↔ ∃ entries, value = .obj entries ∧ Positive entries key found := by
  have read : (member key value).bind toInt = some found ↔
      member key value = some (.int found) ∧ -2 ^ 62 ≤ found ∧ found < 2 ^ 62 := by
    rw [Option.bind_eq_some_iff]
    constructor
    · rintro ⟨json, held, isInt⟩
      cases json with
      | int other =>
          rw [toInt, Option.ite_none_right_eq_some] at isInt
          rcases isInt with ⟨bounds, same⟩
          cases same
          exact ⟨held, bounds⟩
      | _ => cases isInt
    · rintro ⟨held, bounds⟩
      exact ⟨_, held, if_pos bounds⟩
  rw [member_eq_some (by simp)] at read
  have result : requiredInt value key = .ok found ↔
      (member key value).bind toInt = some found ∧ 0 < found := by
    rw [requiredInt]
    cases (member key value).bind toInt with
    | none => simp
    | some other =>
        dsimp only
        split
        case isTrue positive =>
          rw [Except.ok.injEq, Option.some.injEq]
          exact ⟨fun same => ⟨same, same ▸ positive⟩, And.left⟩
        case isFalse negative =>
          refine ⟨fun impossible => (nomatch impossible), ?_⟩
          rintro ⟨same, positive⟩
          rw [Option.some.injEq] at same
          exact absurd (same ▸ positive) negative
  rw [result, read]
  constructor
  · rintro ⟨⟨⟨entries, same, held⟩, bounds⟩, positive⟩
    exact ⟨entries, same, held, positive, bounds.2⟩
  · rintro ⟨entries, same, held, positive, small⟩
    exact ⟨⟨⟨entries, same, held⟩, by omega, small⟩, positive⟩

theorem requiredString_eq_ok {value : Json} {key : String} :
    (∃ text, requiredString value key = some (.ok text)) ↔
      ∃ entries, value = .obj entries ∧ Named entries key := by
  have read : ∀ text, requiredString value key = some (.ok text) ↔
      member key value = some (.str text) ∧ text ≠ [] := by
    intro text
    rw [requiredString]
    cases member key value with
    | none => simp
    | some json =>
        cases json with
        | str other =>
            simp only [Option.bind_some, toStringOption, Option.map_some, Option.some.injEq,
              Json.str.injEq, List.length_pos_iff]
            by_cases empty : other = []
            · simp only [empty, ne_eq, not_true_eq_false, if_false]
              exact ⟨fun impossible => (nomatch impossible), fun both => absurd both.1.symm both.2⟩
            · rw [if_pos empty, Except.ok.injEq]
              exact ⟨fun same => ⟨same, same ▸ empty⟩, And.left⟩
        | _ => simp [toStringOption]
  have held : ∀ text, member key value = some (.str text) ↔
      ∃ entries, value = .obj entries ∧ entries.lookup (codes key.toList) = some (.str text) :=
    fun text => member_eq_some (by simp)
  simp only [read, held, Named]
  constructor
  · rintro ⟨text, ⟨entries, same, held⟩, some'⟩
    exact ⟨entries, same, text, held, some'⟩
  · rintro ⟨entries, same, text, held, some'⟩
    exact ⟨text, ⟨entries, same, held⟩, some'⟩

theorem andThen_eq_ok {A B : Type} {result : Option (Except String A)}
    {next : A → Option (Except String B)} {value : B} :
    andThen result next = some (.ok value) ↔
      ∃ found, result = some (.ok found) ∧ next found = some (.ok value) := by
  rcases result with _ | _ | _ <;> simp [andThen]

theorem andThen_total {A B : Type} {result : Except String A}
    {next : A → Option (Except String B)} (total : ∀ value, next value ≠ none) :
    andThen (some result) next ≠ none := by
  cases result with
  | error reason => simp [andThen]
  | ok value => exact total value

theorem current_iff {policy : Json} {nowNs : Int} :
    (∃ version, requiredInt policy "policy_version" = .ok version) ∧
        (∃ expires, requiredInt policy "expires_at_ns" = .ok expires ∧ ¬ expires ≤ nowNs) ↔
      ∃ entries, policy = .obj entries ∧ Current entries nowNs := by
  simp only [requiredInt_eq_ok, not_le]
  constructor
  · rintro ⟨⟨version, entries, same, isVersion⟩, expires, ⟨others, same', isExpiry⟩, later⟩
    rw [same, Json.obj.injEq] at same'
    exact ⟨entries, same, ⟨version, isVersion⟩, expires, same' ▸ isExpiry, later⟩
  · rintro ⟨entries, same, ⟨version, isVersion⟩, expires, isExpiry, later⟩
    exact ⟨⟨version, entries, same, isVersion⟩, expires, ⟨entries, same, isExpiry⟩, later⟩

theorem breaker_iff {breaker : Json} :
    (∃ text, validateBreaker breaker = some (.ok text)) ↔ BreakerValid breaker := by
  have strings : ∀ key, (∃ text, requiredString breaker key = some (.ok text)) ↔
      ∃ entries, breaker = .obj entries ∧ Named entries key := fun key => requiredString_eq_ok
  have chain : (∃ text, validateBreaker breaker = some (.ok text)) ↔
      (∃ text, requiredString breaker "id" = some (.ok text)) ∧
        (∃ text, requiredString breaker "scope" = some (.ok text)) ∧
        (∃ text, requiredString breaker "trigger" = some (.ok text)) ∧
        (∃ threshold, requiredInt breaker "threshold" = .ok threshold) ∧
        (∃ text, requiredString breaker "action" = some (.ok text)) ∧
        ∃ text, requiredString breaker "recovery" = some (.ok text) := by
    simp only [validateBreaker, andThen_eq_ok, Option.some.injEq]
    constructor
    · rintro ⟨text, id, isId, scope, isScope, trigger, isTrigger, threshold, isThreshold, action,
        isAction, isRecovery⟩
      exact ⟨⟨id, isId⟩, ⟨scope, isScope⟩, ⟨trigger, isTrigger⟩, ⟨threshold, isThreshold⟩,
        ⟨action, isAction⟩, text, isRecovery⟩
    · rintro ⟨⟨id, isId⟩, ⟨scope, isScope⟩, ⟨trigger, isTrigger⟩, ⟨threshold, isThreshold⟩,
        ⟨action, isAction⟩, text, isRecovery⟩
      exact ⟨text, id, isId, scope, isScope, trigger, isTrigger, threshold, isThreshold, action,
        isAction, isRecovery⟩
  rw [chain]
  simp only [strings, requiredInt_eq_ok]
  cases breaker with
  | obj entries =>
      simp only [Json.obj.injEq, exists_eq_left', BreakerValid, List.forall_mem_cons]
      constructor
      · rintro ⟨id, scope, trigger, threshold, action, recovery⟩
        exact ⟨threshold, id, scope, trigger, action, recovery, fun _ none => (nomatch none)⟩
      · rintro ⟨threshold, id, scope, trigger, action, recovery, -⟩
        exact ⟨id, scope, trigger, threshold, action, recovery⟩
  | _ => simp [BreakerValid]

theorem firstInvalid_eq {breakers : List Json} :
    firstInvalid breakers = some none ↔ ∀ breaker ∈ breakers, BreakerValid breaker := by
  induction breakers with
  | nil => simp [firstInvalid]
  | cons breaker breakers ih =>
      rw [List.forall_mem_cons, ← breaker_iff, ← ih, firstInvalid]
      rcases validateBreaker breaker with _ | _ | text <;> simp

theorem risk_iff {policy : Json} {nowNs : Int} :
    validateRiskPolicy policy nowNs = some (.ok ()) ↔ RiskValid policy nowNs := by
  have chain : validateRiskPolicy policy nowNs = some (.ok ()) ↔
      ((∃ version, requiredInt policy "policy_version" = .ok version) ∧
        (∃ expires, requiredInt policy "expires_at_ns" = .ok expires ∧ ¬ expires ≤ nowNs)) ∧
      ∃ preTrade, member "pre_trade" policy = some preTrade ∧
        ∀ key ∈ limits, ∃ value, requiredInt preTrade key = .ok value := by
    simp only [validateRiskPolicy, andThen_eq_ok, Option.some.injEq, limits, List.forall_mem_cons]
    constructor
    · rintro ⟨version, isVersion, expires, isExpiry, rest⟩
      split at rest
      case isTrue => cases rest
      case isFalse later =>
        rcases Option.bind_eq_some_iff.mp rest with ⟨preTrade, held, rest⟩
        simp only [andThen_eq_ok, Option.some.injEq] at rest
        rcases rest with ⟨quantity, isQuantity, notional, isNotional, position, isPosition, rate,
          isRate, -⟩
        exact ⟨⟨⟨version, isVersion⟩, expires, isExpiry, later⟩, preTrade, held,
          ⟨quantity, isQuantity⟩, ⟨notional, isNotional⟩, ⟨position, isPosition⟩, ⟨rate, isRate⟩,
          fun _ none => (nomatch none)⟩
    · rintro ⟨⟨⟨version, isVersion⟩, expires, isExpiry, later⟩, preTrade, held,
        ⟨quantity, isQuantity⟩, ⟨notional, isNotional⟩, ⟨position, isPosition⟩, ⟨rate, isRate⟩, -⟩
      refine ⟨version, isVersion, expires, isExpiry, ?_⟩
      rw [if_neg later, held, Option.bind_some]
      simp only [andThen_eq_ok, Option.some.injEq]
      exact ⟨quantity, isQuantity, notional, isNotional, position, isPosition, rate, isRate, trivial⟩
  rw [chain, current_iff]
  simp only [requiredInt_eq_ok]
  constructor
  · rintro ⟨⟨entries, rfl, current⟩, preTrade, held, bounded⟩
    rcases bounded "max_order_quantity" (by simp [limits]) with ⟨value, inside, rfl, -⟩
    rcases (member_eq_some (by simp)).mp held with ⟨others, same, found⟩
    rw [Json.obj.injEq] at same
    subst same
    refine ⟨entries, inside, rfl, current, found, fun key member => ?_⟩
    rcases bounded key member with ⟨value, others, same, positive⟩
    rw [Json.obj.injEq] at same
    exact ⟨value, same ▸ positive⟩
  · rintro ⟨entries, preTrade, rfl, current, found, bounded⟩
    refine ⟨⟨entries, rfl, current⟩, _, (member_eq_some (by simp)).mpr ⟨entries, rfl, found⟩, ?_⟩
    intro key member
    rcases bounded key member with ⟨value, positive⟩
    exact ⟨value, preTrade, rfl, positive⟩

theorem breakers_iff {policy : Json} {nowNs : Int} :
    validateCircuitBreakerPolicy policy nowNs = .ok () ↔ BreakersValid policy nowNs := by
  have chain : validateCircuitBreakerPolicy policy nowNs = .ok () ↔
      ((∃ version, requiredInt policy "policy_version" = .ok version) ∧
        (∃ expires, requiredInt policy "expires_at_ns" = .ok expires ∧ ¬ expires ≤ nowNs)) ∧
      ∃ breakers, member "breakers" policy = some (.arr breakers) ∧
        firstInvalid breakers = some none := by
    have listed : ∀ breakers, (member "breakers" policy).bind toList = some breakers ↔
        member "breakers" policy = some (.arr breakers) := by
      intro breakers
      rcases member "breakers" policy with _ | json
      · simp
      · cases json <;> simp [toList]
    simp only [validateCircuitBreakerPolicy, Fallible.bind_eq_ok]
    constructor
    · rintro ⟨version, isVersion, expires, isExpiry, rest⟩
      split at rest
      case isTrue => cases rest
      case isFalse later =>
        split at rest
        case h_1 => cases rest
        case h_2 none =>
          rcases Option.bind_eq_some_iff.mp none with ⟨breakers, held, valid⟩
          exact ⟨⟨⟨version, isVersion⟩, expires, isExpiry, later⟩, breakers,
            (listed breakers).mp held, valid⟩
        case h_3 => cases rest
    · rintro ⟨⟨⟨version, isVersion⟩, expires, isExpiry, later⟩, breakers, held, valid⟩
      refine ⟨version, isVersion, expires, isExpiry, ?_⟩
      rw [if_neg later, (listed breakers).mpr held, Option.bind_some, valid]
  have held : ∀ breakers, member "breakers" policy = some (.arr breakers) ↔
      ∃ entries, policy = .obj entries ∧
        entries.lookup (codes "breakers".toList) = some (.arr breakers) :=
    fun breakers => member_eq_some (by simp)
  rw [chain, current_iff]
  simp only [firstInvalid_eq, held]
  constructor
  · rintro ⟨⟨entries, rfl, current⟩, breakers, ⟨others, same, found⟩, valid⟩
    rw [Json.obj.injEq] at same
    exact ⟨entries, breakers, rfl, current, same ▸ found, valid⟩
  · rintro ⟨entries, breakers, rfl, current, found, valid⟩
    exact ⟨⟨entries, rfl, current⟩, breakers, ⟨entries, rfl, found⟩, valid⟩

/-- The validator reports that the policies are valid exactly if both have a version and have not
expired, every limit before a trade is an integer above zero, and every breaker has its five
texts and a threshold. It never ends in the type error that its parts can raise. -/
theorem policy_valid_iff (riskPolicy breakerPolicy : Json) (nowNs : Int) :
    (verdict riskPolicy breakerPolicy nowNs = .policyValid ↔
      RiskValid riskPolicy nowNs ∧ BreakersValid breakerPolicy nowNs) ∧
    verdict riskPolicy breakerPolicy nowNs ≠ .typeError := by
  have total : validateRiskPolicy riskPolicy nowNs ≠ none := by
    rw [validateRiskPolicy]
    cases riskPolicy with
    | obj entries =>
        refine andThen_total fun _ => andThen_total fun expires => ?_
        split
        · simp
        · exact andThen_total fun _ => andThen_total fun _ => andThen_total fun _ =>
            andThen_total fun _ => by simp
    | _ => simp [requiredInt, member, andThen]
  rw [← risk_iff, ← breakers_iff, verdict]
  rcases found : validateRiskPolicy riskPolicy nowNs with _ | _ | _
  · exact absurd found total
  · simp
  · cases validateCircuitBreakerPolicy breakerPolicy nowNs <;> simp

/-! The release of a valid policy -/

open Release

theorem lookup_of_mem {entries : List (List Nat × Json)} (single : (entries.map Prod.fst).Nodup)
    {key : List Nat} {value : Json} (member : (key, value) ∈ entries) :
    entries.lookup key = some value := by
  induction entries with
  | nil => cases member
  | cons entry entries ih =>
      rw [List.map_cons, List.nodup_cons] at single
      rw [List.lookup_cons]
      rcases List.mem_cons.mp member with rfl | later
      · rw [beq_self_eq_true]
      · have apart : (key == entry.1) = false := by
          rw [beq_eq_false_iff_ne]
          rintro rfl
          exact single.1 (List.mem_map.mpr ⟨_, later, rfl⟩)
        rw [apart]
        exact ih single.2 later

theorem get?_of_lookup {entries : List (List Nat × Json)}
    (single : (entries.map Prod.fst).Nodup) {key : String} {value : Json}
    (found : entries.lookup (codes key.toList) = some value) :
    Json.get? key entries = some value := by
  rcases List.lookup_eq_some_iff.mp found with ⟨front, back, rfl, -⟩
  have member : (codes key.toList, value) ∈ front ++ (codes key.toList, value) :: back :=
    List.mem_append_right _ List.mem_cons_self
  have reversed : ((front ++ (codes key.toList, value) :: back).reverse.map Prod.fst).Nodup := by
    rw [List.map_reverse]
    exact List.nodup_reverse.mpr single
  exact lookup_of_mem reversed (List.mem_reverse.mpr member)

variable {Path : Type*} {lib : Libraries} {files : Path → Option Bytes}

/-- A policy that the OCaml validator accepts, whose keys do not repeat, is signed by the Rust
signer if the other two artifacts are there; the binding passes the Rust check of its shape, and
the Python verifier accepts it while the three files are what they were. -/
theorem validated_release_verifies {policyPath rtlPath schemaPath : Path}
    {policy rtl schema : Bytes} {entries : List (List Nat × Json)} {nowNs : Int}
    (heldPolicy : files policyPath = some policy) (heldRtl : files rtlPath = some rtl)
    (heldSchema : files schemaPath = some schema) (parsed : lib.fromSlice policy = some (.obj entries))
    (single : (entries.map Prod.fst).Nodup)
    (valid : validateRiskPolicy (.obj entries) nowNs = some (.ok ())) :
    ∃ binding, sign lib files policyPath rtlPath schemaPath = .ok binding ∧
      verifyBinding binding = true ∧
      ∀ (later : Path → Option Bytes) (bindingPath : Path),
        later bindingPath = some binding.printed →
        (∀ path ∈ [policyPath, rtlPath, schemaPath], later path = files path) →
        verify lib later bindingPath policyPath rtlPath schemaPath = .ok () := by
  rcases risk_iff.mp valid with ⟨others, preTrade, same, current, -, -⟩
  rw [Json.obj.injEq] at same
  subst same
  rcases current.version with ⟨version, found, positive, small⟩
  have isVersion : policyVersionOf (.obj entries) = some (UInt64.ofNat version.toNat) := by
    simp only [policyVersionOf, get?_of_lookup single found]
    exact if_pos (by omega)
  have nonzero : (0 : UInt64) < UInt64.ofNat version.toNat := by
    rw [UInt64.lt_iff_toNat_lt, UInt64.toNat_ofNat']
    change 0 < _
    omega
  have signed := sign_held heldPolicy heldRtl heldSchema parsed isVersion
  refine ⟨_, signed, (verifyBinding_signed signed).mpr nonzero, ?_⟩
  intro later bindingPath written unchanged
  simp only [List.forall_mem_cons] at unchanged
  have used : UInt64.ofNat version.toNat ≠ 0 := by
    intro zero
    rw [zero] at nonzero
    exact absurd nonzero (by decide)
  rw [verify_signed signed written, if_neg used]
  simp only [changed, unchanged.1, unchanged.2.1, unchanged.2.2.1, List.find?_cons, bne_self_eq_false,
    List.find?_nil]

def policyText : Bytes := Bytes.ofText <|
  "\x7b\"policy_version\":1,\"expires_at_ns\":9,\"pre_trade\":\x7b" ++
    "\"max_order_quantity\":1,\"max_order_notional_ticks\":1," ++
    "\"max_net_position\":1,\"max_orders_per_second\":1\x7d\x7d"

def policyEntries : List (List Nat × Json) :=
  [(codes "policy_version".toList, .int 1), (codes "expires_at_ns".toList, .int 9),
    (codes "pre_trade".toList, .obj (limits.map fun key => (codes key.toList, .int 1)))]

def releaseLibraries : Libraries where
  sha256 content :=
    if content = policyText then
      #v[0x0c, 0x7b, 0x27, 0xf8, 0x78, 0x89, 0x89, 0x93, 0xd2, 0xae, 0x62, 0x15, 0xc1, 0xb3, 0xa2,
        0xfc, 0x0b, 0xed, 0xc8, 0xf8, 0xe4, 0xc3, 0xf3, 0x6a, 0xee, 0xb2, 0xe0, 0x6b, 0xa4, 0x58,
        0x36, 0x87]
    else demoLibraries.sha256 content
  fromSlice content := if content = policyText then some (.obj policyEntries) else none

def releaseFiles (path : String) : Option Bytes :=
  if path = "policy" then some policyText
  else if path = "rtl" ∨ path = "schema" then some (Bytes.ofText "ito")
  else none

theorem validated_release_verifies_once :
    ∃ binding, sign releaseLibraries releaseFiles "policy" "rtl" "schema" = .ok binding ∧
      verifyBinding binding = true ∧
      verify releaseLibraries
        (fun path => if path = "binding" then some binding.printed else releaseFiles path)
        "binding" "policy" "rtl" "schema" = .ok () := by
  have valid : validateRiskPolicy (.obj policyEntries) 5 = some (.ok ()) := by rfl
  have parsed : releaseLibraries.fromSlice policyText = some (.obj policyEntries) := by
    simp only [releaseLibraries, if_true]
  have single : (policyEntries.map Prod.fst).Nodup := by decide +kernel
  rcases validated_release_verifies (show releaseFiles "policy" = some policyText from rfl)
    (show releaseFiles "rtl" = _ from rfl) (show releaseFiles "schema" = _ from rfl)
    parsed single valid
    with ⟨binding, signed, shaped, verifies⟩
  exact ⟨binding, signed, shaped, verifies _ "binding" rfl (by simp)⟩

end Ito.PolicyValidator
