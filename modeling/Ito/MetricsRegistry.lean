import Ito.Library.Ranks
import Ito.Library.SortedMap
import Mathlib.Algebra.Order.Floor.Div
import Mathlib.Data.Rat.Floor
import Mathlib.GroupTheory.GroupAction.Ring

/-! The metrics registry and the latency percentiles of its snapshots.

Source: `cpp/ito_observability/metrics_registry.hpp` and `.cpp`. The counters that grow by one a
call are natural numbers, and a fraction of the observations is taken exactly. -/

namespace Ito.Observability

/-- Zeros before the first one bit, as `std::countl_zero` counts them. -/
def countlZero (latencyNs : UInt64) : Nat := latencyNs.toBitVec.clz.toNat

def latencyBucket (latencyNs : UInt64) : Nat :=
  if latencyNs = 0 then 0
  else
    let bucket := 64 - countlZero latencyNs
    if bucket < 64 then bucket else 63

theorem latencyBucket_lt (latencyNs : UInt64) : latencyBucket latencyNs < 64 := by
  rw [latencyBucket]
  split
  · omega
  · dsimp only
    split <;> omega

structure Entry where
  count : UInt64 := 0
  observationCount : Nat := 0
  errors : Nat := 0
  gauge : Int64 := 0
  buckets : Vector Nat 64 := Vector.replicate 64 0

structure MetricSnapshot where
  count : UInt64 := 0
  errors : Nat := 0
  observationCount : Nat := 0
  gauge : Int64 := 0
  p50Ns : Nat := 0
  p99Ns : Nat := 0
  deriving DecidableEq, Repr

abbrev MetricsRegistry := SortedMap (fun a b : String => a < b) Entry

namespace MetricsRegistry

/-- The entry of a name, which an access by the name makes where there is none. -/
def entry (registry : MetricsRegistry) (name : String) : Entry := (registry.find? name).getD {}

def update (registry : MetricsRegistry) (name : String) (f : Entry → Entry) : MetricsRegistry :=
  registry.set name (f (registry.entry name))

def increment (registry : MetricsRegistry) (name : String) (value : UInt64 := 1) :
    MetricsRegistry :=
  registry.update name fun entry => { entry with count := entry.count + value }

def error (registry : MetricsRegistry) (name : String) : MetricsRegistry :=
  registry.update name fun entry => { entry with errors := entry.errors + 1 }

def gauge (registry : MetricsRegistry) (name : String) (value : Int64) : MetricsRegistry :=
  registry.update name fun entry => { entry with gauge := value }

def observeLatency (registry : MetricsRegistry) (name : String) (latencyNs : UInt64) :
    MetricsRegistry :=
  registry.update name fun entry =>
    have inside := latencyBucket_lt latencyNs
    { entry with
      buckets := entry.buckets.set (latencyBucket latencyNs)
        (entry.buckets[latencyBucket latencyNs] + 1)
      count := entry.count + 1
      observationCount := entry.observationCount + 1 }

/-- The loop of `pick` over the buckets that are left. -/
def scan (target : Nat) (i sum : Nat) : List Nat → Nat
  | [] => 0
  | bucket :: buckets =>
      if target ≤ sum + bucket then 1 <<< i else scan target (i + 1) (sum + bucket) buckets

def pick (entry : Entry) (fraction : ℚ) : Nat :=
  if entry.observationCount = 0 then 0
  else scan ⌈fraction * entry.observationCount⌉₊ 0 0 entry.buckets.toList

def snapshot (registry : MetricsRegistry) (name : String) : MetricSnapshot :=
  match registry.find? name with
  | none => {}
  | some entry =>
      { count := entry.count
        errors := entry.errors
        observationCount := entry.observationCount
        gauge := entry.gauge
        p50Ns := pick entry (1 / 2)
        p99Ns := pick entry (99 / 100) }

/-! Runs of calls -/

inductive Call where
  | increment (name : String) (value : UInt64)
  | error (name : String)
  | gauge (name : String) (value : Int64)
  | observeLatency (name : String) (latencyNs : UInt64)
  deriving DecidableEq, Repr

def apply (registry : MetricsRegistry) : Call → MetricsRegistry
  | .increment name value => registry.increment name value
  | .error name => registry.error name
  | .gauge name value => registry.gauge name value
  | .observeLatency name latencyNs => registry.observeLatency name latencyNs

def latency? (name : String) : Call → Option UInt64
  | .observeLatency other latencyNs => if other = name then some latencyNs else none
  | _ => none

structure Holds (observed : List UInt64) (entry : Entry) : Prop where
  counted : entry.observationCount = observed.length
  bucketed : ∀ (j : Nat) (inside : j < 64),
    entry.buckets[j] = observed.countP (latencyBucket · = j)

section Runs

variable {registry : MetricsRegistry} {name other : String} {observed : List UInt64}

theorem entry_update (f : Entry → Entry) : (registry.update other f).entry name =
    if name = other then f (registry.entry name) else registry.entry name := by
  rw [entry, update, SortedMap.find?_set]
  split
  case isTrue same =>
    rw [same]
    rfl
  case isFalse => rfl

theorem holds_empty (name : String) : Holds [] (entry SortedMap.empty name) :=
  ⟨rfl, fun _ inside => Vector.getElem_replicate inside⟩

theorem holds_apply (call : Call) (holds : Holds observed (registry.entry name)) :
    Holds (observed ++ (latency? name call).toList) ((registry.apply call).entry name) := by
  -- The calls that observe nothing leave the buckets and the number of observations.
  have unchanged : ∀ {f : Entry → Entry} {other : String},
      (∀ entry, (f entry).observationCount = entry.observationCount ∧
        (f entry).buckets = entry.buckets) →
      Holds (observed ++ (none : Option UInt64).toList) ((registry.update other f).entry name) := by
    intro f other same
    rw [Option.toList_none, List.append_nil, entry_update]
    split
    · refine ⟨(same _).1.trans holds.counted, fun j inside => ?_⟩
      rw [← holds.bucketed j inside]
      simp only [(same _).2]
    · exact holds
  cases call with
  | increment other value => exact unchanged fun _ => ⟨rfl, rfl⟩
  | error other => exact unchanged fun _ => ⟨rfl, rfl⟩
  | gauge other value => exact unchanged fun _ => ⟨rfl, rfl⟩
  | observeLatency other latencyNs =>
      rw [latency?]
      by_cases same : other = name
      · rw [if_pos same, apply, observeLatency, entry_update, if_pos same.symm]
        refine ⟨?_, fun j inside => ?_⟩
        · rw [holds.counted]
          simp
        · rw [Vector.getElem_set, holds.bucketed _ inside, Option.toList_some, List.countP_append,
            List.countP_singleton, holds.bucketed _ (latencyBucket_lt latencyNs)]
          by_cases here : latencyBucket latencyNs = j
          · subst here
            simp
          · simp [here]
      · rw [if_neg same, apply, observeLatency, entry_update, if_neg fun equal => same equal.symm,
          Option.toList_none, List.append_nil]
        exact holds

theorem holds_run (calls : List Call) (holds : Holds observed (registry.entry name)) :
    Holds (observed ++ calls.filterMap (latency? name))
      ((calls.foldl apply registry).entry name) := by
  induction calls generalizing registry observed with
  | nil =>
      rw [List.filterMap_nil, List.append_nil]
      exact holds
  | cons call calls ih =>
      have rest := ih (holds_apply call holds)
      rw [List.append_assoc] at rest
      have seen : (latency? name call).toList ++ calls.filterMap (latency? name) =
          (call :: calls).filterMap (latency? name) := by
        rw [List.filterMap_cons]
        cases latency? name call <;> rfl
      rw [seen] at rest
      exact rest

end Runs

/-! Percentiles -/

section Buckets

variable {a b latencyNs : UInt64}

theorem countlZero_bracket (positive : 0 < latencyNs.toNat) :
    latencyNs.toNat < 2 ^ (64 - countlZero latencyNs) ∧
      2 ^ (64 - countlZero latencyNs) ≤ 2 * latencyNs.toNat := by
  have nonzero : latencyNs.toBitVec ≠ 0#64 := by
    intro zero
    rw [UInt64.toNat, zero] at positive
    cases positive
  have high : latencyNs.toNat < 2 ^ (64 - countlZero latencyNs) := BitVec.toNat_lt_two_pow_sub_clz
  have low : 2 ^ (64 - 1 - countlZero latencyNs) ≤ latencyNs.toNat :=
    BitVec.two_pow_sub_clz_le_toNat_of_ne_zero (by decide) nonzero
  have bits : 64 - countlZero latencyNs ≠ 0 := by
    intro none
    rw [none] at high
    omega
  refine ⟨high, ?_⟩
  calc
    2 ^ (64 - countlZero latencyNs) = 2 ^ (64 - 1 - countlZero latencyNs + 1) := by
      congr 1
      omega
    _ = 2 * 2 ^ (64 - 1 - countlZero latencyNs) := pow_succ' _ _
    _ ≤ 2 * latencyNs.toNat := Nat.mul_le_mul_left 2 low

theorem latencyBucket_eq (positive : 0 < latencyNs.toNat) :
    latencyBucket latencyNs = min (64 - countlZero latencyNs) 63 := by
  have nonzero : latencyNs ≠ 0 := by
    rintro rfl
    cases positive
  rw [latencyBucket, if_neg nonzero]
  dsimp only
  split <;> omega

theorem latencyBucket_mono (below : a ≤ b) : latencyBucket a ≤ latencyBucket b := by
  rcases Nat.eq_zero_or_pos a.toNat with zero | positive
  · have lowest : a = 0 := UInt64.toNat_inj.mp zero
    rw [lowest]
    exact Nat.zero_le _
  · have above : 0 < b.toNat := positive.trans_le below
    have wider : 64 - countlZero a < 64 - countlZero b + 1 := by
      apply (Nat.pow_lt_pow_iff_right (by decide : 1 < 2)).mp
      calc
        2 ^ (64 - countlZero a) ≤ 2 * a.toNat := (countlZero_bracket positive).2
        _ ≤ 2 * b.toNat := Nat.mul_le_mul_left 2 below
        _ < 2 * 2 ^ (64 - countlZero b) :=
          Nat.mul_lt_mul_of_pos_left (countlZero_bracket above).1 (by decide)
        _ = 2 ^ (64 - countlZero b + 1) := (pow_succ' _ _).symm
    rw [latencyBucket_eq positive, latencyBucket_eq above]
    omega

theorem latencyBucket_bracket (positive : 0 < latencyNs.toNat) (small : latencyNs.toNat < 2 ^ 63) :
    latencyNs.toNat < 2 ^ latencyBucket latencyNs ∧
      2 ^ latencyBucket latencyNs ≤ 2 * latencyNs.toNat := by
  have bracket := countlZero_bracket positive
  have bits : 64 - countlZero latencyNs < 64 := by
    apply (Nat.pow_lt_pow_iff_right (by decide : 1 < 2)).mp
    omega
  rw [latencyBucket_eq positive, min_eq_left (by omega)]
  exact bracket

end Buckets

section Percentiles

variable {observed : List UInt64} {entry : Entry}

abbrev sorted (observed : List UInt64) : List UInt64 := observed.mergeSort fun a b => a ≤ b

theorem scan_eq {target i sum bucket : Nat} {front : List Nat} (back : List Nat)
    (short : sum + front.sum < target) (reached : target ≤ sum + front.sum + bucket) :
    scan target i sum (front ++ bucket :: back) = 2 ^ (i + front.length) := by
  induction front generalizing i sum with
  | nil =>
      rw [List.nil_append, scan]
      exact (if_pos reached).trans (Nat.one_shiftLeft i)
  | cons first front ih =>
      rw [List.sum_cons] at short reached
      rw [List.cons_append, scan, if_neg (by omega), ih (by omega) (by omega), List.length_cons]
      congr 1
      omega

theorem Holds.toList_buckets (holds : Holds observed entry) :
    entry.buckets.toList = (List.range 64).map fun j => observed.countP (latencyBucket · = j) := by
  apply List.ext_getElem
  · simp
  · intro j inside _
    have fits : j < 64 := by simpa using inside
    simpa using holds.bucketed j fits

theorem Holds.sum_buckets (holds : Holds observed entry) :
    entry.buckets.toList.sum = entry.observationCount := by
  rw [holds.toList_buckets, Ranks.sum_counts, holds.counted, List.countP_eq_length]
  intro latencyNs _
  exact decide_eq_true (latencyBucket_lt latencyNs)

theorem Holds.parted_buckets (holds : Holds observed entry) {k : Nat} (inside : k < 64) :
    ∃ back, entry.buckets.toList =
      ((List.range k).map fun j => observed.countP (latencyBucket · = j)) ++
        observed.countP (latencyBucket · = k) :: back := by
  refine ⟨entry.buckets.toList.drop (k + 1), ?_⟩
  have whole := (List.take_append_drop k entry.buckets.toList).symm
  rw [List.drop_eq_getElem_cons (by simpa using inside)] at whole
  calc
    entry.buckets.toList = entry.buckets.toList.take k ++ entry.buckets[k] ::
        entry.buckets.toList.drop (k + 1) := by simpa using whole
    _ = _ := by
      rw [holds.bucketed k inside, holds.toList_buckets, ← List.map_take, List.take_range,
        Nat.min_eq_left inside.le]

theorem Holds.pick (holds : Holds observed entry) {fraction : ℚ} {i : Nat} {latencyNs : UInt64}
    (rank : ⌈fraction * observed.length⌉₊ = i + 1) (found : (sorted observed)[i]? = some latencyNs) :
    pick entry fraction = 2 ^ latencyBucket latencyNs := by
  have perm : (sorted observed).Perm observed := List.mergeSort_perm _ _
  have ordered : (sorted observed).Pairwise fun a b => a ≤ b := by
    have pairwise := @List.pairwise_mergeSort UInt64 (fun a b => decide (a ≤ b))
      (fun a b c => by simpa using UInt64.le_trans) (fun a b => by simpa using UInt64.le_total a b)
      observed
    exact pairwise.imp fun below => of_decide_eq_true below
  have some_observed : entry.observationCount ≠ 0 := by
    rw [holds.counted, ← perm.length_eq]
    have := (List.getElem?_eq_some_iff.mp found).1
    omega
  have mono := fun a b (below : a ≤ b) => latencyBucket_mono below
  have short := Ranks.countP_lt_le mono ordered found
  have reached := Ranks.lt_countP_lt_succ mono ordered found
  rw [perm.countP_eq, ← Ranks.sum_counts] at short
  rw [perm.countP_eq, Ranks.countP_lt_succ, ← Ranks.sum_counts] at reached
  rcases holds.parted_buckets (latencyBucket_lt latencyNs) with ⟨back, parted⟩
  rw [MetricsRegistry.pick, if_neg some_observed, holds.counted, rank, parted]
  refine (scan_eq back ?_ ?_).trans ?_
  · omega
  · omega
  · rw [List.length_map, List.length_range, Nat.zero_add]

theorem ceil_half (n : Nat) : ⌈(1 / 2 : ℚ) * n⌉₊ = n ⌈/⌉ 2 := by
  apply le_antisymm
  · have twice : n ≤ 2 * (n ⌈/⌉ 2) := le_smul_ceilDiv Nat.two_pos
    have cast : (n : ℚ) ≤ 2 * (n ⌈/⌉ 2 : ℕ) := by exact_mod_cast twice
    apply Nat.ceil_le.mpr
    linarith
  · rw [ceilDiv_le_iff_le_smul Nat.two_pos]
    have above := Nat.le_ceil ((1 / 2 : ℚ) * n)
    have cast : (n : ℚ) ≤ (2 * ⌈(1 / 2 : ℚ) * n⌉₊ : ℕ) := by
      push_cast
      linarith
    exact_mod_cast cast

theorem snapshot_eq (registry : MetricsRegistry) (name : String) :
    (snapshot registry name).observationCount = (registry.entry name).observationCount ∧
      (snapshot registry name).p50Ns = MetricsRegistry.pick (registry.entry name) (1 / 2) := by
  rw [snapshot, MetricsRegistry.entry]
  cases registry.find? name <;> exact ⟨rfl, rfl⟩

/-- The median of the snapshot is the power of two above the median observation, and at most twice
it, and the buckets hold every observation. -/
theorem median_bracket (calls : List Call) (name : String)
    (small : ∀ latencyNs ∈ calls.filterMap (latency? name), latencyNs.toNat < 2 ^ 63) :
    let registry : MetricsRegistry := calls.foldl apply SortedMap.empty
    let observed := calls.filterMap (latency? name)
    let median := (snapshot registry name).p50Ns
    (registry.entry name).buckets.toList.sum = (registry.entry name).observationCount ∧
    (snapshot registry name).observationCount = observed.length ∧
    (observed = [] → median = 0) ∧
    (observed ≠ [] → ∃ latencyNs, (sorted observed)[observed.length ⌈/⌉ 2 - 1]? = some latencyNs ∧
      (latencyNs = 0 → median = 1) ∧
      (latencyNs ≠ 0 → (∃ i, median = 2 ^ i) ∧
        latencyNs.toNat < median ∧ median ≤ 2 * latencyNs.toNat)) := by
  intro registry observed median
  have holds : Holds observed (registry.entry name) := holds_run calls (holds_empty name)
  rcases snapshot_eq registry name with ⟨counted, picked⟩
  refine ⟨holds.sum_buckets, counted.trans holds.counted, fun none => ?_, fun any => ?_⟩
  · rw [none] at holds
    exact picked.trans (if_pos holds.counted)
  · have positive : 0 < observed.length := List.length_pos_iff.mpr any
    have half : 0 < observed.length ⌈/⌉ 2 := by
      rw [Nat.ceilDiv_eq_add_pred_div]
      omega
    have within : observed.length ⌈/⌉ 2 - 1 < (sorted observed).length := by
      rw [List.length_mergeSort, Nat.ceilDiv_eq_add_pred_div]
      omega
    have found := List.getElem?_eq_getElem within
    have rank : ⌈(1 / 2 : ℚ) * observed.length⌉₊ = observed.length ⌈/⌉ 2 - 1 + 1 := by
      rw [ceil_half]
      omega
    have value : median = 2 ^ latencyBucket (sorted observed)[observed.length ⌈/⌉ 2 - 1] :=
      picked.trans (holds.pick rank found)
    refine ⟨_, found, fun zero => ?_, fun nonzero => ?_⟩
    · rw [value, zero]
      rfl
    · have member : (sorted observed)[observed.length ⌈/⌉ 2 - 1] ∈ observed :=
        List.mem_mergeSort.mp (List.getElem_mem within)
      rw [value]
      exact ⟨⟨_, rfl⟩, latencyBucket_bracket
        (Nat.pos_of_ne_zero fun zero => nonzero (UInt64.toNat_inj.mp zero)) (small _ member)⟩

theorem median_bracket_venue :
    let calls : List Call := [.observeLatency "venue-5" 10, .observeLatency "venue-5" 20,
      .observeLatency "venue-5" 30, .error "venue-5"]
    let median := (snapshot (calls.foldl apply SortedMap.empty) "venue-5").p50Ns
    ∃ latencyNs : UInt64, latencyNs.toNat < median ∧ median ≤ 2 * latencyNs.toNat := by
  intro calls median
  have observed : calls.filterMap (latency? "venue-5") = [10, 20, 30] := by
    simp [calls, latency?]
  have bracket := median_bracket calls "venue-5"
  rw [observed] at bracket
  rcases (bracket (by simp)).2.2.2 (by simp) with ⟨latencyNs, found, -, positive⟩
  have nonzero : ∀ latencyNs ∈ ([10, 20, 30] : List UInt64), latencyNs ≠ 0 := by simp
  exact ⟨latencyNs,
    (positive (nonzero _ (List.mem_mergeSort.mp (List.mem_of_getElem? found)))).2⟩

end Percentiles

end MetricsRegistry

end Ito.Observability
