import Ito.CircuitBreaker

/-! The breakers of every engine that calls build from the empty one.

A breaker that is not closed has counted its violations to the threshold and keeps the count over
the cooldown, so a half open one trips at the next violation. -/

namespace Ito.CircuitBreaker

structure Sound (identifier : String) (runtime : Runtime) : Prop where
  identifier : runtime.rule.identifier = identifier
  threshold : 0 < runtime.rule.threshold.toInt
  cooldown : 0 ≤ runtime.rule.cooldownNs.toInt
  violations : 0 ≤ runtime.violations.toInt
  closed : runtime.state = .closed → runtime.violations.toInt < runtime.rule.threshold.toInt
  away : runtime.state = .open ∨ runtime.state = .halfOpen →
    runtime.rule.threshold.toInt ≤ runtime.violations.toInt
  manual : runtime.rule.manualClear = true → runtime.state ≠ .halfOpen

def Opens (identifier : String) (engine : Engine) (op : Op) : Prop :=
  state engine identifier ≠ some .open ∧ state (apply engine op) identifier = some .open

instance (identifier : String) (engine : Engine) (op : Op) :
    Decidable (Opens identifier engine op) :=
  inferInstanceAs (Decidable (_ ∧ _))

/-- The transitions into `Open` since the rule was last installed, `count` of them before the
calls. -/
def openings (identifier : String) : Engine → Nat → List Op → Nat
  | _, count, [] => count
  | engine, count, op :: ops =>
      openings identifier (apply engine op)
        (if Installs identifier (engine.find? identifier) op then 0
          else if Opens identifier engine op then count + 1
          else count) ops

/-- The identifier a call is about. `advance_time` is about all of them. -/
def Op.target : Op → Option String
  | .install rule | .applyUpdate (.add rule) | .applyUpdate (.replace rule) => some rule.identifier
  | .applyUpdate (.remove identifier) => some identifier
  | .observe identifier _ _ => some identifier
  | .advanceTime _ => none
  | .clear identifier => some identifier

section Runtime

variable {identifier : String} {runtime : Runtime}

theorem fresh_sound {rule : Rule} (valid : rule.Valid) : Sound rule.identifier (fresh rule) where
  identifier := rfl
  threshold := valid.threshold
  cooldown := valid.cooldown
  violations := le_refl 0
  closed := fun _ => valid.threshold
  away := fun away => by simp [fresh] at away
  manual := fun _ => by simp [fresh]

theorem counted_violations (sound : Sound identifier runtime) {amount : Int64}
    (positive : 0 < amount.toInt) :
    runtime.violations.toInt ≤ (saturatingAdd runtime.violations amount).toInt ∧
      0 ≤ (saturatingAdd runtime.violations amount).toInt := by
  have nonneg := sound.violations
  have top := runtime.violations.toInt_lt
  rw [toInt_saturatingAdd]
  omega

theorem observed_sound (sound : Sound identifier runtime) (amount nowNs : Int64) :
    Sound identifier (runtime.observed amount nowNs) := by
  rw [Runtime.observed]
  by_cases idle : runtime.state = .open ∨ amount ≤ 0
  · rw [if_pos idle]
    exact sound
  · rw [if_neg idle]
    rw [not_or, Int64.not_le, Int64.lt_iff_toInt_lt, Int64.toInt_zero] at idle
    have counted := counted_violations sound idle.2
    by_cases reached : saturatingAdd runtime.violations amount ≥ runtime.rule.threshold
    · rw [if_pos reached]
      exact ⟨sound.identifier, sound.threshold, sound.cooldown, counted.2,
        fun closed => by simp at closed, fun _ => Int64.le_iff_toInt_le.mp reached,
        fun _ => by simp⟩
    · rw [if_neg reached]
      have below := Int64.lt_iff_toInt_lt.mp (Int64.not_le.mp reached)
      exact ⟨sound.identifier, sound.threshold, sound.cooldown, counted.2, fun _ => below,
        fun away => absurd (sound.away away) (by omega), sound.manual⟩

theorem observed_trips (runtime : Runtime) (amount nowNs : Int64) :
    (runtime.observed amount nowNs).trips =
      if runtime.state ≠ .open ∧ (runtime.observed amount nowNs).state = .open then
        saturatingAdd runtime.trips 1
      else runtime.trips := by
  rw [Runtime.observed]
  by_cases idle : runtime.state = .open ∨ amount ≤ 0
  · rw [if_pos idle]
    split
    case isTrue both => exact absurd both.2 both.1
    case isFalse => rfl
  · rw [if_neg idle]
    rw [not_or] at idle
    split
    · simp [idle.1]
    · simp

theorem cooled_sound (sound : Sound identifier runtime) (nowNs : Int64) :
    Sound identifier (runtime.cooled nowNs) := by
  rw [Runtime.cooled]
  split
  case isTrue cools =>
    have automatic : runtime.rule.manualClear ≠ true := by simpa using cools.2.1
    exact ⟨sound.identifier, sound.threshold, sound.cooldown, sound.violations,
      fun closed => by simp at closed, fun _ => sound.away (.inl cools.1),
      fun manual => absurd manual automatic⟩
  case isFalse => exact sound

theorem cleared_sound (sound : Sound identifier runtime) : Sound identifier runtime.cleared := by
  rw [Runtime.cleared]
  split
  · exact ⟨sound.identifier, sound.threshold, sound.cooldown, le_refl 0, fun _ => sound.threshold,
      fun away => by simp at away, fun _ => by simp⟩
  · exact sound

end Runtime

structure Advances (f : Runtime → Runtime) : Prop where
  sound : ∀ {identifier runtime}, Sound identifier runtime → Sound identifier (f runtime)
  trips : ∀ runtime, (f runtime).trips =
    if runtime.state ≠ .open ∧ (f runtime).state = .open then saturatingAdd runtime.trips 1
    else runtime.trips

theorem advances_of_kept {f : Runtime → Runtime}
    (sound : ∀ {identifier runtime}, Sound identifier runtime → Sound identifier (f runtime))
    (kept : ∀ runtime, (f runtime).trips = runtime.trips)
    (opened : ∀ runtime, (f runtime).state = .open → runtime.state = .open) : Advances f := by
  apply Advances.mk sound
  intro runtime
  rw [kept runtime, if_neg]
  intro opens
  exact opens.1 (opened runtime opens.2)

theorem advances_observed (amount nowNs : Int64) : Advances (·.observed amount nowNs) :=
  ⟨fun sound => observed_sound sound amount nowNs,
    fun runtime => observed_trips runtime amount nowNs⟩

theorem advances_cooled (nowNs : Int64) : Advances (·.cooled nowNs) := by
  apply advances_of_kept fun sound => cooled_sound sound nowNs
  · intro runtime
    simp only [Runtime.cooled]
    split <;> rfl
  · intro runtime opened
    simp only [Runtime.cooled] at opened
    split at opened
    case isTrue => simp at opened
    case isFalse => exact opened

theorem advances_cleared : Advances Runtime.cleared := by
  apply advances_of_kept cleared_sound
  · intro runtime
    rw [Runtime.cleared]
    split <;> rfl
  · intro runtime opened
    rw [Runtime.cleared] at opened
    split at opened
    case isTrue => simp at opened
    case isFalse => exact opened

theorem advances_id : Advances id :=
  advances_of_kept id (fun _ => rfl) fun _ => id

theorem step_cases (identifier : String) (cell : Option Runtime) (op : Op) :
    (∃ rule, Installs identifier cell op ∧ rule.identifier = identifier ∧ rule.Valid ∧
        step identifier cell op = some (fresh rule)) ∨
      ¬ Installs identifier cell op ∧ (step identifier cell op = none ∨
        ∃ f, Advances f ∧ step identifier cell op = cell.map f) := by
  have same : ∃ f, Advances f ∧ cell = cell.map f := ⟨id, advances_id, Option.map_id_fun.symm ▸ rfl⟩
  cases op with
  | install rule =>
      by_cases installs : Installs identifier cell (.install rule)
      · exact .inl ⟨rule, installs, installs.1, installs.2, if_pos installs⟩
      · rw [step, if_neg installs]
        exact .inr ⟨installs, .inr same⟩
  | applyUpdate update =>
      cases update with
      | add rule =>
          by_cases installs : Installs identifier cell (.applyUpdate (.add rule))
          · exact .inl ⟨rule, installs, installs.1, installs.2, if_pos installs⟩
          · rw [step, if_neg installs]
            exact .inr ⟨installs, .inr same⟩
      | replace rule =>
          by_cases installs : Installs identifier cell (.applyUpdate (.replace rule))
          · exact .inl ⟨rule, installs, installs.1, installs.2.1, if_pos installs⟩
          · rw [step, if_neg installs]
            exact .inr ⟨installs, .inr same⟩
      | remove other =>
          apply Or.inr (And.intro id _)
          rw [step]
          split
          case isTrue => exact .inl rfl
          case isFalse => exact .inr same
  | observe other amount nowNs =>
      apply Or.inr (And.intro id (Or.inr _))
      rw [step]
      split
      case isTrue => exact ⟨_, advances_observed amount nowNs, rfl⟩
      case isFalse => exact same
  | advanceTime nowNs => exact .inr ⟨id, .inr ⟨_, advances_cooled nowNs, rfl⟩⟩
  | clear other =>
      apply Or.inr (And.intro id (Or.inr _))
      rw [step]
      split
      case isTrue => exact ⟨_, advances_cleared, rfl⟩
      case isFalse => exact same

/-- The runtime under the identifier is sound and has counted `count` transitions into `Open`. -/
def Counted (identifier : String) (engine : Engine) (count : Nat) : Prop :=
  ∀ runtime, engine.find? identifier = some runtime →
    Sound identifier runtime ∧ runtime.trips.toInt = min (count : Int) (2 ^ 63 - 1)

theorem state_eq (engine : Engine) (identifier : String) :
    state engine identifier = (engine.find? identifier).map (·.state) := by
  rw [state]
  cases engine.find? identifier <;> rfl

theorem apply_counted {identifier : String} {engine : Engine} {count : Nat}
    (counted : Counted identifier engine count) (op : Op) :
    Counted identifier (apply engine op)
      (if Installs identifier (engine.find? identifier) op then 0
        else if Opens identifier engine op then count + 1
        else count) := by
  intro next found
  rw [find?_apply] at found
  rcases step_cases identifier (engine.find? identifier) op with
    ⟨rule, installs, named, valid, stepped⟩ | ⟨kept, removed | ⟨f, advances, stepped⟩⟩
  · rw [stepped, Option.some.injEq] at found
    rw [if_pos installs, ← found, ← named]
    exact ⟨fresh_sound valid, rfl⟩
  · rw [removed] at found
    cases found
  · rw [stepped] at found
    rcases Option.map_eq_some_iff.mp found with ⟨runtime, present, value⟩
    rcases counted runtime present with ⟨sound, trips⟩
    have opens : Opens identifier engine op ↔
        runtime.state ≠ .open ∧ (f runtime).state = .open := by
      rw [Opens, state_eq, state_eq, find?_apply, stepped, present]
      simp
    rw [if_neg kept, ← value, advances.trips runtime]
    apply And.intro (advances.sound sound)
    by_cases opened : Opens identifier engine op
    · have one : (1 : Int64).toInt = 1 := rfl
      rw [if_pos opened, if_pos (opens.mp opened), toInt_saturatingAdd, trips, one]
      omega
    · rw [if_neg opened, if_neg (opens.not.mp opened)]
      exact trips

theorem run_counted {identifier : String} {engine : Engine} {count : Nat}
    (counted : Counted identifier engine count) (ops : List Op) :
    Counted identifier (run engine ops) (openings identifier engine count ops) := by
  induction ops generalizing engine count with
  | nil => exact counted
  | cons op ops ih => exact ih (apply_counted counted op)

theorem initial_counted (identifier : String) : Counted identifier empty 0 := by
  intro runtime found
  cases found

theorem reached_sound {ops : List Op} {identifier : String} {runtime : Runtime}
    (found : (run empty ops).find? identifier = some runtime) :
    Sound identifier runtime ∧
      runtime.trips.toInt = min (openings identifier empty 0 ops : Int) (2 ^ 63 - 1) :=
  run_counted (initial_counted identifier) ops runtime found

theorem halfOpen_observed {identifier : String} {runtime : Runtime}
    (sound : Sound identifier runtime) (half : runtime.state = .halfOpen) {amount : Int64}
    (positive : 0 < amount.toInt) (nowNs : Int64) :
    (runtime.observed amount nowNs).state = .open ∧
      (runtime.observed amount nowNs).trips = saturatingAdd runtime.trips 1 := by
  have reached := sound.away (.inr half)
  have counted := (counted_violations sound positive).1
  have active : ¬ (runtime.state = .open ∨ amount ≤ 0) := by
    rw [half, not_or, Int64.not_le, Int64.lt_iff_toInt_lt, Int64.toInt_zero]
    exact ⟨by decide, positive⟩
  rw [Runtime.observed, if_neg active, if_pos (Int64.le_iff_toInt_le.mpr (reached.trans counted))]
  exact ⟨rfl, rfl⟩

theorem step_other {op : Op} {target identifier : String} (about : op.target = some target)
    (differ : target ≠ identifier) (cell : Option Runtime) : step identifier cell op = cell := by
  have apart : ∀ rule : Rule, rule.identifier = target → rule.identifier ≠ identifier :=
    fun rule named => named ▸ differ
  cases op with
  | install rule =>
      exact if_neg fun installs => apart rule (Option.some.inj about) installs.1
  | applyUpdate update =>
      cases update with
      | add rule => exact if_neg fun installs => apart rule (Option.some.inj about) installs.1
      | replace rule => exact if_neg fun installs => apart rule (Option.some.inj about) installs.1
      | remove other => exact if_neg (Option.some.inj about ▸ differ)
  | observe other amount nowNs => exact if_neg (Option.some.inj about ▸ differ)
  | advanceTime nowNs => cases about
  | clear other => exact if_neg (Option.some.inj about ▸ differ)

/-- The invariant of every engine built from the empty one, with what follows from it: a half open
breaker trips again, and breakers do not interfere. -/
theorem breaker_engine_invariant (ops : List Op) :
    (∀ entry ∈ (run empty ops).entries, Sound entry.1 entry.2 ∧
      entry.2.trips.toInt = min (openings entry.1 empty 0 ops : Int) (2 ^ 63 - 1)) ∧
    (∀ identifier amount nowNs, state (run empty ops) identifier = some .halfOpen →
      0 < amount.toInt →
      state (observe (run empty ops) identifier amount nowNs) identifier = some .open ∧
      (tripCount (observe (run empty ops) identifier amount nowNs) identifier).toInt =
        min ((tripCount (run empty ops) identifier).toInt + 1) (2 ^ 63 - 1)) ∧
    (∀ op target identifier, op.target = some target → target ≠ identifier →
      (apply (run empty ops) op).find? identifier = (run empty ops).find? identifier) := by
  refine ⟨?_, ?_, ?_⟩
  · intro entry member
    exact reached_sound ((SortedMap.find?_eq_some _).mpr member)
  · intro identifier amount nowNs half positive
    rw [state_eq] at half
    rcases Option.map_eq_some_iff.mp half with ⟨runtime, found, halfOpen⟩
    rcases reached_sound found with ⟨sound, trips⟩
    rcases halfOpen_observed sound halfOpen positive nowNs with ⟨opened, tripped⟩
    have next : (observe (run empty ops) identifier amount nowNs).find? identifier =
        some (runtime.observed amount nowNs) := by
      rw [find?_observe, if_pos rfl, found, Option.map_some]
    have one : (1 : Int64).toInt = 1 := rfl
    rw [state_eq, tripCount, tripCount, next, found]
    simp only [Option.map_some, opened, tripped, toInt_saturatingAdd, trips, one, true_and]
    omega
  · intro op target identifier about differ
    rw [find?_apply]
    exact step_other about differ _

end Ito.CircuitBreaker
