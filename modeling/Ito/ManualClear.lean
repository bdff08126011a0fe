import Ito.CircuitBreaker

/-! Open breakers that wait for a manual clear.

Observations and time leave such a breaker as it is. A policy update that puts a rule under its
identifier builds a new runtime, which starts closed. -/

namespace Ito.CircuitBreaker

/-- The calls of a run without a clear, an install, or a removal of the identifier. -/
def Allowed (identifier : String) : Op → Prop
  | .observe _ _ _ | .advanceTime _ => True
  | .applyUpdate (.add _) | .applyUpdate (.replace _) => True
  | .applyUpdate (.remove other) => other ≠ identifier
  | .install _ | .clear _ => False

/-- The policy update carries a rule for the identifier that `install` accepts. -/
def Reinstalls (identifier : String) : Op → Prop
  | .applyUpdate (.add rule) | .applyUpdate (.replace rule) =>
      rule.identifier = identifier ∧ rule.Valid
  | _ => False

section Held

variable {identifier : String} {runtime : Runtime}

theorem observed_open (opened : runtime.state = .open) (amount nowNs : Int64) :
    runtime.observed amount nowNs = runtime := by
  rw [Runtime.observed, if_pos (.inl opened)]

theorem cooled_manual (manual : runtime.rule.manualClear = true) (nowNs : Int64) :
    runtime.cooled nowNs = runtime := by
  rw [Runtime.cooled, if_neg]
  simp [manual]

theorem step_held (opened : runtime.state = .open) (manual : runtime.rule.manualClear = true)
    {op : Op} (allowed : Allowed identifier op) (kept : ¬ Reinstalls identifier op) :
    step identifier (some runtime) op = some runtime := by
  cases op with
  | install rule => exact allowed.elim
  | applyUpdate update =>
      cases update with
      | add rule => exact if_neg kept
      | replace rule => exact if_neg fun installs => kept ⟨installs.1, installs.2.1⟩
      | remove other => exact if_neg allowed
  | observe other amount nowNs =>
      rw [step, Option.map_some, observed_open opened, ite_self]
  | advanceTime nowNs => rw [step, Option.map_some, cooled_manual manual]
  | clear other => exact allowed.elim

theorem step_reinstalled {op : Op} (reinstalls : Reinstalls identifier op) :
    (step identifier (some runtime) op).map (·.state) = some .closed := by
  cases op with
  | applyUpdate update =>
      cases update with
      | add rule =>
          rw [step, if_pos (show Installs identifier _ (.applyUpdate (.add rule)) from reinstalls)]
          rfl
      | replace rule =>
          have installs : Installs identifier (some runtime) (.applyUpdate (.replace rule)) :=
            ⟨reinstalls.1, reinstalls.2, rfl⟩
          rw [step, if_pos installs]
          rfl
      | remove other => exact reinstalls.elim
  | install | observe | advanceTime | clear => exact reinstalls.elim

theorem run_held (opened : runtime.state = .open) (manual : runtime.rule.manualClear = true)
    {ops : List Op} (allowed : ∀ op ∈ ops, Allowed identifier op)
    (kept : ∀ op ∈ ops, ¬ Reinstalls identifier op) :
    ops.foldl (step identifier) (some runtime) = some runtime := by
  induction ops with
  | nil => rfl
  | cons op ops ih =>
      rw [List.forall_mem_cons] at allowed kept
      rw [List.foldl_cons, step_held opened manual allowed.1 kept.1]
      exact ih allowed.2 kept.2

end Held

theorem state_of_find? {engine : Engine} {identifier : String} {runtime : Runtime}
    (found : engine.find? identifier = some runtime) :
    state engine identifier = some runtime.state := by
  rw [state, found]

theorem kept_of_held {engine : Engine} {identifier : String} {runtime : Runtime}
    (found : engine.find? identifier = some runtime) (opened : runtime.state = .open)
    (manual : runtime.rule.manualClear = true) {ops : List Op}
    (allowed : ∀ op ∈ ops, Allowed identifier op)
    (held : ∀ front, front <+: ops → state (run engine front) identifier = some .open) :
    ∀ op ∈ ops, ¬ Reinstalls identifier op := by
  induction ops generalizing engine with
  | nil =>
      intro op member
      cases member
  | cons op ops ih =>
      rw [List.forall_mem_cons] at allowed
      have first : ¬ Reinstalls identifier op := by
        intro reinstalls
        have after := held [op] ⟨ops, rfl⟩
        have closed : (step identifier (some runtime) op).map (·.state) = some .closed :=
          step_reinstalled reinstalls
        rcases Option.map_eq_some_iff.mp closed with ⟨next, stepped, value⟩
        have present : (apply engine op).find? identifier = some next := by
          rw [find?_apply, found, stepped]
        change state (apply engine op) identifier = some .open at after
        rw [state_of_find? present, value] at after
        cases after
      have next : (apply engine op).find? identifier = some runtime := by
        rw [find?_apply, found, step_held opened manual allowed.1 first]
      rw [List.forall_mem_cons]
      apply And.intro first
      apply ih next allowed.2
      intro front isFront
      exact held (op :: front) ((List.prefix_cons_inj op).mpr isFront)

/-- An open breaker with manual clear is open after every call exactly when no call carries a new
rule for it, and then `clear` closes it. -/
theorem manual_clear_held_iff {engine : Engine} {identifier : String} {runtime : Runtime}
    (found : engine.find? identifier = some runtime) (opened : runtime.state = .open)
    (manual : runtime.rule.manualClear = true) {ops : List Op}
    (allowed : ∀ op ∈ ops, Allowed identifier op) :
    ((∀ front, front <+: ops → state (run engine front) identifier = some .open) ↔
        ∀ op ∈ ops, ¬ Reinstalls identifier op) ∧
      ((∀ op ∈ ops, ¬ Reinstalls identifier op) →
        state (clear (run engine ops) identifier) identifier = some .closed) := by
  refine ⟨⟨?_, ?_⟩, ?_⟩
  · exact kept_of_held found opened manual allowed
  · intro kept front isFront
    have whole : (run engine front).find? identifier = some runtime := by
      rw [find?_run, found]
      exact run_held opened manual (fun op member => allowed op (isFront.subset member))
        fun op member => kept op (isFront.subset member)
    rw [state_of_find? whole, opened]
  · intro kept
    have whole : (run engine ops).find? identifier = some runtime := by
      rw [find?_run, found]
      exact run_held opened manual allowed kept
    have cleared : (clear (run engine ops) identifier).find? identifier = some runtime.cleared := by
      rw [find?_clear, if_pos rfl, whole, Option.map_some]
    rw [state_of_find? cleared, Runtime.cleared, if_pos (.inl manual)]

/-- The rule the source ships with. -/
def defaultRule : Rule :=
  { identifier := "CB-HF-001"
    scope := .strategy
    threshold := 1000
    cooldownNs := 10000
    manualClear := true }

def trippedEngine : Engine :=
  run empty [.install defaultRule, .observe "CB-HF-001" 1000 5]

def trippedRuntime : Runtime :=
  { rule := defaultRule, state := .open, violations := 1000, openedAtNs := 5, trips := 1 }

def quietOps : List Op :=
  [.observe "CB-HF-001" 7 6, .advanceTime 20000, .applyUpdate (.remove "CB-HF-002")]

theorem tripped_held :
    state (run trippedEngine quietOps) "CB-HF-001" = some .open := by
  have found : trippedEngine.find? "CB-HF-001" = some trippedRuntime := by decide
  have allowed : ∀ op ∈ quietOps, Allowed "CB-HF-001" op := by simp [quietOps, Allowed]
  have kept : ∀ op ∈ quietOps, ¬ Reinstalls "CB-HF-001" op := by simp [quietOps, Reinstalls]
  have held := (manual_clear_held_iff found rfl rfl allowed).1.mpr kept
  exact held _ (List.prefix_refl _)

/-- A replacement with a higher threshold closes the breaker without a clear. -/
theorem replacement_closes :
    ¬ ∀ (engine : Engine) (identifier : String) (runtime : Runtime) (ops : List Op),
      engine.find? identifier = some runtime → runtime.state = .open →
      runtime.rule.manualClear = true → (∀ op ∈ ops, Allowed identifier op) →
      state (run engine ops) identifier = some .open := by
  intro held
  have after := held trippedEngine "CB-HF-001" trippedRuntime
    [.applyUpdate (.replace { defaultRule with threshold := 50000 })] (by decide) rfl rfl
    (by simp [Allowed])
  exact absurd after (by decide)

end Ito.CircuitBreaker
