import Mathlib.Data.List.Basic

/-! Deterministic machines with partial steps and outputs.

A step that is `none` is undefined in the modelled language. A run carries its
log: every input together with the output it produced. -/

namespace Machine

variable {σ α β : Type*}

def exec (step : σ → α → Option (σ × β)) : σ → List α → Option (σ × List (α × β))
  | s, [] => some (s, [])
  | s, a :: ops =>
      (step s a).bind fun next =>
        (exec step next.1 ops).map fun rest => (rest.1, (a, next.2) :: rest.2)

/-- Every step of the run satisfies `P` of the state before it, its input, its
output and the state after it. -/
def Along (step : σ → α → Option (σ × β)) (P : σ → α → β → σ → Prop) : σ → List α → Prop
  | _, [] => True
  | s, a :: ops => ∀ t b, step s a = some (t, b) → P s a b t ∧ Along step P t ops

instance decidableAlong (step : σ → α → Option (σ × β)) (P : σ → α → β → σ → Prop)
    [∀ s a b t, Decidable (P s a b t)] : (s : σ) → (ops : List α) → Decidable (Along step P s ops)
  | _, [] => isTrue trivial
  | s, a :: ops =>
      match found : step s a with
      | none => isTrue fun t b first => by simp [found] at first
      | some (t, b) =>
          have := decidableAlong step P t ops
          decidable_of_iff (P s a b t ∧ Along step P t ops) <| by
            constructor
            · intro both t' b' first
              rw [found, Option.some.injEq, Prod.mk.injEq] at first
              rw [← first.1, ← first.2]
              exact both
            · intro all
              exact all t b found

variable {step : σ → α → Option (σ × β)}

@[simp] theorem exec_nil (s : σ) : exec step s [] = some (s, []) := rfl

theorem exec_cons_eq_some {s t : σ} {a : α} {ops : List α} {log : List (α × β)} :
    exec step s (a :: ops) = some (t, log) ↔
      ∃ m b rest, step s a = some (m, b) ∧ exec step m ops = some (t, rest) ∧
        log = (a, b) :: rest := by
  simp only [exec, Option.bind_eq_some_iff, Option.map_eq_some_iff, Prod.mk.injEq]
  constructor
  · rintro ⟨⟨m, b⟩, first, ⟨t', rest⟩, tail, rfl, rfl⟩
    exact ⟨m, b, rest, first, tail, rfl⟩
  · rintro ⟨m, b, rest, first, tail, rfl⟩
    exact ⟨(m, b), first, (t, rest), tail, rfl, rfl⟩

theorem exec_front {s t : σ} {ops : List α} {front back : List (α × β)}
    (ran : exec step s ops = some (t, front ++ back)) :
    ∃ m, exec step s (front.map Prod.fst) = some (m, front) := by
  induction front generalizing s ops with
  | nil => exact ⟨s, rfl⟩
  | cons entry front ih =>
      cases ops with
      | nil => simp at ran
      | cons a ops =>
          rcases exec_cons_eq_some.mp ran with ⟨next, b, rest, first, run, same⟩
          rw [List.cons_append, List.cons.injEq] at same
          rcases same with ⟨rfl, rfl⟩
          rcases ih run with ⟨m, reached⟩
          exact ⟨m, exec_cons_eq_some.mpr ⟨next, b, front, first, reached, rfl⟩⟩

theorem exec_inputs {s t : σ} {ops : List α} {log : List (α × β)}
    (ran : exec step s ops = some (t, log)) : log.map Prod.fst = ops := by
  induction ops generalizing s log with
  | nil =>
      simp only [exec_nil, Option.some.injEq, Prod.mk.injEq] at ran
      rw [← ran.2]
      rfl
  | cons a ops ih =>
      obtain ⟨m, b, rest, _, run, rfl⟩ := exec_cons_eq_some.mp ran
      rw [List.map_cons, ih run]

theorem along_cons {P : σ → α → β → σ → Prop} {s t : σ} {a : α} {b : β} {ops : List α}
    (first : step s a = some (t, b)) :
    Along step P s (a :: ops) ↔ P s a b t ∧ Along step P t ops := by
  constructor
  · intro along
    exact along t b first
  · intro both t' b' again
    rw [first, Option.some.injEq, Prod.mk.injEq] at again
    rw [← again.1, ← again.2]
    exact both

theorem exec_invariant (I : List (α × β) → σ → Prop)
    (keep : ∀ log s a t b, I log s → step s a = some (t, b) → I (log ++ [(a, b)]) t)
    {s t : σ} {ops : List α} {log : List (α × β)} (start : I [] s)
    (ran : exec step s ops = some (t, log)) : I log t := by
  have general : ∀ (ops : List α) (s : σ) (past log : List (α × β)), I past s →
      exec step s ops = some (t, log) → I (past ++ log) t := by
    intro ops
    induction ops with
    | nil =>
        intro s past log holds ran
        simp only [exec_nil, Option.some.injEq, Prod.mk.injEq] at ran
        rcases ran with ⟨rfl, rfl⟩
        simpa using holds
    | cons a ops ih =>
        intro s past log holds ran
        rcases exec_cons_eq_some.mp ran with ⟨m, b, rest, first, run, rfl⟩
        simpa using ih m (past ++ [(a, b)]) rest (keep past s a m b holds first) run
  simpa using general ops s [] log start ran

theorem exec_defined (I : σ → Prop)
    (progress : ∀ s a, I s → ∃ t b, step s a = some (t, b) ∧ I t)
    {s : σ} (start : I s) (ops : List α) :
    ∃ t log, exec step s ops = some (t, log) ∧ I t := by
  induction ops generalizing s with
  | nil => exact ⟨s, [], rfl, start⟩
  | cons a ops ih =>
      rcases progress s a start with ⟨m, b, first, kept⟩
      rcases ih kept with ⟨t, rest, run, final⟩
      exact ⟨t, (a, b) :: rest, exec_cons_eq_some.mpr ⟨m, b, rest, first, run, rfl⟩, final⟩

/-- Assume-guarantee rule: steps on allowed inputs that all meet `C` keep `J` and
satisfy `P`. -/
theorem along_of_keep (J : σ → Prop) {A : α → Prop} {C P : σ → α → β → σ → Prop}
    (keep : ∀ s a b t, J s → A a → step s a = some (t, b) → C s a b t → P s a b t ∧ J t)
    {s : σ} (start : J s) {ops : List α} (allowed : ∀ a ∈ ops, A a) (met : Along step C s ops) :
    Along step P s ops := by
  induction ops generalizing s with
  | nil => trivial
  | cons a ops ih =>
      intro t b first
      rcases List.forall_mem_cons.mp allowed with ⟨here, rest⟩
      rcases met t b first with ⟨now, later⟩
      rcases keep s a b t start here first now with ⟨holds, kept⟩
      exact ⟨holds, ih kept rest later⟩

/-- Invariant rule over steps: an invariant under which every step satisfies `P`. -/
theorem along_of_invariant (J : σ → Prop) {P : σ → α → β → σ → Prop}
    (keep : ∀ s a b t, J s → step s a = some (t, b) → P s a b t ∧ J t)
    {s : σ} (start : J s) (ops : List α) : Along step P s ops := by
  induction ops generalizing s with
  | nil => trivial
  | cons a ops ih =>
      intro t b first
      rcases keep s a b t start first with ⟨holds, kept⟩
      exact ⟨holds, ih kept⟩

theorem along_of_inputs {A : α → Prop} {s : σ} {ops : List α} (allowed : ∀ a ∈ ops, A a) :
    Along step (fun _ a _ _ => A a) s ops := by
  induction ops generalizing s with
  | nil => trivial
  | cons a ops ih =>
      intro t b _
      exact ⟨allowed a List.mem_cons_self, ih fun a member => allowed a (List.mem_cons_of_mem _ member)⟩

theorem along_inputs_iff {A : α → Prop} (total : ∀ s a, ∃ t b, step s a = some (t, b)) {s : σ}
    {ops : List α} : Along step (fun _ a _ _ => A a) s ops ↔ ∀ a ∈ ops, A a := by
  constructor
  · intro along
    induction ops generalizing s with
    | nil => simp
    | cons a ops ih =>
        obtain ⟨t, b, stepped⟩ := total s a
        obtain ⟨here, later⟩ := along t b stepped
        rw [List.forall_mem_cons]
        exact ⟨here, ih later⟩
  · exact along_of_inputs

/-- Every state of the run and the input it gets next satisfy `C`. -/
def Meets (step : σ → α → Option (σ × β)) (C : σ → α → Prop) : σ → List α → Prop
  | _, [] => True
  | s, a :: ops => C s a ∧ ∀ t b, step s a = some (t, b) → Meets step C t ops

instance decidableMeets (step : σ → α → Option (σ × β)) (C : σ → α → Prop)
    [∀ s a, Decidable (C s a)] : (s : σ) → (ops : List α) → Decidable (Meets step C s ops)
  | _, [] => isTrue trivial
  | s, a :: ops =>
      match found : step s a with
      | none => decidable_of_iff (C s a) <| by
          constructor
          · intro now
            exact ⟨now, fun t b stepped => by simp [found] at stepped⟩
          · exact And.left
      | some (t, b) =>
          have := decidableMeets step C t ops
          decidable_of_iff (C s a ∧ Meets step C t ops) <| by
            constructor
            · rintro ⟨now, later⟩
              refine ⟨now, fun t' b' stepped => ?_⟩
              rw [found, Option.some.injEq, Prod.mk.injEq] at stepped
              rw [← stepped.1]
              exact later
            · rintro ⟨now, later⟩
              exact ⟨now, later t b found⟩

/-- Where `C` decides whether an allowed step is defined and satisfies `P`, it decides the same
of every run of allowed inputs. -/
theorem meets_iff (J : σ → Prop) {A : α → Prop} {C : σ → α → Prop} {P : σ → α → β → σ → Prop}
    (here : ∀ s a, J s → A a → (C s a ↔ ∃ t b, step s a = some (t, b) ∧ P s a b t))
    (keep : ∀ s a t b, J s → A a → step s a = some (t, b) → J t)
    {s : σ} (start : J s) {ops : List α} (allowed : ∀ a ∈ ops, A a) :
    Meets step C s ops ↔ ∃ t log, exec step s ops = some (t, log) ∧ Along step P s ops := by
  induction ops generalizing s with
  | nil => exact iff_of_true trivial ⟨s, [], rfl, trivial⟩
  | cons a ops ih =>
      rcases List.forall_mem_cons.mp allowed with ⟨first, rest⟩
      constructor
      · rintro ⟨now, later⟩
        rcases (here s a start first).mp now with ⟨t, b, stepped, holds⟩
        rcases (ih (keep s a t b start first stepped) rest).mp (later t b stepped) with
          ⟨u, log, ran, along⟩
        refine ⟨u, (a, b) :: log, exec_cons_eq_some.mpr ⟨t, b, log, stepped, ran, rfl⟩, ?_⟩
        exact (along_cons stepped).mpr ⟨holds, along⟩
      · rintro ⟨u, log, ran, along⟩
        rcases exec_cons_eq_some.mp ran with ⟨t, b, tail, stepped, later, rfl⟩
        rcases (along_cons stepped).mp along with ⟨holds, rest'⟩
        refine ⟨(here s a start first).mpr ⟨t, b, stepped, holds⟩, ?_⟩
        intro t' b' again
        rw [stepped, Option.some.injEq, Prod.mk.injEq] at again
        rw [← again.1]
        exact (ih (keep s a t b start first stepped) rest).mpr ⟨u, tail, later, rest'⟩

/-- Where one allowed step satisfies `P` exactly when it meets `C`, so does every run of
allowed steps. -/
theorem along_iff_along (J : σ → Prop) {A C P : σ → α → β → σ → Prop}
    (here : ∀ s a b t, J s → A s a b t → step s a = some (t, b) →
      (P s a b t ↔ C s a b t) ∧ (C s a b t → J t))
    {s : σ} (start : J s) {ops : List α} (allowed : Along step A s ops) :
    Along step P s ops ↔ Along step C s ops := by
  induction ops generalizing s with
  | nil => exact Iff.rfl
  | cons a ops ih =>
      constructor
      · intro holds t b first
        obtain ⟨now, later⟩ := holds t b first
        obtain ⟨fits, rest⟩ := allowed t b first
        obtain ⟨same, keep⟩ := here s a b t start fits first
        exact ⟨same.mp now, (ih (keep (same.mp now)) rest).mp later⟩
      · intro holds t b first
        obtain ⟨now, later⟩ := holds t b first
        obtain ⟨fits, rest⟩ := allowed t b first
        obtain ⟨same, keep⟩ := here s a b t start fits first
        exact ⟨same.mpr now, (ih (keep now) rest).mpr later⟩

/-- Where one step satisfies `P` exactly when it meets `C`, so does every run. -/
theorem along_iff (J : σ → Prop) {A : α → Prop} {C P : σ → α → β → σ → Prop}
    (here : ∀ s a b t, J s → A a → step s a = some (t, b) →
      (P s a b t ↔ C s a b t) ∧ (C s a b t → J t))
    {s : σ} (start : J s) {ops : List α} (allowed : ∀ a ∈ ops, A a) :
    Along step P s ops ↔ Along step C s ops :=
  along_iff_along J here start (along_of_inputs allowed)

theorem along_of_append {P : σ → α → β → σ → Prop} {s t : σ} {front back : List α}
    {log : List (α × β)} (ran : exec step s front = some (t, log))
    (met : Along step P s (front ++ back)) : Along step P t back := by
  induction front generalizing s log with
  | nil =>
      simp only [exec_nil, Option.some.injEq, Prod.mk.injEq] at ran
      rw [← ran.1]
      exact met
  | cons a front ih =>
      rcases exec_cons_eq_some.mp ran with ⟨m, b, rest, first, run, rfl⟩
      exact ih run (met m b first).2

theorem last_of_along {P : σ → Prop} {s t : σ} {ops : List α} {log : List (α × β)}
    (start : P s) (met : Along step (fun _ _ _ after => P after) s ops)
    (ran : exec step s ops = some (t, log)) : P t := by
  induction ops generalizing s log with
  | nil =>
      simp only [exec_nil, Option.some.injEq, Prod.mk.injEq] at ran
      rw [← ran.1]
      exact start
  | cons a ops ih =>
      rcases exec_cons_eq_some.mp ran with ⟨m, b, rest, first, run, rfl⟩
      rcases met m b first with ⟨now, later⟩
      exact ih now later run

theorem log_of_along {Q : α → β → Prop} {s t : σ} {ops : List α} {log : List (α × β)}
    (ran : exec step s ops = some (t, log)) (met : Along step (fun _ a b _ => Q a b) s ops) :
    ∀ entry ∈ log, Q entry.1 entry.2 := by
  induction ops generalizing s log with
  | nil =>
      simp only [exec_nil, Option.some.injEq, Prod.mk.injEq] at ran
      simp [← ran.2]
  | cons a ops ih =>
      rcases exec_cons_eq_some.mp ran with ⟨m, b, rest, first, run, rfl⟩
      rcases met m b first with ⟨now, later⟩
      intro entry member
      rcases List.mem_cons.mp member with rfl | member
      · exact now
      · exact ih run later entry member

def logged (step : σ → α → Option (σ × β)) (state : σ × List (α × β)) (a : α) :
    Option ((σ × List (α × β)) × β) :=
  (step state.1 a).map fun next => ((next.1, state.2 ++ [(a, next.2)]), next.2)

theorem logged_eq_some {s t : σ} {a : α} {b : β} {past log : List (α × β)} :
    logged step (s, past) a = some ((t, log), b) ↔
      step s a = some (t, b) ∧ log = past ++ [(a, b)] := by
  simp only [logged, Option.map_eq_some_iff, Prod.mk.injEq]
  constructor
  · intro found
    rcases found with ⟨next, first, ⟨rfl, rfl⟩, rfl⟩
    exact ⟨first, rfl⟩
  · intro found
    rcases found with ⟨first, rfl⟩
    exact ⟨(t, b), first, ⟨rfl, rfl⟩, rfl⟩

theorem along_logged_iff {Q : List (α × β) → Prop} (shorter : ∀ front back, Q (front ++ back) → Q front)
    {s t : σ} {past log : List (α × β)} {ops : List α} (start : Q past)
    (ran : exec step s ops = some (t, log)) :
    Along (logged step) (fun _ _ _ after => Q after.2) (s, past) ops ↔ Q (past ++ log) := by
  induction ops generalizing s past log with
  | nil =>
      simp only [exec_nil, Option.some.injEq, Prod.mk.injEq] at ran
      rw [← ran.2, List.append_nil]
      exact iff_of_true trivial start
  | cons a ops ih =>
      rcases exec_cons_eq_some.mp ran with ⟨m, b, rest, first, run, rfl⟩
      have split : past ++ (a, b) :: rest = (past ++ [(a, b)]) ++ rest := by simp
      rw [split]
      constructor
      · intro holds
        rcases holds (m, past ++ [(a, b)]) b (logged_eq_some.mpr ⟨first, rfl⟩) with ⟨now, later⟩
        exact (ih now run).mp later
      · intro whole next b' stepped
        rcases next with ⟨m', log'⟩
        rcases logged_eq_some.mp stepped with ⟨again, rfl⟩
        rw [first, Option.some.injEq, Prod.mk.injEq] at again
        rcases again with ⟨rfl, rfl⟩
        have now := shorter _ rest whole
        exact ⟨now, (ih now run).mpr whole⟩

theorem foldl_set {apply : σ → α → σ} (observe : σ → β) (sets : α → Prop) [DecidablePred sets]
    {value : β} (each : ∀ s a, observe (apply s a) = if sets a then value else observe s)
    (inputs : List α) (s : σ) :
    observe (inputs.foldl apply s) = if ∃ a ∈ inputs, sets a then value else observe s := by
  induction inputs generalizing s with
  | nil => simp
  | cons a inputs ih =>
      rw [List.foldl_cons, ih, each]
      calc
        _ = if (∃ b ∈ inputs, sets b) ∨ sets a then value else observe s := (ite_or ..).symm
        _ = _ := if_congr (or_comm.trans (List.exists_mem_cons_iff sets a inputs).symm) rfl rfl

end Machine
