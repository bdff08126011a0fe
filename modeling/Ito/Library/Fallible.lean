import Mathlib.Data.List.Basic
import Mathlib.Data.List.Forall2
import Mathlib.Tactic.Common

/-! What it says of a computation that may fail that it succeeds. -/

namespace Fallible

universe u v

variable {E : Type u}

theorem bind_eq_ok {A B : Type v} {attempt : Except E A} {next : A → Except E B} {result : B} :
    (attempt >>= next) = .ok result ↔ ∃ value, attempt = .ok value ∧ next value = .ok result := by
  cases attempt with
  | error raised => simp [Bind.bind, Except.bind]
  | ok value => simp [Bind.bind, Except.bind]

theorem throw_else_eq_ok {A : Type v} {fault : Prop} [Decidable fault] {raised : E}
    {rest : Except E A} {result : A} :
    (if fault then throw raised else rest) = .ok result ↔ ¬ fault ∧ rest = .ok result := by
  split
  case isTrue holds => simp [holds, throw, throwThe, MonadExceptOf.throw]
  case isFalse fails => simp [fails]

theorem forM_eq_ok {A : Type*} {check : A → Except E Unit} {items : List A} :
    forM items check = .ok () ↔ ∀ item ∈ items, check item = .ok () := by
  induction items with
  | nil => simp [pure, Except.pure]
  | cons first rest ih =>
      rw [List.forM_cons, List.forall_mem_cons, ← ih]
      refine Iff.trans bind_eq_ok ?_
      constructor
      · rintro ⟨_, checked, others⟩
        exact ⟨checked, others⟩
      · rintro ⟨checked, others⟩
        exact ⟨(), checked, others⟩

theorem mapM_eq_ok {A B : Type v} {compute : A → Except E B} {value : A → B} {items : List A}
    (each : ∀ item ∈ items, compute item = .ok (value item)) :
    items.mapM compute = .ok (items.map value) := by
  induction items with
  | nil => rfl
  | cons first rest ih =>
      rw [List.forall_mem_cons] at each
      rw [List.mapM_cons, each.1, ih each.2]
      rfl

theorem mapM_forall₂ {A B : Type v} {compute : A → Except E B} {holds : A → B → Prop}
    {items : List A} (each : ∀ item ∈ items, ∃ value, compute item = .ok value ∧ holds item value) :
    ∃ values, items.mapM compute = .ok values ∧ List.Forall₂ holds items values := by
  induction items with
  | nil => exact ⟨[], rfl, .nil⟩
  | cons first rest ih =>
      rcases List.forall_mem_cons.mp each with ⟨⟨value, evaluated, here⟩, others⟩
      rcases ih others with ⟨values, computed, all⟩
      refine ⟨value :: values, ?_, .cons here all⟩
      rw [List.mapM_cons, evaluated, computed]
      rfl

theorem mapM_of_forall₂ {A B : Type*} {C : Type v} {compute : B → Except E C} {value : A → C}
    {items : List A} {sources : List B}
    (all : List.Forall₂ (fun item source => compute source = .ok (value item)) items sources) :
    sources.mapM compute = .ok (items.map value) := by
  induction all with
  | nil => rfl
  | cons first _ ih =>
      rw [List.mapM_cons, first, ih]
      rfl

theorem forall₂_right {A B : Type*} {holds : A → B → Prop} {items : List A} {values : List B}
    (all : List.Forall₂ holds items values) {value : B} (member : value ∈ values) :
    ∃ item ∈ items, holds item value := by
  induction all with
  | nil => cases member
  | cons here _ ih =>
      rcases List.mem_cons.mp member with rfl | later
      · exact ⟨_, List.mem_cons_self, here⟩
      · rcases ih later with ⟨item, among, holds⟩
        exact ⟨item, List.mem_cons_of_mem _ among, holds⟩

theorem of_mapM_eq_ok {A B : Type v} {compute : A → Except E B} {items : List A} {values : List B}
    (computed : items.mapM compute = .ok values) : ∀ item ∈ items, ∃ value, compute item = .ok value := by
  induction items generalizing values with
  | nil => simp
  | cons first rest ih =>
      rw [List.mapM_cons] at computed
      rcases bind_eq_ok.mp computed with ⟨value, here, computed⟩
      rcases bind_eq_ok.mp computed with ⟨others, later, -⟩
      exact List.forall_mem_cons.mpr ⟨⟨value, here⟩, ih later⟩

theorem mapM_eq_error {A B : Type v} {compute : A → Except E B} {raised : E} {items : List A}
    (each : ∀ item ∈ items, compute item = .error raised ∨ ∃ value, compute item = .ok value)
    (fails : ∃ item ∈ items, compute item = .error raised) : items.mapM compute = .error raised := by
  induction items with
  | nil =>
      rcases fails with ⟨item, member, -⟩
      cases member
  | cons first rest ih =>
      rw [List.forall_mem_cons] at each
      rw [List.mapM_cons]
      rcases each.1 with failed | ⟨value, computed⟩
      · rw [failed]
        rfl
      · have later : ∃ item ∈ rest, compute item = .error raised := by
          rcases fails with ⟨item, member, failed⟩
          rcases List.mem_cons.mp member with rfl | among
          · rw [failed] at computed
            cases computed
          · exact ⟨item, among, failed⟩
        rw [computed, ih each.2 later]
        rfl

end Fallible
