import Ito.SpscRingBuffer

/-! The ring buffer is a bounded queue under every interleaving of `push` and `pop`.

The invariant counts the completed calls. A thread's own index cannot be stale, and what it has
seen of the other index stays true: room does not go away while the consumer runs, nor does an
item while the producer runs. -/

namespace Ito.SpscRingBuffer

open WrapCounter

variable {T : Type} {capacity : Capacity}

/-- What is in the slot of the `n`-th item. -/
def System.at (system : System T capacity) (n : Nat) : T :=
  system.buffer.get ⟨n % capacity.size, Nat.mod_lt n capacity.size_pos⟩

def ProducerReady (sent received : List T) (system : System T capacity) : Prop :=
  match system.producer with
  | .idle => True
  | .loaded _ currentTail => currentTail = system.tail
  | .granted _ currentTail =>
      currentTail = system.tail ∧ sent.length < received.length + capacity.size
  | .written item currentTail =>
      currentTail = system.tail ∧ sent.length < received.length + capacity.size ∧
        system.at sent.length = item

def ConsumerReady (sent received : List T) (system : System T capacity) : Prop :=
  match system.consumer with
  | .idle => True
  | .loaded currentHead => currentHead = system.head
  | .granted currentHead => currentHead = system.head ∧ received.length < sent.length
  | .taken currentHead item =>
      currentHead = system.head ∧ sent[received.length]? = some item

structure Invariant (sent received : List T) (system : System T capacity) : Prop where
  tail : Counts system.tail sent.length
  head : Counts system.head received.length
  fifo : received <+: sent
  bounded : sent.length ≤ received.length + capacity.size
  stored : ∀ n, received.length ≤ n → n < sent.length → sent[n]? = some (system.at n)
  producer : ProducerReady sent received system
  consumer : ConsumerReady sent received system

section Steps

variable {sent received : List T} {system next : System T capacity} {out : Output T}

theorem stored_count (inv : Invariant sent received system) :
    (system.tail - system.head).toNat = sent.length - received.length := by
  have bounded := inv.bounded
  have size := capacity.size_lt
  exact inv.tail.toNat_sub inv.head inv.fifo.length_le (by omega)

theorem head_eq_tail_iff (inv : Invariant sent received system) :
    system.head = system.tail ↔ received.length = sent.length := by
  have bounded := inv.bounded
  have size := capacity.size_lt
  exact inv.head.eq_iff inv.tail inv.fifo.length_le (by omega)

theorem get_slot {index : UInt64} {n : Nat} (system : System T capacity)
    (counts : Counts index n) : system.buffer.get (capacity.slot index) = system.at n := by
  rw [System.at]
  exact congrArg system.buffer.get (Fin.ext (capacity.slot_counts counts))

section Written

variable {n position : Nat} (inside : position < capacity.size) {item : T}
  (place : position = n % capacity.size)
  (written : next.buffer = system.buffer.set position item inside)
include place written

theorem at_set : next.at n = item := by
  subst place
  rw [System.at, written]
  exact Vector.getElem_set_self inside

theorem at_set_ne {m : Nat} (apart : m % capacity.size ≠ n % capacity.size) :
    next.at m = system.at m := by
  rw [System.at, System.at, written]
  apply Vector.getElem_set_ne
  rw [place]
  exact apart.symm

end Written

theorem producer_moved (inv : Invariant sent received system) {stage : Producer T}
    (ready : ProducerReady sent received { system with producer := stage }) :
    Invariant sent received { system with producer := stage } :=
  ⟨inv.tail, inv.head, inv.fifo, inv.bounded, inv.stored, ready, inv.consumer⟩

theorem consumer_moved (inv : Invariant sent received system) {stage : Consumer T}
    (ready : ConsumerReady sent received { system with consumer := stage }) :
    Invariant sent received { system with consumer := stage } :=
  ⟨inv.tail, inv.head, inv.fifo, inv.bounded, inv.stored, inv.producer, ready⟩

theorem slot_written (inv : Invariant sent received system)
    (room : sent.length < received.length + capacity.size) (item : T) :
    Invariant sent received
      { system with
        buffer := system.buffer.set (capacity.slot system.tail) item
        producer := .written item system.tail } := by
  have slot := capacity.slot_counts inv.tail
  have inside := (capacity.slot system.tail).isLt
  refine ⟨inv.tail, inv.head, inv.fifo, inv.bounded, ?_, ⟨rfl, room, at_set inside slot rfl⟩,
    inv.consumer⟩
  intro n first last
  have apart := mod_ne_mod last (show sent.length < n + capacity.size by omega)
  rw [inv.stored n first last]
  exact congrArg some (at_set_ne inside slot rfl apart).symm

theorem consumerReady_sent (ready : ConsumerReady sent received system) (item : T) {tail : UInt64}
    {moved : Producer T} :
    ConsumerReady (sent ++ [item]) received { system with tail, producer := moved } := by
  rw [ConsumerReady] at ready ⊢
  cases stage : system.consumer with
  | idle => trivial
  | loaded currentHead =>
      rw [stage] at ready
      exact ready
  | granted currentHead =>
      rw [stage] at ready
      refine ⟨ready.1, ?_⟩
      rw [List.length_append]
      exact Nat.lt_add_right _ ready.2
  | taken currentHead taken =>
      rw [stage] at ready
      refine ⟨ready.1, ?_⟩
      have present := (List.getElem?_eq_some_iff.mp ready.2).1
      rw [List.getElem?_append_left present]
      exact ready.2

theorem producerReady_received (ready : ProducerReady sent received system) (item : T)
    {head : UInt64} {moved : Consumer T} :
    ProducerReady sent (received ++ [item]) { system with head, consumer := moved } := by
  rw [ProducerReady] at ready ⊢
  rw [List.length_append, List.length_singleton]
  cases stage : system.producer with
  | idle => trivial
  | loaded pushing currentTail =>
      rw [stage] at ready
      exact ready
  | granted pushing currentTail =>
      rw [stage] at ready
      exact ⟨ready.1, by omega⟩
  | written pushing currentTail =>
      rw [stage] at ready
      exact ⟨ready.1, by omega, ready.2.2⟩

theorem tail_stored (inv : Invariant sent received system) {item : T}
    (room : sent.length < received.length + capacity.size)
    (written : system.at sent.length = item) :
    Invariant (sent ++ [item]) received
      { system with tail := system.tail + 1, producer := .idle } := by
  refine ⟨?_, inv.head, inv.fifo.trans (List.prefix_append _ _), ?_, ?_, trivial, ?_⟩
  · rw [List.length_append]
    exact inv.tail.succ
  · rw [List.length_append, List.length_singleton]
    omega
  · intro n first last
    rw [List.length_append, List.length_singleton] at last
    by_cases old : n < sent.length
    · rw [List.getElem?_append_left old]
      exact inv.stored n first old
    · have newest : n = sent.length := by omega
      rw [newest, List.getElem?_concat_length, ← written]
      rfl
  · exact consumerReady_sent inv.consumer item

theorem produce_invariant (inv : Invariant sent received system)
    (stepped : produce system = some (next, out)) :
    (out = .running ∧ Invariant sent received next) ∨
      (out = .full ∧ Invariant sent received next ∧
        sent.length = received.length + capacity.size) ∨
      (∃ item, out = .pushed item ∧ Invariant (sent ++ [item]) received next) := by
  have ready := inv.producer
  rw [ProducerReady] at ready
  rw [produce] at stepped
  cases stage : system.producer with
  | idle =>
      rw [stage] at stepped
      cases stepped
  | loaded item currentTail =>
      rw [stage] at ready stepped
      have same : currentTail = system.tail := ready
      have count := stored_count inv
      have bounded := inv.bounded
      have order := inv.fifo.length_le
      simp only [same] at stepped
      by_cases full : system.tail - system.head ≥ capacity.value
      · rw [if_pos full] at stepped
        cases stepped
        rw [ge_iff_le, UInt64.le_iff_toNat_le, count] at full
        have size : capacity.size ≤ sent.length - received.length := full
        have positive := capacity.size_pos
        exact .inr (.inl ⟨rfl, producer_moved inv trivial, by omega⟩)
      · rw [if_neg full] at stepped
        cases stepped
        rw [ge_iff_le, UInt64.le_iff_toNat_le, count] at full
        have size : ¬ capacity.size ≤ sent.length - received.length := full
        exact .inl ⟨rfl, producer_moved inv ⟨rfl, by omega⟩⟩
  | granted item currentTail =>
      rw [stage] at ready stepped
      rcases ready with ⟨rfl, room⟩
      cases stepped
      exact .inl ⟨rfl, slot_written inv room item⟩
  | written item currentTail =>
      rw [stage] at ready stepped
      rcases ready with ⟨rfl, room, written⟩
      cases stepped
      exact .inr (.inr ⟨item, rfl, tail_stored inv room written⟩)

theorem head_stored (inv : Invariant sent received system) {item : T}
    (taken : sent[received.length]? = some item) :
    Invariant sent (received ++ [item])
      { system with head := system.head + 1, consumer := .idle } := by
  have bounded := inv.bounded
  rcases List.getElem?_eq_some_iff.mp taken with ⟨present, value⟩
  refine ⟨inv.tail, ?_, ?_, ?_, ?_, ?_, trivial⟩
  · rw [List.length_append]
    exact inv.head.succ
  · rcases inv.fifo with ⟨rest, whole⟩
    rw [← whole, List.getElem?_append_right (le_refl _), Nat.sub_self] at taken
    cases rest with
    | nil => cases taken
    | cons first rest =>
        rw [List.getElem?_cons_zero, Option.some.injEq] at taken
        rw [← taken, ← whole]
        exact ⟨rest, by rw [List.append_assoc, List.singleton_append]⟩
  · rw [List.length_append]
    omega
  · intro n first last
    rw [List.length_append, List.length_singleton] at first
    exact inv.stored n (by omega) last
  · exact producerReady_received inv.producer item

theorem consume_invariant (inv : Invariant sent received system)
    (stepped : consume system = some (next, out)) :
    ((out = .running ∨ out = .empty) ∧ Invariant sent received next) ∨
      (∃ item, out = .popped item ∧ Invariant sent (received ++ [item]) next) := by
  have ready := inv.consumer
  rw [ConsumerReady] at ready
  rw [consume] at stepped
  cases stage : system.consumer with
  | idle =>
      rw [stage] at stepped
      cases stepped
  | loaded currentHead =>
      rw [stage] at ready stepped
      have same : currentHead = system.head := ready
      have order := inv.fifo.length_le
      simp only [same] at stepped
      by_cases drained : system.head = system.tail
      · rw [if_pos drained] at stepped
        cases stepped
        exact .inl ⟨.inr rfl, consumer_moved inv trivial⟩
      · rw [if_neg drained] at stepped
        cases stepped
        rw [head_eq_tail_iff inv] at drained
        exact .inl ⟨.inl rfl, consumer_moved inv ⟨rfl, by omega⟩⟩
  | granted currentHead =>
      rw [stage] at ready stepped
      rcases ready with ⟨rfl, present⟩
      cases stepped
      have item := inv.stored received.length (le_refl _) present
      rw [← get_slot system inv.head] at item
      exact .inl ⟨.inl rfl, consumer_moved inv ⟨rfl, item⟩⟩
  | taken currentHead item =>
      rw [stage] at ready stepped
      rcases ready with ⟨rfl, taken⟩
      cases stepped
      exact .inr ⟨item, rfl, head_stored inv taken⟩

end Steps

theorem pushed_append (log : Log T) (event : Event T) (out : Output T) :
    pushed (log ++ [(event, out)]) = pushed log ++ match out with
      | .pushed item => [item]
      | _ => [] := by
  cases out <;> simp [pushed]

theorem popped_append (log : Log T) (event : Event T) (out : Output T) :
    popped (log ++ [(event, out)]) = popped log ++ match out with
      | .popped item => [item]
      | _ => [] := by
  cases out <;> simp [popped]

theorem step_invariant {log : Log T} {system next : System T capacity} {event : Event T}
    {out : Output T} (inv : Invariant (pushed log) (popped log) system)
    (stepped : step system event = some (next, out)) :
    Invariant (pushed (log ++ [(event, out)])) (popped (log ++ [(event, out)])) next ∧
      (out = .full → (pushed log).length = (popped log).length + capacity.size) := by
  rw [pushed_append, popped_append]
  cases event with
  | push item =>
      rw [step] at stepped
      split at stepped
      · cases stepped
        simp only [List.append_nil]
        exact ⟨producer_moved inv rfl, fun full => by cases full⟩
      · cases stepped
  | produce =>
      rcases produce_invariant inv stepped with ⟨rfl, kept⟩ | ⟨rfl, kept, full⟩ | ⟨item, rfl, kept⟩
      · simp only [List.append_nil]
        exact ⟨kept, fun full => by cases full⟩
      · simp only [List.append_nil]
        exact ⟨kept, fun _ => full⟩
      · simp only [List.append_nil]
        exact ⟨kept, fun full => by cases full⟩
  | pop =>
      rw [step] at stepped
      split at stepped
      · cases stepped
        simp only [List.append_nil]
        exact ⟨consumer_moved inv rfl, fun full => by cases full⟩
      · cases stepped
  | consume =>
      rcases consume_invariant inv stepped with ⟨rfl | rfl, kept⟩ | ⟨item, rfl, kept⟩
      all_goals
        simp only [List.append_nil]
        exact ⟨kept, fun full => by cases full⟩

theorem initial_invariant (buffer : Vector T capacity.size) :
    Invariant (pushed []) (popped []) ({ buffer } : System T capacity) where
  tail := counts_zero
  head := counts_zero
  fifo := List.prefix_refl []
  bounded := Nat.zero_le _
  stored := fun n _ last => absurd last (Nat.not_lt_zero n)
  producer := trivial
  consumer := trivial

/-- In every run the popped items are a prefix of the pushed ones, at most `Capacity` items are
stored, and a push fails only in a step that finds `Capacity` items. -/
theorem spsc_bounded_fifo (buffer : Vector T capacity.size) {events : List (Event T)}
    {last : System T capacity} {log : Log T}
    (ran : Machine.exec step { buffer } events = some (last, log)) :
    popped log <+: pushed log ∧
      (pushed log).length ≤ (popped log).length + capacity.size ∧
      (∀ event next, step last event = some (next, .full) →
        (pushed log).length = (popped log).length + capacity.size) := by
  have inv : Invariant (pushed log) (popped log) last := by
    apply Machine.exec_invariant
      (fun log (system : System T capacity) => Invariant (pushed log) (popped log) system) _
      (initial_invariant buffer) ran
    intro log system event next out held stepped
    exact (step_invariant held stepped).1
  refine ⟨inv.fifo, inv.bounded, ?_⟩
  intro event next stepped
  exact (step_invariant inv stepped).2 rfl

def oneSlot : Capacity := ⟨1, by decide, by decide⟩

def overlappingRun : List (Event Nat) :=
  [.push 7, .produce, .pop, .produce, .produce, .consume, .push 8, .consume, .consume]

theorem overlapping_run_fifo :
    ∃ (last : System Nat oneSlot) (log : Log Nat),
      Machine.exec step { buffer := Vector.replicate oneSlot.size 0 } overlappingRun =
        some (last, log) ∧ popped log = [7] ∧ pushed log = [7] ∧
      popped log <+: pushed log ∧ (pushed log).length ≤ (popped log).length + oneSlot.size ∧
      (∀ event next, step last event = some (next, .full) →
        (pushed log).length = (popped log).length + oneSlot.size) := by
  rcases ran : Machine.exec step ({ buffer := Vector.replicate oneSlot.size 0 } :
      System Nat oneSlot) overlappingRun with _ | ⟨last, log⟩
  · cases ran
  · have same := ran
    cases same
    exact ⟨_, _, rfl, rfl, rfl, spsc_bounded_fifo (Vector.replicate oneSlot.size 0) ran⟩

end Ito.SpscRingBuffer
