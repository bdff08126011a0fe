import Ito.Library.Machine
import Ito.Library.WrapCounter

/-! The single-producer, single-consumer ring buffer.

Source: `cpp/ito_routing/smart_order_router.hpp`. `push` and `pop` run side by side. A step is one
load or store of an index or one access to a slot, with the comparisons on the thread's own copies
that follow it. -/

namespace Ito.SpscRingBuffer

open WrapCounter

/-- The template parameter: not zero, and what the static assertion checks. -/
structure Capacity where
  value : UInt64
  positive : value ≠ 0
  powerOfTwo : value &&& (value - 1) = 0

namespace Capacity

variable (capacity : Capacity)

def size : Nat := capacity.value.toNat

def kMask : UInt64 := capacity.value - 1

theorem size_pos : 0 < capacity.size :=
  Nat.pos_of_ne_zero fun zero => capacity.positive (UInt64.toNat_inj.mp zero)

theorem size_lt : capacity.size < 2 ^ 64 := capacity.value.toNat_lt

def slot (index : UInt64) : Fin capacity.size :=
  ⟨(index &&& capacity.kMask).toNat, by
    have bound := Nat.and_le_right (n := index.toNat) (m := capacity.kMask.toNat)
    have mask : capacity.kMask.toNat = capacity.size - 1 := toNat_mask capacity.positive
    have positive := capacity.size_pos
    rw [UInt64.toNat_and]
    omega⟩

theorem slot_counts {index : UInt64} {n : Nat} (counts : Counts index n) :
    (capacity.slot index).val = n % capacity.size :=
  counts.toNat_masked capacity.positive capacity.powerOfTwo

end Capacity

variable {T : Type} {capacity : Capacity}

/-- Where `push` stands: it has loaded the tail, has seen room, or has written the slot. -/
inductive Producer (T : Type) where
  | idle
  | loaded (item : T) (currentTail : UInt64)
  | granted (item : T) (currentTail : UInt64)
  | written (item : T) (currentTail : UInt64)

/-- Where `pop` stands: it has loaded the head, has seen an item, or has read the slot. -/
inductive Consumer (T : Type) where
  | idle
  | loaded (currentHead : UInt64)
  | granted (currentHead : UInt64)
  | taken (currentHead : UInt64) (item : T)

structure System (T : Type) (capacity : Capacity) where
  head : UInt64 := 0
  tail : UInt64 := 0
  buffer : Vector T capacity.size
  producer : Producer T := .idle
  consumer : Consumer T := .idle

inductive Event (T : Type) where
  | push (item : T)
  | produce
  | pop
  | consume

inductive Output (T : Type) where
  | running
  | pushed (item : T)
  | full
  | popped (item : T)
  | empty

def produce (system : System T capacity) : Option (System T capacity × Output T) :=
  match system.producer with
  | .idle => none
  | .loaded item currentTail =>
      -- the load of the head decides between room and failure
      if currentTail - system.head ≥ capacity.value then
        some ({ system with producer := .idle }, .full)
      else some ({ system with producer := .granted item currentTail }, .running)
  | .granted item currentTail =>
      some ({ system with
        buffer := system.buffer.set (capacity.slot currentTail) item
        producer := .written item currentTail }, .running)
  | .written item currentTail =>
      some ({ system with tail := currentTail + 1, producer := .idle }, .pushed item)

def consume (system : System T capacity) : Option (System T capacity × Output T) :=
  match system.consumer with
  | .idle => none
  | .loaded currentHead =>
      if currentHead = system.tail then some ({ system with consumer := .idle }, .empty)
      else some ({ system with consumer := .granted currentHead }, .running)
  | .granted currentHead =>
      some ({ system with
        consumer := .taken currentHead (system.buffer.get (capacity.slot currentHead)) }, .running)
  | .taken currentHead item =>
      some ({ system with head := currentHead + 1, consumer := .idle }, .popped item)

def step (system : System T capacity) : Event T → Option (System T capacity × Output T)
  | .push item =>
      match system.producer with
      | .idle => some ({ system with producer := .loaded item system.tail }, .running)
      | _ => none
  | .produce => produce system
  | .pop =>
      match system.consumer with
      | .idle => some ({ system with consumer := .loaded system.head }, .running)
      | _ => none
  | .consume => consume system

abbrev Log (T : Type) := List (Event T × Output T)

def pushed (log : Log T) : List T :=
  log.filterMap fun entry => match entry.2 with
    | .pushed item => some item
    | _ => none

def popped (log : Log T) : List T :=
  log.filterMap fun entry => match entry.2 with
    | .popped item => some item
    | _ => none

end Ito.SpscRingBuffer
