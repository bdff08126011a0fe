import Ito.Library.Clocked
import Mathlib.Data.Nat.Find

/-! The latency counter, clock by clock.

Source: `rtl/telemetry/latency_counter.sv`. A step is one rising clock edge while `rst_n` is high,
and `reset` is what a low `rst_n` leaves. Edges are numbered from zero. -/

namespace Ito.Rtl

open Clocked

variable {w : Nat}

/-- The registers of `latency_counter`, `WIDTH` being `w`. -/
structure LatencyCounter (w : Nat) where
  active : Bool
  valid : Bool
  cycles : BitVec w
  counter : BitVec w
  deriving DecidableEq, Repr

namespace LatencyCounter

structure Input where
  start : Bool
  stop : Bool
  deriving DecidableEq, Repr

def reset : LatencyCounter w := { active := false, valid := false, cycles := 0, counter := 0 }

def clock (latency : LatencyCounter w) (input : Input) : LatencyCounter w :=
  let latency := { latency with valid := false }
  if input.start && !latency.active then { latency with active := true, counter := 0 }
  else if latency.active then
    if input.stop then { latency with active := false, valid := true, cycles := latency.counter }
    else { latency with counter := latency.counter + 1 }
  else latency

section Step

variable (latency : LatencyCounter w) (input : Input)

theorem clock_active :
    (clock latency input).active = if latency.active then !input.stop else input.start := by
  rw [clock]
  cases latency.active <;> cases input.start <;> cases input.stop <;> rfl

theorem clock_valid : (clock latency input).valid = (latency.active && input.stop) := by
  rw [clock]
  cases latency.active <;> cases input.start <;> cases input.stop <;> rfl

theorem clock_counter_start (idle : latency.active = false) (start : input.start = true) :
    (clock latency input).counter = 0 := by
  rw [clock, idle, start]
  rfl

theorem clock_counter_active (active : latency.active = true) (running : input.stop = false) :
    (clock latency input).counter = latency.counter + 1 := by
  rw [clock, active, running, Bool.not_true, Bool.and_false]
  rfl

theorem clock_cycles_stop (active : latency.active = true) (stop : input.stop = true) :
    (clock latency input).cycles = latency.counter := by
  rw [clock, active, stop, Bool.not_true, Bool.and_false]
  rfl

end Step

def before (w : Nat) (input : Nat → Input) (edge : Nat) : LatencyCounter w :=
  trace clock reset input edge

def Accepted (w : Nat) (input : Nat → Input) (edge : Nat) : Prop :=
  (input edge).start = true ∧ (before w input edge).active = false

/-- A start is accepted on edge `k`, and no stop is sampled after it and before edge `j`. -/
structure Running (w : Nat) (input : Nat → Input) (k j : Nat) : Prop where
  accepted : Accepted w input k
  later : k < j
  quiet : ∀ i, k < i → i < j → (input i).stop = false

/-- Edge `j` samples the next stop after the start that is accepted on edge `k`. -/
structure Measured (w : Nat) (input : Nat → Input) (k j : Nat) : Prop
    extends Running w input k j where
  stopped : (input j).stop = true

section Runs

variable {input : Nat → Input} {k j l : Nat}

theorem before_succ : before w input (j + 1) = clock (before w input j) (input j) :=
  trace_succ reset input j

theorem Running.shorten (running : Running w input k j) (after : k < l) (early : l ≤ j) :
    Running w input k l :=
  { running with later := after, quiet := fun i above below => running.quiet i above (by omega) }

/-- While a measurement is active, the counter lags one behind the edges since its start. -/
theorem Running.counter (running : Running w input k j) :
    (before w input j).active = true ∧
      (before w input j).counter = BitVec.ofNat w (j - k - 1) := by
  rcases running with ⟨⟨start, idle⟩, later, quiet⟩
  induction j, later using Nat.le_induction with
  | base =>
      rw [before_succ, clock_active, idle, clock_counter_start _ _ idle start]
      refine ⟨start, ?_⟩
      have none : k.succ - k - 1 = 0 := by omega
      rw [none]
      rfl
  | succ j later ih =>
      rcases ih fun i above below => quiet i above (by omega) with ⟨active, counted⟩
      have running : (input j).stop = false := quiet j later (by omega)
      rw [before_succ, clock_active, active, running,
        clock_counter_active _ _ active running, counted]
      have grown : j + 1 - k - 1 = j - k - 1 + 1 := by omega
      rw [grown, BitVec.ofNat_add]
      exact ⟨rfl, rfl⟩

theorem running_of_active (active : (before w input j).active = true) :
    ∃ k, Running w input k j := by
  induction j with
  | zero => cases active
  | succ j ih =>
      rw [before_succ, clock_active] at active
      cases held : (before w input j).active with
      | false =>
          rw [held] at active
          exact ⟨j, ⟨active, held⟩, by omega, fun i above below => by omega⟩
      | true =>
          rw [held, if_pos rfl, Bool.not_eq_true'] at active
          rcases ih held with ⟨k, running⟩
          refine ⟨k, running.accepted, running.later.trans (by omega), fun i above below => ?_⟩
          rcases Nat.lt_succ_iff_lt_or_eq.mp below with earlier | rfl
          · exact running.quiet i above earlier
          · exact active

/-- No start is accepted while a measurement runs. -/
theorem Running.unique (first : Running w input k j) (second : Running w input l j) : k = l := by
  have apart : ∀ {k l : Nat}, Running w input k j → Running w input l j → ¬ k < l := by
    intro k l first second earlier
    have active := (first.shorten earlier second.later.le).counter.1
    rw [second.accepted.2] at active
    cases active
  have one := apart first second
  have two := apart second first
  omega

theorem Measured.stop_unique (first : Measured w input k j) (second : Measured w input k l) :
    j = l := by
  rcases Nat.lt_trichotomy j l with earlier | same | later
  · have quiet := second.quiet j first.later earlier
    rw [first.stopped] at quiet
    cases quiet
  · exact same
  · have quiet := first.quiet l second.later later
    rw [second.stopped] at quiet
    cases quiet

/-- A measurement reports one less than the edges from its start to its stop. -/
theorem Measured.cycles (measured : Measured w input k j) :
    (before w input (j + 1)).valid = true ∧
      (before w input (j + 1)).cycles = BitVec.ofNat w (j - k - 1) := by
  rcases measured.toRunning.counter with ⟨active, counted⟩
  rw [before_succ, clock_valid, active, measured.stopped,
    clock_cycles_stop _ _ active measured.stopped]
  exact ⟨rfl, counted⟩

theorem measured_of_valid (valid : (before w input (j + 1)).valid = true) :
    ∃ k, Measured w input k j := by
  rw [before_succ, clock_valid, Bool.and_eq_true] at valid
  rcases running_of_active valid.1 with ⟨k, running⟩
  exact ⟨k, running, valid.2⟩

/-- A running measurement is over at the first stop. -/
theorem Running.measured (running : Running w input k j) (early : j ≤ l)
    (stop : (input l).stop = true) : ∃ i, Measured w input k i := by
  have sampled : ∃ i, j ≤ i ∧ (input i).stop = true := ⟨l, early, stop⟩
  rcases Nat.find_spec sampled with ⟨after, stopped⟩
  refine ⟨Nat.find sampled, ⟨running.accepted, running.later.trans_le after, ?_⟩, stopped⟩
  intro i above below
  rcases Nat.lt_or_ge i j with earlier | reached
  · exact running.quiet i above earlier
  · exact Bool.eq_false_iff.mpr fun stop => Nat.find_min sampled below ⟨reached, stop⟩

theorem Accepted.running (accepted : Accepted w input k) : Running w input k (k + 1) :=
  ⟨accepted, by omega, fun i above below => by omega⟩

theorem exists_measured (start : (input k).start = true) (after : k < j)
    (stop : (input j).stop = true) : ∃ k j, Measured w input k j := by
  cases held : (before w input k).active with
  | false => exact ⟨k, (Accepted.running ⟨start, held⟩).measured after stop⟩
  | true =>
      rcases running_of_active held with ⟨earlier, running⟩
      exact ⟨earlier, running.measured after.le stop⟩

end Runs

/-- Every pulse ends one measurement, and every accepted start that a stop follows has one pulse. -/
theorem pulses_once (w : Nat) (input : Nat → Input) :
    (∀ j, (before w input (j + 1)).valid = true → ∃! k, Measured w input k j) ∧
    ∀ k, Accepted w input k → (∃ j, k < j ∧ (input j).stop = true) →
      ∃! j, Measured w input k j ∧ (before w input (j + 1)).valid = true := by
  constructor
  · intro j valid
    rcases measured_of_valid valid with ⟨k, measured⟩
    exact ⟨k, measured, fun l other => other.toRunning.unique measured.toRunning⟩
  · rintro k accepted ⟨j, after, stop⟩
    rcases accepted.running.measured after stop with ⟨i, measured⟩
    exact ⟨i, ⟨measured, measured.cycles.1⟩, fun l other => other.1.stop_unique measured⟩

/-- The pulses are always those of the measurements, but the reported latencies are the edges from
start to stop only where no stop follows a start. -/
theorem latency_elapsed_iff (input : Nat → Input) :
    ((∀ j, (before (w + 1) input (j + 1)).valid = true → ∃! k, Measured (w + 1) input k j) ∧
    (∀ k, Accepted (w + 1) input k → (∃ j, k < j ∧ (input j).stop = true) →
      ∃! j, Measured (w + 1) input k j ∧ (before (w + 1) input (j + 1)).valid = true) ∧
    ∀ k j, Measured (w + 1) input k j →
      (before (w + 1) input (j + 1)).cycles = BitVec.ofNat (w + 1) (j - k)) ↔
    ∀ k j, k < j → (input k).start = true → (input j).stop = false := by
  constructor
  · rintro ⟨-, -, elapsed⟩ k j after start
    refine Bool.eq_false_iff.mpr fun stop => ?_
    rcases exists_measured (w := w + 1) start after stop with ⟨k, j, measured⟩
    have later := measured.later
    have split : j - k = j - k - 1 + 1 := by omega
    have reported : BitVec.ofNat (w + 1) (j - k - 1) + 0 =
        BitVec.ofNat (w + 1) (j - k - 1) + 1 := by
      calc
        BitVec.ofNat (w + 1) (j - k - 1) + 0 = BitVec.ofNat (w + 1) (j - k - 1) := BitVec.add_zero _
        _ = (before (w + 1) input (j + 1)).cycles := measured.cycles.2.symm
        _ = BitVec.ofNat (w + 1) (j - k) := elapsed k j measured
        _ = BitVec.ofNat (w + 1) (j - k - 1) + 1 := by rw [split, BitVec.ofNat_add]; rfl
    have one : (0 : BitVec (w + 1)) = 1 := (BitVec.add_right_inj _).mp reported
    simp at one
  · intro nothing
    rcases pulses_once (w + 1) input with ⟨pulses, starts⟩
    refine ⟨pulses, starts, fun k j measured => ?_⟩
    have quiet := nothing k j measured.later measured.accepted.1
    rw [measured.stopped] at quiet
    cases quiet

/-- A stop on the edge after the start is reported as no edge at all. -/
theorem latency_one_edge :
    let input : Nat → Input := fun edge => { start := edge = 0, stop := edge = 1 }
    (before 32 input 2).valid = true ∧
      ¬ ∀ k, Measured 32 input k 1 → (before 32 input 2).cycles = BitVec.ofNat 32 (1 - k) := by
  intro input
  refine ⟨rfl, fun elapsed => ?_⟩
  have measured : Measured 32 input 0 1 :=
    ⟨⟨⟨rfl, rfl⟩, by decide, fun i above below => by omega⟩, rfl⟩
  have reported := elapsed 0 measured
  cases reported

end LatencyCounter

end Ito.Rtl
