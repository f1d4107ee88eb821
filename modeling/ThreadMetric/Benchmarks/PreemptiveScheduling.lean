import Mathlib.Data.Fin.VecNotation
import Mathlib.Tactic.FinCases
import ThreadMetric.Kernel.Rounds

/-!
# The preemptive scheduling test

Thread 0 resumes thread 1, which preempts it and resumes thread 2, and so on up to thread 4; on
the way back every thread increments its counter and suspends itself. A round consists of thirteen
statements, after which every counter is one larger and everything else is as before. In the
states of a round the threads that are not suspended are exactly those below the running one, so
every resume finds its thread suspended.
-/

namespace ThreadMetric.PreemptiveScheduling

open Kernel Report Transition

/-- The loop of the three threads in the middle,
`while (1) { tm_thread_resume(k + 1); tm_preemptive_thread_k_counter++; tm_thread_suspend(k); }`. -/
def middleEntry (k : Fin 5) : Program (Instr (Fin 5) (Fin 5)) where
  entry := []
  loop := [.resume (k + 1), .increment k, .suspend k]

/-- `tm_preemptive_thread_0_entry`, which never suspends itself. -/
def tmPreemptiveThread0Entry : Program (Instr (Fin 5) (Fin 5)) where
  entry := []
  loop := [.resume 1, .increment 0]

/-- `tm_preemptive_thread_1_entry`. -/
def tmPreemptiveThread1Entry : Program (Instr (Fin 5) (Fin 5)) := middleEntry 1

/-- `tm_preemptive_thread_2_entry`. -/
def tmPreemptiveThread2Entry : Program (Instr (Fin 5) (Fin 5)) := middleEntry 2

/-- `tm_preemptive_thread_3_entry`. -/
def tmPreemptiveThread3Entry : Program (Instr (Fin 5) (Fin 5)) := middleEntry 3

/-- `tm_preemptive_thread_4_entry`, which resumes nobody. -/
def tmPreemptiveThread4Entry : Program (Instr (Fin 5) (Fin 5)) where
  entry := []
  loop := [.increment 4, .suspend 4]

/-- The five worker threads with priorities 10 to 6; the reporter has priority 2. -/
def setup (port : Port) : Setup (Fin 5) (Fin 5) where
  port := port
  priority := ![10, 9, 8, 7, 6]
  reporterPriority := 2
  program := ![tmPreemptiveThread0Entry, tmPreemptiveThread1Entry, tmPreemptiveThread2Entry,
    tmPreemptiveThread3Entry, tmPreemptiveThread4Entry]
  counters := [0, 1, 2, 3, 4]

/-- The threads after `tm_preemptive_scheduling_initialize`, which resumes just thread 0. -/
def tmPreemptiveSchedulingInitialize (port : Port) : Machine (Fin 5) (Fin 5) :=
  (setup port).start [0]

/-- One step of the test: workers and reporter under strict priorities. -/
abbrev next (port : Port) (w : ℕ) (params : Params) :
    Bench (Machine (Fin 5) (Fin 5)) w → Event Setup.Move →
      Option (Bench (Machine (Fin 5) (Fin 5)) w) :=
  Bench.next (setup port).workers (tmPreemptiveThreadReport w) params .strict

/-- The test when the scheduler starts; the reporter has the most urgent priority. -/
abbrev start (port : Port) (w : ℕ) : Bench (Machine (Fin 5) (Fin 5)) w :=
  ⟨tmPreemptiveSchedulingInitialize port, .start⟩

/-- The counter values in the order in which the reporter reads them. -/
abbrev counters (port : Port) (m : Machine (Fin 5) (Fin 5)) : List ℕ :=
  (setup port).workers.counters m

/-! ## The states of a round -/

/-- The states of the first round: the descent from thread 0 to thread 4, and the way back. -/
abbrev round (port : Port) : List (Machine (Fin 5) (Fin 5)) :=
  (setup port).firstStates (tmPreemptiveSchedulingInitialize port) 13

/-- Threads with larger numbers have been served earlier in the round, and a statement that
resumes a thread finds it suspended. -/
structure Nested (port : Port) (m : Machine (Fin 5) (Fin 5)) : Prop where
  zero_one : m.count 0 ≤ m.count 1
  one_two : m.count 1 ≤ m.count 2
  two_three : m.count 2 ≤ m.count 3
  three_four : m.count 3 ≤ m.count 4
  four_zero : m.count 4 ≤ m.count 0 + 1
  resumed : ∀ x ∈ (setup port).current m, ∀ u ∈ x.2.2.resumed, u = x.1 + 1 ∧ m.Suspended u

instance (port : Port) (m : Machine (Fin 5) (Fin 5)) : Decidable (Nested port m) :=
  decidable_of_iff (m.count 0 ≤ m.count 1 ∧ m.count 1 ≤ m.count 2 ∧ m.count 2 ≤ m.count 3 ∧
      m.count 3 ≤ m.count 4 ∧ m.count 4 ≤ m.count 0 + 1 ∧
      ∀ x ∈ (setup port).current m, ∀ u ∈ x.2.2.resumed, u = x.1 + 1 ∧ m.Suspended u)
    ⟨fun ⟨h₁, h₂, h₃, h₄, h₅, h₆⟩ ↦ ⟨h₁, h₂, h₃, h₄, h₅, h₆⟩,
      fun ⟨h₁, h₂, h₃, h₄, h₅, h₆⟩ ↦ ⟨h₁, h₂, h₃, h₄, h₅, h₆⟩⟩

/-- `Nested` does not depend on the number of rounds completed. -/
theorem Nested.vadd {port : Port} {m : Machine (Fin 5) (Fin 5)} (h : Nested port m)
    (k : ℕ × ℕ) : Nested port (k +ᵥ m) where
  zero_one := Nat.add_le_add_left h.zero_one _
  one_two := Nat.add_le_add_left h.one_two _
  two_three := Nat.add_le_add_left h.two_three _
  three_four := Nat.add_le_add_left h.three_four _
  four_zero := Nat.add_le_add_left h.four_zero _
  resumed := h.resumed

/-- The counters of nested threads differ by at most one. -/
theorem Nested.balanced {port : Port} {m : Machine (Fin 5) (Fin 5)} (h : Nested port m)
    (j k : Fin 5) : m.count j ≤ m.count k + 1 := by
  have h₁ := h.zero_one
  have h₂ := h.one_two
  have h₃ := h.two_three
  have h₄ := h.three_four
  have h₅ := h.four_zero
  fin_cases j <;> fin_cases k <;> simp only [Fin.mk_one, Fin.zero_eta, Fin.reduceFinMk] <;> omega

/-- All states of the first round are nested. -/
theorem nested_of_mem_round (port : Port) : ∀ m ∈ round port, Nested port m := by
  cases port with
  | threadX => decide +kernel
  | freeRTOS => decide +kernel

/-- The last statement of a round leads back to its first state with all counters one larger, and
a tick changes nothing because the priorities differ. -/
theorem round_closed (port : Port) : ∀ state ∈ round port, ∀ move,
    ∀ finish ∈ (setup port).next state move,
      ∃ state' ∈ round port, finish = state' ∨ finish = (1, 0) +ᵥ state' := by
  cases port with
  | threadX => decide +kernel
  | freeRTOS => decide +kernel

/-! ## The test -/

variable {port : Port} {w : ℕ} {params : Params} {s : Bench (Machine (Fin 5) (Fin 5)) w}

/-- The threads are nested in every state of the test. -/
theorem nested_of_reachable (hreach : Reachable (next port w params) (start port w) s) :
    Nested port s.workers := by
  have hstart : tmPreemptiveSchedulingInitialize port ∈ round port := by
    cases port <;> decide +kernel
  obtain ⟨rounds, m, hm, hs⟩ :=
    Setup.reachable_rounds 0 hstart (round_closed port) (Bench.workers_reachable hreach)
  rw [hs]
  exact (nested_of_mem_round port m hm).vadd _

/-- In every state of the test, on both ports, the counters are ordered and the last is at most
one ahead of the first, a worker about to resume the next one finds it suspended, and no ERROR
line has been printed while the sum of the counters fits into the word. -/
theorem counters_nested (hw : 32 ≤ w)
    (hreach : Reachable (next port w params) (start port w) s) :
    (s.workers.count 0 ≤ s.workers.count 1 ∧ s.workers.count 1 ≤ s.workers.count 2 ∧
      s.workers.count 2 ≤ s.workers.count 3 ∧ s.workers.count 3 ≤ s.workers.count 4 ∧
      s.workers.count 4 ≤ s.workers.count 0 + 1) ∧
    (∀ k position u, (setup port).current s.workers = some (k, position, .resume u) →
      u = k + 1 ∧ s.workers.Suspended u) ∧
    ((counters port s.workers).sum < 2 ^ w → Line.error ∉ s.reporter.output) := by
  have hnested := nested_of_reachable hreach
  refine ⟨⟨hnested.zero_one, hnested.one_two, hnested.two_three, hnested.three_four,
    hnested.four_zero⟩, ?_, ?_⟩
  · intro k position u hcurrent
    exact hnested.resumed _ hcurrent u rfl
  · refine Setup.no_error_while_sum_fits hw rfl (by simp [setup]) (by simp [setup]) ?_ hreach
    intro t ht
    exact (nested_of_reachable ht).balanced

/-- A whole round and the next one down to the increment of thread 4, with a report in between. -/
theorem counters_nested_second_round :
    ∃ s, run (next .freeRTOS 32 ⟨30, 0⟩)
        (List.replicate 2 .report ++ List.replicate 13 (.work .run) ++
          .wake :: List.replicate 13 .report ++ List.replicate 5 (.work .run))
        (start .freeRTOS 32) = some s ∧
      (counters .freeRTOS s.workers = [1, 1, 1, 1, 2] ∧
        s.reporter.output = [.header 30, .periodTotal 5]) ∧
      (s.workers.count 0 ≤ s.workers.count 1 ∧ s.workers.count 1 ≤ s.workers.count 2 ∧
        s.workers.count 2 ≤ s.workers.count 3 ∧ s.workers.count 3 ≤ s.workers.count 4 ∧
        s.workers.count 4 ≤ s.workers.count 0 + 1) ∧
      (∀ k position u, (setup .freeRTOS).current s.workers = some (k, position, .resume u) →
        u = k + 1 ∧ s.workers.Suspended u) ∧
      ((counters .freeRTOS s.workers).sum < 2 ^ 32 → Line.error ∉ s.reporter.output) := by
  obtain ⟨s, hrun, hwork⟩ : ∃ s, run (next .freeRTOS 32 ⟨30, 0⟩)
      (List.replicate 2 .report ++ List.replicate 13 (.work .run) ++
        .wake :: List.replicate 13 .report ++ List.replicate 5 (.work .run))
      (start .freeRTOS 32) = some s ∧ counters .freeRTOS s.workers = [1, 1, 1, 1, 2] ∧
        s.reporter.output = [.header 30, .periodTotal 5] := ⟨_, rfl, rfl, rfl⟩
  exact ⟨s, hrun, hwork, counters_nested (by decide) (reachable_of_run hrun)⟩

end ThreadMetric.PreemptiveScheduling
