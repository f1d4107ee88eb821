import Mathlib.Tactic.FinCases
import ThreadMetric.Kernel.Rounds

/-!
# The interrupt preemption test on the simulated interrupt

On the POSIX hosts `tm_cause_interrupt` posts a semaphore on which a thread of the most urgent
priority waits. That thread runs the handler, which resumes thread 0, and waits again; thread 0
then preempts the thread that caused the interrupt. A round has seven statements under ThreadX,
where the post hands its token to the waiting thread, and eight under FreeRTOS, where the woken
task takes the token itself.
-/

namespace ThreadMetric.InterruptPreemption

open Kernel Report Transition

/-- The threads of the test: `tm_isr_thread` (`tm_isr_task` under FreeRTOS), the thread resumed by
the handler and the thread that causes the interrupts. -/
inductive Thread where
  | isr
  | thread0
  | thread1
  deriving DecidableEq

instance : Fintype Thread where
  elems := {.isr, .thread0, .thread1}
  complete := by
    intro t
    cases t <;> decide

/-- `tm_interrupt_preemption_thread_0_counter`, `tm_interrupt_preemption_thread_1_counter` and
`tm_interrupt_preemption_handler_counter`. -/
inductive Counter where
  | thread0
  | thread1
  | handler
  deriving DecidableEq

instance : Fintype Counter where
  elems := {.thread0, .thread1, .handler}
  complete := by
    intro c
    cases c <;> decide

/-- `tm_interrupt_preemption_handler`. -/
def tmInterruptPreemptionHandler : List (Instr Thread Counter) :=
  [.increment .handler, .resume .thread0]

/-- `tm_interrupt_handler`, the weak default: this test does not define it. -/
def tmInterruptHandler : List (Instr Thread Counter) := []

/-- `tm_isr_thread_entry` of the ThreadX port and `tm_isr_task_entry` of the FreeRTOS port: both
wait for the interrupt semaphore and then call the two handlers. -/
def tmIsrThreadEntry : Program (Instr Thread Counter) where
  entry := []
  loop := .waitInterrupt :: tmInterruptHandler ++ tmInterruptPreemptionHandler

/-- `tm_interrupt_preemption_thread_0_entry`. -/
def tmInterruptPreemptionThread0Entry : Program (Instr Thread Counter) where
  entry := []
  loop := [.increment .thread0, .suspend .thread0]

/-- `tm_interrupt_preemption_thread_1_entry`. -/
def tmInterruptPreemptionThread1Entry : Program (Instr Thread Counter) where
  entry := []
  loop := [.causeInterrupt, .increment .thread1]

/-- The threads with their priorities; the reporter has priority 2, below the interrupt thread and
above the two others. -/
def setup (port : Port) : Setup Thread Counter where
  port := port
  priority
    | .isr => 0
    | .thread0 => 3
    | .thread1 => 10
  reporterPriority := 2
  program
    | .isr => tmIsrThreadEntry
    | .thread0 => tmInterruptPreemptionThread0Entry
    | .thread1 => tmInterruptPreemptionThread1Entry
  counters := [.thread0, .thread1, .handler]

/-- The threads after `tm_initialize`, which starts the interrupt thread, and
`tm_interrupt_preemption_processing_initialize`, which resumes just thread 1. -/
def tmInterruptPreemptionProcessingInitialize (port : Port) : Machine Thread Counter :=
  (setup port).start [.isr, .thread1]

/-- One step of the test: workers and reporter under strict priorities. -/
abbrev next (port : Port) (w : ℕ) (params : Params) :
    Bench (Machine Thread Counter) w → Event Setup.Move →
      Option (Bench (Machine Thread Counter) w) :=
  Bench.next (setup port).workers (tmInterruptPreemptionThreadReport w) params .strict

/-- The test when the scheduler starts. -/
abbrev start (port : Port) (w : ℕ) : Bench (Machine Thread Counter) w :=
  ⟨tmInterruptPreemptionProcessingInitialize port, .start⟩

/-- The counter values in the order in which the reporter reads them. -/
abbrev counters (port : Port) (m : Machine Thread Counter) : List ℕ :=
  (setup port).workers.counters m

/-! ## The states of a round -/

/-- The first wait of the interrupt thread and the states of the first round. -/
abbrev round (port : Port) : List (Machine Thread Counter) :=
  (setup port).firstStates (tmInterruptPreemptionProcessingInitialize port) 9

/-- Every interrupt has been handled when its cause runs again: the tokens posted are those taken
and the one pending; while thread 1 runs, the handler has run once for every post; thread 1 posts
only to an empty semaphore on which the interrupt thread waits; and the handler resumes thread 0
while it is suspended. -/
structure Handled (port : Port) (m : Machine Thread Counter) : Prop where
  tokens : m.posted = m.taken + m.trigger
  returned : m.ready.head? = some .thread1 → m.count .handler = m.posted
  caused : m.ready.head? = some .thread1 → m.trigger = 0 ∧ m.waiting = some .isr
  resumed : ∀ x ∈ (setup port).current m, ∀ u ∈ x.2.2.resumed, u = .thread0 ∧ m.Suspended u
  one_zero : m.count .thread1 ≤ m.count .thread0
  zero_handler : m.count .thread0 ≤ m.count .handler
  handler_one : m.count .handler ≤ m.count .thread1 + 1

instance (port : Port) (m : Machine Thread Counter) : Decidable (Handled port m) :=
  decidable_of_iff (m.posted = m.taken + m.trigger ∧
      (m.ready.head? = some .thread1 → m.count .handler = m.posted) ∧
      (m.ready.head? = some .thread1 → m.trigger = 0 ∧ m.waiting = some .isr) ∧
      (∀ x ∈ (setup port).current m, ∀ u ∈ x.2.2.resumed, u = .thread0 ∧ m.Suspended u) ∧
      m.count .thread1 ≤ m.count .thread0 ∧ m.count .thread0 ≤ m.count .handler ∧
      m.count .handler ≤ m.count .thread1 + 1)
    ⟨fun ⟨h₁, h₂, h₃, h₄, h₅, h₆, h₇⟩ ↦ ⟨h₁, h₂, h₃, h₄, h₅, h₆, h₇⟩,
      fun ⟨h₁, h₂, h₃, h₄, h₅, h₆, h₇⟩ ↦ ⟨h₁, h₂, h₃, h₄, h₅, h₆, h₇⟩⟩

/-- `Handled` does not depend on the number of rounds completed, each of which posts one token. -/
theorem Handled.vadd {port : Port} {m : Machine Thread Counter} (h : Handled port m) (k : ℕ) :
    Handled port ((k, k) +ᵥ m) where
  tokens := by
    have htokens := h.tokens
    simp only [vadd_posted, vadd_taken, vadd_trigger]
    omega
  returned hhead := congrArg (k + ·) (h.returned hhead)
  caused := h.caused
  resumed := h.resumed
  one_zero := Nat.add_le_add_left h.one_zero _
  zero_handler := Nat.add_le_add_left h.zero_handler _
  handler_one := Nat.add_le_add_left h.handler_one _

/-- The counters of handled threads differ by at most one. -/
theorem Handled.balanced {port : Port} {m : Machine Thread Counter} (h : Handled port m)
    (c d : Counter) : m.count c ≤ m.count d + 1 := by
  have h₁ := h.one_zero
  have h₂ := h.zero_handler
  have h₃ := h.handler_one
  cases c <;> cases d <;> omega

/-- In all states of the first round every interrupt is handled. -/
theorem handled_of_mem_round (port : Port) : ∀ m ∈ round port, Handled port m := by
  cases port with
  | threadX => decide +kernel
  | freeRTOS => decide +kernel

/-- After the first wait of the interrupt thread, a round leads back to the same state with all
counters one larger and one more token posted and taken. -/
theorem round_closed (port : Port) : ∀ state ∈ round port, ∀ move,
    ∀ finish ∈ (setup port).next state move,
      ∃ state' ∈ round port, finish = state' ∨ finish = (1, 1) +ᵥ state' := by
  cases port with
  | threadX => decide +kernel
  | freeRTOS => decide +kernel

/-! ## The test -/

variable {port : Port} {w : ℕ} {params : Params} {s : Bench (Machine Thread Counter) w}

/-- Every interrupt is handled in every state of the test. -/
theorem handled_of_reachable (hreach : Reachable (next port w params) (start port w) s) :
    Handled port s.workers := by
  have hstart : tmInterruptPreemptionProcessingInitialize port ∈ round port := by
    cases port <;> decide +kernel
  obtain ⟨rounds, m, hm, hs⟩ :=
    Setup.reachable_rounds 1 hstart (round_closed port) (Bench.workers_reachable hreach)
  rw [hs, Nat.mul_one]
  exact (handled_of_mem_round port m hm).vadd rounds

/-- In every state of the test, on both ports: no token of the interrupt semaphore is lost, the
handler has run exactly once for every `tm_cause_interrupt` that has returned, every post finds an
empty semaphore and the interrupt thread waiting for it, every resume of the handler finds thread
0 suspended, the counters are ordered, and no ERROR line has been printed while the sum of the
counters fits into the word. -/
theorem interrupts_handled (hw : 32 ≤ w)
    (hreach : Reachable (next port w params) (start port w) s) :
    (s.workers.posted = s.workers.taken + s.workers.trigger ∧
      (s.workers.ready.head? = some .thread1 →
        s.workers.count .handler = s.workers.posted ∧ s.workers.trigger = 0 ∧
          s.workers.waiting = some .isr)) ∧
    (∀ t position u, (setup port).current s.workers = some (t, position, .resume u) →
      u = .thread0 ∧ s.workers.Suspended u) ∧
    (s.workers.count .thread1 ≤ s.workers.count .thread0 ∧
      s.workers.count .thread0 ≤ s.workers.count .handler ∧
      s.workers.count .handler ≤ s.workers.count .thread1 + 1) ∧
    ((counters port s.workers).sum < 2 ^ w → Line.error ∉ s.reporter.output) := by
  have hhandled := handled_of_reachable hreach
  refine ⟨⟨hhandled.tokens, fun hhead ↦ ⟨hhandled.returned hhead, hhandled.caused hhead⟩⟩, ?_,
    ⟨hhandled.one_zero, hhandled.zero_handler, hhandled.handler_one⟩, ?_⟩
  · intro t position u hcurrent
    exact hhandled.resumed _ hcurrent u rfl
  · refine Setup.no_error_while_sum_fits hw rfl (by simp [setup]) (by simp [setup]) ?_ hreach
    intro t ht
    exact (handled_of_reachable ht).balanced

/-- An interrupt whose handling the reporter observes between the handler and thread 0. -/
theorem interrupts_handled_first_interrupt :
    ∃ s, run (next .freeRTOS 32 ⟨30, 0⟩)
        (.work .run :: List.replicate 2 .report ++ List.replicate 5 (.work .run) ++
          .wake :: List.replicate 11 .report ++ List.replicate 5 (.work .run))
        (start .freeRTOS 32) = some s ∧
      (counters .freeRTOS s.workers = [1, 1, 1] ∧ s.workers.posted = 2 ∧
        s.reporter.output = [.header 30, .periodTotal 1]) ∧
      (s.workers.posted = s.workers.taken + s.workers.trigger ∧
        (s.workers.ready.head? = some .thread1 →
          s.workers.count .handler = s.workers.posted ∧ s.workers.trigger = 0 ∧
            s.workers.waiting = some .isr)) ∧
      (∀ t position u, (setup .freeRTOS).current s.workers = some (t, position, .resume u) →
        u = .thread0 ∧ s.workers.Suspended u) ∧
      (s.workers.count .thread1 ≤ s.workers.count .thread0 ∧
        s.workers.count .thread0 ≤ s.workers.count .handler ∧
        s.workers.count .handler ≤ s.workers.count .thread1 + 1) ∧
      ((counters .freeRTOS s.workers).sum < 2 ^ 32 → Line.error ∉ s.reporter.output) := by
  obtain ⟨s, hrun, hwork⟩ : ∃ s, run (next .freeRTOS 32 ⟨30, 0⟩)
      (.work .run :: List.replicate 2 .report ++ List.replicate 5 (.work .run) ++
        .wake :: List.replicate 11 .report ++ List.replicate 5 (.work .run))
      (start .freeRTOS 32) = some s ∧ counters .freeRTOS s.workers = [1, 1, 1] ∧
        s.workers.posted = 2 ∧ s.reporter.output = [.header 30, .periodTotal 1] :=
    ⟨_, rfl, rfl, rfl, rfl⟩
  exact ⟨s, hrun, hwork, interrupts_handled (by decide) (reachable_of_run hrun)⟩

end ThreadMetric.InterruptPreemption
