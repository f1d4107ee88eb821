import ThreadMetric.Kernel.Rounds

/-!
# The interrupt processing test

One thread calls the interrupt handler in line, which puts a semaphore that the thread then gets
without waiting. The token with which the semaphore is created is consumed before the loop, so
inside the loop there is a token exactly between the put of the handler and the get of the thread,
and neither call ever fails.
-/

namespace ThreadMetric.InterruptProcessing

open Kernel Report Transition

/-- `tm_interrupt_thread_0_counter` and `tm_interrupt_handler_counter`. -/
inductive Counter where
  | thread0
  | handler
  deriving DecidableEq

instance : Fintype Counter where
  elems := {.thread0, .handler}
  complete := by
    intro c
    cases c <;> decide

/-- `tm_interrupt_handler`. -/
def tmInterruptHandler : List (Instr Unit Counter) :=
  [.increment .handler, .semaphorePut]

/-- `tm_cause_interrupt_sync`: the handler runs on the stack of its caller. -/
def tmCauseInterruptSync : List (Instr Unit Counter) := tmInterruptHandler

/-- `tm_interrupt_thread_0_entry`. A failing `tm_semaphore_get` leaves the function. -/
def tmInterruptThread0Entry : Program (Instr Unit Counter) where
  entry := [.semaphoreGet]
  loop := tmCauseInterruptSync ++ [.semaphoreGet, .increment .thread0]

/-- The only worker has priority 10; the reporter has priority 2. -/
def setup (port : Port) : Setup Unit Counter where
  port := port
  priority := fun _ ↦ 10
  reporterPriority := 2
  program := fun _ ↦ tmInterruptThread0Entry
  counters := [.thread0, .handler]

/-- The threads after `tm_interrupt_processing_initialize`. -/
def tmInterruptProcessingInitialize (port : Port) : Machine Unit Counter :=
  (setup port).start [()]

/-- One step of the test: worker and reporter under strict priorities. -/
abbrev next (port : Port) (w : ℕ) (params : Params) :
    Bench (Machine Unit Counter) w → Event Setup.Move → Option (Bench (Machine Unit Counter) w) :=
  Bench.next (setup port).workers (tmInterruptThreadReport w) params .strict

/-- The test when the scheduler starts. -/
abbrev start (port : Port) (w : ℕ) : Bench (Machine Unit Counter) w :=
  ⟨tmInterruptProcessingInitialize port, .start⟩

/-- The counter values in the order in which the reporter reads them. -/
abbrev counters (port : Port) (m : Machine Unit Counter) : List ℕ :=
  (setup port).workers.counters m

/-! ## The states of a round -/

/-- The first get and the states of the first round. -/
abbrev round (port : Port) : List (Machine Unit Counter) :=
  (setup port).firstStates (tmInterruptProcessingInitialize port) 5

/-- Whether a semaphore call about to be made will succeed. -/
def callSucceeds (port : Port) (count : ℕ) : Instr Unit Counter → Bool
  | .semaphoreGet => (semaphoreGet count).isSome
  | .semaphorePut => (semaphorePut port count).isSome
  | _ => true

/-- There is at most one token, the handler is at most one interrupt ahead of the thread, it is
ahead whenever there is a token after the first get, the worker has not left its loop, and the
semaphore call it is about to make will succeed. -/
structure InStep (port : Port) (m : Machine Unit Counter) : Prop where
  token : m.semaphore = 0 ∨ m.semaphore = 1
  thread_handler : m.count .thread0 ≤ m.count .handler
  handler_thread : m.count .handler ≤ m.count .thread0 + 1
  ahead : m.pc () ≠ some 0 → m.semaphore = 1 → m.count .handler = m.count .thread0 + 1
  running : m.pc () ≠ none
  succeeds : ∀ x ∈ (setup port).current m, callSucceeds port m.semaphore x.2.2 = true

instance (port : Port) (m : Machine Unit Counter) : Decidable (InStep port m) :=
  decidable_of_iff ((m.semaphore = 0 ∨ m.semaphore = 1) ∧ m.count .thread0 ≤ m.count .handler ∧
      m.count .handler ≤ m.count .thread0 + 1 ∧
      (m.pc () ≠ some 0 → m.semaphore = 1 → m.count .handler = m.count .thread0 + 1) ∧
      m.pc () ≠ none ∧ ∀ x ∈ (setup port).current m, callSucceeds port m.semaphore x.2.2 = true)
    ⟨fun ⟨h₁, h₂, h₃, h₄, h₅, h₆⟩ ↦ ⟨h₁, h₂, h₃, h₄, h₅, h₆⟩,
      fun ⟨h₁, h₂, h₃, h₄, h₅, h₆⟩ ↦ ⟨h₁, h₂, h₃, h₄, h₅, h₆⟩⟩

/-- `InStep` does not depend on the number of rounds completed. -/
theorem InStep.vadd {port : Port} {m : Machine Unit Counter} (h : InStep port m) (k : ℕ × ℕ) :
    InStep port (k +ᵥ m) where
  token := h.token
  thread_handler := Nat.add_le_add_left h.thread_handler _
  handler_thread := Nat.add_le_add_left h.handler_thread _
  ahead hpc htoken := congrArg (k.1 + ·) (h.ahead hpc htoken)
  running := h.running
  succeeds := h.succeeds

/-- The two counters differ by at most one. -/
theorem InStep.balanced {port : Port} {m : Machine Unit Counter} (h : InStep port m)
    (c d : Counter) : m.count c ≤ m.count d + 1 := by
  have h₁ := h.thread_handler
  have h₂ := h.handler_thread
  cases c <;> cases d <;> omega

/-- In all states of the first round the worker and the handler are in step. -/
theorem in_step_of_mem_round (port : Port) : ∀ m ∈ round port, InStep port m := by
  cases port with
  | threadX => decide +kernel
  | freeRTOS => decide +kernel

/-- After the first get, a round leads back to the same state with both counters one larger. -/
theorem round_closed (port : Port) : ∀ state ∈ round port, ∀ move,
    ∀ finish ∈ (setup port).next state move,
      ∃ state' ∈ round port, finish = state' ∨ finish = (1, 0) +ᵥ state' := by
  cases port with
  | threadX => decide +kernel
  | freeRTOS => decide +kernel

/-! ## The test -/

variable {port : Port} {w : ℕ} {params : Params} {s : Bench (Machine Unit Counter) w}

/-- The worker and the handler are in step in every state of the test. -/
theorem in_step_of_reachable (hreach : Reachable (next port w params) (start port w) s) :
    InStep port s.workers := by
  have hstart : tmInterruptProcessingInitialize port ∈ round port := by
    cases port <;> decide +kernel
  obtain ⟨rounds, m, hm, hs⟩ :=
    Setup.reachable_rounds 0 hstart (round_closed port) (Bench.workers_reachable hreach)
  rw [hs]
  exact (in_step_of_mem_round port m hm).vadd _

/-- In every state of the test, on both ports: the semaphore holds no token or one; the counters
are ordered and differ by at most one; after the first get a token means that the handler is
ahead; every get and every put succeeds and the worker has not returned; and no ERROR line has
been printed while the sum of the counters fits into the word. -/
theorem semaphore_calls_succeed (hw : 32 ≤ w)
    (hreach : Reachable (next port w params) (start port w) s) :
    (s.workers.semaphore = 0 ∨ s.workers.semaphore = 1) ∧
    (s.workers.count .thread0 ≤ s.workers.count .handler ∧
      s.workers.count .handler ≤ s.workers.count .thread0 + 1) ∧
    (s.workers.pc () ≠ some 0 → s.workers.semaphore = 1 →
      s.workers.count .handler = s.workers.count .thread0 + 1) ∧
    (∀ t position, (setup port).current s.workers = some (t, position, .semaphoreGet) →
      semaphoreGet s.workers.semaphore ≠ none) ∧
    (∀ t position, (setup port).current s.workers = some (t, position, .semaphorePut) →
      semaphorePut port s.workers.semaphore ≠ none) ∧
    s.workers.pc () ≠ none ∧
    ((counters port s.workers).sum < 2 ^ w → Line.error ∉ s.reporter.output) := by
  have hstep := in_step_of_reachable hreach
  refine ⟨hstep.token, ⟨hstep.thread_handler, hstep.handler_thread⟩, hstep.ahead, ?_, ?_,
    hstep.running, ?_⟩
  · intro t position hcurrent
    exact Option.isSome_iff_ne_none.mp (hstep.succeeds _ hcurrent)
  · intro t position hcurrent
    exact Option.isSome_iff_ne_none.mp (hstep.succeeds _ hcurrent)
  · refine Setup.no_error_while_sum_fits hw rfl (by simp [setup]) (by simp [setup]) ?_ hreach
    intro t ht
    exact (in_step_of_reachable ht).balanced

/-- A round in which the reporter observes the token between the put and the get. -/
theorem semaphore_calls_succeed_first_round :
    ∃ s, run (next .threadX 32 ⟨30, 0⟩)
        (List.replicate 2 .report ++ List.replicate 3 (.work .run) ++
          .wake :: List.replicate 10 .report ++ List.replicate 2 (.work .run))
        (start .threadX 32) = some s ∧
      (counters .threadX s.workers = [1, 1] ∧
        s.reporter.output = [.header 30, .periodTotal 1]) ∧
      (s.workers.semaphore = 0 ∨ s.workers.semaphore = 1) ∧
      (s.workers.count .thread0 ≤ s.workers.count .handler ∧
        s.workers.count .handler ≤ s.workers.count .thread0 + 1) ∧
      (s.workers.pc () ≠ some 0 → s.workers.semaphore = 1 →
        s.workers.count .handler = s.workers.count .thread0 + 1) ∧
      (∀ t position, (setup .threadX).current s.workers = some (t, position, .semaphoreGet) →
        semaphoreGet s.workers.semaphore ≠ none) ∧
      (∀ t position, (setup .threadX).current s.workers = some (t, position, .semaphorePut) →
        semaphorePut .threadX s.workers.semaphore ≠ none) ∧
      s.workers.pc () ≠ none ∧
      ((counters .threadX s.workers).sum < 2 ^ 32 → Line.error ∉ s.reporter.output) := by
  obtain ⟨s, hrun, hwork⟩ : ∃ s, run (next .threadX 32 ⟨30, 0⟩)
      (List.replicate 2 .report ++ List.replicate 3 (.work .run) ++
        .wake :: List.replicate 10 .report ++ List.replicate 2 (.work .run))
      (start .threadX 32) = some s ∧ counters .threadX s.workers = [1, 1] ∧
        s.reporter.output = [.header 30, .periodTotal 1] := ⟨_, rfl, rfl, rfl⟩
  exact ⟨s, hrun, hwork, semaphore_calls_succeed (by decide) (reachable_of_run hrun)⟩

end ThreadMetric.InterruptProcessing
