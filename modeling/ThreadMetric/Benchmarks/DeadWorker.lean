import ThreadMetric.Kernel.Machine

/-!
# Workers whose calls may fail

Four tests have a worker that leaves its loop when a call of the operating system fails. Here any
call may fail at any time. Three of the tests have a reporter that looks for progress, and
`error_iff_dead` shows that it prints its ERROR line in every report on a period after the exit.
The reporter of the interrupt processing test looks for balance instead. Its worker exits with
counters that differ by one, so that its death goes unnoticed unless the sum of the counters
happens to have wrapped.
-/

namespace ThreadMetric.DeadWorker

open Kernel Report Transition Counts

/-- The tests whose worker can leave its loop. -/
inductive Test where
  | messageProcessing
  | synchronizationProcessing
  | memoryAllocation
  | interruptProcessing
  deriving DecidableEq

/-- The counters of the four tests. -/
inductive Counter where
  | messageProcessing
  | synchronizationProcessing
  | memoryAllocation
  | interruptThread0
  | interruptHandler
  deriving DecidableEq

/-- The calls whose outcome is not fixed. `compareMessages` is the comparison of the last word
received with the last word sent. -/
inductive Call where
  | queueSend
  | queueReceive
  | compareMessages
  | semaphoreGet
  | semaphorePut
  | memoryPoolAllocate
  | memoryPoolDeallocate

/-- A statement of a worker: a call whose failure ends the worker, a call whose status is ignored,
or an increment. -/
inductive Stmt where
  | check (call : Call)
  | ignore (call : Call)
  | increment (counter : Counter)

/-- `tm_message_processing_thread_0_entry`. The increment of the last word of the message is
covered by leaving the outcome of the comparison open. -/
def tmMessageProcessingThread0Entry : Program Stmt where
  entry := []
  loop := [.check .queueSend, .check .queueReceive, .check .compareMessages,
    .increment .messageProcessing]

/-- `tm_synchronization_processing_thread_0_entry`. -/
def tmSynchronizationProcessingThread0Entry : Program Stmt where
  entry := []
  loop := [.check .semaphoreGet, .check .semaphorePut, .increment .synchronizationProcessing]

/-- `tm_memory_allocation_thread_0_entry`. -/
def tmMemoryAllocationThread0Entry : Program Stmt where
  entry := []
  loop := [.check .memoryPoolAllocate, .check .memoryPoolDeallocate, .increment .memoryAllocation]

/-- `tm_interrupt_handler`, which ignores the status of its put. -/
def tmInterruptHandler : List Stmt := [.increment .interruptHandler, .ignore .semaphorePut]

/-- `tm_interrupt_thread_0_entry`; `tm_cause_interrupt_sync` runs the handler in line. -/
def tmInterruptThread0Entry : Program Stmt where
  entry := [.check .semaphoreGet]
  loop := tmInterruptHandler ++ [.check .semaphoreGet, .increment .interruptThread0]

namespace Test

/-- The entry function of the worker. -/
def program : Test → Program Stmt
  | messageProcessing => tmMessageProcessingThread0Entry
  | synchronizationProcessing => tmSynchronizationProcessingThread0Entry
  | memoryAllocation => tmMemoryAllocationThread0Entry
  | interruptProcessing => tmInterruptThread0Entry

/-- The counters in the order in which the reporter reads them. -/
def counters : Test → List Counter
  | messageProcessing => [.messageProcessing]
  | synchronizationProcessing => [.synchronizationProcessing]
  | memoryAllocation => [.memoryAllocation]
  | interruptProcessing => [.interruptThread0, .interruptHandler]

/-- The reporter of the test. -/
def report (w : ℕ) : Test → ReportSpec w
  | messageProcessing => tmMessageProcessingThreadReport w
  | synchronizationProcessing => tmSynchronizationProcessingThreadReport w
  | memoryAllocation => tmMemoryAllocationThreadReport w
  | interruptProcessing => tmInterruptThreadReport w

end Test

/-- A worker: its position, `none` once it has left its entry function, and the true values of the
counters. -/
structure Worker where
  pc : Option ℕ
  count : Counter → ℕ

namespace Worker

/-- The worker before its first statement. -/
def start : Worker := ⟨some 0, fun _ ↦ 0⟩

/-- Execute the statement at `position`; `succeeds` is the outcome of the call, if it is one. -/
def execute (program : Program Stmt) (m : Worker) (position : ℕ) (succeeds : Bool) :
    Stmt → Worker
  | .check _ => { m with pc := if succeeds then some (program.advance position) else none }
  | .ignore _ => { m with pc := some (program.advance position) }
  | .increment c =>
      { pc := some (program.advance position)
        count := Function.update m.count c (m.count c + 1) }

/-- One step of the worker. -/
def next (program : Program Stmt) (m : Worker) (succeeds : Bool) : Option Worker := do
  let position ← m.pc
  let stmt ← program.fetch position
  pure (m.execute program position succeeds stmt)

end Worker

/-- The worker side of a test. The worker has priority 10 and the reporter priority 2. -/
def workers (test : Test) (port : Port) : Workers Worker Bool where
  next := Worker.next test.program
  counters m := test.counters.map m.count
  outranked _ := port.outranks 2 10
  preempted := id
  preempted_cases _ := .inl rfl
  counters_preempted _ := rfl

/-- One step of the test. -/
abbrev next (test : Test) (port : Port) (policy : Policy) (w : ℕ) (params : Params) :
    Bench Worker w → Event Bool → Option (Bench Worker w) :=
  Bench.next (workers test port) (test.report w) params policy

/-- The test when the scheduler starts. -/
abbrev start (w : ℕ) : Bench Worker w := ⟨.start, .start⟩

/-! ## The worker of the interrupt processing test -/

/-- Where the worker of the interrupt test stands fixes how far the handler is ahead of it; a
worker that has exited did so in the first get or with the handler one ahead. -/
inductive Staged (m : Worker) : Prop where
  | first (hpc : m.pc = some 0) (hthread : m.count .interruptThread0 = 0)
      (hhandler : m.count .interruptHandler = 0)
  | top (hpc : m.pc = some 1) (hcount : m.count .interruptHandler = m.count .interruptThread0)
  | handled (hpc : m.pc = some 2 ∨ m.pc = some 3 ∨ m.pc = some 4)
      (hcount : m.count .interruptHandler = m.count .interruptThread0 + 1)
  | exitedFirst (hpc : m.pc = none) (hthread : m.count .interruptThread0 = 0)
      (hhandler : m.count .interruptHandler = 0)
  | exited (hpc : m.pc = none)
      (hcount : m.count .interruptHandler = m.count .interruptThread0 + 1)

/-- Every statement of the worker keeps it staged. -/
theorem Staged.next {m m' : Worker} {succeeds : Bool} (h : Staged m)
    (hnext : Worker.next tmInterruptThread0Entry m succeeds = some m') : Staged m' := by
  cases h with
  | first hpc hthread hhandler =>
      simp only [Worker.next, hpc] at hnext
      obtain rfl := Option.some.inj hnext
      cases succeeds with
      | true => exact .top rfl (hhandler.trans hthread.symm)
      | false => exact .exitedFirst rfl hthread hhandler
  | top hpc hcount =>
      simp only [Worker.next, hpc] at hnext
      obtain rfl := Option.some.inj hnext
      refine .handled (.inl rfl) ?_
      simp [Worker.execute, hcount]
  | handled hpc hcount =>
      rcases hpc with hpc | hpc | hpc <;> simp only [Worker.next, hpc] at hnext <;>
        obtain rfl := Option.some.inj hnext
      · exact .handled (.inr (.inl rfl)) hcount
      · cases succeeds with
        | true => exact .handled (.inr (.inr rfl)) hcount
        | false => exact .exited rfl hcount
      · refine .top rfl ?_
        simp [Worker.execute, hcount]
  | exitedFirst hpc | exited hpc => simp [Worker.next, hpc] at hnext

/-- The worker of the interrupt test is staged in every state it reaches. -/
theorem staged_of_reachable {port : Port} {m : Worker}
    (hreach : Reachable (workers .interruptProcessing port).next .start m) : Staged m := by
  refine hreach.invariant Staged (.first rfl rfl rfl) ?_
  intro state succeeds finish hstaged _ hnext
  exact hstaged.next hnext

/-- With the handler one ahead, the tolerance check fails exactly in the upper half of a lap of
the word, its first count excepted. -/
theorem invalid_counters_ahead {w k : ℕ} (hw : 32 ≤ w) :
    invalidCounters (words w [k, k + 1]) = true ↔ 2 ^ (w - 1) < k % 2 ^ w := by
  have hhalf : 2 ^ w = 2 * 2 ^ (w - 1) := by
    rw [← Nat.pow_succ']
    congr 1
    omega
  have hbig : 2 ^ 31 ≤ 2 ^ (w - 1) := Nat.pow_le_pow_right (by omega) (by omega)
  have hsmallest : smallest [k, k + 1] = k := by simp [smallest]
  have hlap : lapTotal w [k, k + 1] = 2 * (k % 2 ^ w) + 1 := by
    simp only [lapTotal, hsmallest, List.length_cons, List.length_nil, List.sum_cons, List.sum_nil]
    omega
  have hsum : [k, k + 1].sum % 2 ^ w = (2 * (k % 2 ^ w) + 1) % 2 ^ w := by
    have h : lapTotal w [k, k + 1] % 2 ^ w = [k, k + 1].sum % 2 ^ w :=
      lap_total_mod (by simp [hsmallest]; omega)
    rw [← h, hlap]
  have hsilent := invalid_counters_eq_false_iff hw (.inr (.inr rfl)) rfl
    (show Balanced [k, k + 1] by intro x hx y hy; simp at hx hy; omega)
  rw [hlap, hsum] at hsilent
  have hlt : k % 2 ^ w < 2 ^ w := Nat.mod_lt _ (by omega)
  rw [← Bool.not_eq_false, hsilent]
  generalize k % 2 ^ w = b at hlt
  by_cases hfit : 2 * b + 1 < 2 ^ w
  · rw [Nat.mod_eq_of_lt hfit]
    omega
  · rw [Nat.mod_eq_sub_mod (by omega), Nat.mod_eq_of_lt (by omega)]
    omega

/-- Two counters that are still zero raise no alarm. -/
theorem invalid_counters_zero {w : ℕ} (hw : 32 ≤ w) :
    invalidCounters (words w [0, 0]) = false := by
  have hword : 2 ^ 32 ≤ 2 ^ w := Nat.pow_le_pow_right (by omega) hw
  refine invalid_counters_of_sum_lt (by decide) (by decide) ?_ ?_
  · exact lt_of_lt_of_le (by decide) hword
  · exact lt_of_lt_of_le (by decide) hword

/-! ## Reports after the exit -/

variable {test : Test} {port : Port} {policy : Policy} {w : ℕ} {params : Params}
  {s s' : Bench Worker w}

/-- The verdict on the counters of a worker that has exited. -/
theorem verdict_of_exit (hw : 32 ≤ w)
    (hreach : Reachable (next test port policy w params) (start w) s)
    (hexit : s.workers.pc = none) :
    Reporter.verdict (test.report w).criterion
        (words w ((workers test port).counters s.workers)) = true ↔
      test ≠ .interruptProcessing ∨ 2 ^ (w - 1) < s.workers.count .interruptThread0 % 2 ^ w := by
  cases test with
  | messageProcessing | synchronizationProcessing | memoryAllocation =>
      simp [Reporter.verdict, Test.report, tmMessageProcessingThreadReport,
        tmSynchronizationProcessingThreadReport, tmMemoryAllocationThreadReport]
  | interruptProcessing =>
      have hverdict : ∀ counts : List ℕ, counts.length = 2 →
          Reporter.verdict (Test.report w .interruptProcessing).criterion (words w counts) =
            invalidCounters (words w counts) := by
        intro counts hlen
        have htake : (words w counts).take 2 = words w counts :=
          List.take_of_length_le (by rw [words_length, hlen])
        exact congrArg invalidCounters htake
      rw [hverdict _ rfl]
      simp only [ne_eq, not_true_eq_false, false_or]
      cases staged_of_reachable (Bench.workers_reachable hreach) with
      | first hpc | top hpc => simp [hexit] at hpc
      | handled hpc => simp [hexit] at hpc
      | exitedFirst _ hthread hhandler =>
          have hcounters : (workers .interruptProcessing port).counters s.workers = [0, 0] := by
            simp [workers, Test.counters, hthread, hhandler]
          rw [hcounters, hthread, invalid_counters_zero hw]
          simp
      | exited _ hcount =>
          have hcounters : (workers .interruptProcessing port).counters s.workers =
              [s.workers.count .interruptThread0, s.workers.count .interruptThread0 + 1] := by
            simp [workers, Test.counters, hcount]
          rw [hcounters, invalid_counters_ahead hw]

/-- Once the worker has exited when its reporter saves what it has read, every later check prints
the ERROR line exactly if the reporter looks for progress, or if the interrupt worker completed a
number of iterations in the upper half of a lap of the word, its first count excepted. -/
theorem error_iff_dead (hw : 32 ≤ w)
    (hreach : Reachable (next test port policy w params) (start w) s)
    (hexit : s.workers.pc = none) (hsave : s.reporter.pc = .save)
    (hlater : Reachable (next test port policy w params) s s')
    (hcheck : s'.reporter.pc = .check) :
    ∃ s'', next test port policy w params s' .report = some s'' ∧
      (s''.reporter.output = s'.reporter.output ++ [.error] ↔
        test ≠ .interruptProcessing ∨
          2 ^ (w - 1) < s.workers.count .interruptThread0 % 2 ^ w) := by
  have hpos : ∀ n figure, (test.report w).criterion = .balance n figure → 0 < n := by
    intro n figure hspec
    cases test with
    | interruptProcessing =>
        cases hspec
        decide
    | _ => cases hspec
  have hstopped : ∀ choice, (workers test port).next s.workers choice = none := by
    intro choice
    simp [workers, Worker.next, hexit]
  obtain ⟨hworkers, hdate⟩ := Bench.up_to_date_of_stopped hpos hstopped hsave hlater
  have hmay : Bench.mayReport (workers test port) policy s' := by
    intro _
    simp [workers, Port.outranks_eq]
  have hverdict := verdict_of_exit hw hreach hexit
  have hstep : s'.reporter.next (test.report w) params
      (words w ((workers test port).counters s.workers)) = some _ := hdate.check hcheck
  generalize Reporter.verdict (test.report w).criterion
    (words w ((workers test port).counters s.workers)) = verdict at hverdict hstep
  have hnext : next test port policy w params s' .report =
      some { s' with reporter := s'.reporter.report verdict } := by
    simp only [Bench.next, if_pos hmay, hworkers, hstep, Option.map_some]
  refine ⟨_, hnext, ?_⟩
  rw [← hverdict]
  cases verdict with
  | true => simp [Reporter.report, Reporter.print]
  | false => simp [Reporter.report]

/-- The message worker completes an iteration and dies in its second send; the first report misses
that, the second one prints the ERROR line. -/
theorem error_iff_dead_message :
    ∃ s s', run (next .messageProcessing .threadX .strict 32 ⟨30, 0⟩)
        (List.replicate 2 .report ++ List.replicate 4 (.work true) ++
          .work false :: .wake :: List.replicate 4 .report) (start 32) = some s ∧
      run (next .messageProcessing .threadX .strict 32 ⟨30, 0⟩)
        (List.replicate 4 .report ++ .wake :: List.replicate 2 .report) s = some s' ∧
      ∃ s'', next .messageProcessing .threadX .strict 32 ⟨30, 0⟩ s' .report = some s'' ∧
        (s''.reporter.output = s'.reporter.output ++ [.error] ↔
          Test.messageProcessing ≠ .interruptProcessing ∨
            2 ^ (32 - 1) < s.workers.count .interruptThread0 % 2 ^ 32) := by
  obtain ⟨s, s', hrun, hrun', hexit, hsave, hcheck⟩ :
      ∃ s s', run (next .messageProcessing .threadX .strict 32 ⟨30, 0⟩)
          (List.replicate 2 .report ++ List.replicate 4 (.work true) ++
            .work false :: .wake :: List.replicate 4 .report) (start 32) = some s ∧
        run (next .messageProcessing .threadX .strict 32 ⟨30, 0⟩)
          (List.replicate 4 .report ++ .wake :: List.replicate 2 .report) s = some s' ∧
        s.workers.pc = none ∧ s.reporter.pc = .save ∧ s'.reporter.pc = .check :=
    ⟨_, _, rfl, rfl, rfl, rfl, rfl⟩
  exact ⟨s, s', hrun, hrun', error_iff_dead (by decide) (reachable_of_run hrun) hexit hsave
    (reachable_of_run hrun') hcheck⟩

/-- The interrupt worker dies in the first get of its loop, and the next report on a whole period
after that prints no ERROR line. -/
theorem dead_worker_unreported :
    ¬ ∀ (test : Test) (port : Port) (w : ℕ) (params : Params) (s s' : Bench Worker w), 32 ≤ w →
      Reachable (next test port .strict w params) (start w) s →
      s.workers.pc = none → s.reporter.pc = .save →
      Reachable (next test port .strict w params) s s' → s'.reporter.pc = .check →
      ∃ s'', next test port .strict w params s' .report = some s'' ∧
        s''.reporter.output = s'.reporter.output ++ [.error] := by
  intro h
  let step := next .interruptProcessing .threadX .strict 32 ⟨30, 0⟩
  have hobserved : (do
      let s ← run step (List.replicate 2 .report ++ List.replicate 3 (.work true) ++
        .work false :: .wake :: List.replicate 6 .report) (start 32)
      let s' ← run step (List.replicate 4 .report ++ .wake :: List.replicate 4 .report) s
      let s'' ← step s' .report
      pure (s.workers.pc, s.reporter.pc, s'.reporter.pc, s'.reporter.output,
        s''.reporter.output)) =
      some (none, .save, .check, [.header 30, .periodTotal 1, .header 60],
        [.header 30, .periodTotal 1, .header 60]) := by
    decide +kernel
  simp only [Option.bind_eq_bind, Option.bind_eq_some_iff, Option.pure_def, Option.some.injEq,
    Prod.mk.injEq] at hobserved
  obtain ⟨s, hrun, s', hrun', s'', hnext, hexit, hsave, hcheck, hbefore, hafter⟩ := hobserved
  obtain ⟨t, ht, herror⟩ := h .interruptProcessing .threadX 32 ⟨30, 0⟩ s s' le_rfl
    (reachable_of_run hrun) hexit hsave (reachable_of_run hrun') hcheck
  obtain rfl := Option.some.inj (hnext.symm.trans ht)
  rw [hbefore, hafter] at herror
  cases herror

end ThreadMetric.DeadWorker
