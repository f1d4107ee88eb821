import ThreadMetric.Report.Tolerance
import ThreadMetric.Library.Transition

/-!
# The reporting threads

Every Thread-Metric test has one reporting thread with the same shape: the `TM_REPORT_LOOP` of
`tm_api.h` around a body that sleeps, adds the interval to the relative time, prints a header,
checks the counters, prints the period total and remembers the figure it was computed from. Two
bodies occur. The snapshot reporters copy all counters first and test the tolerance on the
copies; the single-counter reporters read the volatile counter anew for the comparison, for the
total and for the remembered value. `Reporter.next` makes every read of a shared counter a step
of its own, so that worker steps can fall between any two of them.
-/

namespace ThreadMetric.Report

/-- How a reporter decides whether to print its ERROR line. `progress` is the comparison
`counter == last_counter`; `balance n figure` is the tolerance check over a snapshot of `n`
counters, with `figure` the value whose increase is printed as the period total. -/
inductive Criterion (w : ℕ) where
  | progress
  | balance (n : ℕ) (figure : List (BitVec w) → BitVec w)

/-- The parts in which the eight reporters differ: the two format strings and the criterion. -/
structure ReportSpec (w : ℕ) where
  title : String
  errorText : String
  criterion : Criterion w

/-- The run-time parameters `tm_test_duration` and `tm_test_cycles`. -/
structure Params where
  duration : ℕ
  cycles : ℕ

/-- A call of `tm_printf` made by a reporter. -/
inductive Line (w : ℕ) where
  | header (relativeTime : BitVec w)
  | error
  | periodTotal (value : BitVec w)
  deriving DecidableEq

/-- The format string of the call. -/
def Line.format {w : ℕ} (spec : ReportSpec w) : Line w → String
  | .header _ => spec.title
  | .error => spec.errorText
  | .periodTotal _ => "Time Period Total:  %lu\n\n"

/-- The control points of a reporter. `loopTest`, `advance` and `finish` belong to
`TM_REPORT_LOOP` and `TM_REPORT_FINISH`, `asleep` is the suspension inside `tm_thread_sleep`, and
`exited` is reached when `tm_report_finish` has ended the program. -/
inductive Pc where
  | loopTest
  | sleep
  | asleep
  | addTime
  | printHeader
  | read (k : ℕ)
  | check
  | printTotal
  | save
  | advance
  | finish
  | exited
  deriving DecidableEq

/-- A reporter: its control point, the cycle index of `TM_REPORT_LOOP`, its local variables (`last`
is `last_total` or `last_counter`, `snapshot` holds `c0`, `c1`, ...) and what it has printed. -/
structure Reporter (w : ℕ) where
  pc : Pc
  cycle : ℕ
  relativeTime : BitVec w
  last : BitVec w
  snapshot : List (BitVec w)
  output : List (Line w)

namespace Reporter

variable {w : ℕ}

/-- A reporter about to enter its loop. -/
def start : Reporter w :=
  ⟨.loopTest, 0, 0, 0, [], []⟩

/-- Print one line and continue at `pc`. -/
def print (r : Reporter w) (line : Line w) (pc : Pc) : Reporter w :=
  { r with output := r.output ++ [line], pc := pc }

/-- Print the ERROR line if the test fails, and continue with the period total. -/
def report (r : Reporter w) (invalid : Bool) : Reporter w :=
  if invalid then r.print .error .printTotal else { r with pc := .printTotal }

/-- One step of a reporter that reads the given values from the shared counters. It is stuck while
it sleeps and after the program has ended. -/
def next (spec : ReportSpec w) (params : Params) (counters : List (BitVec w))
    (r : Reporter w) : Option (Reporter w) :=
  match r.pc with
  | .loopTest =>
      some { r with
        pc := if params.cycles = 0 ∨ r.cycle < params.cycles then .sleep else .finish }
  | .sleep => some { r with pc := .asleep }
  | .asleep => none
  | .addTime =>
      some { r with
        relativeTime := r.relativeTime + BitVec.ofNat w params.duration
        pc := .printHeader }
  | .printHeader =>
      match spec.criterion with
      | .progress => some (r.print (.header r.relativeTime) .check)
      | .balance _ _ => some { r.print (.header r.relativeTime) (.read 0) with snapshot := [] }
  | .read k =>
      match spec.criterion with
      | .progress => none
      | .balance n _ => do
          let c ← counters[k]?
          pure { r with
            snapshot := r.snapshot ++ [c]
            pc := if k + 1 < n then .read (k + 1) else .check }
  | .check =>
      match spec.criterion with
      | .progress => do
          let c ← counters.head?
          pure (r.report (c == r.last))
      | .balance _ _ => some (r.report (invalidCounters r.snapshot))
  | .printTotal =>
      match spec.criterion with
      | .progress => do
          let c ← counters.head?
          pure (r.print (.periodTotal (c - r.last)) .save)
      | .balance _ figure => some (r.print (.periodTotal (figure r.snapshot - r.last)) .save)
  | .save =>
      match spec.criterion with
      | .progress => do
          let c ← counters.head?
          pure { r with last := c, pc := .advance }
      | .balance _ figure => some { r with last := figure r.snapshot, pc := .advance }
  | .advance =>
      some { r with cycle := if params.cycles = 0 then r.cycle else r.cycle + 1, pc := .loopTest }
  | .finish => some { r with pc := .exited }
  | .exited => none

/-- The kernel wakes a sleeping reporter. -/
def wake (r : Reporter w) : Option (Reporter w) :=
  if r.pc = .asleep then some { r with pc := .addTime } else none

end Reporter

/-! ## The eight reporters -/

/-- `tm_cooperative_thread_report`. -/
def tmCooperativeThreadReport (w : ℕ) : ReportSpec w where
  title := "**** Thread-Metric Cooperative Scheduling Test **** Relative Time: %lu\n"
  errorText := "ERROR: Invalid counter value(s). Cooperative counters should " ++
    "not be more that 1 different than the average!\n"
  criterion := .balance 5 total

/-- `tm_preemptive_thread_report`. -/
def tmPreemptiveThreadReport (w : ℕ) : ReportSpec w where
  title := "**** Thread-Metric Preemptive Scheduling Test **** Relative Time: %lu\n"
  errorText := "ERROR: Invalid counter value(s). Preemptive counters should " ++
    "not be more that 1 different than the average!\n"
  criterion := .balance 5 total

/-- `tm_interrupt_preemption_thread_report`. The period total counts handler runs, and the handler
counter is the last of the three it reads. -/
def tmInterruptPreemptionThreadReport (w : ℕ) : ReportSpec w where
  title := "**** Thread-Metric Interrupt Preemption Processing Test **** " ++
    "Relative Time: %lu\n"
  errorText := "ERROR: Invalid counter value(s). Interrupt processing test has failed!\n"
  criterion := .balance 3 (·.getLastD 0)

/-- `tm_interrupt_thread_report`. The period total counts handler runs, and the handler counter is
the second of the two it reads. -/
def tmInterruptThreadReport (w : ℕ) : ReportSpec w where
  title := "**** Thread-Metric Interrupt Processing Test **** Relative Time: %lu\n"
  errorText := "ERROR: Invalid counter value(s). Interrupt processing test has failed!\n"
  criterion := .balance 2 (·.getLastD 0)

/-- `tm_basic_processing_thread_report`. -/
def tmBasicProcessingThreadReport (w : ℕ) : ReportSpec w where
  title := "**** Thread-Metric Basic Single Thread Processing Test **** Relative Time: %lu\n"
  errorText := "ERROR: Invalid counter value(s). Basic processing thread died!\n"
  criterion := .progress

/-- `tm_message_processing_thread_report`. -/
def tmMessageProcessingThreadReport (w : ℕ) : ReportSpec w where
  title := "**** Thread-Metric Message Processing Test **** Relative Time: %lu\n"
  errorText := "ERROR: Invalid counter value(s). Error sending/receiving messages!\n"
  criterion := .progress

/-- `tm_synchronization_processing_thread_report`. -/
def tmSynchronizationProcessingThreadReport (w : ℕ) : ReportSpec w where
  title := "**** Thread-Metric Synchronization Processing Test **** Relative Time: %lu\n"
  errorText := "ERROR: Invalid counter value(s). Error getting/putting semaphore!\n"
  criterion := .progress

/-- `tm_memory_allocation_thread_report`. -/
def tmMemoryAllocationThreadReport (w : ℕ) : ReportSpec w where
  title := "**** Thread-Metric Memory Allocation Test **** Relative Time: %lu\n"
  errorText := "ERROR: Invalid counter value(s). Error allocating/deallocating memory!\n"
  criterion := .progress

end ThreadMetric.Report
