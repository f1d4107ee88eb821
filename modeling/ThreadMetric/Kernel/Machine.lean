import Mathlib.Data.List.Sort
import Mathlib.Logic.Function.Basic
import ThreadMetric.Report.Benchmark

/-!
# Benchmark threads on a strict-priority kernel

The worker threads of the scheduling and interrupt tests are straight-line loops over a handful of
services. `Instr` lists these services, a `Program` is a thread's entry function, and
`Setup.execute` executes one instruction of the thread the kernel runs: the head of the ready list.

On both kernels the ready list is ordered by priority; resuming a thread inserts it behind its
equals, suspending removes it, relinquishing moves the caller behind its equals. A thread that
becomes ready with a more urgent priority is at the head at once.

The kernels differ in what happens to a preempted thread. ThreadX keeps it at the head of its
equals. FreeRTOS goes on with the next of them whenever it selects a task again, as if the
preempted one had relinquished, and with `configUSE_TIME_SLICING 1` every tick does the same. Of
the workers modelled here only those of the cooperative test have equals. The ports also differ in
the direction of their priority numbers and in their semaphores: ThreadX semaphores count without
bound and hand a token directly to a waiting thread, FreeRTOS binary semaphores refuse a give when
they are full and let the woken task take the token itself.
-/

namespace ThreadMetric.Kernel

open Report Transition

/-- The threads and counters of the scheduling tests are numbered from 0 to 4. -/
instance five_ne_zero : NeZero 5 := ⟨by decide⟩

/-- The two porting layers. -/
inductive Port where
  | threadX
  | freeRTOS
  deriving DecidableEq

/-- Whether Thread-Metric priority `p` is more urgent than `q` after the port's mapping. ThreadX
uses the number itself, smaller being more urgent; FreeRTOS gets `configMAX_PRIORITIES - 1 - p`,
larger being more urgent. -/
def Port.outranks : Port → ℕ → ℕ → Bool
  | .threadX, p, q => decide (p < q)
  | .freeRTOS, p, q => decide (31 - q < 31 - p)

/-- Both mappings keep the order of the priorities `0 .. 31`. -/
theorem Port.outranks_eq (port : Port) {p q : ℕ} (hq : q ≤ 31) :
    port.outranks p q = decide (p < q) := by
  cases port with
  | threadX => rfl
  | freeRTOS =>
      simp only [Port.outranks, decide_eq_decide]
      omega

/-- The count after a successful `tx_semaphore_get` or `xSemaphoreTake` without waiting; `none`
when there is no token. -/
def semaphoreGet (count : ℕ) : Option ℕ :=
  if count = 0 then none else some (count - 1)

/-- The count after a successful `tx_semaphore_put` or `xSemaphoreGive` with nobody waiting;
`none` when a full binary semaphore refuses the token. -/
def semaphorePut (port : Port) (count : ℕ) : Option ℕ :=
  match port with
  | .threadX => some (count + 1)
  | .freeRTOS => if count = 0 then some 1 else none

/-- The statements of the worker threads. Threads are named by `ι` and counters by `κ`.
`semaphoreGet` is the status-checked `tm_semaphore_get(0)` that leaves the entry function on
failure, `semaphorePut` is the unchecked `tm_semaphore_put(0)`; `waitInterrupt` and
`causeInterrupt` are the wait of the simulated interrupt thread and `tm_cause_interrupt()`. -/
inductive Instr (ι κ : Type) where
  | resume (thread : ι)
  | suspend (thread : ι)
  | relinquish
  | increment (counter : κ)
  | semaphoreGet
  | semaphorePut
  | waitInterrupt
  | causeInterrupt

/-- The thread that a statement resumes. -/
def Instr.resumed {ι κ : Type} : Instr ι κ → Option ι
  | .resume u => some u
  | _ => none

/-- An entry function: the statements before its endless loop, and the loop body. -/
structure Program (α : Type) where
  entry : List α
  loop : List α

namespace Program

variable {α : Type}

/-- The statement at a position; the loop body follows the entry statements. -/
def fetch (p : Program α) (position : ℕ) : Option α :=
  (p.entry ++ p.loop)[position]?

/-- The position after the given one, back to the top of the loop after its last statement. -/
def advance (p : Program α) (position : ℕ) : ℕ :=
  if position + 1 < p.entry.length + p.loop.length then position + 1 else p.entry.length

end Program

/-- The threads and kernel objects of a test. `pc` is a thread's position in its program (`none`
once it has returned), `count` the true value of each counter, `ready` the ready list, `semaphore`
the count of `tm_semaphore_array[0]`, `trigger` that of the interrupt semaphore and `waiting` the
thread blocked on it. `posted` and `taken` record how many tokens were ever posted to and taken
from the interrupt semaphore; no step reads them. -/
@[ext]
structure Machine (ι κ : Type) where
  pc : ι → Option ℕ
  count : κ → ℕ
  ready : List ι
  semaphore : ℕ
  trigger : ℕ
  waiting : Option ι
  posted : ℕ
  taken : ℕ

/-- A thread is suspended if it is neither ready nor blocked nor at its end. -/
def Machine.Suspended {ι κ : Type} (m : Machine ι κ) (t : ι) : Prop :=
  t ∉ m.ready ∧ m.waiting ≠ some t ∧ m.pc t ≠ none

instance {ι κ : Type} [DecidableEq ι] (m : Machine ι κ) (t : ι) : Decidable (m.Suspended t) :=
  inferInstanceAs (Decidable (_ ∧ _ ∧ _))

/-- What is fixed about a test: the port, the priorities given to `tm_thread_create`, the entry
functions, and the counters in the order in which the reporter reads them. -/
structure Setup (ι κ : Type) where
  port : Port
  priority : ι → ℕ
  reporterPriority : ℕ
  program : ι → Program (Instr ι κ)
  counters : List κ

namespace Setup

variable {ι κ : Type} [DecidableEq ι] [DecidableEq κ] (setup : Setup ι κ)

/-- Whether the kernel slices time among threads of equal priority: ThreadX threads are created with
`TX_NO_TIME_SLICE`, FreeRTOS is configured with `configUSE_TIME_SLICING 1`. -/
def timeSlicing : Bool :=
  match setup.port with
  | .threadX => false
  | .freeRTOS => true

/-- Put a thread into the ready list, behind every thread that is at least as urgent. -/
def makeReady (t : ι) (ready : List ι) : List ι :=
  ready.orderedInsert (fun t u ↦ setup.port.outranks (setup.priority t) (setup.priority u)) t

/-- The head of the ready list goes behind its equals. -/
def rotate : List ι → List ι
  | [] => []
  | t :: rest => setup.makeReady t rest

/-- The threads as the initialization function leaves them: all created suspended, and then
resumed in the given order. The test semaphore is created with one token. -/
def start (resumed : List ι) : Machine ι κ where
  pc := fun _ ↦ some 0
  count := fun _ ↦ 0
  ready := resumed.foldl (fun ready t ↦ setup.makeReady t ready) []
  semaphore := 1
  trigger := 0
  waiting := none
  posted := 0
  taken := 0

/-- Thread `t`, at `position`, is past its current statement. -/
def goOn (m : Machine ι κ) (t : ι) (position : ℕ) : Machine ι κ :=
  { m with pc := Function.update m.pc t (some ((setup.program t).advance position)) }

/-- Post a token to the interrupt semaphore. A ThreadX put hands the token to the waiting thread,
whose get returns; a FreeRTOS give stores it, unless it is full, and readies the waiting task. -/
def postTrigger (m : Machine ι κ) : Machine ι κ :=
  match setup.port, m.waiting with
  | .threadX, none => { m with trigger := m.trigger + 1, posted := m.posted + 1 }
  | .threadX, some u =>
      let woken := setup.goOn m u ((m.pc u).getD 0)
      { woken with
        ready := setup.makeReady u m.ready
        waiting := none
        posted := m.posted + 1
        taken := m.taken + 1 }
  | .freeRTOS, waiting =>
      if m.trigger = 0 then
        { m with
          trigger := 1
          ready := waiting.elim m.ready fun u ↦ setup.makeReady u m.ready
          waiting := none
          posted := m.posted + 1 }
      else { m with posted := m.posted + 1 }

/-- The thread `t` at the head of the ready list executes the statement at `position`. -/
def execute (m : Machine ι κ) (t : ι) (position : ℕ) : Instr ι κ → Machine ι κ
  | .resume u =>
      let m := setup.goOn m t position
      if u ∈ m.ready ∨ m.waiting = some u then m
      else { m with ready := setup.makeReady u m.ready }
  | .suspend u =>
      let m := setup.goOn m t position
      { m with ready := m.ready.erase u }
  | .relinquish =>
      let m := setup.goOn m t position
      { m with ready := setup.rotate m.ready }
  | .increment c =>
      let m := setup.goOn m t position
      { m with count := Function.update m.count c (m.count c + 1) }
  | .semaphoreGet =>
      match Kernel.semaphoreGet m.semaphore with
      | some count => { setup.goOn m t position with semaphore := count }
      | none => { m with pc := Function.update m.pc t none, ready := m.ready.erase t }
  | .semaphorePut =>
      let m := setup.goOn m t position
      { m with semaphore := (Kernel.semaphorePut setup.port m.semaphore).getD m.semaphore }
  | .waitInterrupt =>
      match Kernel.semaphoreGet m.trigger with
      | some count => { setup.goOn m t position with trigger := count, taken := m.taken + 1 }
      | none => { m with ready := m.ready.erase t, waiting := some t }
  | .causeInterrupt => setup.postTrigger (setup.goOn m t position)

/-- The statement that the running thread is about to execute. -/
def current (m : Machine ι κ) : Option (ι × ℕ × Instr ι κ) := do
  let t ← m.ready.head?
  let position ← m.pc t
  let instr ← (setup.program t).fetch position
  pure (t, position, instr)

/-- The events of the worker side: the running thread executes a statement, or a tick ends its
time slice. -/
inductive Move where
  | run
  | tick
  deriving DecidableEq

/-- One step of the worker side. -/
def next (m : Machine ι κ) : Move → Option (Machine ι κ)
  | .run => (setup.current m).map fun (t, position, instr) ↦ setup.execute m t position instr
  | .tick => if setup.timeSlicing then some { m with ready := setup.rotate m.ready } else none

/-- Whether the reporter is more urgent than the thread at the head of the ready list. -/
def outranked (m : Machine ι κ) : Bool :=
  match m.ready with
  | [] => true
  | t :: _ => setup.port.outranks setup.reporterPriority (setup.priority t)

/-- The reporter wakes up. If it outranks the running thread, it preempts it: ThreadX keeps the
thread at the head of its equals, FreeRTOS puts it behind them. -/
def preempted (m : Machine ι κ) : Machine ι κ :=
  match setup.port with
  | .threadX => m
  | .freeRTOS => if setup.outranked m then { m with ready := setup.rotate m.ready } else m

omit [DecidableEq ι] [DecidableEq κ] in
/-- Only FreeRTOS slices time. -/
theorem time_slicing_iff : setup.timeSlicing = true ↔ setup.port = .freeRTOS := by
  unfold timeSlicing
  cases setup.port <;> simp

omit [DecidableEq ι] [DecidableEq κ] in
/-- Preemption by the reporter either keeps the running thread's place or does what a tick does. -/
theorem preempted_cases (m : Machine ι κ) :
    setup.preempted m = m ∨
      setup.timeSlicing = true ∧ setup.preempted m = { m with ready := setup.rotate m.ready } := by
  unfold preempted timeSlicing
  cases setup.port with
  | threadX => exact .inl rfl
  | freeRTOS =>
      cases houtranked : setup.outranked m with
      | true => exact .inr ⟨rfl, rfl⟩
      | false => exact .inl rfl

/-- The threads of the test as the worker side of a benchmark. -/
def workers : Workers (Machine ι κ) Move where
  next := setup.next
  counters m := setup.counters.map m.count
  outranked := setup.outranked
  preempted := setup.preempted
  preempted_cases m := by
    refine (setup.preempted_cases m).imp_right fun ⟨hslice, hmoved⟩ ↦ ⟨.tick, ?_⟩
    simp only [next, hslice, if_true, hmoved]
  counters_preempted m := by
    rcases setup.preempted_cases m with hkept | ⟨-, hmoved⟩
    · rw [hkept]
    · rw [hmoved]

variable {setup} {m m' : Machine ι κ}

/-- Everything a step of the worker side can do. -/
theorem next_cases {move : Move} (h : setup.next m move = some m') :
    (∃ t rest position instr, move = .run ∧ m.ready = t :: rest ∧ m.pc t = some position ∧
      (setup.program t).fetch position = some instr ∧ m' = setup.execute m t position instr) ∨
    (move = .tick ∧ setup.timeSlicing = true ∧ m' = { m with ready := setup.rotate m.ready }) := by
  cases move with
  | run =>
      simp only [next, current, Option.bind_eq_bind, Option.pure_def, Option.map_eq_some_iff,
        Option.bind_eq_some_iff, Option.some.injEq, List.head?_eq_some_iff] at h
      obtain ⟨_, ⟨t, ⟨rest, hready⟩, position, hpc, instr, hfetch, rfl⟩, rfl⟩ := h
      exact .inl ⟨t, rest, position, instr, rfl, hready, hpc, hfetch, rfl⟩
  | tick =>
      simp only [next, Option.ite_none_right_eq_some, Option.some.injEq] at h
      exact .inr ⟨rfl, h.1, h.2.symm⟩

omit [DecidableEq ι] [DecidableEq κ] in
/-- A thread goes in front of the head exactly when it is more urgent. -/
theorem make_ready_cons (t u : ι) (rest : List ι) (hu : setup.priority u ≤ 31) :
    setup.makeReady t (u :: rest) =
      if setup.priority t < setup.priority u then t :: u :: rest
      else u :: setup.makeReady t rest := by
  simp [makeReady, Port.outranks_eq setup.port hu]

omit [DecidableEq κ] in
@[simp] theorem go_on_count (m : Machine ι κ) (t : ι) (position : ℕ) :
    (setup.goOn m t position).count = m.count := rfl

/-- No statement decreases a counter. -/
theorem execute_count_le (m : Machine ι κ) (t : ι) (position : ℕ) (instr : Instr ι κ) (c : κ) :
    m.count c ≤ (setup.execute m t position instr).count c := by
  cases instr with
  | resume u =>
      simp only [execute]
      split <;> simp
  | increment d =>
      by_cases hc : c = d
      · subst hc
        simp [execute]
      · simp [execute, hc]
  | semaphoreGet | waitInterrupt =>
      simp only [execute]
      split <;> simp
  | causeInterrupt =>
      simp only [execute, postTrigger]
      split
      · simp
      · simp
      · split <;> simp
  | suspend | relinquish | semaphorePut => simp [execute]

/-- The sum of the counters never decreases. -/
theorem sum_counters_le {move : Move} (h : setup.next m move = some m') :
    (setup.workers.counters m).sum ≤ (setup.workers.counters m').sum := by
  refine List.sum_le_sum fun c _ ↦ ?_
  rcases next_cases h with ⟨t, _, position, instr, -, -, -, -, rfl⟩ | ⟨-, -, rfl⟩
  · exact execute_count_le m t position instr c
  · exact le_rfl

/-- If any two counters differ by at most one in every state reached, the snapshot reporter of the
test prints no ERROR line as long as the sum of the counters fits into an `unsigned long`. -/
theorem no_error_while_sum_fits {w : ℕ} {spec : ReportSpec w} {params : Params}
    {figure : List (BitVec w) → BitVec w}
    {allowed : Bench (Machine ι κ) w → Event Move → Prop} {start : Machine ι κ}
    {s : Bench (Machine ι κ) w} (hw : 32 ≤ w)
    (hspec : spec.criterion = .balance setup.counters.length figure)
    (htwo : 2 ≤ setup.counters.length) (hsmall : setup.counters.length < 2 ^ 32)
    (hbal : ∀ t, ReachableWhere (Bench.next setup.workers spec params .strict) allowed
      ⟨start, .start⟩ t → ∀ c d, t.workers.count c ≤ t.workers.count d + 1)
    (hreach : ReachableWhere (Bench.next setup.workers spec params .strict) allowed
      ⟨start, .start⟩ s)
    (hsum : (setup.workers.counters s.workers).sum < 2 ^ w) :
    Line.error ∉ s.reporter.output := by
  have hword : setup.counters.length < 2 ^ w :=
    lt_of_lt_of_le hsmall (Nat.pow_le_pow_right (by omega) hw)
  refine Bench.no_error_while_sum_fits hspec htwo hword ?_ ?_ ?_ hreach hsum
  · intro m
    exact List.length_map _
  · intro m move m' hnext
    exact sum_counters_le hnext
  · intro t ht
    exact Counts.balanced_map (hbal t ht) _

end Setup

end ThreadMetric.Kernel
