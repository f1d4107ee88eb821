import ThreadMetric.Library.ReadyTasks
import ThreadMetric.Ports.ObjectServices

/-!
# Threads of the ports

The thread services of tm_api.h in both ports, over kernels that are only known by their
documentation. FreeRTOS counts priorities the other way round, names tasks by handles, and creates
them ready, so that the port suspends a task right after its creation. Which of several ready
threads of one priority runs is left open, because the kernels differ in it: ThreadX keeps a
preempted thread at the head of its equals, FreeRTOS goes on with the next of them.
-/

namespace ThreadMetric.Ports

open FreeRTOS ReadyTasks Services

variable {E K H S : Type}

/-- The threads of a program: those of the test by their ids, and the interrupt thread of the hosts.
As what a task executes, `test id` is the shell function of the port with the argument `id`. -/
inductive Thread where
  | test (id : ℕ)
  | interrupt
  deriving DecidableEq

/-- What runs: an entry function of the test, or that of the interrupt thread. -/
inductive Code (E : Type) where
  | entry (function : E)
  | interruptThread
  deriving DecidableEq

/-- What a thread runs, when the shell function calls these entry functions. -/
def Thread.code (entryFunctions : ℕ → Option E) : Thread → Option (Code E)
  | test id => (entryFunctions id).map .entry
  | interrupt => some .interruptThread

/-- The thread services of tm_api.h, as threads outside interrupts call them, and the start of the
kernel. `created` says whether an id has been used, `started` whether the kernel runs. -/
structure ThreadApi (E S : Type) where
  tmThreadCreate (threadId priority : ℤ) (entryFunction : E) : S → Status × S
  tmThreadResume (threadId : ℤ) : S → Status × S
  tmThreadSuspend (threadId : ℤ) : S → Status × S
  tmThreadRelinquish : S → S
  start : S → Option S
  created : S → ℕ → Bool
  started : S → Bool

/-- The calls of the thread services, and the start of the kernel. -/
inductive ThreadCall (E : Type) where
  | create (threadId priority : ℤ) (entryFunction : E)
  | resume (threadId : ℤ)
  | suspend (threadId : ℤ)
  | relinquish
  | start

def tmThreadxMaxThreads : ℤ := 10

def tmFreertosMaxThreads : ℤ := 10

/-- A port refuses an id outside its array of threads. -/
def RefusedId (maxThreads threadId : ℤ) : Prop :=
  threadId < 0 ∨ maxThreads ≤ threadId

/-- It refuses to create a thread also for its priority. -/
def RefusedCreate (maxThreads threadId priority : ℤ) : Prop :=
  threadId < 0 ∨ maxThreads ≤ threadId ∨ priority < 1 ∨ 31 < priority

instance (maxThreads threadId : ℤ) : Decidable (RefusedId maxThreads threadId) :=
  inferInstanceAs (Decidable (_ ∨ _))

instance (maxThreads threadId priority : ℤ) :
    Decidable (RefusedCreate maxThreads threadId priority) :=
  inferInstanceAs (Decidable (_ ∨ _))

namespace ThreadApi

/-- A call must not be made if it creates a thread again or after the start, if it names a thread
that has not been created, if it relinquishes before the start, or if it starts the kernel again. -/
def Permitted (api : ThreadApi E S) (s : S) : ThreadCall E → Prop
  | .create threadId priority _ =>
      RefusedCreate 10 threadId priority ∨
        api.created s threadId.toNat = false ∧ api.started s = false
  | .resume threadId | .suspend threadId =>
      RefusedId 10 threadId ∨ api.created s threadId.toNat = true
  | .relinquish => api.started s = true
  | .start => api.started s = false

instance (api : ThreadApi E S) (s : S) : DecidablePred (api.Permitted s)
  | .create _ _ _ => inferInstanceAs (Decidable (_ ∨ _))
  | .resume _ | .suspend _ => inferInstanceAs (Decidable (_ ∨ _))
  | .relinquish | .start => inferInstanceAs (Decidable (_ = _))

/-- The status of a call, if it has one, and the state after it; `none` if the kernel fails to
start. -/
def answer (api : ThreadApi E S) (s : S) : ThreadCall E → Option (Option Status × S)
  | .create threadId priority entryFunction =>
      let r := api.tmThreadCreate threadId priority entryFunction s
      some (some r.1, r.2)
  | .resume threadId =>
      let r := api.tmThreadResume threadId s
      some (some r.1, r.2)
  | .suspend threadId =>
      let r := api.tmThreadSuspend threadId s
      some (some r.1, r.2)
  | .relinquish => some (none, api.tmThreadRelinquish s)
  | .start => (api.start s).map fun s ↦ (none, s)

/-- One call. -/
def next (api : ThreadApi E S) (s : S) (call : ThreadCall E) : Option (Option Status × S) :=
  if api.Permitted s call then api.answer s call else none

end ThreadApi

/-! ## The ThreadX port -/

/-- The thread services of the ThreadX kernel, on the control blocks of `tm_thread_array` and
`tm_isr_thread`. Threads are created with `TX_NO_TIME_SLICE`, and with `TX_AUTO_START` or
`TX_DONT_START`; the kernel starts when `tx_application_define` returns. `executing` is what the
thread executes that the kernel runs, its own threads left aside. -/
structure ThreadXThreads (K : Type) where
  txThreadCreate (thread entry : Thread) (priority preemptThreshold : ℕ) (autoStart : Bool) :
    K → ℕ × K
  txThreadResume (thread : Thread) : K → ℕ × K
  txThreadSuspend (thread : Thread) : K → ℕ × K
  txThreadRelinquish : K → K
  txThreadSchedule : K → K
  started : K → Bool
  executing : K → Option Thread

/-- `tm_thread_entry_functions` and the kernel. -/
structure ThreadXPort (E K : Type) where
  entryFunctions : ℕ → Option E
  kernel : K

namespace ThreadXThreads

variable (k : ThreadXThreads K)

/-- `tm_thread_create`. -/
def tmThreadCreate (threadId priority : ℤ) (entryFunction : E) (s : ThreadXPort E K) :
    Status × ThreadXPort E K :=
  if RefusedCreate tmThreadxMaxThreads threadId priority then (.error, s)
  else
    let id := threadId.toNat
    let r := k.txThreadCreate (.test id) (.test id) priority.toNat priority.toNat false s.kernel
    (if r.1 = txSuccess then .success else .error,
      ⟨Function.update s.entryFunctions id (some entryFunction), r.2⟩)

/-- `tm_thread_resume` of a thread. -/
def tmThreadResume (threadId : ℤ) (s : ThreadXPort E K) : Status × ThreadXPort E K :=
  let r := k.txThreadResume (.test threadId.toNat) s.kernel
  checked tmThreadxMaxThreads txSuccess threadId (r.1, { s with kernel := r.2 }) s

/-- `tm_thread_suspend`. -/
def tmThreadSuspend (threadId : ℤ) (s : ThreadXPort E K) : Status × ThreadXPort E K :=
  let r := k.txThreadSuspend (.test threadId.toNat) s.kernel
  checked tmThreadxMaxThreads txSuccess threadId (r.1, { s with kernel := r.2 }) s

/-- `tm_thread_relinquish`. -/
def tmThreadRelinquish (s : ThreadXPort E K) : ThreadXPort E K :=
  { s with kernel := k.txThreadRelinquish s.kernel }

/-- `tm_thread_entry`: the entry function that it calls. -/
def tmThreadEntry (s : ThreadXPort E K) (threadInput : ℕ) : Option E :=
  s.entryFunctions threadInput

/-- The services of the port. -/
def api : ThreadApi E (ThreadXPort E K) where
  tmThreadCreate := k.tmThreadCreate
  tmThreadResume := k.tmThreadResume
  tmThreadSuspend := k.tmThreadSuspend
  tmThreadRelinquish := k.tmThreadRelinquish
  start s := some { s with kernel := k.txThreadSchedule s.kernel }
  created s id := (s.entryFunctions id).isSome
  started s := k.started s.kernel

/-- What runs in the port. -/
def running (s : ThreadXPort E K) : Option (Code E) :=
  (k.executing s.kernel).bind (Thread.code (tmThreadEntry s))

/-- The documented behaviour of the ThreadX threads: a smaller number is a more urgent priority, a
most urgent ready thread runs, and a thread that is not suspended cannot be resumed. -/
structure Documented where
  holds : Scheduler Thread Thread → K → Prop
  started : ∀ {s kernel}, holds s kernel → k.started kernel = s.started
  executing : ∀ {s kernel}, holds s kernel →
    s.Selects (· < ·) (fun _ ↦ False) (k.executing kernel)
  create : ∀ {s kernel thread priority} entry (autoStart : Bool), holds s kernel →
    s.task thread = none → priority < 32 →
    ∃ kernel', k.txThreadCreate thread entry priority priority autoStart kernel =
        (txSuccess, kernel') ∧
      holds (if autoStart then (s.create thread ⟨priority, entry⟩).wake thread
        else s.create thread ⟨priority, entry⟩) kernel'
  resume_suspended : ∀ {s kernel id}, holds s kernel → (s.task (.test id)).isSome = true →
    .test id ∉ s.ready →
    ∃ kernel', k.txThreadResume (.test id) kernel = (txSuccess, kernel') ∧
      holds (s.wake (.test id)) kernel'
  resume_ready : ∀ {s kernel id}, holds s kernel → .test id ∈ s.ready →
    ∃ code kernel', code ≠ txSuccess ∧ k.txThreadResume (.test id) kernel = (code, kernel') ∧
      holds s kernel'
  suspend : ∀ {s kernel id}, holds s kernel → (s.task (.test id)).isSome = true →
    ∃ kernel', k.txThreadSuspend (.test id) kernel = (txSuccess, kernel') ∧
      holds (s.sleep (.test id)) kernel'
  relinquish : ∀ {s kernel}, holds s kernel → s.started = true →
    holds s (k.txThreadRelinquish kernel)
  schedule : ∀ {s kernel}, holds s kernel → s.started = false →
    holds s.start (k.txThreadSchedule kernel)

end ThreadXThreads

/-! ## The FreeRTOS port -/

def configMaxPriorities : ℤ := 32

/-- The task services of the FreeRTOS kernel. `xTaskCreate` gives a handle unless there is no memory
for the task, and `vTaskStartScheduler` returns, here with `none`, if there is none for the idle
task. `current` is what the task executes that the kernel runs, the idle task left aside. -/
structure FreeRTOSTasks (H K : Type) where
  xTaskCreate (entry : Thread) (priority : ℕ) : K → Option H × K
  vTaskResume : H → K → K
  vTaskSuspend : H → K → K
  taskYield : K → K
  vTaskStartScheduler : K → Option K
  started : K → Bool
  current : K → Option Thread

/-- `tm_thread_entry_functions`, `tm_thread_array`, `tm_isr_task` and the kernel. -/
structure FreeRTOSPort (E H K : Type) where
  entryFunctions : ℕ → Option E
  threadArray : ℕ → H
  isrTask : H
  kernel : K

/-- The handle of a thread. -/
def FreeRTOSPort.handle (s : FreeRTOSPort E H K) : Thread → H
  | .test id => s.threadArray id
  | .interrupt => s.isrTask

namespace FreeRTOSTasks

variable [DecidableEq H] (k : FreeRTOSTasks H K)

/-- `tm_thread_create`: the task is created ready and suspended at once. -/
def tmThreadCreate (threadId priority : ℤ) (entryFunction : E) (s : FreeRTOSPort E H K) :
    Status × FreeRTOSPort E H K :=
  if RefusedCreate tmFreertosMaxThreads threadId priority then (.error, s)
  else
    let id := threadId.toNat
    let entryFunctions := Function.update s.entryFunctions id (some entryFunction)
    match k.xTaskCreate (.test id) (configMaxPriorities - 1 - priority).toNat s.kernel with
    | (none, kernel) => (.error, { s with entryFunctions := entryFunctions, kernel := kernel })
    | (some handle, kernel) =>
        (.success, { s with
          entryFunctions := entryFunctions
          threadArray := Function.update s.threadArray id handle
          kernel := k.vTaskSuspend handle kernel })

/-- `tm_thread_resume` of a thread. -/
def tmThreadResume (threadId : ℤ) (s : FreeRTOSPort E H K) : Status × FreeRTOSPort E H K :=
  if RefusedId tmFreertosMaxThreads threadId then (.error, s)
  else (.success, { s with kernel := k.vTaskResume (s.threadArray threadId.toNat) s.kernel })

/-- `tm_thread_suspend`. -/
def tmThreadSuspend (threadId : ℤ) (s : FreeRTOSPort E H K) : Status × FreeRTOSPort E H K :=
  if RefusedId tmFreertosMaxThreads threadId then (.error, s)
  else (.success, { s with kernel := k.vTaskSuspend (s.threadArray threadId.toNat) s.kernel })

/-- `tm_thread_relinquish`. -/
def tmThreadRelinquish (s : FreeRTOSPort E H K) : FreeRTOSPort E H K :=
  { s with kernel := k.taskYield s.kernel }

/-- `tm_task_trampoline`: the entry function that it calls. -/
def tmTaskTrampoline (s : FreeRTOSPort E H K) (param : ℕ) : Option E :=
  s.entryFunctions param

/-- The services of the port. -/
def api : ThreadApi E (FreeRTOSPort E H K) where
  tmThreadCreate := k.tmThreadCreate
  tmThreadResume := k.tmThreadResume
  tmThreadSuspend := k.tmThreadSuspend
  tmThreadRelinquish := k.tmThreadRelinquish
  start s := (k.vTaskStartScheduler s.kernel).map fun kernel ↦ { s with kernel := kernel }
  created s id := (s.entryFunctions id).isSome
  started s := k.started s.kernel

/-- What runs in the port. -/
def running (s : FreeRTOSPort E H K) : Option (Code E) :=
  (k.current s.kernel).bind (Thread.code (tmTaskTrampoline s))

/-- The documented behaviour of the FreeRTOS tasks: a larger number is a more urgent priority, a
most urgent ready task runs, unless it has the priority 0 of the idle task, a task is created ready
under a new handle, and resuming a ready task does nothing. -/
structure Documented where
  holds : Scheduler H Thread → K → Prop
  started : ∀ {s kernel}, holds s kernel → k.started kernel = s.started
  current : ∀ {s kernel}, holds s kernel → s.Selects (· > ·) (· = 0) (k.current kernel)
  create : ∀ {s : Scheduler H Thread} {kernel kernel' entry priority handle},
    holds s kernel → priority < 32 → k.xTaskCreate entry priority kernel = (some handle, kernel') →
    s.task handle = none ∧ holds ((s.create handle ⟨priority, entry⟩).wake handle) kernel'
  resume : ∀ {s : Scheduler H Thread} {kernel handle a}, holds s kernel →
    s.task handle = some a → a.entry ≠ .interrupt →
    holds (s.wake handle) (k.vTaskResume handle kernel)
  suspend : ∀ {s : Scheduler H Thread} {kernel handle a}, holds s kernel →
    s.task handle = some a → a.entry ≠ .interrupt →
    holds (s.sleep handle) (k.vTaskSuspend handle kernel)
  yield : ∀ {s : Scheduler H Thread} {kernel}, holds s kernel → s.started = true →
    holds s (k.taskYield kernel)
  start : ∀ {s : Scheduler H Thread} {kernel kernel'}, holds s kernel → s.started = false →
    k.vTaskStartScheduler kernel = some kernel' → holds s.start kernel'

/-- There is memory for one more task while there are fewer than eleven, and for the idle task. -/
structure HasMemory {k : FreeRTOSTasks H K} (h : k.Documented) : Prop where
  task : ∀ s kernel (handles : List H) entry (priority : ℕ), h.holds s kernel →
    (∀ handle, (s.task handle).isSome = true → handle ∈ handles) → handles.length < 11 →
    (k.xTaskCreate entry priority kernel).1 ≠ none
  idle : ∀ s kernel, h.holds s kernel → k.vTaskStartScheduler kernel ≠ none

end FreeRTOSTasks

end ThreadMetric.Ports
