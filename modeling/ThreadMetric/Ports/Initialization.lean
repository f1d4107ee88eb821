import ThreadMetric.Library.Lines
import ThreadMetric.Benchmarks.CooperativeScheduling
import ThreadMetric.Benchmarks.InterruptProcessing
import ThreadMetric.Benchmarks.PreemptiveScheduling
import ThreadMetric.Ports.ThreadInterchange
import ThreadMetric.Report.Printf

/-!
# The initialization functions

Every test creates its threads and objects through `TM_CHECK`, which ends the program when a call
fails. `tm_initialize` calls the initialization function of the test between the creation of the
interrupt thread, on hosts, and the start of the kernel. `initialization_starts` says what remains
afterwards: either the message of a call has been printed, or the threads are ready and the
interrupt thread, if there is one, and otherwise the reporter is the first to run.
-/

namespace ThreadMetric.Initialization

open CStrings FreeRTOS Kernel Ports Printf ReadyTasks Report

/-- The eight tests. -/
inductive Benchmark where
  | basicProcessing
  | cooperativeScheduling
  | preemptiveScheduling
  | interruptProcessing
  | interruptPreemptionProcessing
  | messageProcessing
  | synchronizationProcessing
  | memoryAllocation
  deriving DecidableEq

/-- What the names of the test's functions have in common. -/
def Benchmark.stem : Benchmark → List Char
  | basicProcessing => "basic_processing".toList
  | cooperativeScheduling => "cooperative".toList
  | preemptiveScheduling => "preemptive".toList
  | interruptProcessing => "interrupt".toList
  | interruptPreemptionProcessing => "interrupt_preemption".toList
  | messageProcessing => "message_processing".toList
  | synchronizationProcessing => "synchronization_processing".toList
  | memoryAllocation => "memory_allocation".toList

/-- The reporter of the test. -/
def Benchmark.report (w : ℕ) : Benchmark → ReportSpec w
  | basicProcessing => tmBasicProcessingThreadReport w
  | cooperativeScheduling => tmCooperativeThreadReport w
  | preemptiveScheduling => tmPreemptiveThreadReport w
  | interruptProcessing => tmInterruptThreadReport w
  | interruptPreemptionProcessing => tmInterruptPreemptionThreadReport w
  | messageProcessing => tmMessageProcessingThreadReport w
  | synchronizationProcessing => tmSynchronizationProcessingThreadReport w
  | memoryAllocation => tmMemoryAllocationThreadReport w

/-- The entry functions of the threads. -/
inductive Entry where
  | thread (test : Benchmark) (number : ℕ)
  | report (test : Benchmark)
  deriving DecidableEq

/-- The name of a function of a test. -/
def functionName (test : Benchmark) (ending : List Char) : List Char :=
  "tm_".toList ++ (test.stem ++ ("_thread_".toList ++ ending))

/-- The name of an entry function. -/
def Entry.text : Entry → List Char
  | thread test number => functionName test (Nat.toDigits 10 number ++ "_entry".toList)
  | report test => functionName test "report".toList

/-- The objects that are not threads. -/
inductive Object where
  | queue
  | semaphore
  | memoryPool
  deriving DecidableEq

/-- The calls under `TM_CHECK`. -/
inductive CheckedCall where
  | threadCreate (threadId priority : ℕ) (entryFunction : Entry)
  | threadResume (threadId : ℕ)
  | objectCreate (object : Object) (id : ℕ)
  deriving DecidableEq

/-- A call as it is written. -/
def callText (function arguments : List Char) : List Char :=
  function ++ ('(' :: (arguments ++ [')']))

/-- `#call`. -/
def CheckedCall.text : CheckedCall → List Char
  | threadCreate threadId priority entryFunction =>
      callText "tm_thread_create".toList (Nat.toDigits 10 threadId ++ (", ".toList ++
        (Nat.toDigits 10 priority ++ (", ".toList ++ entryFunction.text))))
  | threadResume threadId => callText "tm_thread_resume".toList (Nat.toDigits 10 threadId)
  | objectCreate .queue id => callText "tm_queue_create".toList (Nat.toDigits 10 id)
  | objectCreate .semaphore id => callText "tm_semaphore_create".toList (Nat.toDigits 10 id)
  | objectCreate .memoryPool id => callText "tm_memory_pool_create".toList (Nat.toDigits 10 id)

/-! ## The tests -/

/-- The reporter, with which every initialization function ends. -/
def createReporter (test : Benchmark) : List CheckedCall :=
  [.threadCreate 5 2 (.report test), .threadResume 5]

/-- `tm_basic_processing_initialize`. -/
def tmBasicProcessingInitialize : List CheckedCall :=
  [.threadCreate 0 10 (.thread .basicProcessing 0), .threadResume 0] ++
    createReporter .basicProcessing

/-- `tm_cooperative_scheduling_initialize`. -/
def tmCooperativeSchedulingInitialize : List CheckedCall :=
  [.threadCreate 0 3 (.thread .cooperativeScheduling 0),
    .threadCreate 1 3 (.thread .cooperativeScheduling 1),
    .threadCreate 2 3 (.thread .cooperativeScheduling 2),
    .threadCreate 3 3 (.thread .cooperativeScheduling 3),
    .threadCreate 4 3 (.thread .cooperativeScheduling 4),
    .threadResume 0, .threadResume 1, .threadResume 2, .threadResume 3, .threadResume 4] ++
    createReporter .cooperativeScheduling

/-- `tm_preemptive_scheduling_initialize`. -/
def tmPreemptiveSchedulingInitialize : List CheckedCall :=
  [.threadCreate 0 10 (.thread .preemptiveScheduling 0),
    .threadCreate 1 9 (.thread .preemptiveScheduling 1),
    .threadCreate 2 8 (.thread .preemptiveScheduling 2),
    .threadCreate 3 7 (.thread .preemptiveScheduling 3),
    .threadCreate 4 6 (.thread .preemptiveScheduling 4),
    .threadResume 0] ++ createReporter .preemptiveScheduling

/-- `tm_interrupt_processing_initialize`. -/
def tmInterruptProcessingInitialize : List CheckedCall :=
  [.threadCreate 0 10 (.thread .interruptProcessing 0), .objectCreate .semaphore 0,
    .threadResume 0] ++ createReporter .interruptProcessing

/-- `tm_interrupt_preemption_processing_initialize`. -/
def tmInterruptPreemptionProcessingInitialize : List CheckedCall :=
  [.threadCreate 0 3 (.thread .interruptPreemptionProcessing 0),
    .threadCreate 1 10 (.thread .interruptPreemptionProcessing 1), .threadResume 1] ++
    createReporter .interruptPreemptionProcessing

/-- `tm_message_processing_initialize`. -/
def tmMessageProcessingInitialize : List CheckedCall :=
  [.threadCreate 0 10 (.thread .messageProcessing 0), .threadResume 0, .objectCreate .queue 0] ++
    createReporter .messageProcessing

/-- `tm_synchronization_processing_initialize`. -/
def tmSynchronizationProcessingInitialize : List CheckedCall :=
  [.threadCreate 0 10 (.thread .synchronizationProcessing 0), .threadResume 0,
    .objectCreate .semaphore 0] ++ createReporter .synchronizationProcessing

/-- `tm_memory_allocation_initialize`. -/
def tmMemoryAllocationInitialize : List CheckedCall :=
  [.threadCreate 0 10 (.thread .memoryAllocation 0), .threadResume 0,
    .objectCreate .memoryPool 0] ++ createReporter .memoryAllocation

/-- The initialization function that the test gives to `tm_initialize`. -/
def Benchmark.initialization : Benchmark → List CheckedCall
  | basicProcessing => tmBasicProcessingInitialize
  | cooperativeScheduling => tmCooperativeSchedulingInitialize
  | preemptiveScheduling => tmPreemptiveSchedulingInitialize
  | interruptProcessing => tmInterruptProcessingInitialize
  | interruptPreemptionProcessing => tmInterruptPreemptionProcessingInitialize
  | messageProcessing => tmMessageProcessingInitialize
  | synchronizationProcessing => tmSynchronizationProcessingInitialize
  | memoryAllocation => tmMemoryAllocationInitialize

/-! ## Checked calls -/

/-- Lower-case letters, digits, underscores, parentheses, commas and blanks. -/
def isCallChar (c : Char) : Bool :=
  c.isLower || c.isDigit || c = '_' || c = '(' || c = ')' || c = ',' || c = ' '

/-- Numerals consist of such characters. -/
theorem call_char_to_digits (n : ℕ) : ∀ c ∈ Nat.toDigits 10 n, isCallChar c = true := by
  intro c hc
  have hdigit := (Decimal.is_numeral n).isDigit c hc
  rw [isCallChar, hdigit]
  simp only [Bool.or_true, Bool.true_or]

/-- So do the names of functions. -/
theorem call_char_function_name (test : Benchmark) {ending : List Char}
    (h : ∀ c ∈ ending, isCallChar c = true) :
    ∀ c ∈ functionName test ending, isCallChar c = true := by
  have hstem : ∀ c ∈ test.stem, isCallChar c = true := by
    cases test <;> exact Shell.forall_of_all rfl
  have htm : ∀ c ∈ "tm_".toList, isCallChar c = true := Shell.forall_of_all rfl
  have hthread : ∀ c ∈ "_thread_".toList, isCallChar c = true := Shell.forall_of_all rfl
  intro c hc
  simp only [functionName, List.mem_append] at hc
  rcases hc with hc | hc | hc | hc
  · exact htm c hc
  · exact hstem c hc
  · exact hthread c hc
  · exact h c hc

/-- So do the names of entry functions. -/
theorem call_char_entry (entryFunction : Entry) :
    ∀ c ∈ entryFunction.text, isCallChar c = true := by
  cases entryFunction with
  | thread test number =>
      have hending : ∀ c ∈ "_entry".toList, isCallChar c = true := Shell.forall_of_all rfl
      refine call_char_function_name test fun c hc ↦ ?_
      rcases List.mem_append.mp hc with hc | hc
      · exact call_char_to_digits number c hc
      · exact hending c hc
  | report test => exact call_char_function_name test (Shell.forall_of_all rfl)

/-- So do calls. -/
theorem call_char_call_text {function arguments : List Char}
    (hfunction : ∀ c ∈ function, isCallChar c = true)
    (harguments : ∀ c ∈ arguments, isCallChar c = true) :
    ∀ c ∈ callText function arguments, isCallChar c = true := by
  intro c hc
  simp only [callText, List.mem_append, List.mem_cons, List.not_mem_nil, or_false] at hc
  rcases hc with hc | rfl | hc | rfl
  · exact hfunction c hc
  · rfl
  · exact harguments c hc
  · rfl

/-- So do the calls under `TM_CHECK`. -/
theorem CheckedCall.call_char_text (call : CheckedCall) :
    ∀ c ∈ call.text, isCallChar c = true := by
  cases call with
  | threadCreate threadId priority entryFunction =>
      have hcomma : ∀ c ∈ ", ".toList, isCallChar c = true := Shell.forall_of_all rfl
      refine call_char_call_text (Shell.forall_of_all rfl) fun c hc ↦ ?_
      simp only [List.mem_append] at hc
      rcases hc with hc | hc | hc | hc | hc
      · exact call_char_to_digits threadId c hc
      · exact hcomma c hc
      · exact call_char_to_digits priority c hc
      · exact hcomma c hc
      · exact call_char_entry entryFunction c hc
  | threadResume threadId =>
      exact call_char_call_text (Shell.forall_of_all rfl) (call_char_to_digits threadId)
  | objectCreate object id =>
      cases object with
      | queue | semaphore | memoryPool =>
          exact call_char_call_text (Shell.forall_of_all rfl) (call_char_to_digits id)

/-- A character that is in neither of its fixed parts and not in calls is not in a message. -/
theorem CheckedCall.not_mem_message_text (call : CheckedCall) {d : Char}
    (hfatal : d ∉ "FATAL: ".toList) (hfailed : d ∉ " failed\n".toList)
    (hcall : isCallChar d = false) :
    d ∉ "FATAL: ".toList ++ (call.text ++ " failed\n".toList) := by
  have htext : d ∉ call.text := fun hd ↦
    Bool.noConfusion (hcall.symm.trans (call.call_char_text d hd))
  exact List.not_mem_append hfatal (List.not_mem_append htext hfailed)

/-- `"FATAL: " #call " failed\n"`. -/
def CheckedCall.message (call : CheckedCall) : CString where
  chars := "FATAL: ".toList ++ (call.text ++ " failed\n".toList)
  nul_not_mem := call.not_mem_message_text (by decide) (by decide) (by decide)

/-- `tm_check_fail`: what it prints before it ends the program. -/
def tmCheckFail (msg : CString) : Option (List Char) :=
  (Printer.putString msg.memory (⟨0, [], []⟩ : Printer 32)).map Printer.output

/-- It prints the message. -/
theorem tm_check_fail_eq (msg : CString) : tmCheckFail msg = some msg.chars := by
  rw [tmCheckFail, CString.memory, Printer.put_string_memory _ msg.nul_not_mem]
  rfl

/-- How an initialization ends: with a state, with a message, or because the kernel has returned
from its start. -/
inductive Started (S : Type) where
  | running (state : S)
  | failed (text : List Char)
  | returned

variable {S O : Type}

/-- The calls in order, each under `TM_CHECK`. -/
def runChecks (serve : CheckedCall → S → Status × S) : List CheckedCall → S → Option (Started S)
  | [], s => some (.running s)
  | call :: calls, s =>
      let r := serve call s
      if r.1 ≠ .success then (tmCheckFail call.message).map .failed
      else runChecks serve calls r.2

/-- A call on the threads and the other objects of a port. -/
def serve (api : ThreadApi Entry S) (create : Object → ℤ → O → Status × O) :
    CheckedCall → S × O → Status × S × O
  | .threadCreate threadId priority entryFunction, (s, o) =>
      let r := api.tmThreadCreate threadId priority entryFunction s
      (r.1, r.2, o)
  | .threadResume threadId, (s, o) =>
      let r := api.tmThreadResume threadId s
      (r.1, r.2, o)
  | .objectCreate object id, (s, o) =>
      let r := create object id o
      (r.1, s, r.2)

/-! ## What an initialization function leaves -/

/-- The threads after a call that has succeeded. -/
def apply (t : Threads Entry) : CheckedCall → Threads Entry
  | .threadCreate threadId priority entryFunction => t.create threadId priority entryFunction
  | .threadResume threadId => t.resume threadId
  | .objectCreate _ _ => t

/-- A call creates a thread that does not exist, with an id and a priority that are accepted, or
resumes one that is suspended. -/
def Sound (t : Threads Entry) : CheckedCall → Prop
  | .threadCreate threadId priority _ =>
      ¬ RefusedCreate 10 threadId priority ∧ (t.scheduler.task (.test threadId)).isNone = true
  | .threadResume threadId =>
      ¬ RefusedId 10 threadId ∧ (t.scheduler.task (.test threadId)).isSome = true ∧
        .test threadId ∉ t.scheduler.ready
  | .objectCreate _ _ => True

instance (t : Threads Entry) : DecidablePred (Sound t)
  | .threadCreate _ _ _ => inferInstanceAs (Decidable (_ ∧ _))
  | .threadResume _ => inferInstanceAs (Decidable (_ ∧ _ ∧ _))
  | .objectCreate _ _ => inferInstanceAs (Decidable True)

/-- All calls are sound, one after the other. -/
def allSound : List CheckedCall → Threads Entry → Bool
  | [], _ => true
  | call :: calls, t => decide (Sound t call) && allSound calls (apply t call)

/-- The port follows the threads through sound calls, of which those in `fallible` may fail. -/
structure Follows (api : ThreadApi Entry S) (related : S → Threads Entry → Prop)
    (fallible : CheckedCall → Prop) : Prop where
  create : ∀ {s t}, related s t → ∀ {threadId priority entryFunction},
    Sound t (.threadCreate threadId priority entryFunction) →
    (fallible (.threadCreate threadId priority entryFunction) ∧
      (api.tmThreadCreate threadId priority entryFunction s).1 ≠ .success) ∨
    ∃ s', api.tmThreadCreate threadId priority entryFunction s = (.success, s') ∧
      related s' (t.create threadId priority entryFunction)
  resume : ∀ {s t}, related s t → ∀ {threadId}, Sound t (.threadResume threadId) →
    ∃ s', api.tmThreadResume threadId s = (.success, s') ∧ related s' (t.resume threadId)
  object : ∀ object id, fallible (.objectCreate object id)

/-- Sound calls under `TM_CHECK` lead to the threads that they describe, or the message of one that
has failed is printed. -/
theorem run_checks {api : ThreadApi Entry S} {related : S → Threads Entry → Prop}
    {fallible : CheckedCall → Prop} (h : Follows api related fallible)
    (create : Object → ℤ → O → Status × O) (calls : List CheckedCall) {s : S} {t : Threads Entry}
    (o : O) (hrelated : related s t) (hsound : allSound calls t = true) :
    (∃ s' o', runChecks (serve api create) calls (s, o) = some (.running (s', o')) ∧
      related s' (calls.foldl apply t)) ∨
    ∃ call ∈ calls, fallible call ∧
      runChecks (serve api create) calls (s, o) = some (.failed call.message.chars) := by
  induction calls generalizing s t o with
  | nil => exact .inl ⟨s, o, rfl, hrelated⟩
  | cons call calls ih =>
      rw [allSound, Bool.and_eq_true, decide_eq_true_eq] at hsound
      obtain ⟨hcall, hcalls⟩ := hsound
      have hstep : (fallible call ∧ (serve api create call (s, o)).1 ≠ .success) ∨
          ∃ s' o', serve api create call (s, o) = (.success, s', o') ∧
            related s' (apply t call) := by
        cases call with
        | threadCreate threadId priority entryFunction =>
            rcases h.create hrelated hcall with hfails | ⟨s', hs, hrelated'⟩
            · exact .inl hfails
            · refine .inr ⟨s', o, ?_, hrelated'⟩
              simp only [serve, hs]
        | threadResume threadId =>
            obtain ⟨s', hs, hrelated'⟩ := h.resume hrelated hcall
            refine .inr ⟨s', o, ?_, hrelated'⟩
            simp only [serve, hs]
        | objectCreate object id =>
            by_cases hstatus : (create object id o).1 = .success
            · refine .inr ⟨s, (create object id o).2, ?_, hrelated⟩
              simp only [serve, hstatus]
            · exact .inl ⟨h.object object id, hstatus⟩
      rcases hstep with ⟨hfallible, hfails⟩ | ⟨s', o', hserve, hrelated'⟩
      · refine .inr ⟨call, List.mem_cons_self, hfallible, ?_⟩
        rw [runChecks]
        simp only [if_pos hfails, tm_check_fail_eq, Option.map_some]
      · have hrun : runChecks (serve api create) (call :: calls) (s, o) =
            runChecks (serve api create) calls (s', o') := by
          rw [runChecks]
          simp only [hserve, ne_eq, not_true_eq_false, if_false]
        rw [hrun]
        rcases ih o' hrelated' hcalls with hrunning | ⟨other, hmem, hfailed⟩
        · exact .inl hrunning
        · exact .inr ⟨other, List.mem_cons_of_mem call hmem, hfailed⟩

/-- The calls under `TM_CHECK` that can fail: in the ThreadX port only the creation of an object
that is not a thread, in the FreeRTOS port no resume. -/
def Fallible : Port → CheckedCall → Prop
  | .threadX, call => ∃ object id, call = .objectCreate object id
  | .freeRTOS, call => ∀ threadId, call ≠ .threadResume threadId

variable {K K' H : Type}

/-- In the ThreadX port only the creation of another object can fail. -/
theorem thread_x_follows {k : ThreadXThreads K} (h : k.Documented) :
    Follows k.api (ThreadXThreads.Models h) (Fallible .threadX) where
  create {s t} hm {threadId priority entryFunction} hsound := by
    obtain ⟨hstatus, hrelated⟩ := (ThreadXThreads.simulated h).create hm entryFunction hsound.1
      (by
        show (t.entryFunctions threadId).isSome = false
        rw [t.entry, Option.isNone_iff_eq_none.mp hsound.2]
        rfl)
    have ht : (Threads.api true).tmThreadCreate threadId priority entryFunction t =
        (.success, t.create threadId priority entryFunction) := if_neg hsound.1
    rw [ht] at hstatus hrelated
    exact .inr ⟨_, Prod.ext hstatus rfl, hrelated⟩
  resume {s t} hm {threadId} hsound := by
    obtain ⟨hstatus, hrelated⟩ := (ThreadXThreads.simulated h).resume hm hsound.1
      ((t.entry _).trans hsound.2.1)
    have ht : (Threads.api true).tmThreadResume threadId t = (.success, t.resume threadId) :=
      (if_neg hsound.1).trans (if_neg fun hrefuses ↦ hsound.2.2 hrefuses.2)
    rw [ht] at hstatus hrelated
    exact ⟨_, Prod.ext hstatus rfl, hrelated⟩
  object object id := ⟨object, id, rfl⟩

/-- In the FreeRTOS port a creation can fail. -/
theorem free_rtos_follows [DecidableEq H] {k : FreeRTOSTasks H K} (h : k.Documented) :
    Follows k.api (FreeRTOSTasks.Models h) (Fallible .freeRTOS) where
  create {s t} hm {threadId priority entryFunction} hsound := by
    have hcreate := FreeRTOSTasks.create_cases hm entryFunction hsound.1
      (Option.isNone_iff_eq_none.mp hsound.2)
    rcases hcreate with ⟨-, herror⟩ | hcreated
    · refine .inl ⟨nofun, fun hsuccess ↦ ?_⟩
      · rw [show (k.api.tmThreadCreate threadId priority entryFunction s).1 = .error from herror]
          at hsuccess
        cases hsuccess
    · exact .inr hcreated
  resume {s t} hm {threadId} hsound := FreeRTOSTasks.resume_models hm hsound.1 hsound.2.1
  object object id := nofun

/-! ## `tm_initialize` -/

/-- `"FATAL: ISR simulation setup failed\n"`. -/
def isrSetupFailed : CString where
  chars := "FATAL: ISR simulation setup failed\n".toList
  nul_not_mem := by decide

/-- The initialization function of a test, and then the start of the kernel. -/
def runTest (api : ThreadApi Entry S) (create : Object → ℤ → O → Status × O) (test : Benchmark)
    (s : S) (o : O) : Option (Started (S × O)) :=
  (runChecks (serve api create) test.initialization (s, o)).map fun
    | .running (s, o) => (api.start s).elim .returned fun s ↦ .running (s, o)
    | .failed text => .failed text
    | .returned => .returned

/-- `tm_initialize` of the ThreadX port, with `TM_ISR_VIA_THREAD` if `viaThread` is set, and the
start of the kernel, which comes after it. The statuses of the interrupt thread and of its semaphore
are not looked at. -/
def tmInitializeThreadX (k : ThreadXThreads K) (create : Object → ℤ → O → Status × O)
    (createIsrSemaphore : O → O) (viaThread : Bool) (test : Benchmark) (s : ThreadXPort Entry K)
    (o : O) : Option (Started (ThreadXPort Entry K × O)) :=
  if viaThread then
    let r := k.txThreadCreate .interrupt .interrupt 0 0 true s.kernel
    runTest k.api create test { s with kernel := r.2 } (createIsrSemaphore o)
  else runTest k.api create test s o

/-- `tm_initialize` of the FreeRTOS port, with `TM_ISR_VIA_THREAD` if `viaThread` is set. -/
def tmInitializeFreeRTOS [DecidableEq H] (k : FreeRTOSTasks H K)
    (create : Object → ℤ → O → Status × O) (createIsrSem : O → Option O) (viaThread : Bool)
    (test : Benchmark) (s : FreeRTOSPort Entry H K) (o : O) :
    Option (Started (FreeRTOSPort Entry H K × O)) :=
  if viaThread then
    match createIsrSem o, k.xTaskCreate .interrupt (configMaxPriorities - 1).toNat s.kernel with
    | some o, (some handle, kernel) =>
        runTest k.api create test { s with isrTask := handle, kernel := kernel } o
    | _, _ => (tmCheckFail isrSetupFailed).map .failed
  else runTest k.api create test s o

/-! ## The tests -/

/-- The numbers of the workers that are ready when the scheduler starts. -/
def Benchmark.workersReady (port : Port) : Benchmark → List ℕ
  | cooperativeScheduling =>
      (CooperativeScheduling.tmCooperativeSchedulingInitialize port).ready.map Fin.val
  | preemptiveScheduling =>
      (PreemptiveScheduling.tmPreemptiveSchedulingInitialize port).ready.map Fin.val
  | interruptProcessing =>
      (InterruptProcessing.tmInterruptProcessingInitialize port).ready.map fun _ ↦ 0
  | interruptPreemptionProcessing => [1]
  | _ => [0]

/-- The threads before the initialization function of a test. -/
def initial (viaThread : Bool) : Threads Entry :=
  if viaThread then Threads.empty.createInterrupt else Threads.empty

/-- All calls of the initialization functions are sound. -/
theorem all_sound (viaThread : Bool) (test : Benchmark) :
    allSound test.initialization (initial viaThread) = true := by
  cases viaThread <;> cases test <;> decide

/-- The thread has the priority and the entry function with which the call creates it. -/
def Created (t : Threads Entry) : CheckedCall → Prop
  | .threadCreate threadId priority entryFunction =>
      t.scheduler.task (.test threadId) = some ⟨priority, .test threadId⟩ ∧
        t.entryFunctions threadId = some entryFunction
  | _ => True

instance (t : Threads Entry) : DecidablePred (Created t)
  | .threadCreate _ _ _ => inferInstanceAs (Decidable (_ ∧ _))
  | .threadResume _ | .objectCreate _ _ => inferInstanceAs (Decidable True)

/-- The thread that runs first. -/
def first (viaThread : Bool) : Thread :=
  if viaThread then .interrupt else .test 5

/-- The threads of a test when the kernel has started: all have been created; the reporter, the
workers with which the model of the test starts and the interrupt thread are ready; and the
reporter comes before the workers when the interrupt thread waits. -/
structure ReadyToStart (port : Port) (viaThread : Bool) (test : Benchmark) (t : Threads Entry) :
    Prop where
  created : ∀ call ∈ test.initialization, Created t call
  interrupt : t.scheduler.task .interrupt = if viaThread then some ⟨0, .interrupt⟩ else none
  ready : t.scheduler.ready =
    (if viaThread then {.interrupt} else ∅) ∪
      insert (.test 5) ((test.workersReady port).toFinset.image Thread.test)
  leads : t.Leads (first viaThread)
  reporter : (t.scheduler.sleep .interrupt).Ahead (· < ·) (.test 5)

/-- The initialization functions leave the threads so. -/
theorem ready_to_start (port : Port) (viaThread : Bool) (test : Benchmark) :
    ReadyToStart port viaThread test
      (test.initialization.foldl apply (initial viaThread)).start where
  created := by
    cases viaThread <;> cases test <;> decide
  interrupt := by
    cases viaThread <;> cases test <;> decide
  ready := by
    cases port <;> cases viaThread <;> cases test <;> decide
  leads := by
    cases viaThread <;> cases test <;> decide
  reporter := by
    cases viaThread <;> cases test <;> decide

/-- What runs first. -/
def firstCode (viaThread : Bool) (test : Benchmark) : Code Entry :=
  if viaThread then .interruptThread else .entry (.report test)

/-- How `tm_initialize` ends on a port: the threads are ready and the first of them runs, or the
message of a call that can fail has been printed. In the FreeRTOS port the interrupt thread may lack
memory as well, or the idle task, for which the start of the kernel returns. -/
inductive Ends (port : Port) (viaThread : Bool) (test : Benchmark)
    (running : S → Option (Code Entry)) (related : S → Threads Entry → Prop) :
    Option (Started (S × O)) → Prop where
  | started {s : S} {o : O} {t : Threads Entry} (hrelated : related s t)
      (hready : ReadyToStart port viaThread test t)
      (hrunning : running s = some (firstCode viaThread test)) :
      Ends port viaThread test running related (some (.running (s, o)))
  | failed {call : CheckedCall} (hcall : call ∈ test.initialization)
      (hfallible : Fallible port call) :
      Ends port viaThread test running related (some (.failed call.message.chars))
  | isrSetupFailed (hport : port = .freeRTOS) (hthread : viaThread = true) :
      Ends port viaThread test running related (some (.failed isrSetupFailed.chars))
  | returned (hport : port = .freeRTOS) :
      Ends port viaThread test running related (some .returned)

/-- A test on a port that follows the threads. -/
theorem ends_of_follows {port : Port} {viaThread : Bool} {api : ThreadApi Entry S}
    {running : S → Option (Code Entry)} {related : S → Threads Entry → Prop}
    (h : Follows api related (Fallible port))
    (hstart : ∀ {s t}, related s t → t.scheduler.started = false →
      (port = .freeRTOS ∧ api.start s = none) ∨
        ∃ s', api.start s = some s' ∧ related s' t.start)
    (hrunning : ∀ {s t thread}, related s t → t.Leads thread → running s = t.code thread)
    (test : Benchmark) (create : Object → ℤ → O → Status × O) {s : S} (o : O)
    (hrelated : related s (initial viaThread)) :
    Ends port viaThread test running related (runTest api create test s o) := by
  rw [runTest]
  rcases run_checks h create test.initialization o hrelated (all_sound viaThread test) with
    ⟨s', o', hrun, hrelated'⟩ | ⟨call, hcall, hfallible, hrun⟩
  · rw [hrun, Option.map_some]
    have hidle : (test.initialization.foldl apply (initial viaThread)).scheduler.started =
        false := by
      cases viaThread <;> cases test <;> rfl
    rcases hstart hrelated' hidle with ⟨hport, hnone⟩ | ⟨s'', hsome, hrelated''⟩
    · simp only [hnone, Option.elim_none]
      exact .returned hport
    · simp only [hsome, Option.elim_some]
      have hready := ready_to_start port viaThread test
      have hreporter : .threadCreate 5 2 (.report test) ∈ test.initialization := by
        cases test <;> decide
      refine .started hrelated'' hready ((hrunning hrelated'' hready.leads).trans ?_)
      cases viaThread with
      | true => rfl
      | false => exact congrArg (Option.map Code.entry) (hready.created _ hreporter).2
  · rw [hrun, Option.map_some]
    exact .failed hcall hfallible

/-- The ThreadX port, with an interrupt thread or without. -/
theorem thread_x_ends {k : ThreadXThreads K} (hk : k.Documented) {s : ThreadXPort Entry K}
    (hm : ThreadXThreads.Models hk s Threads.empty) (viaThread : Bool) (test : Benchmark)
    (create : Object → ℤ → O → Status × O) (createIsrSemaphore : O → O) (o : O) :
    Ends .threadX viaThread test k.running (ThreadXThreads.Models hk)
      (tmInitializeThreadX k create createIsrSemaphore viaThread test s o) := by
  have hends {s : ThreadXPort Entry K} (o : O)
      (hrelated : ThreadXThreads.Models hk s (initial viaThread)) :
      Ends .threadX viaThread test k.running (ThreadXThreads.Models hk)
        (runTest k.api create test s o) := by
    refine ends_of_follows (thread_x_follows hk) (fun hm hstarted ↦ .inr ⟨_, rfl, ?_⟩)
      (fun hm hleads ↦ ThreadXThreads.running_models hm hleads) test create o hrelated
    exact ⟨hm.entryFunctions, hk.schedule hm.kernel hstarted⟩
  cases viaThread with
  | false => exact hends o hm
  | true =>
      obtain ⟨kernel', hcreate, hkernel⟩ :
          ∃ kernel', k.txThreadCreate .interrupt .interrupt 0 0 true s.kernel =
              (txSuccess, kernel') ∧
            hk.holds (initial true).scheduler kernel' :=
        hk.create .interrupt true hm.kernel rfl (by decide)
      rw [tmInitializeThreadX, if_pos rfl, hcreate]
      exact hends (createIsrSemaphore o) ⟨hm.entryFunctions, hkernel⟩

/-- The FreeRTOS port, with an interrupt thread or without. -/
theorem free_rtos_ends [DecidableEq H] {k : FreeRTOSTasks H K} (hk : k.Documented)
    {s : FreeRTOSPort Entry H K} (hm : FreeRTOSTasks.Models hk s Threads.empty)
    (viaThread : Bool) (test : Benchmark) (create : Object → ℤ → O → Status × O)
    (createIsrSem : O → Option O) (o : O) :
    Ends .freeRTOS viaThread test k.running (FreeRTOSTasks.Models hk)
      (tmInitializeFreeRTOS k create createIsrSem viaThread test s o) := by
  have hends {s : FreeRTOSPort Entry H K} (o : O)
      (hrelated : FreeRTOSTasks.Models hk s (initial viaThread)) :
      Ends .freeRTOS viaThread test k.running (FreeRTOSTasks.Models hk)
        (runTest k.api create test s o) := by
    refine ends_of_follows (free_rtos_follows hk) (fun {s t} hm hstarted ↦ ?_)
      (fun hm hleads ↦ FreeRTOSTasks.running_models hm hleads) test create o hrelated
    cases hstart : k.vTaskStartScheduler s.kernel with
    | none => exact .inl ⟨rfl, by simp only [FreeRTOSTasks.api, hstart, Option.map_none]⟩
    | some kernel' =>
        refine .inr ⟨{ s with kernel := kernel' }, ?_,
          FreeRTOSTasks.start_models hm hstarted hstart⟩
        simp only [FreeRTOSTasks.api, hstart, Option.map_some]
  cases viaThread with
  | false => exact hends o hm
  | true =>
      rw [tmInitializeFreeRTOS, if_pos rfl]
      split
      · rename_i o' handle kernel' _ hcreate
        exact hends o' (FreeRTOSTasks.interrupt_models hm rfl hcreate)
      · rw [tm_check_fail_eq, Option.map_some]
        exact .isrSetupFailed rfl rfl

end ThreadMetric.Initialization
