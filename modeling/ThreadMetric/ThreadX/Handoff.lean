import Mathlib.Logic.Function.Basic
import ThreadMetric.Library.RecursiveMutex
import ThreadMetric.ThreadX.Signals

/-!
# The hand-off protocol of the ThreadX POSIX port

The scheduler pthread runs `_tx_thread_schedule`, the timer pthread passes through
`_tx_thread_context_save`, `_tx_timer_interrupt` and `_tx_thread_context_restore`, and every
ThreadX pthread runs `_tx_posix_thread_entry` and then application and kernel code that calls
`_tx_thread_system_return`. They share a recursive mutex, counting semaphores and the signals of
`Signals`. An event lets one pthread take its next step or deliver a signal, in any order.

Code that touches only what the mutex guards is one step where the mutex is held; waits, posts and
drains of semaphores and the reads of the acknowledgment pipes are steps of their own. Kernel code
may set `_tx_thread_execute_ptr` and `_tx_thread_preempt_disable` at will.
-/

namespace ThreadMetric.ThreadX

/-- The pthreads that lock the mutex. -/
inductive Party (ι : Type) where
  | scheduler
  | timer
  | thread (i : ι)
  deriving DecidableEq

/-- Program points of `_tx_thread_schedule`. -/
inductive SchedulerPc where
  | lock
  | select
  | unlock
  | nap
  | resumeThread
  | drainRun
  | postRun
  | testWaiting
  | waitBeforeIsr
  | postIsr
  | suspendTimer
  | readTimerPipe
  | waitBeforeResume
  | resumeTimer
  | leave
  | waitYield
  deriving DecidableEq

/-- Program points of the timer pthread: the wait for the kernel to start, and in its loop the
sleep, `_tx_thread_context_save`, `_tx_timer_interrupt` and `_tx_thread_context_restore`. -/
inductive TimerPc where
  | waitStart
  | sleep
  | saveLock
  | saveTest
  | saveSuspend
  | saveReadPipe
  | saveMark
  | saveEnter
  | interruptLock
  | interrupt
  | restoreLock
  | restoreLeave
  | restoreResume
  | restoreDrain
  | restorePost
  | restoreTest
  | restoreWaitIsr
  | restoreRelock
  | restoreDrainIsr
  | restoreUnlock
  deriving DecidableEq

/-- Program points of a ThreadX pthread: `_tx_posix_thread_entry`, application and kernel code,
`_tx_thread_system_return`, and after `pthread_exit`. -/
inductive ThreadPc where
  | entryWait
  | entryPost
  | running
  | returnLock
  | returnClear
  | returnDrain
  | returnPostLock
  | returnPost
  | returnPostUnlock
  | returnWait
  | returnWakePost
  | returnRelock
  | returnRecheck
  | exited
  deriving DecidableEq

/-- A ThreadX pthread with the port's extension of its control block. -/
structure Thread where
  pc : ThreadPc
  runSemaphore : ℕ
  suspensionType : Bool
  intDisabled : Bool
  signals : Signals
  deriving DecidableEq

/-- A thread that has been created and that the scheduler has not selected yet. -/
def Thread.created : Thread := ⟨.entryWait, 0, false, false, .quiet⟩

/-- The state of the port. `semaphore`, `isrSemaphore` and `timerSemaphore` are the semaphores
`_tx_posix_semaphore`, `_tx_posix_isr_semaphore` and `_tx_posix_timer_semaphore`; the two pipes are
counted in unread bytes, and `timerInterrupts` counts the calls of `_tx_timer_interrupt`. -/
structure State (ι : Type) where
  mutex : RecursiveMutex (Party ι)
  semaphore : ℕ
  isrSemaphore : ℕ
  timerSemaphore : ℕ
  currentPtr : Option ι
  executePtr : Option ι
  systemState : ℕ
  preemptDisable : ℕ
  timerWaiting : Bool
  timerPipe : ℕ
  otherPipe : ℕ
  timerInterrupts : ℕ
  schedulerPc : SchedulerPc
  timerPc : TimerPc
  timerSignals : Signals
  threads : ι → Thread

/-- The two values of `_tx_thread_interrupt_control`'s argument. -/
inductive Posture where
  | enable
  | disable
  deriving DecidableEq

/-- What kernel code run by a thread or by the interrupt may do to the protocol's variables. -/
inductive KernelAction (ι : Type) where
  | interruptControl (posture : Posture)
  | setExecutePtr (next : Option ι)
  | setPreemptDisable (count : ℕ)

/-- The events: a step of one of the pthreads, a kernel action of the interrupt or of a thread, and
the signal machinery at work on the timer pthread or on a thread. -/
inductive Event (ι : Type) where
  | scheduler
  | timer
  | thread (i : ι)
  | interrupt (action : KernelAction ι)
  | run (i : ι) (action : KernelAction ι)
  | signalTimer
  | signalThread (i : ι)

namespace State

variable {ι : Type} [DecidableEq ι]

/-- The state in which `_tx_thread_schedule` is called: no thread has run, and the timer loop may
start. Thread creation has left some thread or none to be executed. -/
def start (executePtr : Option ι) : State ι where
  mutex := .free
  semaphore := 0
  isrSemaphore := 0
  timerSemaphore := 1
  currentPtr := none
  executePtr := executePtr
  systemState := 0
  preemptDisable := 0
  timerWaiting := false
  timerPipe := 0
  otherPipe := 0
  timerInterrupts := 0
  schedulerPc := .lock
  timerPc := .waitStart
  timerSignals := .quiet
  threads := fun _ ↦ .created

/-- Change one thread. -/
def updateThread (s : State ι) (i : ι) (change : Thread → Thread) : State ι :=
  { s with threads := Function.update s.threads i (change (s.threads i)) }

/-- The changed thread. -/
@[simp]
theorem updateThread_self (s : State ι) (i : ι) (change : Thread → Thread) :
    (s.updateThread i change).threads i = change (s.threads i) :=
  Function.update_self ..

/-- The other threads stay as they are. -/
@[simp]
theorem updateThread_of_ne (s : State ι) {i j : ι} (change : Thread → Thread) (h : j ≠ i) :
    (s.updateThread i change).threads j = s.threads j :=
  Function.update_of_ne h ..

/-- `_tx_posix_thread_resume` of a thread. -/
def resumeThread (s : State ι) (i : ι) : State ι :=
  s.updateThread i fun t ↦ { t with signals := t.signals.sendResume }

/-- The `pthread_kill` of `_tx_posix_thread_suspend` of a thread. -/
def suspendThread (s : State ι) (i : ι) : State ι :=
  s.updateThread i fun t ↦ { t with signals := t.signals.sendSuspend }

/-- The next step of `_tx_thread_schedule`; `none` while the pthread waits. -/
def threadSchedule (s : State ι) : Option (State ι) :=
  match s.schedulerPc with
  | .lock => (s.mutex.lock .scheduler).map fun m ↦ { s with mutex := m, schedulerPc := .select }
  | .select =>
      match s.executePtr with
      | none => some { s with schedulerPc := .unlock }
      | some i =>
          if s.systemState = 0 then
            some { s with
              currentPtr := some i
              schedulerPc :=
                if (s.threads i).suspensionType then .resumeThread else .drainRun }
          else some { s with schedulerPc := .unlock }
  | .unlock => some { s with mutex := s.mutex.unlock .scheduler, schedulerPc := .nap }
  | .nap => some { s with schedulerPc := .lock }
  | .resumeThread => s.currentPtr.map fun i ↦ { s.resumeThread i with schedulerPc := .leave }
  | .drainRun =>
      s.currentPtr.map fun i ↦
        if 0 < (s.threads i).runSemaphore then
          s.updateThread i fun t ↦ { t with runSemaphore := t.runSemaphore - 1 }
        else { s with schedulerPc := .postRun }
  | .postRun =>
      s.currentPtr.map fun i ↦
        { s.updateThread i fun t ↦ { t with runSemaphore := t.runSemaphore + 1 } with
          schedulerPc := .testWaiting }
  | .testWaiting =>
      some { s with schedulerPc := if s.timerWaiting then .waitBeforeIsr else .suspendTimer }
  | .waitBeforeIsr =>
      if 0 < s.semaphore then
        some { s with semaphore := s.semaphore - 1, schedulerPc := .postIsr }
      else none
  | .postIsr => some { s with isrSemaphore := s.isrSemaphore + 1, schedulerPc := .leave }
  | .suspendTimer =>
      some { s with timerSignals := s.timerSignals.sendSuspend, schedulerPc := .readTimerPipe }
  | .readTimerPipe =>
      if 0 < s.timerPipe then
        some { s with timerPipe := s.timerPipe - 1, schedulerPc := .waitBeforeResume }
      else none
  | .waitBeforeResume =>
      if 0 < s.semaphore then
        some { s with semaphore := s.semaphore - 1, schedulerPc := .resumeTimer }
      else none
  | .resumeTimer => some { s with timerSignals := s.timerSignals.sendResume, schedulerPc := .leave }
  | .leave => some { s with mutex := s.mutex.unlock .scheduler, schedulerPc := .waitYield }
  | .waitYield =>
      if 0 < s.semaphore then some { s with semaphore := s.semaphore - 1, schedulerPc := .lock }
      else none

/-- The next step of `_tx_posix_timer_interrupt`; `none` while the pthread waits. -/
def posixTimerInterrupt (s : State ι) : Option (State ι) :=
  match s.timerPc with
  | .waitStart =>
      if 0 < s.timerSemaphore then
        some { s with timerSemaphore := s.timerSemaphore - 1, timerPc := .sleep }
      else none
  | .sleep => some { s with timerPc := .saveLock }
  | .saveLock => (s.mutex.lock .timer).map fun m ↦ { s with mutex := m, timerPc := .saveTest }
  | .saveTest =>
      some { s with
        timerPc := if s.currentPtr ≠ none ∧ s.systemState = 0 then .saveSuspend else .saveEnter }
  | .saveSuspend => s.currentPtr.map fun i ↦ { s.suspendThread i with timerPc := .saveReadPipe }
  | .saveReadPipe =>
      if 0 < s.otherPipe then some { s with otherPipe := s.otherPipe - 1, timerPc := .saveMark }
      else none
  | .saveMark =>
      s.currentPtr.map fun i ↦
        { s.updateThread i fun t ↦ { t with suspensionType := true } with timerPc := .saveEnter }
  | .saveEnter =>
      some { s with
        systemState := s.systemState + 1
        mutex := s.mutex.unlock .timer
        timerPc := .interruptLock }
  | .interruptLock =>
      (s.mutex.lock .timer).map fun m ↦
        { s with mutex := m, timerInterrupts := s.timerInterrupts + 1, timerPc := .interrupt }
  | .interrupt => some { s with mutex := s.mutex.unlock .timer, timerPc := .restoreLock }
  | .restoreLock =>
      (s.mutex.lock .timer).map fun m ↦ { s with mutex := m, timerPc := .restoreLeave }
  | .restoreLeave =>
      match s.currentPtr with
      | none => some { s with systemState := s.systemState - 1, timerPc := .restoreUnlock }
      | some i =>
          if s.systemState - 1 ≠ 0 then
            some { s with systemState := s.systemState - 1, timerPc := .restoreUnlock }
          else if s.preemptDisable = 0 ∧ s.executePtr ≠ some i then
            some { s.updateThread i fun t ↦ { t with suspensionType := true } with
              systemState := s.systemState - 1
              currentPtr := none
              timerPc := .restoreDrain }
          else some { s with systemState := s.systemState - 1, timerPc := .restoreResume }
  | .restoreResume => s.currentPtr.map fun i ↦ { s.resumeThread i with timerPc := .restoreUnlock }
  | .restoreDrain =>
      if 0 < s.semaphore then some { s with semaphore := s.semaphore - 1 }
      else some { s with timerWaiting := true, timerPc := .restorePost }
  | .restorePost => some { s with semaphore := s.semaphore + 1, timerPc := .restoreTest }
  | .restoreTest =>
      match s.executePtr with
      | none => some { s with timerWaiting := false, timerPc := .restoreUnlock }
      | some i =>
          if (s.threads i).suspensionType then
            some { s with timerWaiting := false, timerPc := .restoreUnlock }
          else some { s with mutex := s.mutex.release .timer, timerPc := .restoreWaitIsr }
  | .restoreWaitIsr =>
      if 0 < s.isrSemaphore then
        some { s with isrSemaphore := s.isrSemaphore - 1, timerPc := .restoreRelock }
      else none
  | .restoreRelock =>
      (s.mutex.lock .timer).map fun m ↦ { s with mutex := m, timerPc := .restoreDrainIsr }
  | .restoreDrainIsr =>
      if 0 < s.isrSemaphore then some { s with isrSemaphore := s.isrSemaphore - 1 }
      else some { s with timerWaiting := false, timerPc := .restoreUnlock }
  | .restoreUnlock => some { s with mutex := s.mutex.release .timer, timerPc := .sleep }

/-- The check for a terminated thread: its pthread releases the mutex and exits unless it is the
one of `_tx_thread_current_ptr`. -/
def exitUnlessCurrent (s : State ι) (i : ι) (go : State ι) : State ι :=
  if s.currentPtr = some i then go
  else { s.updateThread i fun t ↦ { t with pc := .exited } with
    mutex := s.mutex.release (.thread i) }

/-- The next step of the pthread of thread `i` outside application and kernel code, or its call of
`_tx_thread_system_return`; `none` while the pthread waits. -/
def threadStep (s : State ι) (i : ι) : Option (State ι) :=
  let t := s.threads i
  let go (pc : ThreadPc) : State ι := s.updateThread i fun t ↦ { t with pc := pc }
  match t.pc with
  | .entryWait =>
      if 0 < t.runSemaphore then
        some (s.updateThread i fun t ↦
          { t with runSemaphore := t.runSemaphore - 1, pc := .entryPost })
      else none
  | .entryPost => some { go .running with semaphore := s.semaphore + 1 }
  | .running => some (go .returnLock)
  | .returnLock =>
      (s.mutex.lock (.thread i)).map fun m ↦ { go .returnClear with mutex := m }
  | .returnClear =>
      some <| s.exitUnlessCurrent i
        { s.updateThread i fun t ↦ { t with suspensionType := false, pc := .returnDrain } with
          currentPtr := none
          mutex := s.mutex.release (.thread i) }
  | .returnDrain =>
      if 0 < s.semaphore then some { s with semaphore := s.semaphore - 1 }
      else some (go .returnPostLock)
  | .returnPostLock =>
      (s.mutex.lock (.thread i)).map fun m ↦ { go .returnPost with mutex := m }
  | .returnPost => some { go .returnPostUnlock with semaphore := s.semaphore + 1 }
  | .returnPostUnlock => some { go .returnWait with mutex := s.mutex.unlock (.thread i) }
  | .returnWait =>
      if 0 < t.runSemaphore then
        some (s.updateThread i fun t ↦
          { t with runSemaphore := t.runSemaphore - 1, pc := .returnWakePost })
      else none
  | .returnWakePost => some { go .returnRelock with semaphore := s.semaphore + 1 }
  | .returnRelock =>
      (s.mutex.lock (.thread i)).map fun m ↦ { go .returnRecheck with mutex := m }
  | .returnRecheck =>
      some <| s.exitUnlessCurrent i { go .running with
        mutex := if t.intDisabled then s.mutex else s.mutex.release (.thread i) }
  | .exited => none

/-- The effect of `_tx_thread_interrupt_control` once the caller holds the mutex and may go on. -/
def setPosture (s : State ι) (p : Party ι) (posture : Posture) : State ι :=
  let unlocked : RecursiveMutex (Party ι) :=
    match posture with
    | .enable => s.mutex.release p
    | .disable => s.mutex
  -- inside an interrupt a global flag is written, which no code reads
  if s.systemState ≠ 0 then { s with mutex := unlocked }
  else
    match s.currentPtr with
    | none => s
    | some c =>
        { s.updateThread c fun t ↦ { t with intDisabled := posture = .disable } with
          mutex := unlocked }

/-- `_tx_thread_interrupt_control`; only a ThreadX pthread is checked for termination. -/
def interruptControl (s : State ι) (p : Party ι) (posture : Posture) : Option (State ι) :=
  (s.mutex.lock p).map fun m ↦
    let locked := { s with mutex := m }
    match p with
    | .thread i => locked.exitUnlessCurrent i (locked.setPosture p posture)
    | _ => locked.setPosture p posture

/-- A kernel action of the party. -/
def kernelStep (s : State ι) (p : Party ι) : KernelAction ι → Option (State ι)
  | .interruptControl posture => s.interruptControl p posture
  | .setExecutePtr next => some { s with executePtr := next }
  | .setPreemptDisable count => some { s with preemptDisable := count }

/-- One step of the port. A pthread takes no step of its own while it is in the handler. -/
def next (s : State ι) : Event ι → Option (State ι)
  | .scheduler => s.threadSchedule
  | .timer => if s.timerSignals.handler = .out then s.posixTimerInterrupt else none
  | .thread i => if (s.threads i).signals.handler = .out then s.threadStep i else none
  | .interrupt action =>
      if s.timerSignals.handler = .out ∧ s.timerPc = .interrupt then s.kernelStep .timer action
      else none
  | .run i action =>
      if (s.threads i).signals.handler = .out ∧ (s.threads i).pc = .running then
        s.kernelStep (.thread i) action
      else none
  | .signalTimer =>
      s.timerSignals.step.map fun (signals, written) ↦
        { s with timerSignals := signals, timerPipe := s.timerPipe + written }
  | .signalThread i =>
      (s.threads i).signals.step.map fun (signals, written) ↦
        { s.updateThread i fun t ↦ { t with signals := signals } with
          otherPipe := s.otherPipe + written }

end State

/-! ## What the protocol is for -/

/-- The points from the end of the start-up wait to the moment at which
`_tx_thread_system_return` clears `_tx_thread_current_ptr`, and from the re-check after its wait. -/
def ThreadPc.active : ThreadPc → Bool
  | .entryPost | .running | .returnLock | .returnClear => true
  | _ => false

/-- The thread executes application or kernel code: it is at an active point and not stopped in
the suspend handler. -/
def Thread.Executing (t : Thread) : Prop :=
  t.pc.active = true ∧ t.signals.stopped = false

instance (t : Thread) : Decidable t.Executing :=
  inferInstanceAs (Decidable (_ ∧ _))

/-- The points between the end of `_tx_thread_context_save` and the decrement of
`_tx_thread_system_state` in `_tx_thread_context_restore`. -/
def TimerPc.inInterrupt : TimerPc → Bool
  | .interruptLock | .interrupt | .restoreLock | .restoreLeave => true
  | _ => false

end ThreadMetric.ThreadX
