import Mathlib.Data.Bool.Basic
import ThreadMetric.Ports.ThreadServices

/-!
# The synthetic interrupt of the FreeRTOS Cortex-M port

`tm_thread_resume` and `tm_semaphore_put` call the FromISR functions of FreeRTOS if an exception
handler runs, or if `tm_benchmark_interrupt_active` is set, which `tm_cause_interrupt_sync` does
around its call of `tm_interrupt_handler`. The flag belongs to no thread, so a thread that ran
while it is set would take the wrong functions. Here any number of threads, SysTick, PendSV and
IRQ 31 interleave, one access or instruction a step. `from_isr_in_interrupts_only` shows that the
mask around the flag is enough, and `masked_region_ends` that interrupts do not stay masked.
-/

namespace ThreadMetric.FreeRTOS.InterruptContext

open Ports Transition

/-! ## The services -/

/-- A call of `tm_thread_resume` or `tm_semaphore_put`. -/
inductive Service where
  | threadResume (threadId : ℤ)
  | semaphorePut (semaphoreId : ℤ)

/-- The id is in the range of `tm_thread_array` or `tm_semaphore_array`. -/
def Service.valid : Service → Bool
  | threadResume threadId => decide (0 ≤ threadId ∧ threadId < tmFreertosMaxThreads)
  | semaphorePut semaphoreId => decide (0 ≤ semaphoreId ∧ semaphoreId < tmFreertosMaxSemaphores)

/-- The status of a call whose kernel function has done its work or has not; that of
`tm_thread_resume` does not depend on it. -/
def Service.status (done : Bool) : Service → Status
  | threadResume _ => .success
  | semaphorePut _ => if done then .success else .error

/-- A call with a valid id: before the test for an interrupt, inside `vTaskResume` or
`xSemaphoreGive`, and inside `xTaskResumeFromISR` or `xSemaphoreGiveFromISR`. -/
inductive Call where
  | test (service : Service)
  | fromThread (service : Service)
  | fromIsr (service : Service)

/-- The services that are still to be called, the call on its way, and the statuses so far. -/
structure Frame where
  services : List Service
  call : Option Call
  results : List Status

/-- Code that is to call some services. -/
def Frame.of (services : List Service) : Frame := ⟨services, none, []⟩

/-- All calls have returned. -/
def Frame.finished (frame : Frame) : Bool := frame.services.isEmpty && frame.call.isNone

/-- The next step of the code; `none` inside the kernel and when all calls have returned.
`interrupt` is what `xPortIsInsideInterrupt() || tm_benchmark_interrupt_context_active()` yields. -/
def Frame.step (interrupt : Bool) (frame : Frame) : Option Frame :=
  match frame.call with
  | none =>
      match frame.services with
      | [] => none
      | service :: services =>
          if service.valid then some ⟨services, some (.test service), frame.results⟩
          else some ⟨services, none, .error :: frame.results⟩
  | some (.test service) =>
      some { frame with call := some (if interrupt then .fromIsr service else .fromThread service) }
  | some (.fromThread _) | some (.fromIsr _) => none

/-- A kernel function returns, and whether PendSV is pended: by the kernel itself, or by
`portYIELD_FROM_ISR`, which `tm_semaphore_put` does not reach if the semaphore was not given. -/
def Frame.return (done switch : Bool) (frame : Frame) : Option (Frame × Bool) :=
  match frame.call with
  | some (.fromThread service) =>
      some (⟨frame.services, none, service.status done :: frame.results⟩, switch)
  | some (.fromIsr service) =>
      some (⟨frame.services, none, service.status done :: frame.results⟩,
        switch && decide (service.status done = .success))
  | some (.test _) | none => none

/-! ## Threads and exceptions -/

/-- Program points of a thread: outside of `tm_cause_interrupt_sync`, and inside of it before
`cpsid i`, before the flag is set, in the handler, before the flag is cleared, before `cpsie i`. -/
inductive Point where
  | application
  | mask
  | activate
  | handler
  | deactivate
  | unmask
  deriving DecidableEq

/-- A thread, with the services it calls itself or through the handler. -/
structure Thread where
  point : Point
  frame : Frame

/-- The threads and the one that the kernel has selected, IRQ 31 if its handler runs, the mask and
the flag, and the pending exceptions. -/
structure State (ι : Type) where
  current : ι
  thread : ι → Thread
  isr : Option Frame
  primask : Bool
  active : Bool
  pendSv : Bool
  irq31 : Bool

/-- The events. The application calls a service, `tm_cause_interrupt` or `tm_cause_interrupt_sync`,
or another function of the kernel that asks for a switch; the code that runs takes its next step; a
kernel function returns; an exception is taken. SysTick may ask for a switch, PendSV makes it. -/
inductive Event (ι : Type) where
  | call (service : Service)
  | causeInterrupt
  | causeInterruptSync
  | yield
  | step
  | kernel (done switch : Bool)
  | sysTick (switch : Bool)
  | irq31
  | pendSv (thread : ι)

variable {ι : Type} [DecidableEq ι]

namespace State

/-- The thread that the kernel has selected. -/
def running (s : State ι) : Thread := s.thread s.current

/-- Replace it. -/
def setRunning (s : State ι) (t : Thread) : State ι :=
  { s with thread := Function.update s.thread s.current t }

/-- The application code of a thread runs, outside of the services. -/
def inApplication (s : State ι) : Bool :=
  s.isr.isNone && decide (s.running.point = .application) && s.running.frame.finished

/-- An exception can be taken. The three exceptions have the same priority. -/
def interruptible (s : State ι) : Bool := s.isr.isNone && !s.primask

/-- `xPortIsInsideInterrupt() || tm_benchmark_interrupt_context_active()`. -/
def interrupt (s : State ι) : Bool := s.isr.isSome || s.active

end State

variable (interruptHandler preemptionHandler : List Service)

/-- The next step of the code that runs: `IRQ31_Handler`, or the selected thread. -/
def step (s : State ι) : Option (State ι) :=
  match s.isr with
  | some frame =>
      if frame.finished then some { s with isr := none }
      else (frame.step s.interrupt).map fun frame' ↦ { s with isr := some frame' }
  | none =>
      let t := s.running
      match t.point with
      | .application =>
          (t.frame.step s.interrupt).map fun frame ↦ s.setRunning { t with frame := frame }
      | .mask => some { s.setRunning { t with point := .activate } with primask := true }
      | .activate =>
          some { s.setRunning ⟨.handler, .of interruptHandler⟩ with active := true }
      | .handler =>
          if t.frame.finished then some (s.setRunning { t with point := .deactivate })
          else (t.frame.step s.interrupt).map fun frame ↦ s.setRunning { t with frame := frame }
      | .deactivate => some { s.setRunning { t with point := .unmask } with active := false }
      | .unmask => some { s.setRunning { t with point := .application } with primask := false }

/-- A kernel function returns to the code that runs. -/
def kernel (done switch : Bool) (s : State ι) : Option (State ι) :=
  match s.isr with
  | some frame =>
      (frame.return done switch).map fun r ↦
        { s with isr := some r.1, pendSv := s.pendSv || r.2 }
  | none =>
      (s.running.frame.return done switch).map fun r ↦
        { s.setRunning { s.running with frame := r.1 } with pendSv := s.pendSv || r.2 }

/-- One event. -/
def next (s : State ι) : Event ι → Option (State ι)
  | .call service =>
      if s.inApplication then some (s.setRunning ⟨.application, .of [service]⟩) else none
  | .causeInterrupt => if s.inApplication then some { s with irq31 := true } else none
  | .causeInterruptSync =>
      if s.inApplication then some (s.setRunning { s.running with point := .mask }) else none
  | .yield => if s.inApplication then some { s with pendSv := true } else none
  | .step => step interruptHandler s
  | .kernel done switch => kernel done switch s
  | .sysTick switch =>
      if s.interruptible then some { s with pendSv := s.pendSv || switch } else none
  | .irq31 =>
      if s.interruptible && s.irq31 then
        some { s with isr := some (.of (interruptHandler ++ preemptionHandler)), irq31 := false }
      else none
  | .pendSv thread =>
      if s.interruptible && s.pendSv then some { s with current := thread, pendSv := false }
      else none

/-- The scheduler starts the first thread. -/
def start (current : ι) : State ι where
  current := current
  thread _ := ⟨.application, .of []⟩
  isr := none
  primask := false
  active := false
  pendSv := false
  irq31 := false

/-! ## The invariant -/

/-- Interrupts are masked. -/
def Point.masked : Point → Bool
  | application | mask => false
  | activate | handler | deactivate | unmask => true

/-- `tm_benchmark_interrupt_active` is set. -/
def Point.active : Point → Bool
  | handler | deactivate => true
  | application | mask | activate | unmask => false

/-- The kernel functions that have been called are those for interrupts, or those for threads. -/
def Frame.Fits (interrupt : Bool) (frame : Frame) : Prop :=
  match frame.call with
  | some (.fromIsr _) => interrupt = true
  | some (.fromThread _) => interrupt = false
  | some (.test _) | none => True

/-- The handler calls the functions for interrupts, and the application those for threads. -/
def Thread.Fits (t : Thread) : Prop :=
  match t.point with
  | .application => t.frame.Fits false
  | .handler => t.frame.Fits true
  | .mask | .activate | .deactivate | .unmask => t.frame.call = none

/-- Mask and flag belong to the selected thread, no other thread is inside the masked region, and
every kernel function that has been called is the right one. -/
structure Inv (s : State ι) : Prop where
  primask : s.primask = s.running.point.masked
  active : s.active = s.running.point.active
  preempted : ∀ i, i ≠ s.current → (s.thread i).point.masked = false
  exception : s.isr ≠ none → s.primask = false
  thread : ∀ i, (s.thread i).Fits
  isr : ∀ frame, s.isr = some frame → frame.Fits true

variable {interruptHandler preemptionHandler : List Service} {s s' : State ι}

/-- Code without a call on its way fits everywhere. -/
theorem Frame.fits_of_call {frame : Frame} {interrupt : Bool} (h : frame.call = none) :
    frame.Fits interrupt := by
  unfold Fits
  rw [h]
  trivial

/-- A finished frame has no call on its way. -/
theorem Frame.call_of_finished {frame : Frame} (h : frame.finished = true) : frame.call = none := by
  unfold finished at h
  rw [Bool.and_eq_true, Option.isNone_iff_eq_none] at h
  exact h.2

/-- The test takes the functions that fit. -/
theorem Frame.fits_step {frame frame' : Frame} {interrupt : Bool}
    (h : frame.step interrupt = some frame') : frame'.Fits interrupt := by
  obtain ⟨services, call, results⟩ := frame
  cases call with
  | none =>
      cases services with
      | nil => cases h
      | cons service services =>
          simp only [step] at h
          split_ifs at h <;> cases h <;> trivial
  | some call =>
      cases call with
      | test service =>
          cases h
          cases interrupt <;> exact rfl
      | fromThread | fromIsr => cases h

/-- After its return a kernel function has no part in the frame. -/
theorem Frame.call_of_return {frame : Frame} {done switch : Bool} {r : Frame × Bool}
    (h : frame.return done switch = some r) : r.1.call = none := by
  obtain ⟨services, call, results⟩ := frame
  rcases call with _ | service | service | service <;> cases h <;> rfl

omit [DecidableEq ι] in
/-- What the test yields while a thread runs. -/
theorem Inv.interrupt_eq (h : Inv s) (hisr : s.isr = none) :
    s.interrupt = s.running.point.active := by
  unfold State.interrupt
  rw [hisr, h.active]
  rfl

/-- The selected thread goes on, and keeps mask and flag as its point demands. -/
theorem Inv.setRunning (h : Inv s) (hisr : s.isr = none) (t : Thread) (ht : t.Fits)
    {primask active : Bool} (hprimask : primask = t.point.masked)
    (hactive : active = t.point.active) (pendSv : Bool) :
    Inv { s.setRunning t with primask := primask, active := active, pendSv := pendSv } where
  primask := by
    show primask = (Function.update s.thread s.current t s.current).point.masked
    rw [Function.update_self, hprimask]
  active := by
    show active = (Function.update s.thread s.current t s.current).point.active
    rw [Function.update_self, hactive]
  preempted i hi := by
    have hother : i ≠ s.current := hi
    show (Function.update s.thread s.current t i).point.masked = false
    rw [Function.update_of_ne hother]
    exact h.preempted i hother
  exception hexception := absurd hisr hexception
  thread i := by
    show (Function.update s.thread s.current t i).Fits
    by_cases hi : i = s.current
    · subst hi
      rw [Function.update_self]
      exact ht
    · rw [Function.update_of_ne hi]
      exact h.thread i
  isr frame hframe := by
    have hsome : s.isr = some frame := hframe
    rw [hisr] at hsome
    cases hsome

/-- The next step of the code that runs. -/
theorem Inv.step (h : Inv s) (hstep : step interruptHandler s = some s') : Inv s' := by
  rcases Option.eq_none_or_eq_some s.isr with hisr | ⟨frame, hisr⟩
  · have hfits : s.running.Fits := h.thread s.current
    have hprimask := h.primask
    have hactive := h.active
    have hinterrupt := h.interrupt_eq hisr
    rcases ht : s.running with ⟨point, frame⟩
    rw [ht] at hfits hprimask hactive hinterrupt
    simp only [InterruptContext.step, hisr, ht] at hstep
    cases point with
    | application =>
        simp only [Option.map_eq_some_iff, hinterrupt] at hstep
        obtain ⟨frame', hframe, rfl⟩ := hstep
        have hfits' : frame'.Fits false := Frame.fits_step hframe
        exact h.setRunning hisr ⟨.application, frame'⟩ hfits' hprimask hactive s.pendSv
    | mask =>
        cases hstep
        exact h.setRunning hisr ⟨.activate, frame⟩ hfits rfl hactive s.pendSv
    | activate =>
        cases hstep
        exact h.setRunning hisr ⟨.handler, .of interruptHandler⟩ trivial hprimask rfl s.pendSv
    | handler =>
        by_cases hfinished : frame.finished = true
        · simp only [if_pos hfinished] at hstep
          cases hstep
          have hcall : frame.call = none := Frame.call_of_finished hfinished
          exact h.setRunning hisr ⟨.deactivate, frame⟩ hcall hprimask hactive s.pendSv
        · simp only [if_neg hfinished, Option.map_eq_some_iff, hinterrupt] at hstep
          obtain ⟨frame', hframe, rfl⟩ := hstep
          have hfits' : frame'.Fits true := Frame.fits_step hframe
          exact h.setRunning hisr ⟨.handler, frame'⟩ hfits' hprimask hactive s.pendSv
    | deactivate =>
        cases hstep
        exact h.setRunning hisr ⟨.unmask, frame⟩ hfits hprimask rfl s.pendSv
    | unmask =>
        cases hstep
        have hfits' : frame.Fits false := Frame.fits_of_call hfits
        exact h.setRunning hisr ⟨.application, frame⟩ hfits' rfl hactive s.pendSv
  · simp only [InterruptContext.step, hisr] at hstep
    by_cases hfinished : frame.finished = true
    · simp only [if_pos hfinished] at hstep
      cases hstep
      exact ⟨h.primask, h.active, h.preempted, fun hnone ↦ absurd rfl hnone, h.thread,
        fun _ hframe ↦ by cases hframe⟩
    · have hinterrupt : s.interrupt = true := by
        unfold State.interrupt
        rw [hisr]
        rfl
      simp only [if_neg hfinished, Option.map_eq_some_iff, hinterrupt] at hstep
      obtain ⟨frame', hframe, rfl⟩ := hstep
      have hunmasked : s.primask = false := h.exception (by simp [hisr])
      refine ⟨h.primask, h.active, h.preempted, fun _ ↦ hunmasked, h.thread, ?_⟩
      intro other hother
      obtain rfl := Option.some.inj hother
      exact Frame.fits_step hframe

/-- The return of a kernel function. -/
theorem Inv.kernel (h : Inv s) {done switch : Bool} (hkernel : kernel done switch s = some s') :
    Inv s' := by
  unfold InterruptContext.kernel at hkernel
  rcases Option.eq_none_or_eq_some s.isr with hisr | ⟨frame, hisr⟩
  · simp only [hisr, Option.map_eq_some_iff] at hkernel
    obtain ⟨⟨frame', pended⟩, hreturn, rfl⟩ := hkernel
    have hcall : frame'.call = none := Frame.call_of_return hreturn
    have hfits : Thread.Fits ⟨s.running.point, frame'⟩ := by
      unfold Thread.Fits
      cases s.running.point with
      | application | handler => exact Frame.fits_of_call hcall
      | mask | activate | deactivate | unmask => exact hcall
    exact h.setRunning hisr ⟨s.running.point, frame'⟩ hfits h.primask h.active (s.pendSv || pended)
  · simp only [hisr, Option.map_eq_some_iff] at hkernel
    obtain ⟨⟨frame', pended⟩, hreturn, rfl⟩ := hkernel
    have hunmasked : s.primask = false := h.exception (by simp [hisr])
    refine ⟨h.primask, h.active, h.preempted, fun _ ↦ hunmasked, h.thread, ?_⟩
    intro other hother
    obtain rfl := Option.some.inj hother
    exact Frame.fits_of_call (Frame.call_of_return hreturn)

omit [DecidableEq ι] in
/-- An application that runs is outside the masked region, and no call is on its way. -/
theorem State.inApplication_iff : s.inApplication = true ↔
    s.isr = none ∧ s.running.point = .application ∧ s.running.frame.finished = true := by
  unfold inApplication
  rw [Bool.and_eq_true, Bool.and_eq_true, Option.isNone_iff_eq_none, decide_eq_true_iff, and_assoc]

omit [DecidableEq ι] in
/-- When an exception is taken, no thread is inside the masked region. -/
theorem State.interruptible_iff :
    s.interruptible = true ↔ s.isr = none ∧ s.primask = false := by
  unfold interruptible
  rw [Bool.and_eq_true, Option.isNone_iff_eq_none, Bool.not_eq_true']

omit [DecidableEq ι] in
/-- Only points outside the masked region are left unmasked, and there the flag is not set. -/
theorem Point.active_of_not_masked {point : Point} (h : point.masked = false) :
    point.active = false := by
  cases point <;> first | rfl | cases h

/-- Any event. -/
theorem Inv.next (h : Inv s) {event : Event ι}
    (hnext : next interruptHandler preemptionHandler s event = some s') : Inv s' := by
  cases event with
  | call service =>
      simp only [InterruptContext.next, Option.ite_none_right_eq_some, Option.some.injEq] at hnext
      obtain ⟨happlication, rfl⟩ := hnext
      obtain ⟨hisr, hpoint, -⟩ := State.inApplication_iff.mp happlication
      have hprimask := h.primask
      have hactive := h.active
      rw [hpoint] at hprimask hactive
      exact h.setRunning hisr ⟨.application, .of [service]⟩ trivial hprimask hactive s.pendSv
  | causeInterrupt | yield =>
      simp only [InterruptContext.next, Option.ite_none_right_eq_some, Option.some.injEq] at hnext
      obtain ⟨-, rfl⟩ := hnext
      exact ⟨h.primask, h.active, h.preempted, h.exception, h.thread, h.isr⟩
  | causeInterruptSync =>
      simp only [InterruptContext.next, Option.ite_none_right_eq_some, Option.some.injEq] at hnext
      obtain ⟨happlication, rfl⟩ := hnext
      obtain ⟨hisr, hpoint, hfinished⟩ := State.inApplication_iff.mp happlication
      have hprimask := h.primask
      have hactive := h.active
      rw [hpoint] at hprimask hactive
      have hcall : s.running.frame.call = none := Frame.call_of_finished hfinished
      exact h.setRunning hisr ⟨.mask, s.running.frame⟩ hcall hprimask hactive s.pendSv
  | step => exact h.step hnext
  | kernel done switch => exact h.kernel hnext
  | sysTick switch =>
      simp only [InterruptContext.next, Option.ite_none_right_eq_some, Option.some.injEq] at hnext
      obtain ⟨-, rfl⟩ := hnext
      exact ⟨h.primask, h.active, h.preempted, h.exception, h.thread, h.isr⟩
  | irq31 =>
      simp only [InterruptContext.next, Option.ite_none_right_eq_some, Option.some.injEq,
        Bool.and_eq_true] at hnext
      obtain ⟨⟨hinterruptible, -⟩, rfl⟩ := hnext
      obtain ⟨-, hunmasked⟩ := State.interruptible_iff.mp hinterruptible
      refine ⟨h.primask, h.active, h.preempted, fun _ ↦ hunmasked, h.thread, ?_⟩
      intro frame hframe
      obtain rfl := Option.some.inj hframe
      exact Frame.fits_of_call rfl
  -- the selected thread is outside the masked region, and so are the others
  | pendSv thread =>
      simp only [InterruptContext.next, Option.ite_none_right_eq_some, Option.some.injEq,
        Bool.and_eq_true] at hnext
      obtain ⟨⟨hinterruptible, -⟩, rfl⟩ := hnext
      obtain ⟨-, hunmasked⟩ := State.interruptible_iff.mp hinterruptible
      have hall (i : ι) : (s.thread i).point.masked = false := by
        by_cases hi : i = s.current
        · rw [hi]
          exact h.primask.symm.trans hunmasked
        · exact h.preempted i hi
      have hinactive : s.active = false :=
        h.active.trans (Point.active_of_not_masked (hall s.current))
      have hother : (s.thread thread).point.active = false :=
        Point.active_of_not_masked (hall thread)
      exact ⟨hunmasked.trans (hall thread).symm, hinactive.trans hother.symm, fun i _ ↦ hall i,
        h.exception, h.thread, h.isr⟩

omit [DecidableEq ι] in
/-- The invariant holds when the scheduler starts. -/
theorem Inv.start (current : ι) : Inv (start current) where
  primask := rfl
  active := rfl
  preempted _ _ := rfl
  exception hexception := absurd rfl hexception
  thread _ := trivial
  isr _ hframe := by cases hframe

/-- The invariant holds in every run. -/
theorem inv_of_reachable {current : ι}
    (hreach : Reachable (next interruptHandler preemptionHandler) (start current) s) : Inv s :=
  hreach.invariant Inv (.start current) fun _ _ _ h _ hnext ↦ h.next hnext

/-- However threads and exceptions interleave: a function for interrupts has only been called by an
exception handler, or by the handler that the selected thread runs with interrupts masked; a
function for threads has only been called by the application code of a thread; and while the flag
is set, interrupts are masked and every other thread is outside of `tm_cause_interrupt_sync` or
about to mask them. -/
theorem from_isr_in_interrupts_only {current : ι}
    (hreach : Reachable (next interruptHandler preemptionHandler) (start current) s) :
    (∀ i service, (s.thread i).frame.call = some (.fromIsr service) →
      i = s.current ∧ (s.thread i).point = .handler ∧ s.primask = true ∧ s.isr = none) ∧
    (∀ i service, (s.thread i).frame.call = some (.fromThread service) →
      (s.thread i).point = .application) ∧
    (∀ frame service, s.isr = some frame → frame.call ≠ some (.fromThread service)) ∧
    (s.active = true → s.primask = true ∧ s.isr = none ∧
      ∀ i, i ≠ s.current → (s.thread i).point = .application ∨ (s.thread i).point = .mask) := by
  have h := inv_of_reachable hreach
  have hmasked {i : ι} (hpoint : (s.thread i).point.masked = true) :
      i = s.current ∧ s.primask = true ∧ s.isr = none := by
    have hcurrent : i = s.current := by
      by_contra hother
      exact absurd (hpoint.symm.trans (h.preempted i hother)) (by decide)
    subst hcurrent
    have hprimask : s.primask = true := h.primask.trans hpoint
    refine ⟨rfl, hprimask, ?_⟩
    by_contra hisr
    exact absurd (hprimask.symm.trans (h.exception hisr)) (by decide)
  refine ⟨?_, ?_, ?_, ?_⟩
  · intro i service hcall
    have hfits := h.thread i
    unfold Thread.Fits Frame.Fits at hfits
    rw [hcall] at hfits
    have hpoint : (s.thread i).point = .handler := by
      cases hpoint : (s.thread i).point <;> rw [hpoint] at hfits <;> first | rfl | cases hfits
    have hpoint' : (s.thread i).point.masked = true := by
      rw [hpoint]
      rfl
    exact ⟨(hmasked hpoint').1, hpoint, (hmasked hpoint').2⟩
  · intro i service hcall
    have hfits := h.thread i
    unfold Thread.Fits Frame.Fits at hfits
    rw [hcall] at hfits
    cases hpoint : (s.thread i).point <;> rw [hpoint] at hfits <;> first | rfl | cases hfits
  · intro frame service hisr hcall
    have hfits := h.isr frame hisr
    unfold Frame.Fits at hfits
    rw [hcall] at hfits
    cases hfits
  · intro hactive
    have hpoint : s.running.point.masked = true := by
      have hpoint := h.active.symm.trans hactive
      cases hp : s.running.point <;> rw [hp] at hpoint <;> first | rfl | cases hpoint
    refine ⟨(hmasked hpoint).2.1, (hmasked hpoint).2.2, fun i hi ↦ ?_⟩
    have hother := h.preempted i hi
    cases hp : (s.thread i).point <;> rw [hp] at hother
    case application => exact .inl rfl
    case mask => exact .inr rfl
    all_goals cases hother

/-- Of two threads, one is preempted inside `xSemaphoreGive`, and the handler that the other one
runs is inside `xSemaphoreGiveFromISR`. -/
def preempted : List (Event Bool) :=
  [.call (.semaphorePut 0), .step, .step, .sysTick true, .pendSv true, .causeInterruptSync] ++
    List.replicate 4 .step

/-- Both have called the right function. -/
theorem from_isr_in_interrupts_only_preempted :
    ∃ s, run (next [.semaphorePut 0] []) preempted (start false) = some s ∧
      (s.thread true).frame.call = some (.fromIsr (.semaphorePut 0)) ∧
      (s.thread true).point = .handler ∧ s.primask = true ∧
      (s.thread false).frame.call = some (.fromThread (.semaphorePut 0)) ∧
      (s.thread false).point = .application := by
  obtain ⟨s, hrun, hother, hfirst⟩ : ∃ s,
      run (next [.semaphorePut 0] []) preempted (start false) = some s ∧
        (s.thread true).frame.call = some (.fromIsr (.semaphorePut 0)) ∧
        (s.thread false).frame.call = some (.fromThread (.semaphorePut 0)) := ⟨_, rfl, rfl, rfl⟩
  obtain ⟨hisr, hthread, -, -⟩ := from_isr_in_interrupts_only (reachable_of_run hrun)
  obtain ⟨-, hpoint, hmasked, -⟩ := hisr true _ hother
  exact ⟨s, hrun, hother, hpoint, hmasked, hfirst, hthread false _ hfirst⟩

/-! ## The masked region -/

/-- The steps that the calls of some code still take. -/
def Frame.work (frame : Frame) : ℕ :=
  3 * frame.services.length +
    match frame.call with
    | none => 0
    | some (.test _) => 2
    | some (.fromThread _) | some (.fromIsr _) => 1

/-- The steps that a thread takes until it unmasks interrupts. -/
def Thread.work (interruptHandler : List Service) (t : Thread) : ℕ :=
  match t.point with
  | .application | .mask => 0
  | .activate => 3 * interruptHandler.length + 4
  | .handler => t.frame.work + 3
  | .deactivate => 2
  | .unmask => 1

/-- A step of the code leaves fewer steps. -/
theorem Frame.work_step {frame frame' : Frame} {interrupt : Bool}
    (h : frame.step interrupt = some frame') : frame'.work < frame.work := by
  obtain ⟨services, call, results⟩ := frame
  cases call with
  | none =>
      cases services with
      | nil => cases h
      | cons service services =>
          simp only [step] at h
          split_ifs at h <;> cases h <;> simp only [work, List.length_cons] <;> omega
  | some call =>
      cases call with
      | test service =>
          cases h
          cases interrupt <;> exact Nat.lt_succ_self _
      | fromThread | fromIsr => cases h

/-- So does the return of a kernel function. -/
theorem Frame.work_return {frame : Frame} {done switch : Bool} {r : Frame × Bool}
    (h : frame.return done switch = some r) : r.1.work < frame.work := by
  obtain ⟨services, call, results⟩ := frame
  rcases call with _ | service | service | service <;> cases h <;> exact Nat.lt_succ_self _

@[simp] theorem State.running_set_running (s : State ι) (t : Thread) :
    (s.setRunning t).running = t :=
  Function.update_self ..

omit [DecidableEq ι] in
/-- Only the selected thread runs while interrupts are masked. -/
theorem Inv.isr_of_masked (h : Inv s) (hmasked : s.primask = true) : s.isr = none := by
  by_contra hisr
  exact absurd (hmasked.symm.trans (h.exception hisr)) (by decide)

/-- An event while interrupts are masked brings the selected thread nearer to unmasking them. -/
theorem Inv.work_next (h : Inv s) (hmasked : s.primask = true) {event : Event ι}
    (hnext : InterruptContext.next interruptHandler preemptionHandler s event = some s') :
    s'.running.work interruptHandler < s.running.work interruptHandler := by
  have hisr := h.isr_of_masked hmasked
  have hpoint : s.running.point.masked = true := h.primask.symm.trans hmasked
  have happlication : ¬ s.inApplication = true := fun hin ↦ by
    rw [(State.inApplication_iff.mp hin).2.1] at hpoint
    cases hpoint
  have hinterruptible : ¬ s.interruptible = true := fun hin ↦ by
    rw [(State.interruptible_iff.mp hin).2] at hmasked
    cases hmasked
  cases event with
  | call service | causeInterrupt | causeInterruptSync | yield =>
      simp only [InterruptContext.next, if_neg happlication] at hnext
      cases hnext
  | sysTick switch =>
      simp only [InterruptContext.next, if_neg hinterruptible] at hnext
      cases hnext
  | irq31 | pendSv =>
      simp only [InterruptContext.next, Option.ite_none_right_eq_some, Bool.and_eq_true] at hnext
      exact absurd hnext.1.1 hinterruptible
  | step =>
      rcases ht : s.running with ⟨point, frame⟩
      rw [ht] at hpoint
      simp only [InterruptContext.next, InterruptContext.step, hisr, ht] at hnext
      cases point with
      | application | mask => cases hpoint
      | activate =>
          cases hnext
          show ((s.setRunning ⟨.handler, .of interruptHandler⟩).running).work interruptHandler < _
          rw [State.running_set_running]
          simp only [Thread.work, Frame.work, Frame.of]
          omega
      | handler =>
          by_cases hfinished : frame.finished = true
          · simp only [if_pos hfinished] at hnext
            cases hnext
            rw [State.running_set_running]
            simp only [Thread.work]
            omega
          · simp only [if_neg hfinished, Option.map_eq_some_iff] at hnext
            obtain ⟨frame', hframe, rfl⟩ := hnext
            rw [State.running_set_running]
            have hless := Frame.work_step hframe
            simp only [Thread.work]
            omega
      | deactivate =>
          cases hnext
          show ((s.setRunning ⟨.unmask, frame⟩).running).work interruptHandler < _
          rw [State.running_set_running]
          exact Nat.lt_succ_self _
      | unmask =>
          cases hnext
          show ((s.setRunning ⟨.application, frame⟩).running).work interruptHandler < _
          rw [State.running_set_running]
          exact Nat.lt_succ_self _
  | kernel done switch =>
      simp only [InterruptContext.next, InterruptContext.kernel, hisr, Option.map_eq_some_iff]
        at hnext
      obtain ⟨⟨frame', pended⟩, hreturn, rfl⟩ := hnext
      have hfits : s.running.Fits := h.thread s.current
      show ((s.setRunning ⟨s.running.point, frame'⟩).running).work interruptHandler < _
      rw [State.running_set_running]
      rcases ht : s.running with ⟨point, frame⟩
      rw [ht] at hpoint hreturn hfits
      cases point with
      | application | mask => cases hpoint
      | handler =>
          have hless : frame'.work < frame.work := Frame.work_return hreturn
          simp only [Thread.work]
          omega
      -- no call is on its way
      | activate | deactivate | unmask =>
          have hcall : frame.call = none := hfits
          simp only [Frame.return, hcall] at hreturn
          cases hreturn

/-- While interrupts are masked, the selected thread can go on. -/
theorem Inv.masked_goes_on (h : Inv s) (hmasked : s.primask = true) :
    ∃ event s', InterruptContext.next interruptHandler preemptionHandler s event = some s' := by
  have hisr := h.isr_of_masked hmasked
  have hpoint : s.running.point.masked = true := h.primask.symm.trans hmasked
  rcases ht : s.running with ⟨point, frame⟩
  rw [ht] at hpoint
  cases point with
  | application | mask => cases hpoint
  | activate | deactivate | unmask =>
      refine ⟨.step, ?_⟩
      simp only [InterruptContext.next, InterruptContext.step, hisr, ht]
      exact ⟨_, rfl⟩
  | handler =>
      obtain ⟨services, call, results⟩ := frame
      rcases call with _ | service | service | service
      · refine ⟨.step, ?_⟩
        simp only [InterruptContext.next, InterruptContext.step, hisr, ht]
        cases services with
        | nil => exact ⟨_, rfl⟩
        | cons service services =>
            by_cases hvalid : service.valid = true
            · simp [Frame.finished, Frame.step, hvalid]
            · simp [Frame.finished, Frame.step, hvalid]
      · refine ⟨.step, ?_⟩
        simp [InterruptContext.next, InterruptContext.step, hisr, ht, Frame.finished, Frame.step]
      · refine ⟨.kernel true false, ?_⟩
        simp [InterruptContext.next, InterruptContext.kernel, hisr, ht, Frame.return]
      · refine ⟨.kernel true false, ?_⟩
        simp [InterruptContext.next, InterruptContext.kernel, hisr, ht, Frame.return]

/-- Interrupts become masked when the selected thread executes `cpsid i`, with the whole of the
masked region before it. -/
theorem Inv.work_of_masks (h : Inv s) (hunmasked : s.primask = false) {event : Event ι}
    (hnext : InterruptContext.next interruptHandler preemptionHandler s event = some s')
    (hmasked : s'.primask = true) :
    s'.running.work interruptHandler = 3 * interruptHandler.length + 4 := by
  have hkept : s'.primask ≠ s.primask := by
    rw [hunmasked, hmasked]
    decide
  cases event with
  | call service | causeInterrupt | causeInterruptSync | yield | sysTick | irq31 | pendSv =>
      simp only [InterruptContext.next, Option.ite_none_right_eq_some, Option.some.injEq] at hnext
      obtain ⟨-, rfl⟩ := hnext
      exact absurd rfl hkept
  | kernel done switch =>
      simp only [InterruptContext.next, InterruptContext.kernel] at hnext
      split at hnext
      all_goals
        simp only [Option.map_eq_some_iff] at hnext
        obtain ⟨_, -, rfl⟩ := hnext
        exact absurd rfl hkept
  | step =>
      simp only [InterruptContext.next] at hnext
      rcases Option.eq_none_or_eq_some s.isr with hisr | ⟨frame, hisr⟩
      · have hpoint : s.running.point.masked = false := h.primask.symm.trans hunmasked
        rcases ht : s.running with ⟨point, frame⟩
        rw [ht] at hpoint
        simp only [InterruptContext.step, hisr, ht] at hnext
        cases point with
        | application =>
            simp only [Option.map_eq_some_iff] at hnext
            obtain ⟨_, -, rfl⟩ := hnext
            exact absurd rfl hkept
        | mask =>
            cases hnext
            show ((s.setRunning ⟨.activate, frame⟩).running).work interruptHandler = _
            rw [State.running_set_running]
            rfl
        | activate | handler | deactivate | unmask => cases hpoint
      · simp only [InterruptContext.step, hisr] at hnext
        by_cases hfinished : frame.finished = true
        · simp only [if_pos hfinished] at hnext
          cases hnext
          exact absurd rfl hkept
        · simp only [if_neg hfinished, Option.map_eq_some_iff] at hnext
          obtain ⟨_, -, rfl⟩ := hnext
          exact absurd rfl hkept

/-- In every run, a masked thread has at most the whole of the masked region before it. -/
theorem work_le_of_masked {current : ι}
    (hreach : Reachable (next interruptHandler preemptionHandler) (start current) s)
    (hmasked : s.primask = true) :
    s.running.work interruptHandler ≤ 3 * interruptHandler.length + 4 := by
  have h := hreach.invariant
    (fun s ↦ Inv s ∧ (s.primask = true →
      s.running.work interruptHandler ≤ 3 * interruptHandler.length + 4))
    ⟨.start current, fun hmasked ↦ by cases hmasked⟩ ?_
  · exact h.2 hmasked
  · intro s event s' h _ hnext
    obtain ⟨hinv, hbound⟩ := h
    refine ⟨hinv.next hnext, fun hmasked' ↦ ?_⟩
    cases hprimask : s.primask with
    | false => exact (hinv.work_of_masks hprimask hnext hmasked').le
    | true => exact (hinv.work_next hprimask hnext).le.trans (hbound hprimask)

/-- Interrupts do not stay masked: while they are, the selected thread can go on, and a run of more
events than the handler's calls make up, each with the test and the kernel function, passes a state
in which they are not. -/
theorem masked_region_ends {current : ι}
    (hreach : Reachable (next interruptHandler preemptionHandler) (start current) s) :
    (s.primask = true →
      ∃ event s', next interruptHandler preemptionHandler s event = some s') ∧
    ∀ events s', run (next interruptHandler preemptionHandler) events s = some s' →
      3 * interruptHandler.length + 4 < events.length →
      ∃ before after middle, events = before ++ after ∧
        run (next interruptHandler preemptionHandler) before s = some middle ∧
        middle.primask = false := by
  have h := inv_of_reachable hreach
  refine ⟨h.masked_goes_on, fun events s' hrun hlong ↦ ?_⟩
  cases hprimask : s.primask with
  | false => exact ⟨[], events, s, rfl, rfl, hprimask⟩
  | true =>
      have hbound := work_le_of_masked hreach hprimask
      obtain ⟨before, after, middle, hsplit, hbefore, hleft⟩ := run_leaves
        (fun s ↦ Inv s ∧ s.primask = true) (fun s ↦ s.running.work interruptHandler)
        (fun state event finish h hnext _ ↦ h.1.work_next h.2 hnext) hrun (by omega)
      refine ⟨before, after, middle, hsplit, hbefore, ?_⟩
      have hinv := inv_of_reachable (hreach.trans (reachable_of_run hbefore))
      exact Bool.eq_false_iff.mpr fun hmasked ↦ hleft ⟨hinv, hmasked⟩

/-- A call of `tm_cause_interrupt_sync` whose handler puts the semaphore, and the next call of the
thread. -/
def synchronous : List (Event Bool) :=
  .causeInterruptSync :: List.replicate 4 .step ++ .kernel true true :: List.replicate 3 .step ++
    [.call (.semaphorePut 0), .step]

/-- Interrupts are masked after two events, and nine events later they have been unmasked. -/
theorem masked_region_ends_synchronous :
    ∃ s s', run (next [.semaphorePut 0] []) (synchronous.take 2) (start false) = some s ∧
      s.primask = true ∧
      run (next [.semaphorePut 0] []) (synchronous.drop 2) s = some s' ∧
      ∃ before after middle, synchronous.drop 2 = before ++ after ∧
        run (next [.semaphorePut 0] []) before s = some middle ∧ middle.primask = false := by
  obtain ⟨s, s', hfirst, hmasked, hrest⟩ : ∃ s s',
      run (next [.semaphorePut 0] []) (synchronous.take 2) (start false) = some s ∧
        s.primask = true ∧
        run (next [.semaphorePut 0] []) (synchronous.drop 2) s = some s' :=
    ⟨_, _, rfl, rfl, rfl⟩
  obtain ⟨-, hends⟩ := masked_region_ends (reachable_of_run hfirst)
  exact ⟨s, s', hfirst, hmasked, hrest, hends _ _ hrest (by decide)⟩

end ThreadMetric.FreeRTOS.InterruptContext
