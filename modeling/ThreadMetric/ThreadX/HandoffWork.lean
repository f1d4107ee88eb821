import Mathlib.Algebra.BigOperators.Group.Finset.Basic
import Mathlib.Data.Fintype.Basic
import Mathlib.Tactic.SplitIfs
import ThreadMetric.Library.Transition
import ThreadMetric.ThreadX.Handoff

/-!
# The work that the hand-off protocol has left

Three things keep the port busy from outside: application and kernel code, the end of the timer's
sleep, and the polling of `_tx_thread_schedule` while there is nothing to schedule. All other steps
are the protocol's own. `State.work` counts how many of them are left at most, and `own_work` shows
that every one of them makes it smaller.
-/

namespace ThreadMetric.ThreadX

variable {ι : Type}

namespace State

/-- The scheduler would select a thread. -/
def due (s : State ι) : Bool :=
  s.executePtr.isSome && s.systemState == 0

/-- The protocol takes this step on its own. -/
def ownEvent (s : State ι) : Event ι → Bool
  | .scheduler => s.schedulerPc ≠ .nap || s.due
  | .timer => s.timerPc ≠ .sleep
  | .thread i => (s.threads i).pc ≠ .running
  | .interrupt _ | .run _ _ => false
  | .signalTimer | .signalThread _ => true

/-- The steps that the protocol takes on its own. -/
def own [DecidableEq ι] (s : State ι) (event : Event ι) : Option (State ι) :=
  if s.ownEvent event then s.next event else none

end State

/-! ## Ranks -/

/-- The steps of the signal machinery that may be left for a pthread. -/
def Signals.work (g : Signals) : ℕ :=
  (if g.suspendPending then 5 else 0) +
    match g.handler with
    | .out => 0
    | .woken => 1
    | .waiting => 2
    | .acked => 3
    | .entered => 4

/-- How far the timer is from its next sleep. -/
def TimerPc.rank : TimerPc → ℕ
  | .sleep => 0
  | .waitStart | .restoreUnlock => 1
  | .restoreResume => 2
  | .restoreDrainIsr => 3
  | .restoreRelock => 4
  | .restoreWaitIsr => 5
  | .restoreTest => 6
  | .restorePost => 7
  | .restoreDrain => 8
  | .restoreLeave => 9
  | .restoreLock => 10
  | .interrupt => 11
  | .interruptLock => 12
  | .saveEnter => 13
  | .saveMark => 14
  | .saveReadPipe => 15
  | .saveSuspend => 16
  | .saveTest => 17
  | .saveLock => 18

/-- How far a thread is from running. -/
def ThreadPc.rank : ThreadPc → ℕ
  | .running | .exited => 0
  | .entryPost | .returnRecheck => 1
  | .entryWait | .returnRelock => 2
  | .returnWakePost => 3
  | .returnWait => 4
  | .returnPostUnlock => 5
  | .returnPost => 6
  | .returnPostLock => 7
  | .returnDrain => 8
  | .returnClear => 9
  | .returnLock => 10

/-- How far the scheduler is from its wait for a token, or from its nap if no thread is due. -/
def SchedulerPc.rank (due : Bool) : SchedulerPc → ℕ
  | .waitYield => 0
  | .leave => 1
  | .resumeThread | .resumeTimer => 2
  | .postIsr | .waitBeforeResume => 3
  | .waitBeforeIsr | .readTimerPipe => 4
  | .suspendTimer => 10
  | .testWaiting => 11
  | .postRun => 13
  | .drainRun => 14
  | .select => 15
  | .lock => 16
  | .nap => if due then 17 else 13
  | .unlock => if due then 18 else 14

/-- The work left for a thread. -/
def Thread.work (t : Thread) : ℕ :=
  21 * t.pc.rank + t.runSemaphore + t.signals.work

/-- The work left outside the threads. A token is worth a pass of the scheduler. -/
def State.portWork (s : State ι) : ℕ :=
  30 * s.timerPc.rank + 20 * s.semaphore + s.isrSemaphore + s.timerSignals.work +
    s.schedulerPc.rank s.due

/-- The work left for the protocol. -/
def State.work [Fintype ι] (s : State ι) : ℕ :=
  s.portWork + ∑ i, (s.threads i).work

/-! ## The steps of the signal machinery -/

/-- A step of the signal machinery is one less to take. -/
theorem Signals.work_step {g g' : Signals} {written : ℕ} (h : g.step = some (g', written)) :
    g'.work < g.work := by
  unfold Signals.step at h
  cases hhandler : g.handler with
  | out =>
      simp only [hhandler, Option.ite_none_right_eq_some, Option.some.injEq, Prod.mk.injEq] at h
      obtain ⟨hpending, rfl, -⟩ := h
      simp [work, hhandler, hpending]
  | entered =>
      simp only [hhandler] at h
      split_ifs at h
      all_goals
        obtain ⟨rfl, -⟩ := Prod.mk.inj (Option.some.inj h)
        simp [work, hhandler]
  | waiting =>
      simp only [hhandler, Option.ite_none_right_eq_some, Option.some.injEq, Prod.mk.injEq] at h
      obtain ⟨-, rfl, -⟩ := h
      simp [work, hhandler]
  | acked | woken =>
      simp only [hhandler, Option.some.injEq, Prod.mk.injEq] at h
      obtain ⟨rfl, -⟩ := h
      simp [work, hhandler]

/-- A request to suspend a pthread adds the steps up to its resumption. -/
theorem Signals.work_sendSuspend (g : Signals) : g.sendSuspend.work ≤ g.work + 5 := by
  simp only [sendSuspend, work, if_true]
  omega

/-- A request to resume it adds none. -/
theorem Signals.work_sendResume (g : Signals) : g.sendResume.work = g.work := rfl

/-! ## The steps of the pthreads -/

namespace State

section Fields

variable [DecidableEq ι] (s : State ι) (i : ι) (change : Thread → Thread)

@[simp] theorem updateThread_timerPc : (s.updateThread i change).timerPc = s.timerPc := rfl

@[simp] theorem updateThread_semaphore : (s.updateThread i change).semaphore = s.semaphore := rfl

@[simp] theorem updateThread_isrSemaphore :
    (s.updateThread i change).isrSemaphore = s.isrSemaphore := rfl

@[simp] theorem updateThread_timerSignals :
    (s.updateThread i change).timerSignals = s.timerSignals := rfl

@[simp] theorem updateThread_schedulerPc :
    (s.updateThread i change).schedulerPc = s.schedulerPc := rfl

@[simp] theorem updateThread_currentPtr :
    (s.updateThread i change).currentPtr = s.currentPtr := rfl

@[simp] theorem updateThread_preemptDisable :
    (s.updateThread i change).preemptDisable = s.preemptDisable := rfl

@[simp] theorem updateThread_executePtr :
    (s.updateThread i change).executePtr = s.executePtr := rfl

@[simp] theorem updateThread_systemState :
    (s.updateThread i change).systemState = s.systemState := rfl

end Fields

variable [Fintype ι] {s s' : State ι} {i : ι}

/-- A step that touches no thread and makes the work outside the threads smaller. -/
theorem work_lt_of_port (hthreads : s'.threads = s.threads) (hport : s'.portWork < s.portWork) :
    s'.work < s.work := by
  rw [work, work, hthreads]
  exact Nat.add_lt_add_right hport _

variable [DecidableEq ι]

/-- A step that changes one thread and makes the work of this thread and outside smaller. -/
theorem work_lt_of_thread (i : ι) (hothers : ∀ j ≠ i, s'.threads j = s.threads j)
    (hwork : s'.portWork + (s'.threads i).work < s.portWork + (s.threads i).work) :
    s'.work < s.work := by
  have hsum : ∑ j ∈ Finset.univ.erase i, (s'.threads j).work =
      ∑ j ∈ Finset.univ.erase i, (s.threads j).work :=
    Finset.sum_congr rfl fun j hj ↦ by rw [hothers j (Finset.ne_of_mem_erase hj)]
  rw [work, work, ← Finset.add_sum_erase _ _ (Finset.mem_univ i),
    ← Finset.add_sum_erase _ _ (Finset.mem_univ i), hsum]
  omega

/-- A step of the scheduler that the protocol takes on its own. -/
theorem work_threadSchedule (hown : s.schedulerPc ≠ .nap ∨ s.due = true)
    (hstep : s.threadSchedule = some s') : s'.work < s.work := by
  unfold threadSchedule at hstep
  cases hpc : s.schedulerPc with
  | lock =>
      simp only [hpc, Option.map_eq_some_iff] at hstep
      obtain ⟨m, -, rfl⟩ := hstep
      exact work_lt_of_port rfl (by simp [portWork, hpc, SchedulerPc.rank])
  | select =>
      simp only [hpc] at hstep
      cases hexec : s.executePtr with
      | none =>
          simp only [hexec, Option.some.injEq] at hstep
          subst hstep
          exact work_lt_of_port rfl (by simp [portWork, hpc, due, SchedulerPc.rank])
      | some i =>
          simp only [hexec] at hstep
          split_ifs at hstep with hsystem htype
          · obtain rfl := Option.some.inj hstep
            exact work_lt_of_port rfl (by simp [portWork, hpc, SchedulerPc.rank])
          · obtain rfl := Option.some.inj hstep
            exact work_lt_of_port rfl (by simp [portWork, hpc, SchedulerPc.rank])
          · obtain rfl := Option.some.inj hstep
            exact work_lt_of_port rfl (by simp [portWork, hpc, due, hsystem, SchedulerPc.rank])
  | unlock =>
      simp only [hpc, Option.some.injEq] at hstep
      subst hstep
      refine work_lt_of_port rfl ?_
      show _ + SchedulerPc.rank s.due .nap < _ + SchedulerPc.rank s.due s.schedulerPc
      rw [hpc]
      cases s.due <;> simp [SchedulerPc.rank]
  | nap =>
      simp only [hpc, Option.some.injEq] at hstep
      subst hstep
      refine work_lt_of_port rfl ?_
      have hdue : s.due = true := hown.resolve_left fun hnot ↦ hnot hpc
      show _ + SchedulerPc.rank s.due .lock < _ + SchedulerPc.rank s.due s.schedulerPc
      rw [hpc, hdue]
      exact Nat.add_lt_add_left (by decide) _
  | resumeThread =>
      simp only [hpc, Option.map_eq_some_iff] at hstep
      obtain ⟨i, -, rfl⟩ := hstep
      refine work_lt_of_thread i (fun j hj ↦ by simp [resumeThread, hj]) ?_
      simp [portWork, resumeThread, hpc, Thread.work, Signals.work_sendResume, SchedulerPc.rank]
  | drainRun =>
      simp only [hpc, Option.map_eq_some_iff] at hstep
      obtain ⟨i, -, hstep⟩ := hstep
      split_ifs at hstep with hrun
      · subst hstep
        refine work_lt_of_thread i (fun j hj ↦ updateThread_of_ne s _ hj) ?_
        simp only [portWork, due, updateThread_self, Thread.work, updateThread_timerPc,
          updateThread_semaphore, updateThread_isrSemaphore, updateThread_timerSignals,
          updateThread_schedulerPc, updateThread_executePtr, updateThread_systemState]
        omega
      · subst hstep
        exact work_lt_of_port rfl (by simp [portWork, hpc, SchedulerPc.rank])
  | postRun =>
      simp only [hpc, Option.map_eq_some_iff] at hstep
      obtain ⟨i, -, rfl⟩ := hstep
      refine work_lt_of_thread i (fun j hj ↦ by simp [hj]) ?_
      simp [portWork, hpc, Thread.work, SchedulerPc.rank]
      omega
  | testWaiting =>
      simp only [hpc, Option.some.injEq] at hstep
      subst hstep
      refine work_lt_of_port rfl ?_
      cases hwaiting : s.timerWaiting <;> simp [portWork, hpc, SchedulerPc.rank]
  | waitBeforeIsr | waitBeforeResume | waitYield =>
      simp only [hpc, Option.ite_none_right_eq_some, Option.some.injEq] at hstep
      obtain ⟨htoken, rfl⟩ := hstep
      refine work_lt_of_port rfl ?_
      simp only [portWork, hpc, SchedulerPc.rank]
      omega
  | postIsr =>
      simp only [hpc, Option.some.injEq] at hstep
      subst hstep
      refine work_lt_of_port rfl ?_
      simp only [portWork, hpc, SchedulerPc.rank]
      omega
  | suspendTimer =>
      simp only [hpc, Option.some.injEq] at hstep
      subst hstep
      refine work_lt_of_port rfl ?_
      have hsend := s.timerSignals.work_sendSuspend
      simp only [portWork, hpc, SchedulerPc.rank]
      omega
  | readTimerPipe =>
      simp only [hpc, Option.ite_none_right_eq_some, Option.some.injEq] at hstep
      obtain ⟨-, rfl⟩ := hstep
      exact work_lt_of_port rfl (by simp [portWork, hpc, SchedulerPc.rank])
  | resumeTimer =>
      simp only [hpc, Option.some.injEq] at hstep
      subst hstep
      exact work_lt_of_port rfl
        (by simp [portWork, hpc, Signals.work_sendResume, SchedulerPc.rank])
  | leave =>
      simp only [hpc, Option.some.injEq] at hstep
      subst hstep
      exact work_lt_of_port rfl (by simp [portWork, hpc, SchedulerPc.rank])

/-- A step of the timer other than the end of its sleep. -/
theorem work_posixTimerInterrupt (hown : s.timerPc ≠ .sleep)
    (hstep : s.posixTimerInterrupt = some s') : s'.work < s.work := by
  unfold posixTimerInterrupt at hstep
  -- whether a thread is due depends on the interrupt that the timer enters and leaves
  have hrank (due due' : Bool) :
      s.schedulerPc.rank due ≤ s.schedulerPc.rank due' + 4 := by
    cases s.schedulerPc <;> cases due <;> cases due' <;> decide
  cases hpc : s.timerPc with
  | sleep => exact absurd hpc hown
  | waitStart | saveReadPipe | restoreWaitIsr =>
      simp only [hpc, Option.ite_none_right_eq_some, Option.some.injEq] at hstep
      obtain ⟨-, rfl⟩ := hstep
      refine work_lt_of_port rfl ?_
      simp only [portWork, hpc, due, TimerPc.rank]
      omega
  | saveLock | interruptLock | restoreLock | restoreRelock =>
      simp only [hpc, Option.map_eq_some_iff] at hstep
      obtain ⟨m, -, rfl⟩ := hstep
      refine work_lt_of_port rfl ?_
      simp only [portWork, hpc, due, TimerPc.rank]
      omega
  | saveTest =>
      simp only [hpc, Option.some.injEq] at hstep
      subst hstep
      refine work_lt_of_port rfl ?_
      split_ifs
      all_goals
        simp only [portWork, hpc, due, TimerPc.rank]
        omega
  | saveSuspend =>
      simp only [hpc, Option.map_eq_some_iff] at hstep
      obtain ⟨i, -, rfl⟩ := hstep
      have hsend := (s.threads i).signals.work_sendSuspend
      refine work_lt_of_thread i (fun j hj ↦ by simp [suspendThread, hj]) ?_
      simp only [portWork, suspendThread, hpc, due, Thread.work, updateThread_self,
        updateThread_semaphore, updateThread_isrSemaphore, updateThread_timerSignals,
        updateThread_schedulerPc, updateThread_executePtr, updateThread_systemState, TimerPc.rank]
      omega
  | saveMark =>
      simp only [hpc, Option.map_eq_some_iff] at hstep
      obtain ⟨i, -, rfl⟩ := hstep
      refine work_lt_of_thread i (fun j hj ↦ by simp [hj]) ?_
      simp only [portWork, hpc, due, Thread.work, updateThread_self,
        updateThread_semaphore, updateThread_isrSemaphore, updateThread_timerSignals,
        updateThread_schedulerPc, updateThread_executePtr, updateThread_systemState, TimerPc.rank]
      omega
  | saveEnter =>
      simp only [hpc, Option.some.injEq] at hstep
      subst hstep
      refine work_lt_of_port rfl ?_
      have hafter := hrank (s.executePtr.isSome && (s.systemState + 1 == 0)) s.due
      simp only [portWork, hpc, due, TimerPc.rank] at hafter ⊢
      omega
  | interrupt | restorePost | restoreUnlock =>
      simp only [hpc, Option.some.injEq] at hstep
      subst hstep
      refine work_lt_of_port rfl ?_
      simp only [portWork, hpc, due, TimerPc.rank]
      omega
  | restoreLeave =>
      have hafter := hrank (s.executePtr.isSome && (s.systemState - 1 == 0)) s.due
      cases hcurrent : s.currentPtr with
      | none =>
          simp only [hpc, hcurrent, Option.some.injEq] at hstep
          subst hstep
          refine work_lt_of_port rfl ?_
          simp only [portWork, hpc, due, TimerPc.rank] at hafter ⊢
          omega
      | some i =>
          simp only [hpc, hcurrent] at hstep
          split_ifs at hstep
          · obtain rfl := Option.some.inj hstep
            refine work_lt_of_port rfl ?_
            simp only [portWork, hpc, due, TimerPc.rank] at hafter ⊢
            omega
          · obtain rfl := Option.some.inj hstep
            refine work_lt_of_thread i (fun j hj ↦ by simp [hj]) ?_
            simp only [portWork, hpc, due, Thread.work, updateThread_self,
              updateThread_semaphore, updateThread_isrSemaphore, updateThread_timerSignals,
              updateThread_schedulerPc, updateThread_executePtr, TimerPc.rank] at hafter ⊢
            omega
          · obtain rfl := Option.some.inj hstep
            refine work_lt_of_port rfl ?_
            simp only [portWork, hpc, due, TimerPc.rank] at hafter ⊢
            omega
  | restoreResume =>
      simp only [hpc, Option.map_eq_some_iff] at hstep
      obtain ⟨i, -, rfl⟩ := hstep
      refine work_lt_of_thread i (fun j hj ↦ by simp [resumeThread, hj]) ?_
      simp only [portWork, resumeThread, hpc, due, Thread.work, Signals.work_sendResume,
        updateThread_self, updateThread_semaphore, updateThread_isrSemaphore,
        updateThread_timerSignals, updateThread_schedulerPc, updateThread_executePtr,
        updateThread_systemState, TimerPc.rank]
      omega
  | restoreDrain | restoreDrainIsr =>
      simp only [hpc] at hstep
      split_ifs at hstep
      all_goals
        obtain rfl := Option.some.inj hstep
        refine work_lt_of_port rfl ?_
        simp only [portWork, hpc, due, TimerPc.rank]
        omega
  | restoreTest =>
      simp only [hpc] at hstep
      cases hexec : s.executePtr with
      | none =>
          simp only [hexec, Option.some.injEq] at hstep
          subst hstep
          refine work_lt_of_port rfl ?_
          simp only [portWork, hpc, due, hexec, TimerPc.rank]
          omega
      | some i =>
          simp only [hexec] at hstep
          split_ifs at hstep
          all_goals
            obtain rfl := Option.some.inj hstep
            refine work_lt_of_port rfl ?_
            simp only [portWork, hpc, due, hexec, TimerPc.rank]
            omega

/-- The check for termination leaves less work if going on does. -/
theorem work_exitUnlessCurrent {go : State ι} (hgo : go.work < s.work)
    (hpc : 0 < (s.threads i).pc.rank) : (s.exitUnlessCurrent i go).work < s.work := by
  unfold exitUnlessCurrent
  split_ifs
  · exact hgo
  · refine work_lt_of_thread i (fun j hj ↦ by simp [hj]) ?_
    have hexited : ThreadPc.exited.rank = 0 := rfl
    simp only [portWork, due, Thread.work, hexited, updateThread_self, updateThread_timerPc,
      updateThread_semaphore, updateThread_isrSemaphore, updateThread_timerSignals,
      updateThread_schedulerPc, updateThread_executePtr, updateThread_systemState]
    omega

/-- A step of a thread other than the call of `_tx_thread_system_return`. -/
theorem work_threadStep (hown : (s.threads i).pc ≠ .running) (hstep : s.threadStep i = some s') :
    s'.work < s.work := by
  unfold threadStep at hstep
  cases hpc : (s.threads i).pc with
  | running => exact absurd hpc hown
  | exited => simp [hpc] at hstep
  | entryWait | returnWait =>
      simp only [hpc, Option.ite_none_right_eq_some, Option.some.injEq] at hstep
      obtain ⟨-, rfl⟩ := hstep
      refine work_lt_of_thread i (fun j hj ↦ by simp [hj]) ?_
      simp [portWork, hpc, due, Thread.work, ThreadPc.rank]
      omega
  | entryPost | returnPost | returnWakePost =>
      -- the thread has less left, the scheduler one token more
      simp only [hpc, Option.some.injEq] at hstep
      subst hstep
      refine work_lt_of_thread i (fun j hj ↦ by simp [hj]) ?_
      simp [portWork, hpc, due, Thread.work, ThreadPc.rank]
      omega
  | returnPostUnlock =>
      simp only [hpc, Option.some.injEq] at hstep
      subst hstep
      refine work_lt_of_thread i (fun j hj ↦ by simp [hj]) ?_
      simp [portWork, hpc, due, Thread.work, ThreadPc.rank]
  | returnLock | returnPostLock | returnRelock =>
      simp only [hpc, Option.map_eq_some_iff] at hstep
      obtain ⟨m, -, rfl⟩ := hstep
      refine work_lt_of_thread i (fun j hj ↦ by simp [hj]) ?_
      simp [portWork, hpc, due, Thread.work, ThreadPc.rank]
  | returnClear | returnRecheck =>
      simp only [hpc, Option.some.injEq] at hstep
      subst hstep
      refine work_exitUnlessCurrent ?_ (by rw [hpc]; decide)
      refine work_lt_of_thread i (fun j hj ↦ by simp [hj]) ?_
      simp [portWork, hpc, due, Thread.work, ThreadPc.rank]
  | returnDrain =>
      simp only [hpc] at hstep
      split_ifs at hstep with htoken
      · obtain rfl := Option.some.inj hstep
        refine work_lt_of_port rfl ?_
        simp only [portWork, due]
        omega
      · obtain rfl := Option.some.inj hstep
        refine work_lt_of_thread i (fun j hj ↦ by simp [hj]) ?_
        simp [portWork, hpc, due, Thread.work, ThreadPc.rank]

/-- Every step that the protocol takes on its own makes the work smaller. -/
theorem own_work {event : Event ι} (h : s.own event = some s') : s'.work < s.work := by
  simp only [own, Option.ite_none_right_eq_some] at h
  obtain ⟨hevent, hnext⟩ := h
  unfold State.next at hnext
  cases event with
  | scheduler =>
      simp only [ownEvent, Bool.or_eq_true, decide_eq_true_eq] at hevent
      exact work_threadSchedule hevent hnext
  | timer =>
      simp only [Option.ite_none_right_eq_some] at hnext
      exact work_posixTimerInterrupt (of_decide_eq_true hevent) hnext.2
  | thread i =>
      simp only [Option.ite_none_right_eq_some] at hnext
      exact work_threadStep (of_decide_eq_true hevent) hnext.2
  | interrupt action | run i action => cases hevent
  | signalTimer =>
      simp only [Option.map_eq_some_iff] at hnext
      obtain ⟨⟨signals, written⟩, hstep, rfl⟩ := hnext
      have hless := Signals.work_step hstep
      refine work_lt_of_port rfl ?_
      simp only [portWork, due]
      omega
  | signalThread i =>
      simp only [Option.map_eq_some_iff] at hnext
      obtain ⟨⟨signals, written⟩, hstep, rfl⟩ := hnext
      have hless := Signals.work_step hstep
      refine work_lt_of_thread i (fun j hj ↦ by simp [hj]) ?_
      simp [portWork, due, Thread.work]
      omega

end State

end ThreadMetric.ThreadX
