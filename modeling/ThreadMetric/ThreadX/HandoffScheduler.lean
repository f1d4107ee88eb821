import ThreadMetric.ThreadX.HandoffInvariant

/-!
# Steps of the scheduler

A step of `_tx_thread_schedule` keeps the invariant: the scheduler leaves the selecting stage only
while the timer is outside the interrupt, hands its permission to run to one thread, and takes it
back with the token.
-/

namespace ThreadMetric.ThreadX.State

open RecursiveMutex Signals

variable {ι : Type} {s s' : State ι}

/-- What a step of the scheduler has to restore. -/
theorem Invariant.of_scheduler (h : s.Invariant)
    (hkeeps : KeepsOthers .scheduler s.mutex s'.mutex)
    (hown : s'.mutex.Agrees .scheduler s'.schedulerPc.hold)
    (hsystem : s'.systemState = s.systemState) (htimer : s'.timerPc = s.timerPc)
    (hpcs : ∀ i, (s'.threads i).pc = (s.threads i).pc)
    (hphase : ∃ holder, s'.Phase s'.schedulerPc.stage holder) : s'.Invariant where
  locked := by
    refine h.locked.step hkeeps (fun q hq ↦ ?_) hown
    cases q with
    | scheduler => exact absurd rfl hq
    | timer => exact congrArg TimerPc.hold htimer
    | thread i => exact congrArg ThreadPc.hold (hpcs i)
  systemState := by
    rw [hsystem, htimer]
    exact h.systemState
  phase := hphase

/-- A move of the scheduler within a stage. -/
theorem Invariant.moveScheduler (h : s.Invariant) (start finish : SchedulerPc)
    (hstart : s.schedulerPc = start) (hfinish : s'.schedulerPc = finish)
    (hstage : finish.stage = start.stage) (hkeeps : KeepsOthers .scheduler s.mutex s'.mutex)
    (hown : s'.mutex.Agrees .scheduler finish.hold) (hsystem : s'.systemState = s.systemState)
    (htimer : s'.timerPc = s.timerPc) (hsame : s.SameThreads s') : s'.Invariant := by
  subst hstart hfinish
  obtain ⟨holder, hphase⟩ := h.phase
  refine h.of_scheduler hkeeps hown hsystem htimer (fun i ↦ by rw [hsame.threads]) ⟨holder, ?_⟩
  rw [hstage]
  exact hphase.congr hsame htimer

/-- While the scheduler holds the mutex and no interrupt is active, a timer at rest is outside. -/
theorem Invariant.outside (h : s.Invariant) (howner : s.mutex.owner = some .scheduler)
    (hsystem : s.systemState = 0) (hrest : s.timerPc.rest = true) : s.timerPc.outside = true := by
  obtain ⟨honce, hsome⟩ := h.locked.owner_unique .timer howner (by simp)
  have hstate := h.systemState
  cases hpc : s.timerPc with
  | waitStart | sleep | saveLock | restoreWaitIsr | restoreRelock => rfl
  | interruptLock | interrupt | restoreLock => simp [hsystem, hpc, TimerPc.inInterrupt] at hstate
  | saveSuspend | saveReadPipe | saveMark | restoreResume | restoreDrain | restorePost =>
      simp [hpc, TimerPc.rest] at hrest
  | _ => simp [hold, hpc, TimerPc.hold] at honce hsome

/-- While the scheduler holds the mutex no thread is about to unlock it. -/
theorem Invariant.not_posting (h : s.Invariant) (howner : s.mutex.owner = some .scheduler) (i : ι) :
    (s.threads i).pc ≠ .returnPostUnlock := by
  intro hpc
  have hnot := h.locked.owner_unique (.thread i) howner (by simp)
  exact hnot.1 (congrArg ThreadPc.hold hpc)

/-- A timer that is outside lets the current thread be released. -/
theorem signals_outside {pc : TimerPc} (hout : pc.outside = true) :
    SignalsAt pc = fun g bytes ↦ Released g ∧ bytes = 0 := by
  cases pc with
  | waitStart | sleep | saveLock | restoreWaitIsr | restoreRelock => rfl
  | _ => simp [TimerPc.outside] at hout

/-- A posted thread whose token has arrived runs. -/
theorem Starting.running {i : ι} (h : s.Starting i) (htoken : 0 < s.semaphore)
    (hout : s.timerPc.outside = true) (hcurrent : s'.currentPtr = s.currentPtr)
    (hsemaphore : s'.semaphore = s.semaphore - 1) (hpipe : s'.otherPipe = s.otherPipe)
    (hthreads : s'.threads = s.threads) (htimer : s'.timerPc = s.timerPc) : s'.Running i := by
  rcases h.token with ⟨-, hzero, -⟩ | ⟨-, hzero, -⟩ | ⟨hrun, hone, hpc⟩
  · omega
  · omega
  · constructor
    · exact hcurrent.trans h.current
    · omega
    all_goals rw [hthreads]
    · exact h.others
    · exact hrun
    · rw [htimer, signals_outside hout, hpipe, h.signals]
      exact ⟨.quiet, h.otherPipe⟩
    · rcases hpc with hpc | hpc | hpc <;> simp [hpc]

variable [DecidableEq ι]

/-- A change of a thread that keeps its point keeps the points of all threads. -/
@[simp]
theorem updateThread_pc (s : State ι) (i j : ι) {change : Thread → Thread}
    (hchange : ∀ t, (change t).pc = t.pc) :
    ((s.updateThread i change).threads j).pc = (s.threads j).pc := by
  by_cases hj : j = i
  · subst hj
    rw [updateThread_self, hchange]
  · rw [updateThread_of_ne _ _ hj]

/-- A stopped thread runs once the scheduler has sent it the signal. -/
theorem Settled.resumed {i : ι} (h : s.Settled (some i) 0) (hstopped : (s.threads i).Stopped)
    (hout : s.timerPc.outside = true) :
    ({ s.resumeThread i with schedulerPc := .leave } : State ι).Running i := by
  refine ⟨h.current, h.semaphore, fun j hj ↦ ?_, ?_, ?_, ?_⟩
  · simpa [State.resumeThread, hj] using h.idle j
  · simpa [State.resumeThread] using hstopped.runSemaphore
  · show SignalsAt s.timerPc ((s.resumeThread i).threads i).signals s.otherPipe
    rw [signals_outside hout, State.resumeThread, updateThread_self]
    exact ⟨hstopped.signals.sendResume, h.otherPipe⟩
  · rcases hstopped.pc with hpc | hpc | hpc <;> simp [State.resumeThread, hpc]

/-- A parked thread may start once its run semaphore is posted. -/
theorem Settled.posted {i : ι} (h : s.Settled (some i) 0) (hparked : (s.threads i).Parked)
    (hpc : (s.threads i).pc ≠ .returnPostUnlock) :
    ({ s.updateThread i fun t ↦ { t with runSemaphore := t.runSemaphore + 1 } with
      schedulerPc := .testWaiting } : State ι).Starting i := by
  refine ⟨h.current, h.otherPipe, fun j hj ↦ ?_, ?_, ?_, .inl ⟨?_, h.semaphore, ?_⟩⟩
  · simpa [hj] using h.idle j
  · simpa using hparked.signals
  · simpa using hparked.suspensionType
  · simp [hparked.runSemaphore]
  · rcases hparked.pc with hentry | hunlock | hwait
    · simp [hentry]
    · exact absurd hunlock hpc
    · simp [hwait]

/-- A step of the scheduler keeps the invariant. -/
theorem Invariant.threadSchedule (h : s.Invariant) (hstep : s.threadSchedule = some s') :
    s'.Invariant := by
  have hown : s.mutex.Agrees .scheduler s.schedulerPc.hold := h.locked .scheduler
  obtain ⟨holder, hphase⟩ := h.phase
  unfold State.threadSchedule at hstep
  cases hpc : s.schedulerPc with
  | lock =>
      rw [hpc] at hown
      simp only [hpc, Option.map_eq_some_iff] at hstep
      obtain ⟨m, hlock, rfl⟩ := hstep
      exact h.moveScheduler .lock .select hpc rfl rfl (.of_lock hlock) (lock_of_never hlock hown)
        rfl rfl ⟨rfl, rfl, rfl, rfl⟩
  | select =>
      rw [hpc] at hown hphase
      cases hexec : s.executePtr with
      | none =>
          simp only [hpc, hexec, Option.some.injEq] at hstep
          subst hstep
          exact h.moveScheduler .select .unlock hpc rfl rfl .refl hown rfl rfl ⟨rfl, rfl, rfl, rfl⟩
      | some i =>
          by_cases hsystem : s.systemState = 0
          · simp only [hpc, hexec, hsystem, if_true, Option.some.injEq] at hstep
            subst hstep
            cases hphase with
            | selecting hsettled hrest =>
                have hout := h.outside (hown.owner (.inl rfl)) hsystem hrest
                obtain ⟨-, hsemaphore, hpipe, hidle⟩ := hsettled
                -- the suspension type tells a stopped thread from a parked one
                cases htype : (s.threads i).suspensionType with
                | true =>
                    refine h.of_scheduler .refl hown hsystem.symm rfl (fun _ ↦ rfl) ?_
                    have hstopped := (hidle i).stopped htype
                    exact ⟨_, .resuming i ⟨rfl, hsemaphore, hpipe, hidle⟩ hstopped hout⟩
                | false =>
                    refine h.of_scheduler .refl hown hsystem.symm rfl (fun _ ↦ rfl) ?_
                    have hparked := (hidle i).parked htype
                    exact ⟨_, .offering i ⟨rfl, hsemaphore, hpipe, hidle⟩ hparked hout⟩
          · simp only [hpc, hexec, hsystem, if_false, Option.some.injEq] at hstep
            subst hstep
            exact h.moveScheduler .select .unlock hpc rfl rfl .refl hown rfl rfl
              ⟨rfl, rfl, rfl, rfl⟩
  | unlock =>
      rw [hpc] at hown
      simp only [hpc, Option.some.injEq] at hstep
      subst hstep
      exact h.moveScheduler .unlock .nap hpc rfl rfl .of_unlock (unlock_never hown) rfl rfl
        ⟨rfl, rfl, rfl, rfl⟩
  | nap =>
      rw [hpc] at hown
      simp only [hpc, Option.some.injEq] at hstep
      subst hstep
      exact h.moveScheduler .nap .lock hpc rfl rfl .refl hown rfl rfl ⟨rfl, rfl, rfl, rfl⟩
  | resumeThread =>
      rw [hpc] at hown hphase
      cases hphase with
      | resuming i hsettled hstopped hout =>
          simp only [hpc, hsettled.current, Option.map_some, Option.some.injEq] at hstep
          subst hstep
          refine h.of_scheduler .refl hown rfl rfl (by simp [State.resumeThread]) ?_
          exact ⟨_, .leaving i (hsettled.resumed hstopped hout) hout⟩
  | drainRun =>
      rw [hpc] at hown hphase
      cases hphase with
      | offering i hsettled hparked hout =>
          simp only [hpc, hsettled.current, hparked.runSemaphore, Option.map_some, Nat.lt_irrefl,
            if_false, Option.some.injEq] at hstep
          subst hstep
          refine h.of_scheduler .refl hown rfl rfl (fun _ ↦ rfl) ⟨_, .offering i ?_ hparked hout⟩
          exact ⟨rfl, hsettled.semaphore, hsettled.otherPipe, hsettled.idle⟩
  | postRun =>
      rw [hpc] at hown hphase
      cases hphase with
      | offering i hsettled hparked hout =>
          simp only [hpc, hsettled.current, Option.map_some, Option.some.injEq] at hstep
          subst hstep
          refine h.of_scheduler .refl hown rfl rfl (by simp) ⟨_, .starting i ?_ hout⟩
          exact hsettled.posted hparked (h.not_posting (hown.owner (.inl rfl)) i)
  | testWaiting =>
      rw [hpc] at hown
      simp only [hpc, Option.some.injEq] at hstep
      subst hstep
      cases s.timerWaiting with
      | true =>
          exact h.moveScheduler .testWaiting _ hpc rfl rfl .refl hown rfl rfl ⟨rfl, rfl, rfl, rfl⟩
      | false =>
          exact h.moveScheduler .testWaiting _ hpc rfl rfl .refl hown rfl rfl ⟨rfl, rfl, rfl, rfl⟩
  | waitBeforeIsr | waitBeforeResume =>
      rw [hpc] at hown hphase
      simp only [hpc, Option.ite_none_right_eq_some, Option.some.injEq] at hstep
      obtain ⟨htoken, rfl⟩ := hstep
      cases hphase with
      | starting i hstarting hout =>
          refine h.of_scheduler .refl hown rfl rfl (fun _ ↦ rfl) ⟨_, .leaving i ?_ hout⟩
          exact hstarting.running htoken hout rfl rfl rfl rfl rfl
  | suspendTimer =>
      rw [hpc] at hown
      simp only [hpc, Option.some.injEq] at hstep
      subst hstep
      exact h.moveScheduler .suspendTimer .readTimerPipe hpc rfl rfl .refl hown rfl rfl
        ⟨rfl, rfl, rfl, rfl⟩
  | readTimerPipe =>
      rw [hpc] at hown
      simp only [hpc, Option.ite_none_right_eq_some, Option.some.injEq] at hstep
      obtain ⟨-, rfl⟩ := hstep
      exact h.moveScheduler .readTimerPipe .waitBeforeResume hpc rfl rfl .refl hown rfl rfl
        ⟨rfl, rfl, rfl, rfl⟩
  | postIsr =>
      rw [hpc] at hown
      simp only [hpc, Option.some.injEq] at hstep
      subst hstep
      exact h.moveScheduler .postIsr .leave hpc rfl rfl .refl hown rfl rfl ⟨rfl, rfl, rfl, rfl⟩
  | resumeTimer =>
      rw [hpc] at hown
      simp only [hpc, Option.some.injEq] at hstep
      subst hstep
      exact h.moveScheduler .resumeTimer .leave hpc rfl rfl .refl hown rfl rfl ⟨rfl, rfl, rfl, rfl⟩
  | leave =>
      rw [hpc] at hown hphase
      simp only [hpc, Option.some.injEq] at hstep
      subst hstep
      cases hphase with
      | leaving i hrunning _ =>
          refine h.of_scheduler .of_unlock (unlock_never hown) rfl rfl (fun _ ↦ rfl) ?_
          exact ⟨_, .running i (hrunning.congr ⟨rfl, rfl, rfl, rfl⟩ rfl)⟩
  | waitYield =>
      rw [hpc] at hown hphase
      simp only [hpc, Option.ite_none_right_eq_some, Option.some.injEq] at hstep
      obtain ⟨htoken, rfl⟩ := hstep
      cases hphase with
      | yielded hsettled hrest =>
          refine h.of_scheduler .refl hown rfl rfl (fun _ ↦ rfl) ⟨_, .selecting ?_ hrest⟩
          exact ⟨hsettled.current, by simp [hsettled.semaphore], hsettled.otherPipe, hsettled.idle⟩
      -- in the other phases there is no token to wait for
      | running _ hrunning => exact absurd hrunning.semaphore (by omega)
      | yielding _ hyielding _ => exact absurd hyielding.semaphore (by omega)
      | interrupted hsettled _ => exact absurd hsettled.semaphore (by omega)

end ThreadMetric.ThreadX.State
