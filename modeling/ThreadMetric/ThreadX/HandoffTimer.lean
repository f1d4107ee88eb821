import Mathlib.Tactic.SplitIfs
import ThreadMetric.ThreadX.HandoffThread

/-!
# Steps of the timer

A step of the timer loop and a kernel action of its interrupt keep the invariant. The timer stops
the current thread before the interrupt and either releases it afterwards or takes its permission
to run back and posts the token in its place.
-/

namespace ThreadMetric.ThreadX.State

open RecursiveMutex Signals

variable {ι : Type} {s s' : State ι} {i : ι} {stage : Stage} {holder : Option ι}

/-- What a step of the timer has to restore. -/
theorem Invariant.of_timer (h : s.Invariant) (hown : s'.mutex.Agrees .timer s'.timerPc.hold)
    (hkeeps : KeepsOthers .timer s.mutex s'.mutex) (hscheduler : s'.schedulerPc = s.schedulerPc)
    (hpcs : ∀ i, (s'.threads i).pc = (s.threads i).pc)
    (hsystem : s'.systemState = if s'.timerPc.inInterrupt then 1 else 0)
    (hphase : ∃ holder, s'.Phase s.schedulerPc.stage holder) : s'.Invariant where
  locked := by
    refine h.locked.step hkeeps (fun q hq ↦ ?_) hown
    cases q with
    | scheduler => exact congrArg SchedulerPc.hold hscheduler
    | timer => exact absurd rfl hq
    | thread i => exact congrArg ThreadPc.hold (hpcs i)
  systemState := hsystem
  phase := by
    rw [hscheduler]
    exact hphase

/-- A move of the timer between points that treat the threads alike. -/
theorem Invariant.moveTimer (h : s.Invariant) (start finish : TimerPc) (hstart : s.timerPc = start)
    (hfinish : s'.timerPc = finish) (hown : s'.mutex.Agrees .timer finish.hold)
    (hkeeps : KeepsOthers .timer s.mutex s'.mutex) (hscheduler : s'.schedulerPc = s.schedulerPc)
    (hsame : s.SameThreads s') (hsystem : s'.systemState = if finish.inInterrupt then 1 else 0)
    (hsignals : s.currentPtr ≠ none → SignalsAt finish = SignalsAt start)
    (hrest : start.rest = true ∧ finish.rest = true)
    (hout : start.outside = true → finish.outside = true ∨
      s.schedulerPc.stage = .selecting ∨ s.schedulerPc.stage = .waiting) : s'.Invariant := by
  subst hstart hfinish
  obtain ⟨holder, hphase⟩ := h.phase
  refine h.of_timer hown hkeeps hscheduler (fun i ↦ by rw [hsame.threads]) hsystem ⟨holder, ?_⟩
  exact hphase.moveTimer hsame hsignals hrest.1 hrest.2 hout

/-- While the timer holds the mutex the scheduler is selecting or waiting. -/
theorem Locked.stage_of_timer (h : s.Locked) {hold : Hold} (hown : s.mutex.Agrees .timer hold)
    (hhold : hold = .once ∨ hold = .some) :
    s.schedulerPc.stage = .selecting ∨ s.schedulerPc.stage = .waiting := by
  refine h.stage_cases fun howner ↦ ?_
  exact absurd ((hown.owner hhold).symm.trans howner) (by simp)

/-- A current thread runs while the scheduler is selecting or waiting. -/
theorem Phase.current_running (h : s.Phase stage holder)
    (hstage : stage = .selecting ∨ stage = .waiting) (hcurrent : s.currentPtr = some i) :
    stage = .waiting ∧ s.Running i := by
  cases h with
  | selecting h _ | interrupted h _ | yielded h _ => simp [h.current] at hcurrent
  | yielding _ h _ => simp [h.current] at hcurrent
  | resuming | offering | starting | leaving => simp at hstage
  | running j h =>
      obtain rfl : j = i := by simpa [h.current] using hcurrent
      exact ⟨rfl, h⟩

/-- While the timer suspends or resumes a thread, this thread is the current one. -/
theorem Phase.running_of_not_rest (h : s.Phase stage holder) (hrest : s.timerPc.rest = false)
    (hpc : s.timerPc ≠ .restoreDrain ∧ s.timerPc ≠ .restorePost) :
    stage = .waiting ∧ ∃ i, s.Running i := by
  have hnot : s.timerPc.outside ≠ true := by
    cases htimer : s.timerPc <;> simp_all [TimerPc.rest, TimerPc.outside]
  cases h with
  | selecting _ h | yielding _ _ h | yielded _ h => simp [h] at hrest
  | resuming _ _ _ h | offering _ _ _ h | starting _ _ h | leaving _ _ h => exact absurd h hnot
  | interrupted _ h => exact absurd h (by simp [hpc])
  | running i h => exact ⟨rfl, i, h⟩

/-- While the timer drains and posts in place of a thread, all threads are idle. -/
theorem Phase.settled_of_interrupted (h : s.Phase stage holder)
    (hpc : s.timerPc = .restoreDrain ∨ s.timerPc = .restorePost) :
    stage = .waiting ∧ s.Settled none 0 := by
  have hrest : s.timerPc.rest ≠ true := by rcases hpc with hpc | hpc <;> simp [hpc, TimerPc.rest]
  have hout : s.timerPc.outside ≠ true := by
    rcases hpc with hpc | hpc <;> simp [hpc, TimerPc.outside]
  cases h with
  | selecting _ h | yielding _ _ h | yielded _ h => exact absurd h hrest
  | resuming _ _ _ h | offering _ _ _ h | starting _ _ h | leaving _ _ h => exact absurd h hout
  | interrupted h _ => exact ⟨rfl, h⟩
  | running i h =>
      have hsignals := h.signals
      rcases hpc with hpc | hpc <;> rw [hpc] at hsignals <;> exact hsignals.elim

/-- A halted thread that does not hold the mutex is idle once it has been marked. -/
theorem Running.stopped (h : s.Running i) (hsignals : Halted (s.threads i).signals)
    (hlocked : s.Locked) (howner : s.mutex.owner = some .timer) :
    ({ s.threads i with suspensionType := true } : Thread).Stopped := by
  obtain ⟨-, hsome⟩ := hlocked.owner_unique (.thread i) howner (by simp)
  refine ⟨h.runSemaphore, hsignals, rfl, ?_⟩
  rcases h.pc with hpc | hpc | hpc | hpc | hpc
  · exact .inl hpc
  · exact .inr (.inl hpc)
  · exact .inr (.inr hpc)
  · exact absurd (congrArg ThreadPc.hold hpc) hsome
  · exact absurd (congrArg ThreadPc.hold hpc) hsome

variable [DecidableEq ι]

/-- The current thread stays current when the timer changes its signals and marks it. -/
theorem Running.changeTimer (h : s.Running i) {change : Thread → Thread} {pc : TimerPc}
    (hpc : ∀ t, (change t).pc = t.pc) (hrun : ∀ t, (change t).runSemaphore = t.runSemaphore)
    (hsignals : SignalsAt pc (change (s.threads i)).signals s.otherPipe) :
    ({ s.updateThread i change with timerPc := pc } : State ι).Running i := by
  refine ⟨h.current, h.semaphore, fun j hj ↦ ?_, ?_, ?_, ?_⟩
  · simpa [hj] using h.others j hj
  · simpa [hrun] using h.runSemaphore
  · show SignalsAt pc ((s.updateThread i change).threads i).signals s.otherPipe
    rw [updateThread_self]
    exact hsignals
  · simpa [hpc] using h.pc

/-- While `_tx_posix_thread_suspend` stops the current thread, this thread stays current. -/
theorem Invariant.suspend_step (h : s.Invariant)
    (hpc : s.timerPc = .saveSuspend ∨ s.timerPc = .saveReadPipe ∨ s.timerPc = .saveMark)
    (hstep : s.posixTimerInterrupt = some s') : s'.Invariant := by
  have hown : s.mutex.Agrees .timer s.timerPc.hold := h.locked .timer
  have hsystem := h.systemState
  obtain ⟨holder, hphase⟩ := h.phase
  obtain ⟨hstage, i, hrunning⟩ := hphase.running_of_not_rest
    (by rcases hpc with hpc | hpc | hpc <;> simp [hpc, TimerPc.rest])
    (by rcases hpc with hpc | hpc | hpc <;> simp [hpc])
  have hsignals := hrunning.signals
  unfold State.posixTimerInterrupt at hstep
  rcases hpc with hpc | hpc | hpc
  -- it sends the signal
  · rw [hpc] at hown hsystem hsignals
    simp only [hpc, hrunning.current, Option.map_some, Option.some.injEq] at hstep
    subst hstep
    refine h.of_timer hown .refl rfl (by simp [suspendThread]) hsystem ?_
    rw [hstage]
    refine ⟨_, .running i (hrunning.changeTimer (fun _ ↦ rfl) (fun _ ↦ rfl) ?_)⟩
    obtain ⟨hreleased, hpipe⟩ := hsignals
    rw [hpipe]
    exact Stopping.pending hreleased
  -- the acknowledgment is there, so the thread is in its handler
  · rw [hpc] at hown hsystem hsignals
    simp only [hpc, Option.ite_none_right_eq_some, Option.some.injEq] at hstep
    obtain ⟨hbyte, rfl⟩ := hstep
    refine h.of_timer hown .refl rfl (fun _ ↦ rfl) hsystem ?_
    rw [hstage]
    obtain ⟨hone, hhalted⟩ := hsignals.halted hbyte
    refine ⟨_, .running i ⟨hrunning.current, hrunning.semaphore, hrunning.others,
      hrunning.runSemaphore, ⟨hhalted, ?_⟩, hrunning.pc⟩⟩
    show s.otherPipe - 1 = 0
    rw [hone]
  -- it notes that a signal has to resume the thread
  · rw [hpc] at hown hsystem hsignals
    simp only [hpc, hrunning.current, Option.map_some, Option.some.injEq] at hstep
    subst hstep
    refine h.of_timer hown .refl rfl (by simp) hsystem ?_
    rw [hstage]
    exact ⟨_, .running i (hrunning.changeTimer (fun _ ↦ rfl) (fun _ ↦ rfl) hsignals)⟩

/-- A thread that the timer leaves stopped gives its permission to run back. -/
theorem Running.interrupted (h : s.Running i) (hpipe : s.otherPipe = 0)
    (hstopped : ({ s.threads i with suspensionType := true } : Thread).Stopped) {states : ℕ}
    {pc : TimerPc} :
    ({ s.updateThread i fun t ↦ { t with suspensionType := true } with
      systemState := states, currentPtr := none, timerPc := pc } : State ι).Settled none 0 := by
  refine ⟨rfl, h.semaphore, hpipe, fun j ↦ ?_⟩
  by_cases hj : j = i
  · subst hj
    right
    simpa using hstopped
  · simpa [hj] using h.others j hj

/-- At the end of the interrupt the timer lets the current thread go on or takes its place. -/
theorem Invariant.restoreLeave_step (h : s.Invariant) (hpc : s.timerPc = .restoreLeave)
    (hstep : s.posixTimerInterrupt = some s') : s'.Invariant := by
  have hown : s.mutex.Agrees .timer s.timerPc.hold := h.locked .timer
  have hsystem := h.systemState
  obtain ⟨holder, hphase⟩ := h.phase
  rw [hpc] at hown hsystem
  have hone : s.systemState = 1 := hsystem
  unfold State.posixTimerInterrupt at hstep
  cases hcurrent : s.currentPtr with
  | none =>
      simp only [hpc, hcurrent, Option.some.injEq] at hstep
      subst hstep
      refine h.moveTimer .restoreLeave .restoreUnlock hpc rfl hown .refl rfl
        ⟨hcurrent.symm, rfl, rfl, rfl⟩ ?_ (fun hnot ↦ absurd hcurrent hnot) ⟨rfl, rfl⟩
        (by simp [TimerPc.outside])
      show s.systemState - 1 = 0
      omega
  | some i =>
      obtain ⟨hstage, hrunning⟩ :=
        hphase.current_running (h.locked.stage_of_timer hown (.inr rfl)) hcurrent
      simp only [hpc, hcurrent, hone, Nat.sub_self, ne_eq, not_true_eq_false, if_false] at hstep
      split_ifs at hstep with hpreempt
      -- another thread is to be executed: this one is left stopped
      · obtain rfl := Option.some.inj hstep
        refine h.of_timer hown .refl rfl (by simp) rfl ?_
        rw [hstage]
        have hsignals := hrunning.signals
        rw [hpc] at hsignals
        have hstopped := hrunning.stopped hsignals.1 h.locked hown
        exact ⟨_, .interrupted (hrunning.interrupted hsignals.2 hstopped) (.inl rfl)⟩
      · obtain rfl := Option.some.inj hstep
        refine h.of_timer hown .refl rfl (fun _ ↦ rfl) rfl ?_
        rw [hstage]
        exact ⟨_, .running i (hrunning.congr ⟨hcurrent.symm, rfl, rfl, rfl⟩ (by rw [hpc]; rfl))⟩

/-- In place of the thread that it has stopped the timer posts the token. -/
theorem Invariant.takePlace_step (h : s.Invariant)
    (hpc : s.timerPc = .restoreDrain ∨ s.timerPc = .restorePost)
    (hstep : s.posixTimerInterrupt = some s') : s'.Invariant := by
  have hown : s.mutex.Agrees .timer s.timerPc.hold := h.locked .timer
  have hsystem := h.systemState
  obtain ⟨holder, hphase⟩ := h.phase
  obtain ⟨hstage, hsettled⟩ := hphase.settled_of_interrupted hpc
  unfold State.posixTimerInterrupt at hstep
  rcases hpc with hpc | hpc
  -- there is no token to drain
  · rw [hpc] at hown hsystem
    simp only [hpc, hsettled.semaphore, Nat.lt_irrefl, if_false, Option.some.injEq] at hstep
    subst hstep
    refine h.of_timer hown .refl rfl (fun _ ↦ rfl) hsystem ?_
    rw [hstage]
    refine ⟨_, .interrupted ?_ (.inr rfl)⟩
    exact ⟨hsettled.current, rfl, hsettled.otherPipe, hsettled.idle⟩
  · rw [hpc] at hown hsystem
    simp only [hpc, Option.some.injEq] at hstep
    subst hstep
    refine h.of_timer hown .refl rfl (fun _ ↦ rfl) hsystem ?_
    rw [hstage]
    refine ⟨_, .yielded ?_ rfl⟩
    exact ⟨hsettled.current, by simp [hsettled.semaphore], hsettled.otherPipe, hsettled.idle⟩

/-- A step of the timer keeps the invariant. -/
theorem Invariant.posixTimerInterrupt (h : s.Invariant)
    (hstep : s.posixTimerInterrupt = some s') : s'.Invariant := by
  have hown : s.mutex.Agrees .timer s.timerPc.hold := h.locked .timer
  have hsystem := h.systemState
  obtain ⟨holder, hphase⟩ := h.phase
  have hstart := hstep
  unfold State.posixTimerInterrupt at hstep
  cases hpc : s.timerPc with
  | waitStart =>
      rw [hpc] at hown hsystem
      simp only [hpc, Option.ite_none_right_eq_some, Option.some.injEq] at hstep
      obtain ⟨-, rfl⟩ := hstep
      exact h.moveTimer .waitStart .sleep hpc rfl hown .refl rfl ⟨rfl, rfl, rfl, rfl⟩ hsystem
        (fun _ ↦ rfl) ⟨rfl, rfl⟩ fun _ ↦ .inl rfl
  | sleep =>
      rw [hpc] at hown hsystem
      simp only [hpc, Option.some.injEq] at hstep
      subst hstep
      exact h.moveTimer .sleep .saveLock hpc rfl hown .refl rfl ⟨rfl, rfl, rfl, rfl⟩ hsystem
        (fun _ ↦ rfl) ⟨rfl, rfl⟩ fun _ ↦ .inl rfl
  | saveLock =>
      rw [hpc] at hown hsystem
      simp only [hpc, Option.map_eq_some_iff] at hstep
      obtain ⟨m, hlock, rfl⟩ := hstep
      exact h.moveTimer .saveLock .saveTest hpc rfl (lock_of_never hlock hown) (.of_lock hlock) rfl
        ⟨rfl, rfl, rfl, rfl⟩ hsystem (fun _ ↦ rfl) ⟨rfl, rfl⟩
        fun _ ↦ .inr (h.locked.not_lock hlock (by simp))
  | saveTest =>
      rw [hpc] at hown hsystem
      simp only [hpc, Option.some.injEq] at hstep
      subst hstep
      by_cases hcurrent : s.currentPtr = none
      · simp only [hcurrent, ne_eq, not_true_eq_false, false_and, if_false]
        exact h.moveTimer .saveTest .saveEnter hpc rfl hown .refl rfl ⟨hcurrent.symm, rfl, rfl, rfl⟩
          hsystem (fun hnot ↦ absurd hcurrent hnot) ⟨rfl, rfl⟩ (by simp [TimerPc.outside])
      · obtain ⟨i, hi⟩ := Option.ne_none_iff_exists'.mp hcurrent
        have hzero : s.systemState = 0 := hsystem
        obtain ⟨hstage, hrunning⟩ :=
          hphase.current_running (h.locked.stage_of_timer hown (.inl rfl)) hi
        rw [if_pos ⟨hcurrent, hzero⟩]
        refine h.of_timer hown .refl rfl (fun _ ↦ rfl) hsystem ?_
        rw [hstage]
        exact ⟨_, .running i (hrunning.congr ⟨rfl, rfl, rfl, rfl⟩ (by rw [hpc]; rfl))⟩
  | saveSuspend => exact h.suspend_step (.inl hpc) hstart
  | saveReadPipe => exact h.suspend_step (.inr (.inl hpc)) hstart
  | saveMark => exact h.suspend_step (.inr (.inr hpc)) hstart
  | saveEnter =>
      rw [hpc] at hown hsystem
      simp only [hpc, Option.some.injEq] at hstep
      subst hstep
      refine h.moveTimer .saveEnter .interruptLock hpc rfl (unlock_never hown) .of_unlock rfl
        ⟨rfl, rfl, rfl, rfl⟩ ?_ (fun _ ↦ rfl) ⟨rfl, rfl⟩ (by simp [TimerPc.outside])
      show s.systemState + 1 = 1
      rw [hsystem]
      rfl
  | interruptLock =>
      rw [hpc] at hown hsystem
      simp only [hpc, Option.map_eq_some_iff] at hstep
      obtain ⟨m, hlock, rfl⟩ := hstep
      exact h.moveTimer .interruptLock .interrupt hpc rfl trivial (.of_lock hlock) rfl
        ⟨rfl, rfl, rfl, rfl⟩ hsystem (fun _ ↦ rfl) ⟨rfl, rfl⟩ (by simp [TimerPc.outside])
  | interrupt =>
      rw [hpc] at hsystem
      simp only [hpc, Option.some.injEq] at hstep
      subst hstep
      exact h.moveTimer .interrupt .restoreLock hpc rfl trivial .of_unlock rfl
        ⟨rfl, rfl, rfl, rfl⟩ hsystem (fun _ ↦ rfl) ⟨rfl, rfl⟩ (by simp [TimerPc.outside])
  | restoreLock =>
      rw [hpc] at hsystem
      simp only [hpc, Option.map_eq_some_iff] at hstep
      obtain ⟨m, hlock, rfl⟩ := hstep
      exact h.moveTimer .restoreLock .restoreLeave hpc rfl (owner_of_lock hlock).1 (.of_lock hlock)
        rfl ⟨rfl, rfl, rfl, rfl⟩ hsystem (fun _ ↦ rfl) ⟨rfl, rfl⟩ (by simp [TimerPc.outside])
  | restoreLeave => exact h.restoreLeave_step hpc hstart
  | restoreResume =>
      rw [hpc] at hown hsystem
      obtain ⟨hstage, i, hrunning⟩ := hphase.running_of_not_rest (by simp [hpc, TimerPc.rest])
        (by simp [hpc])
      simp only [hpc, hrunning.current, Option.map_some, Option.some.injEq] at hstep
      subst hstep
      refine h.of_timer hown .refl rfl (by simp [State.resumeThread]) hsystem ?_
      rw [hstage]
      refine ⟨_, .running i (hrunning.changeTimer (fun _ ↦ rfl) (fun _ ↦ rfl) ?_)⟩
      have hsignals := hrunning.signals
      rw [hpc] at hsignals
      exact ⟨hsignals.1.sendResume, hsignals.2⟩
  | restoreDrain => exact h.takePlace_step (.inl hpc) hstart
  | restorePost => exact h.takePlace_step (.inr hpc) hstart
  | restoreTest =>
      rw [hpc] at hown hsystem
      simp only [hpc] at hstep
      cases hexec : s.executePtr with
      | none =>
          simp only [hexec, Option.some.injEq] at hstep
          subst hstep
          exact h.moveTimer .restoreTest .restoreUnlock hpc rfl hown .refl rfl
            ⟨rfl, rfl, rfl, rfl⟩ hsystem (fun _ ↦ rfl) ⟨rfl, rfl⟩ (by simp [TimerPc.outside])
      | some i =>
          simp only [hexec] at hstep
          split_ifs at hstep with htype
          · obtain rfl := Option.some.inj hstep
            exact h.moveTimer .restoreTest .restoreUnlock hpc rfl hown .refl rfl
              ⟨rfl, rfl, rfl, rfl⟩ hsystem (fun _ ↦ rfl) ⟨rfl, rfl⟩ (by simp [TimerPc.outside])
          · obtain rfl := Option.some.inj hstep
            exact h.moveTimer .restoreTest .restoreWaitIsr hpc rfl release_never .of_release rfl
              ⟨rfl, rfl, rfl, rfl⟩ hsystem (fun _ ↦ rfl) ⟨rfl, rfl⟩ (by simp [TimerPc.outside])
  | restoreWaitIsr =>
      rw [hpc] at hown hsystem
      simp only [hpc, Option.ite_none_right_eq_some, Option.some.injEq] at hstep
      obtain ⟨-, rfl⟩ := hstep
      exact h.moveTimer .restoreWaitIsr .restoreRelock hpc rfl hown .refl rfl ⟨rfl, rfl, rfl, rfl⟩
        hsystem (fun _ ↦ rfl) ⟨rfl, rfl⟩ fun _ ↦ .inl rfl
  | restoreRelock =>
      rw [hpc] at hown hsystem
      simp only [hpc, Option.map_eq_some_iff] at hstep
      obtain ⟨m, hlock, rfl⟩ := hstep
      exact h.moveTimer .restoreRelock .restoreDrainIsr hpc rfl (owner_of_lock hlock).1
        (.of_lock hlock) rfl ⟨rfl, rfl, rfl, rfl⟩ hsystem (fun _ ↦ rfl) ⟨rfl, rfl⟩
        fun _ ↦ .inr (h.locked.not_lock hlock (by simp))
  | restoreDrainIsr =>
      rw [hpc] at hown hsystem
      simp only [hpc] at hstep
      split_ifs at hstep with hposted
      · obtain rfl := Option.some.inj hstep
        exact h.moveTimer .restoreDrainIsr .restoreDrainIsr hpc rfl hown .refl rfl
          ⟨rfl, rfl, rfl, rfl⟩ hsystem (fun _ ↦ rfl) ⟨rfl, rfl⟩ (by simp [TimerPc.outside])
      · obtain rfl := Option.some.inj hstep
        exact h.moveTimer .restoreDrainIsr .restoreUnlock hpc rfl hown .refl rfl
          ⟨rfl, rfl, rfl, rfl⟩ hsystem (fun _ ↦ rfl) ⟨rfl, rfl⟩ (by simp [TimerPc.outside])
  | restoreUnlock =>
      rw [hpc] at hsystem
      simp only [hpc, Option.some.injEq] at hstep
      subst hstep
      exact h.moveTimer .restoreUnlock .sleep hpc rfl release_never .of_release rfl
        ⟨rfl, rfl, rfl, rfl⟩ hsystem (fun _ ↦ rfl) ⟨rfl, rfl⟩ (by simp [TimerPc.outside])

/-- A kernel action of the interrupt keeps the invariant. -/
theorem Invariant.kernelStep_timer (h : s.Invariant) {action : KernelAction ι}
    (hpc : s.timerPc = .interrupt) (hstep : s.kernelStep .timer action = some s') :
    s'.Invariant := by
  obtain ⟨holder, hphase⟩ := h.phase
  have hsystem := h.systemState
  have hmaybe (m : RecursiveMutex (Party ι)) : m.Agrees .timer s.timerPc.hold := by
    rw [hpc]
    trivial
  cases action with
  | setExecutePtr next =>
      obtain rfl := Option.some.inj hstep
      exact h.of_timer (hmaybe _) .refl rfl (fun _ ↦ rfl) hsystem
        ⟨holder, hphase.congr ⟨rfl, rfl, rfl, rfl⟩ rfl⟩
  | setPreemptDisable count =>
      obtain rfl := Option.some.inj hstep
      exact h.of_timer (hmaybe _) .refl rfl (fun _ ↦ rfl) hsystem
        ⟨holder, hphase.congr ⟨rfl, rfl, rfl, rfl⟩ rfl⟩
  | interruptControl posture =>
      simp only [kernelStep, interruptControl, Option.map_eq_some_iff] at hstep
      obtain ⟨m, hlock, hstep⟩ := hstep
      have hactive : s.systemState ≠ 0 := by simp [hsystem, hpc, TimerPc.inInterrupt]
      simp only [setPosture, ne_eq, hactive, not_false_eq_true, if_true] at hstep
      subst hstep
      refine h.of_timer (hmaybe _) ?_ rfl (fun _ ↦ rfl) hsystem
        ⟨holder, hphase.congr ⟨rfl, rfl, rfl, rfl⟩ rfl⟩
      cases posture with
      | enable => exact (KeepsOthers.of_lock hlock).trans .of_release
      | disable => exact .of_lock hlock

end ThreadMetric.ThreadX.State
