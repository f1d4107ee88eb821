import ThreadMetric.ThreadX.HandoffScheduler

/-!
# Steps of the threads

A step of a thread, a kernel action of the code it runs and the delivery of its signals keep the
invariant. An idle thread can only finish its unlock after the post of the token; a thread with the
permission to run passes it on through the token of `_tx_posix_semaphore`.
-/

namespace ThreadMetric.ThreadX

open RecursiveMutex Signals

/-- The signals of the current thread stay as the timer's point demands. -/
theorem SignalsAt.step {pc : TimerPc} {g g' : Signals} {bytes written : ℕ}
    (h : SignalsAt pc g bytes) (hstep : g.step = some (g', written)) :
    SignalsAt pc g' (bytes + written) := by
  have hreleased (h : Released g ∧ bytes = 0) : Released g' ∧ bytes + written = 0 := by
    obtain ⟨hafter, rfl⟩ := h.1.step hstep
    exact ⟨hafter, h.2⟩
  have hhalted (h : Halted g ∧ bytes = 0) : Halted g' ∧ bytes + written = 0 := by
    obtain ⟨hafter, rfl⟩ := h.1.step hstep
    exact ⟨hafter, h.2⟩
  cases pc with
  | saveReadPipe => exact Stopping.step h hstep
  | saveMark | saveEnter | interruptLock | interrupt | restoreLock | restoreLeave
  | restoreResume => exact hhalted h
  | restoreDrain | restorePost => exact h
  | _ => exact hreleased h

namespace State

variable {ι : Type} {s s' : State ι} {i : ι} {stage : Stage} {holder : Option ι}

/-- What a step of a thread has to restore. -/
theorem Invariant.of_thread (h : s.Invariant) (i : ι) (pc : ThreadPc)
    (hpc : (s'.threads i).pc = pc) (hown : s'.mutex.Agrees (.thread i) pc.hold)
    (hkeeps : KeepsOthers (.thread i) s.mutex s'.mutex)
    (hothers : ∀ j ≠ i, s'.threads j = s.threads j)
    (hscheduler : s'.schedulerPc = s.schedulerPc) (hsystem : s'.systemState = s.systemState)
    (htimer : s'.timerPc = s.timerPc)
    (hphase : ∃ holder, s'.Phase s.schedulerPc.stage holder) : s'.Invariant where
  locked := by
    refine h.locked.step hkeeps (fun q hq ↦ ?_) ?_
    · cases q with
      | scheduler => exact congrArg SchedulerPc.hold hscheduler
      | timer => exact congrArg TimerPc.hold htimer
      | thread j =>
          have hj : j ≠ i := fun heq ↦ hq (congrArg Party.thread heq)
          show (s'.threads j).pc.hold = (s.threads j).pc.hold
          rw [hothers j hj]
    · show s'.mutex.Agrees (.thread i) (s'.threads i).pc.hold
      rw [hpc]
      exact hown
  systemState := by
    rw [hsystem, htimer]
    exact h.systemState
  phase := by
    rw [hscheduler]
    exact hphase

/-- While the scheduler is neither selecting nor waiting it holds the mutex. -/
theorem Locked.not_lock [DecidableEq ι] (h : s.Locked) {p : Party ι}
    {m : RecursiveMutex (Party ι)} (hlock : s.mutex.lock p = some m) (hp : p ≠ .scheduler) :
    s.schedulerPc.stage = .selecting ∨ s.schedulerPc.stage = .waiting := by
  refine h.stage_cases fun howner ↦ ?_
  rcases (owner_of_lock hlock).2 with hfree | hsame
  · simp [hfree] at howner
  · exact hp (Option.some.inj (hsame.symm.trans howner))

/-- When the current thread holds the mutex and is outside the handler, the timer has not touched
it. -/
theorem Running.untouched (h : s.Running i) (hlocked : s.Locked)
    (howner : s.mutex.owner = some (.thread i)) (hout : (s.threads i).signals.handler = .out) :
    (s.threads i).signals = .quiet ∧ s.otherPipe = 0 ∧ s.timerPc.rest = true := by
  obtain ⟨honce, hsome⟩ := hlocked.owner_unique .timer howner (by simp)
  have hsignals := h.signals
  cases hpc : s.timerPc with
  | waitStart | sleep | saveLock | restoreWaitIsr | restoreRelock =>
      rw [hpc] at hsignals
      exact ⟨hsignals.1.eq_quiet hout, hsignals.2, rfl⟩
  | interruptLock | interrupt | restoreLock =>
      rw [hpc] at hsignals
      exact absurd hout hsignals.1.handler_ne
  | _ => simp [hold, hpc, TimerPc.hold] at honce hsome

/-- A step of the current thread restores the invariant if the thread stays at points at which it
runs and its signals are not touched. -/
theorem Invariant.of_running (h : s.Invariant) (hrunning : s.Running i)
    (hkeep : ∀ {s' : State ι}, s'.Running i → s'.timerPc = s.timerPc →
      s'.Phase s.schedulerPc.stage (some i))
    (pc : ThreadPc) (hpc : (s'.threads i).pc = pc)
    (hactive : pc = .running ∨ pc = .returnLock ∨ pc = .returnRelock ∨ pc = .returnClear ∨
      pc = .returnRecheck)
    (hown : s'.mutex.Agrees (.thread i) pc.hold)
    (hkeeps : KeepsOthers (.thread i) s.mutex s'.mutex) (honly : OnlyThread i s s')
    (hscheduler : s'.schedulerPc = s.schedulerPc) (hsystem : s'.systemState = s.systemState)
    (hrun : (s'.threads i).runSemaphore = (s.threads i).runSemaphore)
    (hsignals : (s'.threads i).signals = (s.threads i).signals) : s'.Invariant := by
  refine h.of_thread i pc hpc hown hkeeps honly.others hscheduler hsystem honly.timerPc
    ⟨some i, hkeep (hrunning.change honly hrun hsignals ?_) honly.timerPc⟩
  rw [hpc]
  exact hactive

variable [DecidableEq ι]

/-- The only step of an idle thread is its unlock after the post of the token. -/
theorem idle_step (hidle : (s.threads i).Idle) (hout : (s.threads i).signals.handler = .out)
    (hstep : s.threadStep i = some s') :
    (s.threads i).Parked ∧ (s.threads i).pc = .returnPostUnlock ∧
      s' = { s.updateThread i fun t ↦ { t with pc := .returnWait } with
        mutex := s.mutex.unlock (.thread i) } := by
  rcases hidle with hparked | hstopped
  · unfold threadStep at hstep
    rcases hparked.pc with hpc | hpc | hpc
    · simp [hpc, hparked.runSemaphore] at hstep
    · simp only [hpc, Option.some.injEq] at hstep
      exact ⟨hparked, hpc, hstep.symm⟩
    · simp [hpc, hparked.runSemaphore] at hstep
  · exact absurd hout hstopped.signals.handler_ne

/-- A step of an idle thread keeps the invariant. -/
theorem Invariant.idle_step (h : s.Invariant) (hphase : s.Phase s.schedulerPc.stage holder)
    (hne : holder ≠ some i) (hout : (s.threads i).signals.handler = .out)
    (hstep : s.threadStep i = some s') : s'.Invariant := by
  obtain ⟨hparked, hpc, rfl⟩ := State.idle_step (hphase.idle hne) hout hstep
  have hown : s.mutex.Agrees (.thread i) (s.threads i).pc.hold := h.locked (.thread i)
  rw [hpc] at hown
  refine h.of_thread i .returnWait (by simp) (unlock_never hown) .of_unlock
    (fun j hj ↦ by simp [hj]) rfl rfl rfl ⟨holder, ?_⟩
  refine hphase.changeIdle (i := i) ?_ hne (fun _ ↦ ?_) (fun hstopped ↦ ?_)
  · exact ⟨rfl, rfl, rfl, rfl, fun j hj ↦ by simp [hj]⟩
  · exact ⟨by simpa using hparked.runSemaphore, by simpa using hparked.signals,
      by simpa using hparked.suspensionType, by simp⟩
  · exact absurd hout hstopped.signals.handler_ne

/-- A step of the posted thread restores the invariant if it carries the permission on. -/
theorem Invariant.of_starting (h : s.Invariant) (hstage : s.schedulerPc.stage = .starting)
    (hstarting : s.Starting i) (hout : s.timerPc.outside = true) {run tokens : ℕ} {pc : ThreadPc}
    (hs' : s' = { s.updateThread i fun t ↦ { t with runSemaphore := run, pc := pc } with
      semaphore := tokens })
    (hown : s.mutex.Agrees (.thread i) pc.hold) (htoken : s'.Token i) : s'.Invariant := by
  subst hs'
  refine h.of_thread i pc (by simp) hown .refl (fun j hj ↦ by simp [hj]) rfl rfl rfl ?_
  rw [hstage]
  refine ⟨_, .starting i ⟨hstarting.current, hstarting.otherPipe, fun j hj ↦ ?_, ?_, ?_, htoken⟩
    hout⟩
  · simpa [hj] using hstarting.others j hj
  · simpa using hstarting.signals
  · simpa using hstarting.suspensionType

/-- A posted thread takes its run semaphore and posts the token; it cannot lock the mutex. -/
theorem Invariant.starting_step (h : s.Invariant) (hstage : s.schedulerPc.stage = .starting)
    (hstarting : s.Starting i) (hout : s.timerPc.outside = true)
    (hstep : s.threadStep i = some s') : s'.Invariant := by
  have hown : s.mutex.Agrees (.thread i) (s.threads i).pc.hold := h.locked (.thread i)
  have hnolock : s.mutex.lock (.thread i) = none := by
    cases hlock : s.mutex.lock (.thread i) with
    | none => rfl
    | some m => simpa [hstage] using h.locked.not_lock hlock (by simp)
  unfold threadStep at hstep
  rcases hstarting.token with ⟨hrun, hsemaphore, hpc⟩ | ⟨hrun, hsemaphore, hpc⟩ |
    ⟨hrun, hsemaphore, hpc⟩
  -- it takes its run semaphore
  · rcases hpc with hpc | hpc
    all_goals
      rw [hpc] at hown
      simp only [hpc, hrun, Nat.zero_lt_one, if_true, Option.some.injEq] at hstep
      refine h.of_starting hstage hstarting hout hstep.symm hown (.inr (.inl ?_))
      subst hstep
      exact ⟨by simp [hrun], hsemaphore, by simp⟩
  -- it posts the token
  · rcases hpc with hpc | hpc
    all_goals
      rw [hpc] at hown
      simp only [hpc, Option.some.injEq] at hstep
      refine h.of_starting hstage hstarting hout hstep.symm ?_ (.inr (.inr ?_))
      · first | exact hown | trivial
      · subst hstep
        exact ⟨by simp [hrun], by simp [hsemaphore], by simp⟩
  -- it waits for the mutex, unless it runs already
  · rcases hpc with hpc | hpc | hpc
    · simp only [hpc, Option.some.injEq] at hstep
      refine h.of_starting hstage hstarting hout hstep.symm trivial (.inr (.inr ?_))
      subst hstep
      exact ⟨by simp [hrun], hsemaphore, by simp⟩
    · simp [hpc, hnolock] at hstep
    · simp [hpc, hnolock] at hstep

/-- A thread that clears `_tx_thread_current_ptr` is about to post the token. -/
theorem Running.yielding (h : s.Running i) (hsignals : (s.threads i).signals = .quiet)
    (hpipe : s.otherPipe = 0) (m : RecursiveMutex (Party ι)) :
    ({ s.updateThread i fun t ↦ { t with suspensionType := false, pc := .returnDrain } with
      currentPtr := none, mutex := m } : State ι).Yielding i := by
  refine ⟨rfl, h.semaphore, hpipe, fun j hj ↦ ?_, ?_, ?_, ?_, ?_⟩
  · simpa [hj] using h.others j hj
  · simpa using h.runSemaphore
  · simpa using hsignals
  · simp
  · simp

/-- The current thread calls `_tx_thread_system_return`, or comes back from it. -/
theorem Invariant.running_step (h : s.Invariant) (hrunning : s.Running i)
    (hkeep : ∀ {s' : State ι}, s'.Running i → s'.timerPc = s.timerPc →
      s'.Phase s.schedulerPc.stage (some i))
    (hwaiting : s.schedulerPc.stage ≠ .waiting → s.mutex.owner = some .scheduler)
    (hhandler : (s.threads i).signals.handler = .out)
    (hstep : s.threadStep i = some s') : s'.Invariant := by
  have hown : s.mutex.Agrees (.thread i) (s.threads i).pc.hold := h.locked (.thread i)
  unfold threadStep at hstep
  rcases hrunning.pc with hpc | hpc | hpc | hpc | hpc
  · simp only [hpc, Option.some.injEq] at hstep
    subst hstep
    exact h.of_running hrunning hkeep .returnLock (by simp) (by simp) trivial .refl
      ⟨rfl, rfl, rfl, rfl, fun j hj ↦ by simp [hj]⟩ rfl rfl (by simp) (by simp)
  · simp only [hpc, Option.map_eq_some_iff] at hstep
    obtain ⟨m, hlock, rfl⟩ := hstep
    exact h.of_running hrunning hkeep .returnClear (by simp) (by simp) (owner_of_lock hlock).1
      (.of_lock hlock) ⟨rfl, rfl, rfl, rfl, fun j hj ↦ by simp [hj]⟩ rfl rfl (by simp) (by simp)
  · simp only [hpc, Option.map_eq_some_iff] at hstep
    obtain ⟨m, hlock, rfl⟩ := hstep
    exact h.of_running hrunning hkeep .returnRecheck (by simp) (by simp) (owner_of_lock hlock).1
      (.of_lock hlock) ⟨rfl, rfl, rfl, rfl, fun j hj ↦ by simp [hj]⟩ rfl rfl (by simp) (by simp)
  · rw [hpc] at hown
    simp only [hpc, exitUnlessCurrent, if_pos hrunning.current, Option.some.injEq] at hstep
    subst hstep
    -- it holds the mutex, so neither the timer nor the scheduler is in its way
    obtain ⟨hquiet, hpipe, hrest⟩ := hrunning.untouched h.locked hown hhandler
    refine h.of_thread i .returnDrain (by simp) release_never .of_release
      (fun j hj ↦ by simp [hj]) rfl rfl rfl ?_
    have hstage : s.schedulerPc.stage = .waiting := by
      by_contra hnot
      exact absurd (hown.symm.trans (hwaiting hnot)) (by simp)
    rw [hstage]
    exact ⟨_, .yielding i (hrunning.yielding hquiet hpipe _) hrest⟩
  · simp only [hpc, exitUnlessCurrent, if_pos hrunning.current, Option.some.injEq] at hstep
    subst hstep
    refine h.of_running hrunning hkeep .running (by simp) (by simp) trivial ?_
      ⟨rfl, rfl, rfl, rfl, fun j hj ↦ by simp [hj]⟩ rfl rfl (by simp) (by simp)
    show KeepsOthers _ _ (if (s.threads i).intDisabled then s.mutex else s.mutex.release _)
    cases (s.threads i).intDisabled with
    | true => exact .refl
    | false => exact .of_release

/-- A step of the yielding thread restores the invariant while it has not posted the token. -/
theorem Invariant.of_yielding (h : s.Invariant) (hstage : s.schedulerPc.stage = .waiting)
    (hyielding : s.Yielding i) (hrest : s.timerPc.rest = true) {pc : ThreadPc}
    {m : RecursiveMutex (Party ι)}
    (hs' : s' = { s.updateThread i fun t ↦ { t with pc := pc } with mutex := m })
    (hown : m.Agrees (.thread i) pc.hold) (hkeeps : KeepsOthers (.thread i) s.mutex m)
    (hpc : pc = .returnDrain ∨ pc = .returnPostLock ∨ pc = .returnPost) : s'.Invariant := by
  subst hs'
  refine h.of_thread i pc (by simp) hown hkeeps (fun j hj ↦ by simp [hj]) rfl rfl rfl ?_
  rw [hstage]
  refine ⟨_, .yielding i ⟨hyielding.current, hyielding.semaphore, hyielding.otherPipe,
    fun j hj ↦ ?_, ?_, ?_, ?_, ?_⟩ hrest⟩
  · simpa [hj] using hyielding.others j hj
  · simpa using hyielding.runSemaphore
  · simpa using hyielding.signals
  · simpa using hyielding.suspensionType
  · simpa using hpc

/-- A thread that has posted the token is parked. -/
theorem Yielding.posted (h : s.Yielding i) :
    ({ s.updateThread i fun t ↦ { t with pc := .returnPostUnlock } with
      semaphore := s.semaphore + 1 } : State ι).Settled none 1 := by
  refine ⟨h.current, by simp [h.semaphore], h.otherPipe, fun j ↦ ?_⟩
  by_cases hj : j = i
  · subst hj
    left
    exact ⟨by simpa using h.runSemaphore, by simpa using h.signals,
      by simpa using h.suspensionType, by simp⟩
  · simpa [hj] using h.others j hj

/-- A thread that has cleared `_tx_thread_current_ptr` posts the token. -/
theorem Invariant.yielding_step (h : s.Invariant) (hstage : s.schedulerPc.stage = .waiting)
    (hyielding : s.Yielding i) (hrest : s.timerPc.rest = true)
    (hstep : s.threadStep i = some s') : s'.Invariant := by
  have hown : s.mutex.Agrees (.thread i) (s.threads i).pc.hold := h.locked (.thread i)
  unfold threadStep at hstep
  rcases hyielding.pc with hpc | hpc | hpc
  -- there is no token to drain
  · rw [hpc] at hown
    simp only [hpc, hyielding.semaphore, Nat.lt_irrefl, if_false, Option.some.injEq] at hstep
    exact h.of_yielding hstage hyielding hrest hstep.symm hown .refl (by simp)
  · rw [hpc] at hown
    simp only [hpc, Option.map_eq_some_iff] at hstep
    obtain ⟨m, hlock, rfl⟩ := hstep
    exact h.of_yielding hstage hyielding hrest rfl (lock_of_never hlock hown) (.of_lock hlock)
      (by simp)
  -- it posts the token
  · rw [hpc] at hown
    simp only [hpc, Option.some.injEq] at hstep
    subst hstep
    refine h.of_thread i .returnPostUnlock (by simp) hown .refl (fun j hj ↦ by simp [hj]) rfl rfl
      rfl ?_
    rw [hstage]
    exact ⟨_, .yielded hyielding.posted hrest⟩

/-- A step of a thread keeps the invariant. -/
theorem Invariant.threadStep (h : s.Invariant) (hhandler : (s.threads i).signals.handler = .out)
    (hstep : s.threadStep i = some s') : s'.Invariant := by
  obtain ⟨holder, hphase⟩ := h.phase
  by_cases hholder : holder = some i
  · subst hholder
    generalize hstage : s.schedulerPc.stage = stage at hphase
    cases hphase with
    | starting i hstarting hout => exact h.starting_step hstage hstarting hout hstep
    | leaving i hrunning hout =>
        refine h.running_step hrunning (fun hrun htimer ↦ ?_) (fun _ ↦ ?_) hhandler hstep
        · rw [hstage]
          exact .leaving i hrun (htimer ▸ hout)
        · by_contra hfree
          simpa [hstage] using h.locked.stage_cases hfree
    | running i hrunning =>
        refine h.running_step hrunning (fun hrun _ ↦ ?_) (fun hnot ↦ absurd hstage hnot) hhandler
          hstep
        rw [hstage]
        exact .running i hrun
    | yielding i hyielding hrest => exact h.yielding_step hstage hyielding hrest hstep
  · exact h.idle_step hphase hholder hhandler hstep

/-! ## Kernel code run by a thread -/

/-- While a thread runs kernel code it has the permission to run. -/
theorem Phase.holder_of_running (hphase : s.Phase stage holder)
    (hhandler : (s.threads i).signals.handler = .out) (hpc : (s.threads i).pc = .running) :
    holder = some i := by
  by_contra hne
  rcases hphase.idle hne with hparked | hstopped
  · simpa [hpc] using hparked.pc
  · exact absurd hhandler hstopped.signals.handler_ne

/-- A kernel action of a thread keeps the invariant. -/
theorem Invariant.kernelStep_thread (h : s.Invariant) {action : KernelAction ι}
    (hhandler : (s.threads i).signals.handler = .out) (hpc : (s.threads i).pc = .running)
    (hstep : s.kernelStep (.thread i) action = some s') : s'.Invariant := by
  obtain ⟨holder, hphase⟩ := h.phase
  have hown : s.mutex.Agrees (.thread i) (s.threads i).pc.hold := h.locked (.thread i)
  cases action with
  | setExecutePtr next =>
      obtain rfl := Option.some.inj hstep
      exact h.of_thread i _ rfl hown .refl (fun _ _ ↦ rfl) rfl rfl rfl
        ⟨holder, hphase.congr ⟨rfl, rfl, rfl, rfl⟩ rfl⟩
  | setPreemptDisable count =>
      obtain rfl := Option.some.inj hstep
      exact h.of_thread i _ rfl hown .refl (fun _ _ ↦ rfl) rfl rfl rfl
        ⟨holder, hphase.congr ⟨rfl, rfl, rfl, rfl⟩ rfl⟩
  | interruptControl posture =>
      simp only [kernelStep, interruptControl, Option.map_eq_some_iff] at hstep
      obtain ⟨m, hlock, hstep⟩ := hstep
      obtain rfl := hphase.holder_of_running hhandler hpc
      -- the thread has locked the mutex, so the scheduler waits
      have hstage := h.locked.not_lock hlock (by simp)
      generalize hwaiting : s.schedulerPc.stage = stage at hphase hstage
      cases hphase with
      | starting i _ _ | leaving i _ _ => simp at hstage
      | yielding i hyielding _ => simpa [hpc] using hyielding.pc
      | running i hrunning =>
          have hkeep {s' : State ι} (hrun : s'.Running i) (_ : s'.timerPc = s.timerPc) :
              s'.Phase s.schedulerPc.stage (some i) := by
            rw [hwaiting]
            exact .running i hrun
          have hkeeps : KeepsOthers (.thread i) s.mutex (m.release (.thread i)) :=
            (KeepsOthers.of_lock hlock).trans .of_release
          simp only [exitUnlessCurrent, if_pos hrunning.current] at hstep
          by_cases hsystem : s.systemState = 0
          · simp only [setPosture, hsystem, ne_eq, not_true_eq_false, if_false,
              hrunning.current] at hstep
            subst hstep
            refine h.of_running hrunning hkeep .running (by simp [hpc]) (by simp) trivial ?_
              ⟨hrunning.current.symm, rfl, rfl, rfl, fun j hj ↦ by simp [hj]⟩ rfl hsystem.symm
              (by simp) (by simp)
            cases posture with
            | enable => exact hkeeps
            | disable => exact .of_lock hlock
          · simp only [setPosture, ne_eq, hsystem, not_false_eq_true, if_true] at hstep
            subst hstep
            refine h.of_running hrunning hkeep .running hpc (by simp) trivial ?_
              ⟨rfl, rfl, rfl, rfl, fun _ _ ↦ rfl⟩ rfl rfl rfl rfl
            cases posture with
            | enable => exact hkeeps
            | disable => exact .of_lock hlock

/-! ## Signals of a thread -/

/-- The delivery of a signal to a thread keeps the invariant. -/
theorem Invariant.signalThread (h : s.Invariant) {signals : Signals} {written : ℕ}
    (hstep : (s.threads i).signals.step = some (signals, written)) :
    ({ s.updateThread i fun t ↦ { t with signals := signals } with
      otherPipe := s.otherPipe + written } : State ι).Invariant := by
  obtain ⟨holder, hphase⟩ := h.phase
  have hown : s.mutex.Agrees (.thread i) (s.threads i).pc.hold := h.locked (.thread i)
  refine h.of_thread i (s.threads i).pc (by simp) hown .refl (fun j hj ↦ by simp [hj]) rfl rfl rfl
    ⟨holder, ?_⟩
  by_cases hholder : holder = some i
  · subst hholder
    have hrunning (hrun : s.Running i) : ({ s.updateThread i fun t ↦ { t with signals := signals }
        with otherPipe := s.otherPipe + written } : State ι).Running i := by
      refine ⟨hrun.current, hrun.semaphore, fun j hj ↦ ?_, ?_, ?_, ?_⟩
      · simpa [hj] using hrun.others j hj
      · simpa using hrun.runSemaphore
      · show SignalsAt s.timerPc
          ((s.updateThread i fun t ↦ { t with signals := signals }).threads i).signals _
        rw [updateThread_self]
        exact hrun.signals.step hstep
      · simpa using hrun.pc
    generalize s.schedulerPc.stage = stage at hphase
    cases hphase with
    | starting i hstarting _ => simp [hstarting.signals, quiet_step] at hstep
    | leaving i hrun hout => exact .leaving i (hrunning hrun) hout
    | running i hrun => exact .running i (hrunning hrun)
    | yielding i hyielding _ => simp [hyielding.signals, quiet_step] at hstep
  · rcases hphase.idle hholder with hparked | hstopped
    · simp [hparked.signals, quiet_step] at hstep
    -- a stopped thread only goes on to wait for its signal
    · obtain ⟨hhalted, rfl⟩ := hstopped.signals.step hstep
      refine hphase.changeIdle (i := i) ⟨rfl, rfl, rfl, rfl, fun j hj ↦ by simp [hj]⟩ hholder
        (fun hparked ↦ ?_) (fun _ ↦ ?_)
      · simp [hparked.signals, quiet_step] at hstep
      · exact ⟨by simpa using hstopped.runSemaphore, by simpa using hhalted,
          by simpa using hstopped.suspensionType, by simpa using hstopped.pc⟩

end State

end ThreadMetric.ThreadX
