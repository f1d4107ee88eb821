import ThreadMetric.ThreadX.HandoffTimer

/-!
# What the waits of the hand-off rely on

A pthread of the protocol waits for a token, for an acknowledgment or for the mutex. `Live` says
why each of these comes: the signals of the timer follow the scheduler's point, a thread that holds
the mutex is not being stopped, and while the timer waits for `_tx_posix_isr_semaphore` the
scheduler has posted it or is on its way to the post.
-/

namespace ThreadMetric.ThreadX

open RecursiveMutex Signals

/-- The signals of the timer pthread and the bytes in its pipe, by the scheduler's point: the timer
is being stopped while the acknowledgment is awaited, and halted until it is resumed. -/
def TimerSignalsAt : SchedulerPc → Signals → ℕ → Prop
  | .readTimerPipe => Stopping
  | .waitBeforeResume | .resumeTimer => fun g bytes ↦ Halted g ∧ bytes = 0
  | _ => fun g bytes ↦ Released g ∧ bytes = 0

/-- The signals of the timer stay as the scheduler's point demands. -/
theorem TimerSignalsAt.step {pc : SchedulerPc} {g g' : Signals} {bytes written : ℕ}
    (h : TimerSignalsAt pc g bytes) (hstep : g.step = some (g', written)) :
    TimerSignalsAt pc g' (bytes + written) := by
  cases pc with
  | readTimerPipe => exact Stopping.step h hstep
  | waitBeforeResume | resumeTimer =>
      obtain ⟨hafter, rfl⟩ := h.1.step hstep
      exact ⟨hafter, h.2⟩
  | _ =>
      obtain ⟨hafter, rfl⟩ := h.1.step hstep
      exact ⟨hafter, h.2⟩

/-- While the scheduler picks a thread the timer may run. -/
theorem timerSignalsAt_selecting {pc : SchedulerPc} (hstage : pc.stage = .selecting) :
    TimerSignalsAt pc = fun g bytes ↦ Released g ∧ bytes = 0 := by
  cases pc with
  | lock | select | unlock | nap => rfl
  | _ => cases hstage

/-- The points from the announcement of the timer that it waits to the end of this wait. -/
def TimerPc.announced : TimerPc → Bool
  | .restorePost | .restoreTest | .restoreWaitIsr | .restoreRelock | .restoreDrainIsr => true
  | _ => false

/-- The points from which the scheduler goes on to the post of `_tx_posix_isr_semaphore`, if the
timer waits. -/
def SchedulerPc.offersIsr : SchedulerPc → Bool
  | .drainRun | .postRun | .testWaiting | .waitBeforeIsr | .postIsr => true
  | _ => false

namespace State

variable {ι : Type} {s s' : State ι} {i : ι} {stage : Stage} {holder : Option ι}

/-- The scheduler picks a thread, or the token that lets it do so is there. -/
def Picking (s : State ι) : Prop :=
  s.schedulerPc.stage = .selecting ∨ s.schedulerPc = .waitYield ∧ s.semaphore = 1

/-- The timer's wait for `_tx_posix_isr_semaphore` will end. -/
def Promised (s : State ι) : Prop :=
  0 < s.isrSemaphore ∨ s.schedulerPc.offersIsr = true ∨
    s.Picking ∧ ∃ i, s.executePtr = some i ∧ (s.threads i).suspensionType = false

/-- What the waits rely on. -/
structure Live (s : State ι) : Prop where
  started : s.timerPc = .waitStart → 0 < s.timerSemaphore
  timerSignals : TimerSignalsAt s.schedulerPc s.timerSignals s.timerPipe
  owner : ∀ i, s.mutex.owner = some (.thread i) → (s.threads i).signals = .quiet
  announced : s.timerPc.announced = true → s.timerWaiting = true
  picking : s.timerPc = .restoreTest → s.Picking
  promised : s.timerPc = .restoreWaitIsr → s.Promised

/-- The waits of the first state. -/
theorem live_start [DecidableEq ι] (executePtr : Option ι) : (start executePtr).Live where
  started _ := Nat.one_pos
  timerSignals := ⟨.quiet, rfl⟩
  owner i howner := by cases howner
  announced h := by cases h
  picking h := by cases h
  promised h := by cases h

/-- While the scheduler picks a thread, all threads are idle. -/
theorem Phase.idle_of_picking (h : s.Phase s.schedulerPc.stage holder) (hpick : s.Picking) (i : ι) :
    (s.threads i).Idle := by
  refine h.idle fun hholder ↦ ?_
  subst hholder
  rcases hpick with hstage | ⟨hpc, htoken⟩
  · rw [hstage] at h
    cases h
  · rw [hpc] at h
    cases h with
    | running i h => exact absurd (htoken.symm.trans h.semaphore) (by decide)
    | yielding i h _ => exact absurd (htoken.symm.trans h.semaphore) (by decide)

/-- A thread outside the handler is not being stopped if the timer does not hold the mutex. -/
theorem Invariant.quiet (h : s.Invariant) (howner : s.mutex.owner ≠ some .timer)
    (hout : (s.threads i).signals.handler = .out) : (s.threads i).signals = .quiet := by
  obtain ⟨holder, hphase⟩ := h.phase
  have hown : s.mutex.Agrees .timer s.timerPc.hold := h.locked .timer
  have hrunning (hrun : s.Running i) : (s.threads i).signals = .quiet := by
    have hsignals := hrun.signals
    cases hpc : s.timerPc with
    | saveReadPipe =>
        rw [hpc] at hown
        exact absurd (hown.owner (.inl rfl)) howner
    | saveMark | saveEnter | interruptLock | interrupt | restoreLock | restoreLeave
    | restoreResume =>
        rw [hpc] at hsignals
        exact absurd hout hsignals.1.handler_ne
    | restoreDrain | restorePost =>
        rw [hpc] at hsignals
        exact hsignals.elim
    | _ =>
        rw [hpc] at hsignals
        exact hsignals.1.eq_quiet hout
  by_cases hholder : holder = some i
  · subst hholder
    cases hstage : s.schedulerPc.stage <;> rw [hstage] at hphase
    case starting => cases hphase with | starting _ h => exact h.signals
    case leaving => cases hphase with | leaving _ h => exact hrunning h
    case waiting =>
      cases hphase with
      | running _ h => exact hrunning h
      | yielding _ h _ => exact h.signals
    all_goals cases hphase
  · rcases hphase.idle hholder with hparked | hstopped
    · exact hparked.signals
    · exact absurd hout hstopped.signals.handler_ne

/-- A thread that runs outside the handler is not idle, so the scheduler does not pick one. -/
theorem Invariant.not_picking (h : s.Invariant) (hout : (s.threads i).signals.handler = .out)
    (hpc : (s.threads i).pc = .running) : ¬ s.Picking := by
  intro hpick
  obtain ⟨holder, hphase⟩ := h.phase
  rcases hphase.idle_of_picking hpick i with hparked | hstopped
  · rcases hparked.pc with h | h | h <;> simp [hpc] at h
  · exact absurd hout hstopped.signals.handler_ne

/-! ## Steps of the scheduler -/

/-- What a step of the scheduler has to restore. -/
theorem Live.of_scheduler (h : s.Live) (hpc : s'.timerPc = s.timerPc)
    (hsemaphore : s'.timerSemaphore = s.timerSemaphore)
    (hwaiting : s'.timerWaiting = s.timerWaiting)
    (hsignals : TimerSignalsAt s'.schedulerPc s'.timerSignals s'.timerPipe)
    (howner : ∀ i, s'.mutex.owner = some (.thread i) →
      s.mutex.owner = some (.thread i) ∧ s'.threads = s.threads)
    (hpicking : s.timerPc = .restoreTest → s.Picking → s'.Picking)
    (hpromised : s.timerPc = .restoreWaitIsr → s.timerWaiting = true → s.Promised → s'.Promised) :
    s'.Live where
  started hstart := by
    rw [hsemaphore]
    exact h.started (hpc ▸ hstart)
  timerSignals := hsignals
  owner i hown := by
    obtain ⟨hbefore, hthreads⟩ := howner i hown
    rw [hthreads]
    exact h.owner i hbefore
  announced hann := by
    rw [hwaiting]
    exact h.announced (hpc ▸ hann)
  picking htest := by
    rw [hpc] at htest
    exact hpicking htest (h.picking htest)
  promised hwait := by
    rw [hpc] at hwait
    exact hpromised hwait (h.announced (by rw [hwait]; rfl)) (h.promised hwait)

/-- The scheduler moves on while it picks a thread. -/
theorem Live.of_selecting (h : s.Live) (hstage : s.schedulerPc.stage = .selecting)
    (hfinish : s'.schedulerPc.stage = .selecting)
    (hsame : s' = { s with mutex := s'.mutex, schedulerPc := s'.schedulerPc })
    (howner : ∀ i, s'.mutex.owner = some (.thread i) → s.mutex.owner = some (.thread i)) :
    s'.Live := by
  have hsignals : TimerSignalsAt s'.schedulerPc s'.timerSignals s'.timerPipe := by
    have hbefore := h.timerSignals
    rw [timerSignalsAt_selecting hstage] at hbefore
    rw [timerSignalsAt_selecting hfinish, hsame]
    exact hbefore
  have hthreads : s'.threads = s.threads := by rw [hsame]
  refine h.of_scheduler (by rw [hsame]) (by rw [hsame]) (by rw [hsame]) hsignals
    (fun i hown ↦ ⟨howner i hown, hthreads⟩) (fun _ _ ↦ .inl hfinish) fun _ _ hpromised ↦ ?_
  rcases hpromised with hposted | hoffers | ⟨-, hnext⟩
  · exact .inl (by rwa [hsame])
  · cases hpc : s.schedulerPc <;> simp [hpc, SchedulerPc.stage, SchedulerPc.offersIsr]
      at hstage hoffers
  · refine .inr (.inr ⟨.inl hfinish, ?_⟩)
    rw [hsame]
    exact hnext

/-- The scheduler moves on while it holds the mutex and has picked a thread. -/
theorem Live.of_holding (h : s.Live) (hlocked : s.Locked) (howner : s.mutex.owner = some .scheduler)
    (hmutex : s'.mutex.owner = some .scheduler ∨ s'.mutex.owner = none)
    (hpc : s'.timerPc = s.timerPc) (hsemaphore : s'.timerSemaphore = s.timerSemaphore)
    (hwaiting : s'.timerWaiting = s.timerWaiting)
    (hsignals : TimerSignalsAt s'.schedulerPc s'.timerSignals s'.timerPipe)
    (hposted : 0 < s.isrSemaphore → 0 < s'.isrSemaphore)
    (hoffers : s.timerWaiting = true → s.schedulerPc.offersIsr = true → s'.Promised)
    (hpicking : s.Picking → (∃ i, s.executePtr = some i ∧ (s.threads i).suspensionType = false) →
      s'.Promised) : s'.Live := by
  refine h.of_scheduler hpc hsemaphore hwaiting hsignals (fun i hown ↦ ?_) (fun htest _ ↦ ?_)
    fun _ hwait hpromised ↦ ?_
  · rcases hmutex with hsame | hfree
    · exact absurd (hsame.symm.trans hown) (by simp)
    · exact absurd (hfree.symm.trans hown) (by simp)
  -- the timer would hold the mutex as well
  · obtain ⟨-, hsome⟩ := hlocked.owner_unique .timer howner (by simp)
    exact absurd (congrArg TimerPc.hold htest) hsome
  · rcases hpromised with hisr | hoffer | ⟨hpick, hnext⟩
    · exact .inl (hposted hisr)
    · exact hoffers hwait hoffer
    · exact hpicking hpick hnext

variable [DecidableEq ι]

/-- A step of the scheduler keeps what the waits rely on. -/
theorem Live.threadSchedule (h : s.Live) (hinv : s.Invariant)
    (hstep : s.threadSchedule = some s') : s'.Live := by
  have hown : s.mutex.Agrees .scheduler s.schedulerPc.hold := hinv.locked .scheduler
  have hsignals := h.timerSignals
  unfold State.threadSchedule at hstep
  cases hpc : s.schedulerPc with
  | lock =>
      simp only [hpc, Option.map_eq_some_iff] at hstep
      obtain ⟨m, hlock, rfl⟩ := hstep
      refine h.of_selecting (by rw [hpc]; rfl) rfl rfl fun i hafter ↦ ?_
      exact absurd ((owner_of_lock hlock).1.symm.trans hafter) (by simp)
  | select =>
      rw [hpc] at hown hsignals
      cases hexec : s.executePtr with
      | none =>
          simp only [hpc, hexec, Option.some.injEq] at hstep
          subst hstep
          refine h.of_selecting (by rw [hpc]; rfl) rfl ?_ fun i hafter ↦ hafter
          rw [← hexec]
      | some i =>
          simp only [hpc, hexec] at hstep
          split_ifs at hstep with hsystem htype
          · obtain rfl := Option.some.inj hstep
            have howner := hown.owner (.inl rfl)
            refine h.of_holding hinv.locked howner (.inl howner) rfl rfl rfl hsignals id ?_ ?_
            · simp [hpc, SchedulerPc.offersIsr]
            · rintro - ⟨j, hj, hposted⟩
              obtain rfl := Option.some.inj (hexec.symm.trans hj)
              exact absurd (htype.symm.trans hposted) (by decide)
          · obtain rfl := Option.some.inj hstep
            have howner := hown.owner (.inl rfl)
            refine h.of_holding hinv.locked howner (.inl howner) rfl rfl rfl hsignals id ?_ ?_
            · simp [hpc, SchedulerPc.offersIsr]
            · exact fun _ _ ↦ .inr (.inl rfl)
          · obtain rfl := Option.some.inj hstep
            refine h.of_selecting (by rw [hpc]; rfl) rfl ?_ fun i hafter ↦ hafter
            rw [← hexec]
  | unlock =>
      simp only [hpc, Option.some.injEq] at hstep
      subst hstep
      exact h.of_selecting (by rw [hpc]; rfl) rfl rfl fun i hafter ↦ owner_of_unlock hafter
  | nap =>
      simp only [hpc, Option.some.injEq] at hstep
      subst hstep
      exact h.of_selecting (by rw [hpc]; rfl) rfl rfl fun i hafter ↦ hafter
  | waitYield =>
      rw [hpc] at hsignals
      simp only [hpc, Option.ite_none_right_eq_some, Option.some.injEq] at hstep
      obtain ⟨htoken, rfl⟩ := hstep
      refine h.of_scheduler rfl rfl rfl hsignals (fun i hafter ↦ ⟨hafter, rfl⟩)
        (fun _ _ ↦ .inl rfl) fun _ _ hpromised ↦ ?_
      rcases hpromised with hisr | hoffers | ⟨-, hnext⟩
      · exact .inl hisr
      · simp [hpc, SchedulerPc.offersIsr] at hoffers
      · exact .inr (.inr ⟨.inl rfl, hnext⟩)
  | resumeThread =>
      rw [hpc] at hown hsignals
      simp only [hpc, Option.map_eq_some_iff] at hstep
      obtain ⟨i, -, rfl⟩ := hstep
      have howner := hown.owner (.inl rfl)
      refine h.of_holding hinv.locked howner (.inl howner) rfl rfl rfl hsignals id ?_ ?_
      · simp [hpc, SchedulerPc.offersIsr]
      · simp [Picking, hpc, SchedulerPc.stage]
  | drainRun =>
      rw [hpc] at hown hsignals
      simp only [hpc, Option.map_eq_some_iff] at hstep
      obtain ⟨i, -, hstep⟩ := hstep
      have howner := hown.owner (.inl rfl)
      split_ifs at hstep with hrun
      · subst hstep
        refine h.of_holding hinv.locked howner (.inl howner) rfl rfl rfl ?_ id ?_ ?_
        · exact h.timerSignals
        · exact fun _ hoffers ↦ .inr (.inl hoffers)
        · simp [Picking, hpc, SchedulerPc.stage]
      · subst hstep
        refine h.of_holding hinv.locked howner (.inl howner) rfl rfl rfl hsignals id ?_ ?_
        · exact fun _ _ ↦ .inr (.inl rfl)
        · simp [Picking, hpc, SchedulerPc.stage]
  | postRun =>
      rw [hpc] at hown hsignals
      simp only [hpc, Option.map_eq_some_iff] at hstep
      obtain ⟨i, -, rfl⟩ := hstep
      have howner := hown.owner (.inl rfl)
      refine h.of_holding hinv.locked howner (.inl howner) rfl rfl rfl hsignals id ?_ ?_
      · exact fun _ _ ↦ .inr (.inl rfl)
      · simp [Picking, hpc, SchedulerPc.stage]
  | testWaiting =>
      rw [hpc] at hown hsignals
      simp only [hpc, Option.some.injEq] at hstep
      subst hstep
      have howner := hown.owner (.inl rfl)
      refine h.of_holding hinv.locked howner (.inl howner) rfl rfl rfl ?_ id ?_ ?_
      · cases s.timerWaiting with
        | true => exact hsignals
        | false => exact hsignals
      · exact fun hwait _ ↦ .inr (.inl (by simp [hwait, SchedulerPc.offersIsr]))
      · simp [Picking, hpc, SchedulerPc.stage]
  | waitBeforeIsr =>
      rw [hpc] at hown hsignals
      simp only [hpc, Option.ite_none_right_eq_some, Option.some.injEq] at hstep
      obtain ⟨-, rfl⟩ := hstep
      have howner := hown.owner (.inl rfl)
      refine h.of_holding hinv.locked howner (.inl howner) rfl rfl rfl hsignals id ?_ ?_
      · exact fun _ _ ↦ .inr (.inl rfl)
      · simp [Picking, hpc, SchedulerPc.stage]
  | postIsr =>
      rw [hpc] at hown hsignals
      simp only [hpc, Option.some.injEq] at hstep
      subst hstep
      have howner := hown.owner (.inl rfl)
      refine h.of_holding hinv.locked howner (.inl howner) rfl rfl rfl hsignals ?_ ?_ ?_
      · exact fun _ ↦ Nat.succ_pos _
      · exact fun _ _ ↦ .inl (Nat.succ_pos _)
      · simp [Picking, hpc, SchedulerPc.stage]
  | suspendTimer =>
      rw [hpc] at hown hsignals
      simp only [hpc, Option.some.injEq] at hstep
      subst hstep
      have howner := hown.owner (.inl rfl)
      obtain ⟨hreleased, hpipe⟩ := hsignals
      refine h.of_holding hinv.locked howner (.inl howner) rfl rfl rfl ?_ id ?_ ?_
      · rw [hpipe]
        exact .pending hreleased
      · simp [hpc, SchedulerPc.offersIsr]
      · simp [Picking, hpc, SchedulerPc.stage]
  | readTimerPipe =>
      rw [hpc] at hown hsignals
      simp only [hpc, Option.ite_none_right_eq_some, Option.some.injEq] at hstep
      obtain ⟨hbyte, rfl⟩ := hstep
      have howner := hown.owner (.inl rfl)
      obtain ⟨hone, hhalted⟩ := Stopping.halted hsignals hbyte
      refine h.of_holding hinv.locked howner (.inl howner) rfl rfl rfl ?_ id ?_ ?_
      · exact ⟨hhalted, by rw [hone]⟩
      · simp [hpc, SchedulerPc.offersIsr]
      · simp [Picking, hpc, SchedulerPc.stage]
  | waitBeforeResume =>
      rw [hpc] at hown hsignals
      simp only [hpc, Option.ite_none_right_eq_some, Option.some.injEq] at hstep
      obtain ⟨-, rfl⟩ := hstep
      have howner := hown.owner (.inl rfl)
      refine h.of_holding hinv.locked howner (.inl howner) rfl rfl rfl hsignals id ?_ ?_
      · simp [hpc, SchedulerPc.offersIsr]
      · simp [Picking, hpc, SchedulerPc.stage]
  | resumeTimer =>
      rw [hpc] at hown hsignals
      simp only [hpc, Option.some.injEq] at hstep
      subst hstep
      have howner := hown.owner (.inl rfl)
      refine h.of_holding hinv.locked howner (.inl howner) rfl rfl rfl ?_ id ?_ ?_
      · exact ⟨hsignals.1.sendResume, hsignals.2⟩
      · simp [hpc, SchedulerPc.offersIsr]
      · simp [Picking, hpc, SchedulerPc.stage]
  | leave =>
      rw [hpc] at hown hsignals
      simp only [hpc, Option.some.injEq] at hstep
      subst hstep
      have howner := hown.owner (.inl rfl)
      refine h.of_holding hinv.locked howner (.inr ?_) rfl rfl rfl hsignals id ?_ ?_
      · rw [show s.mutex = .held .scheduler 0 from hown]
        rfl
      · simp [hpc, SchedulerPc.offersIsr]
      · simp [Picking, hpc, SchedulerPc.stage]

/-! ## Steps of the timer -/

omit [DecidableEq ι] in
/-- What a step of the timer has to restore. -/
theorem Live.of_timer (h : s.Live) (hscheduler : s'.schedulerPc = s.schedulerPc)
    (hsignals : s'.timerSignals = s.timerSignals ∧ s'.timerPipe = s.timerPipe)
    (howner : ∀ i, s'.mutex.owner = some (.thread i) →
      s.mutex.owner = some (.thread i) ∧ s'.threads = s.threads)
    (hstarted : s'.timerPc ≠ .waitStart)
    (hannounced : s'.timerPc.announced = true → s'.timerWaiting = true)
    (hpicking : s'.timerPc = .restoreTest → s'.Picking)
    (hpromised : s'.timerPc = .restoreWaitIsr → s'.Promised) : s'.Live where
  started hstart := absurd hstart hstarted
  timerSignals := by
    rw [hscheduler, hsignals.1, hsignals.2]
    exact h.timerSignals
  owner i hown := by
    obtain ⟨hbefore, hthreads⟩ := howner i hown
    rw [hthreads]
    exact h.owner i hbefore
  announced := hannounced
  picking := hpicking
  promised := hpromised

omit [DecidableEq ι] in
/-- A step of the timer to a point at which it has not announced that it waits. -/
theorem Live.of_unannounced (h : s.Live) (hscheduler : s'.schedulerPc = s.schedulerPc)
    (hsignals : s'.timerSignals = s.timerSignals ∧ s'.timerPipe = s.timerPipe)
    (howner : ∀ i, s'.mutex.owner = some (.thread i) →
      s.mutex.owner = some (.thread i) ∧ s'.threads = s.threads)
    (hpc : s'.timerPc ≠ .waitStart ∧ s'.timerPc.announced = false) : s'.Live := by
  refine h.of_timer hscheduler hsignals howner hpc.1 (fun hann ↦ ?_) (fun htest ↦ ?_) fun hwait ↦ ?_
  · exact absurd (hpc.2.symm.trans hann) (by decide)
  · exact absurd hpc.2 (by simp [htest, TimerPc.announced])
  · exact absurd hpc.2 (by simp [hwait, TimerPc.announced])

/-- A step of the timer keeps what the waits rely on. -/
theorem Live.posixTimerInterrupt (h : s.Live) (hinv : s.Invariant)
    (hstep : s.posixTimerInterrupt = some s') : s'.Live := by
  have hown : s.mutex.Agrees .timer s.timerPc.hold := hinv.locked .timer
  have htimer (howner : s.mutex.owner = some .timer) (i : ι) :
      s.mutex.owner ≠ some (.thread i) := by
    rw [howner]
    simp
  have hlock_owner {m : RecursiveMutex (Party ι)} (hlock : s.mutex.lock .timer = some m) (i : ι) :
      m.owner ≠ some (.thread i) := by
    rw [(owner_of_lock hlock).1]
    simp
  have hwaiting := h.announced
  unfold State.posixTimerInterrupt at hstep
  cases hpc : s.timerPc with
  | waitStart =>
      simp only [hpc, Option.ite_none_right_eq_some, Option.some.injEq] at hstep
      obtain ⟨-, rfl⟩ := hstep
      exact h.of_unannounced rfl ⟨rfl, rfl⟩ (fun i hafter ↦ ⟨hafter, rfl⟩) ⟨by simp, rfl⟩
  | sleep =>
      simp only [hpc, Option.some.injEq] at hstep
      subst hstep
      exact h.of_unannounced rfl ⟨rfl, rfl⟩ (fun i hafter ↦ ⟨hafter, rfl⟩) ⟨by simp, rfl⟩
  | saveLock | interruptLock | restoreLock =>
      simp only [hpc, Option.map_eq_some_iff] at hstep
      obtain ⟨m, hlock, rfl⟩ := hstep
      exact h.of_unannounced rfl ⟨rfl, rfl⟩ (fun i hafter ↦ absurd hafter (hlock_owner hlock i))
        ⟨by simp, rfl⟩
  | saveTest =>
      simp only [hpc, Option.some.injEq] at hstep
      subst hstep
      refine h.of_unannounced rfl ⟨rfl, rfl⟩ (fun i hafter ↦ ⟨hafter, rfl⟩) ?_
      by_cases hrunning : s.currentPtr ≠ none ∧ s.systemState = 0
      · simp [hrunning, TimerPc.announced]
      · simp [if_neg hrunning, TimerPc.announced]
  | saveSuspend | saveMark | restoreResume =>
      rw [hpc] at hown
      simp only [hpc, Option.map_eq_some_iff] at hstep
      obtain ⟨j, -, rfl⟩ := hstep
      have hnot := htimer (hown.owner (by simp [TimerPc.hold]))
      exact h.of_unannounced rfl ⟨rfl, rfl⟩ (fun i hafter ↦ absurd hafter (hnot i)) ⟨by simp, rfl⟩
  | saveReadPipe =>
      simp only [hpc, Option.ite_none_right_eq_some, Option.some.injEq] at hstep
      obtain ⟨-, rfl⟩ := hstep
      exact h.of_unannounced rfl ⟨rfl, rfl⟩ (fun i hafter ↦ ⟨hafter, rfl⟩) ⟨by simp, rfl⟩
  | saveEnter | interrupt =>
      simp only [hpc, Option.some.injEq] at hstep
      subst hstep
      exact h.of_unannounced rfl ⟨rfl, rfl⟩ (fun i hafter ↦ ⟨owner_of_unlock hafter, rfl⟩)
        ⟨by simp, rfl⟩
  | restoreLeave =>
      rw [hpc] at hown
      have hnot := htimer (hown.owner (by simp [TimerPc.hold]))
      cases hcurrent : s.currentPtr with
      | none =>
          simp only [hpc, hcurrent, Option.some.injEq] at hstep
          subst hstep
          exact h.of_unannounced rfl ⟨rfl, rfl⟩ (fun i hafter ↦ absurd hafter (hnot i))
            ⟨by simp, rfl⟩
      | some j =>
          simp only [hpc, hcurrent] at hstep
          split_ifs at hstep
          all_goals
            obtain rfl := Option.some.inj hstep
            exact h.of_unannounced rfl ⟨rfl, rfl⟩ (fun i hafter ↦ absurd hafter (hnot i))
              ⟨by simp, rfl⟩
  | restoreDrain =>
      simp only [hpc] at hstep
      split_ifs at hstep
      · obtain rfl := Option.some.inj hstep
        exact h.of_unannounced rfl ⟨rfl, rfl⟩ (fun i hafter ↦ ⟨hafter, rfl⟩) ⟨by simp, rfl⟩
      -- the timer announces that it waits
      · obtain rfl := Option.some.inj hstep
        exact h.of_timer rfl ⟨rfl, rfl⟩ (fun i hafter ↦ ⟨hafter, rfl⟩) (by simp) (fun _ ↦ rfl)
          (by simp) (by simp)
  | restorePost =>
      rw [hpc] at hwaiting
      obtain ⟨holder, hphase⟩ := hinv.phase
      obtain ⟨hstage, hsettled⟩ := hphase.settled_of_interrupted (.inr hpc)
      simp only [hpc, Option.some.injEq] at hstep
      subst hstep
      refine h.of_timer rfl ⟨rfl, rfl⟩ (fun i hafter ↦ ⟨hafter, rfl⟩) (by simp)
        (fun _ ↦ hwaiting rfl) (fun _ ↦ .inr ⟨?_, ?_⟩) (by simp)
      · show s.schedulerPc = .waitYield
        cases hscheduler : s.schedulerPc with
        | waitYield => rfl
        | _ => simp [hscheduler, SchedulerPc.stage] at hstage
      · show s.semaphore + 1 = 1
        rw [hsettled.semaphore]
  | restoreTest =>
      rw [hpc] at hwaiting
      have hpick := h.picking hpc
      simp only [hpc] at hstep
      cases hexec : s.executePtr with
      | none =>
          simp only [hexec, Option.some.injEq] at hstep
          subst hstep
          exact h.of_unannounced rfl ⟨rfl, rfl⟩ (fun i hafter ↦ ⟨hafter, rfl⟩) ⟨by simp, rfl⟩
      | some j =>
          simp only [hexec] at hstep
          split_ifs at hstep with htype
          · obtain rfl := Option.some.inj hstep
            exact h.of_unannounced rfl ⟨rfl, rfl⟩ (fun i hafter ↦ ⟨hafter, rfl⟩) ⟨by simp, rfl⟩
          -- it waits for a thread that the scheduler will post
          · obtain rfl := Option.some.inj hstep
            refine h.of_timer rfl ⟨rfl, rfl⟩ (fun i hafter ↦ ⟨owner_of_release hafter, rfl⟩)
              (by simp) (fun _ ↦ hwaiting rfl) (by simp) fun _ ↦ .inr (.inr ⟨hpick, j, rfl, ?_⟩)
            simpa using htype
  | restoreWaitIsr =>
      rw [hpc] at hwaiting
      simp only [hpc, Option.ite_none_right_eq_some, Option.some.injEq] at hstep
      obtain ⟨-, rfl⟩ := hstep
      exact h.of_timer rfl ⟨rfl, rfl⟩ (fun i hafter ↦ ⟨hafter, rfl⟩) (by simp)
        (fun _ ↦ hwaiting rfl) (by simp) (by simp)
  | restoreRelock =>
      rw [hpc] at hwaiting
      simp only [hpc, Option.map_eq_some_iff] at hstep
      obtain ⟨m, hlock, rfl⟩ := hstep
      exact h.of_timer rfl ⟨rfl, rfl⟩ (fun i hafter ↦ absurd hafter (hlock_owner hlock i)) (by simp)
        (fun _ ↦ hwaiting rfl) (by simp) (by simp)
  | restoreDrainIsr =>
      rw [hpc] at hwaiting
      simp only [hpc] at hstep
      split_ifs at hstep
      · obtain rfl := Option.some.inj hstep
        exact h.of_timer rfl ⟨rfl, rfl⟩ (fun i hafter ↦ ⟨hafter, rfl⟩) (by simp)
          (fun _ ↦ hwaiting rfl) (by simp) (by simp)
      · obtain rfl := Option.some.inj hstep
        exact h.of_unannounced rfl ⟨rfl, rfl⟩ (fun i hafter ↦ ⟨hafter, rfl⟩) ⟨by simp, rfl⟩
  | restoreUnlock =>
      simp only [hpc, Option.some.injEq] at hstep
      subst hstep
      exact h.of_unannounced rfl ⟨rfl, rfl⟩ (fun i hafter ↦ ⟨owner_of_release hafter, rfl⟩)
        ⟨by simp, rfl⟩

/-! ## Steps of the threads -/

/-- What steps of a thread leave alone: everything but the threads' points, semaphores and types,
the two pointers, the token, the mutex and the interrupt posture. -/
structure SameWaits (s s' : State ι) : Prop where
  schedulerPc : s'.schedulerPc = s.schedulerPc
  timerPc : s'.timerPc = s.timerPc
  timerSemaphore : s'.timerSemaphore = s.timerSemaphore
  isrSemaphore : s'.isrSemaphore = s.isrSemaphore
  timerWaiting : s'.timerWaiting = s.timerWaiting
  timerSignals : s'.timerSignals = s.timerSignals
  timerPipe : s'.timerPipe = s.timerPipe

omit [DecidableEq ι] in
/-- What a step of a thread has to restore. -/
theorem Live.of_thread (h : s.Live) (hsame : s.SameWaits s')
    (howner : ∀ i, s'.mutex.owner = some (.thread i) → (s'.threads i).signals = .quiet)
    (hpicking : s.Picking → s'.semaphore = s.semaphore ∧ s'.executePtr = s.executePtr ∧
      ∀ i, (s'.threads i).suspensionType = (s.threads i).suspensionType) : s'.Live := by
  have hpick (hpick : s.Picking) : s'.Picking := by
    rw [Picking, hsame.schedulerPc, (hpicking hpick).1]
    exact hpick
  constructor
  · rw [hsame.timerPc, hsame.timerSemaphore]
    exact h.started
  · rw [hsame.schedulerPc, hsame.timerSignals, hsame.timerPipe]
    exact h.timerSignals
  · exact howner
  · rw [hsame.timerPc, hsame.timerWaiting]
    exact h.announced
  · rw [hsame.timerPc]
    exact fun htest ↦ hpick (h.picking htest)
  · rw [hsame.timerPc]
    intro hwait
    rcases h.promised hwait with hposted | hoffers | ⟨hbefore, i, hexec, htype⟩
    · exact .inl (hsame.isrSemaphore ▸ hposted)
    · exact .inr (.inl (hsame.schedulerPc ▸ hoffers))
    · obtain ⟨-, hptr, htypes⟩ := hpicking hbefore
      exact .inr (.inr ⟨hpick hbefore, i, hptr.trans hexec, (htypes i).trans htype⟩)

/-- A thread does not lock the mutex while the timer holds it. -/
theorem not_timer_of_lock {m : RecursiveMutex (Party ι)}
    (hlock : s.mutex.lock (.thread i) = some m) : s.mutex.owner ≠ some .timer := by
  intro howner
  rcases (owner_of_lock hlock).2 with hfree | hsame
  · exact absurd (hfree.symm.trans howner) (by simp)
  · exact absurd (hsame.symm.trans howner) (by simp)

/-- From `s` to `s'` thread `i` has taken a step: it sends no signals, and it has got the mutex from
the timer only if the timer does not hold it. -/
structure ThreadMove (i : ι) (s s' : State ι) : Prop where
  same : s.SameWaits s'
  signals : ∀ j, (s'.threads j).signals = (s.threads j).signals
  owner : ∀ q, s'.mutex.owner = some q →
    s.mutex.owner = some q ∨ q = .thread i ∧ s.mutex.owner ≠ some .timer

/-- A change of a thread that keeps its signals keeps the signals of all threads. -/
@[simp]
theorem updateThread_signals (s : State ι) (i j : ι) {change : Thread → Thread}
    (hchange : ∀ t, (change t).signals = t.signals) :
    ((s.updateThread i change).threads j).signals = (s.threads j).signals := by
  by_cases hj : j = i
  · subst hj
    rw [updateThread_self, hchange]
  · rw [updateThread_of_ne _ _ hj]

/-- The check for termination is a move if going on is one. -/
theorem ThreadMove.exitUnlessCurrent {go : State ι} (hgo : s.ThreadMove i go) :
    s.ThreadMove i (s.exitUnlessCurrent i go) := by
  unfold State.exitUnlessCurrent
  split_ifs
  · exact hgo
  · exact ⟨⟨rfl, rfl, rfl, rfl, rfl, rfl, rfl⟩, by simp,
      fun q hafter ↦ .inl (owner_of_release hafter)⟩

/-- A step of a thread is such a move. -/
theorem threadMove_of_step (hstep : s.threadStep i = some s') : s.ThreadMove i s' := by
  unfold State.threadStep at hstep
  cases hpc : (s.threads i).pc with
  | entryWait | returnWait =>
      simp only [hpc, Option.ite_none_right_eq_some, Option.some.injEq] at hstep
      obtain ⟨-, rfl⟩ := hstep
      exact ⟨⟨rfl, rfl, rfl, rfl, rfl, rfl, rfl⟩, by simp,
        fun q hafter ↦ .inl hafter⟩
  | entryPost | running | returnPost | returnWakePost =>
      simp only [hpc, Option.some.injEq] at hstep
      subst hstep
      exact ⟨⟨rfl, rfl, rfl, rfl, rfl, rfl, rfl⟩, by simp,
        fun q hafter ↦ .inl hafter⟩
  | returnLock | returnPostLock | returnRelock =>
      simp only [hpc, Option.map_eq_some_iff] at hstep
      obtain ⟨m, hlock, rfl⟩ := hstep
      refine ⟨⟨rfl, rfl, rfl, rfl, rfl, rfl, rfl⟩, by simp,
        fun q hafter ↦ .inr ⟨?_, not_timer_of_lock hlock⟩⟩
      exact Option.some.inj (hafter.symm.trans (owner_of_lock hlock).1)
  | returnClear =>
      simp only [hpc, Option.some.injEq] at hstep
      subst hstep
      refine ThreadMove.exitUnlessCurrent ?_
      exact ⟨⟨rfl, rfl, rfl, rfl, rfl, rfl, rfl⟩, by simp,
        fun q hafter ↦ .inl (owner_of_release hafter)⟩
  | returnRecheck =>
      simp only [hpc, Option.some.injEq] at hstep
      subst hstep
      refine ThreadMove.exitUnlessCurrent ?_
      refine ⟨⟨rfl, rfl, rfl, rfl, rfl, rfl, rfl⟩, by simp,
        fun q hafter ↦ .inl ?_⟩
      -- with interrupts disabled it keeps the mutex
      cases hdisabled : (s.threads i).intDisabled with
      | true => simpa [hdisabled] using hafter
      | false => exact owner_of_release (by simpa [hdisabled] using hafter)
  | returnDrain =>
      simp only [hpc] at hstep
      split_ifs at hstep
      · obtain rfl := Option.some.inj hstep
        exact ⟨⟨rfl, rfl, rfl, rfl, rfl, rfl, rfl⟩, fun _ ↦ rfl, fun q hafter ↦ .inl hafter⟩
      · obtain rfl := Option.some.inj hstep
        exact ⟨⟨rfl, rfl, rfl, rfl, rfl, rfl, rfl⟩, by simp,
          fun q hafter ↦ .inl hafter⟩
  | returnPostUnlock =>
      simp only [hpc, Option.some.injEq] at hstep
      subst hstep
      exact ⟨⟨rfl, rfl, rfl, rfl, rfl, rfl, rfl⟩, by simp,
        fun q hafter ↦ .inl (owner_of_unlock hafter)⟩
  | exited => simp [hpc] at hstep

/-- A move after the thread has locked the mutex. -/
theorem ThreadMove.of_lock {m : RecursiveMutex (Party ι)}
    (hlock : s.mutex.lock (.thread i) = some m) (hmove : ThreadMove i { s with mutex := m } s') :
    s.ThreadMove i s' where
  same := ⟨hmove.same.schedulerPc, hmove.same.timerPc, hmove.same.timerSemaphore,
    hmove.same.isrSemaphore, hmove.same.timerWaiting, hmove.same.timerSignals,
    hmove.same.timerPipe⟩
  signals := hmove.signals
  owner q hafter := by
    refine .inr ⟨?_, not_timer_of_lock hlock⟩
    rcases hmove.owner q hafter with hbefore | ⟨hthread, -⟩
    · exact Option.some.inj (hbefore.symm.trans (owner_of_lock hlock).1)
    · exact hthread

/-- A kernel action of a thread is such a move. -/
theorem threadMove_of_kernelStep {action : KernelAction ι}
    (hstep : s.kernelStep (.thread i) action = some s') : s.ThreadMove i s' := by
  cases action with
  | setExecutePtr next =>
      obtain rfl := Option.some.inj hstep
      exact ⟨⟨rfl, rfl, rfl, rfl, rfl, rfl, rfl⟩, fun _ ↦ rfl, fun q hafter ↦ .inl hafter⟩
  | setPreemptDisable count =>
      obtain rfl := Option.some.inj hstep
      exact ⟨⟨rfl, rfl, rfl, rfl, rfl, rfl, rfl⟩, fun _ ↦ rfl, fun q hafter ↦ .inl hafter⟩
  | interruptControl posture =>
      simp only [kernelStep, interruptControl, Option.map_eq_some_iff] at hstep
      obtain ⟨m, hlock, rfl⟩ := hstep
      refine .of_lock hlock (.exitUnlessCurrent ?_)
      unfold setPosture
      simp only
      split_ifs
      · cases posture with
        | enable =>
            exact ⟨⟨rfl, rfl, rfl, rfl, rfl, rfl, rfl⟩, fun _ ↦ rfl,
              fun q hafter ↦ .inl (owner_of_release hafter)⟩
        | disable =>
            exact ⟨⟨rfl, rfl, rfl, rfl, rfl, rfl, rfl⟩, fun _ ↦ rfl, fun q hafter ↦ .inl hafter⟩
      · cases s.currentPtr with
        | none =>
            exact ⟨⟨rfl, rfl, rfl, rfl, rfl, rfl, rfl⟩, fun _ ↦ rfl, fun q hafter ↦ .inl hafter⟩
        | some c =>
            cases posture with
            | enable =>
                exact ⟨⟨rfl, rfl, rfl, rfl, rfl, rfl, rfl⟩, by simp,
                  fun q hafter ↦ .inl (owner_of_release hafter)⟩
            | disable =>
                exact ⟨⟨rfl, rfl, rfl, rfl, rfl, rfl, rfl⟩, by simp, fun q hafter ↦ .inl hafter⟩

omit [DecidableEq ι] in
/-- A move of a thread outside the handler keeps what the waits rely on. -/
theorem Live.of_move (h : s.Live) (hinv : s.Invariant) (hmove : s.ThreadMove i s')
    (hout : (s.threads i).signals.handler = .out)
    (hpicking : s.Picking → s'.semaphore = s.semaphore ∧ s'.executePtr = s.executePtr ∧
      ∀ i, (s'.threads i).suspensionType = (s.threads i).suspensionType) : s'.Live := by
  refine h.of_thread hmove.same (fun j hafter ↦ ?_) hpicking
  rw [hmove.signals]
  rcases hmove.owner _ hafter with hbefore | ⟨hthread, hnot⟩
  · exact h.owner j hbefore
  · obtain rfl : j = i := Party.thread.inj hthread
    exact hinv.quiet hnot hout

/-- A step of a thread keeps what the waits rely on. -/
theorem Live.threadStep (h : s.Live) (hinv : s.Invariant)
    (hout : (s.threads i).signals.handler = .out) (hstep : s.threadStep i = some s') :
    s'.Live := by
  refine h.of_move hinv (threadMove_of_step hstep) hout fun hpick ↦ ?_
  obtain ⟨holder, hphase⟩ := hinv.phase
  obtain ⟨-, -, rfl⟩ := State.idle_step (hphase.idle_of_picking hpick i) hout hstep
  refine ⟨rfl, rfl, fun j ↦ ?_⟩
  by_cases hj : j = i
  · subst hj
    simp
  · simp [hj]

/-- A kernel action of a thread keeps what the waits rely on. -/
theorem Live.kernelStep (h : s.Live) (hinv : s.Invariant) {action : KernelAction ι}
    (hout : (s.threads i).signals.handler = .out) (hpc : (s.threads i).pc = .running)
    (hstep : s.kernelStep (.thread i) action = some s') : s'.Live :=
  h.of_move hinv (threadMove_of_kernelStep hstep) hout fun hpick ↦
    absurd hpick (hinv.not_picking hout hpc)

/-! ## The interrupt and the signals -/

/-- A kernel action of the interrupt keeps what the waits rely on. -/
theorem Live.kernelStep_timer (h : s.Live) (hinv : s.Invariant) {action : KernelAction ι}
    (hpc : s.timerPc = .interrupt) (hstep : s.kernelStep .timer action = some s') : s'.Live := by
  have hactive : s.systemState ≠ 0 := by simp [hinv.systemState, hpc, TimerPc.inInterrupt]
  cases action with
  | setExecutePtr next =>
      obtain rfl := Option.some.inj hstep
      exact h.of_unannounced rfl ⟨rfl, rfl⟩ (fun i hafter ↦ ⟨hafter, rfl⟩)
        (by simp [hpc, TimerPc.announced])
  | setPreemptDisable count =>
      obtain rfl := Option.some.inj hstep
      exact h.of_unannounced rfl ⟨rfl, rfl⟩ (fun i hafter ↦ ⟨hafter, rfl⟩)
        (by simp [hpc, TimerPc.announced])
  | interruptControl posture =>
      simp only [State.kernelStep, interruptControl, Option.map_eq_some_iff] at hstep
      obtain ⟨m, hlock, hstep⟩ := hstep
      simp only [setPosture, ne_eq, hactive, not_false_eq_true, if_true] at hstep
      subst hstep
      refine h.of_unannounced rfl ⟨rfl, rfl⟩ (fun i hafter ↦ ?_) (by simp [hpc, TimerPc.announced])
      have hthread : m.owner = some (.thread i) := by
        cases posture with
        | enable => exact owner_of_release hafter
        | disable => exact hafter
      exact absurd ((owner_of_lock hlock).1.symm.trans hthread) (by simp)

omit [DecidableEq ι] in
/-- The delivery of a signal to the timer keeps what the waits rely on. -/
theorem Live.signalTimer (h : s.Live) {signals : Signals} {written : ℕ}
    (hstep : s.timerSignals.step = some (signals, written)) :
    ({ s with timerSignals := signals, timerPipe := s.timerPipe + written } : State ι).Live where
  started := h.started
  timerSignals := h.timerSignals.step hstep
  owner := h.owner
  announced := h.announced
  picking := h.picking
  promised := h.promised

/-- The delivery of a signal to a thread keeps what the waits rely on. -/
theorem Live.signalThread (h : s.Live) {signals : Signals} {written : ℕ}
    (hstep : (s.threads i).signals.step = some (signals, written)) :
    ({ s.updateThread i fun t ↦ { t with signals := signals } with
      otherPipe := s.otherPipe + written } : State ι).Live := by
  refine h.of_thread ⟨rfl, rfl, rfl, rfl, rfl, rfl, rfl⟩ (fun j hafter ↦ ?_)
    fun _ ↦ ⟨rfl, rfl, fun j ↦ ?_⟩
  -- nothing happens to a thread that holds the mutex
  · have hquiet := h.owner j hafter
    by_cases hj : j = i
    · subst hj
      simp [hquiet, quiet_step] at hstep
    · simpa [hj] using hquiet
  · by_cases hj : j = i
    · subst hj
      simp
    · simp [hj]

/-- Every step keeps what the waits rely on. -/
theorem Live.next (h : s.Live) (hinv : s.Invariant) {event : Event ι}
    (hnext : s.next event = some s') : s'.Live := by
  unfold State.next at hnext
  cases event with
  | scheduler => exact h.threadSchedule hinv hnext
  | timer =>
      simp only [Option.ite_none_right_eq_some] at hnext
      exact h.posixTimerInterrupt hinv hnext.2
  | thread i =>
      simp only [Option.ite_none_right_eq_some] at hnext
      exact h.threadStep hinv hnext.1 hnext.2
  | interrupt action =>
      simp only [Option.ite_none_right_eq_some] at hnext
      exact h.kernelStep_timer hinv hnext.1.2 hnext.2
  | run i action =>
      simp only [Option.ite_none_right_eq_some] at hnext
      exact h.kernelStep hinv hnext.1.1 hnext.1.2 hnext.2
  | signalTimer =>
      simp only [Option.map_eq_some_iff] at hnext
      obtain ⟨_, hstep, rfl⟩ := hnext
      exact h.signalTimer hstep
  | signalThread i =>
      simp only [Option.map_eq_some_iff] at hnext
      obtain ⟨_, hstep, rfl⟩ := hnext
      exact h.signalThread hstep

end State

end ThreadMetric.ThreadX
