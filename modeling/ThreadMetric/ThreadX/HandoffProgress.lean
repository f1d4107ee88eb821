import ThreadMetric.ThreadX.HandoffLive
import ThreadMetric.ThreadX.HandoffSafety
import ThreadMetric.ThreadX.HandoffWork

/-!
# Progress of the hand-off protocol

The protocol never deadlocks: a state in which it takes no step on its own is at rest. Then either
a thread executes and the scheduler waits for its token, or nothing is to be executed and the
scheduler polls. From every state reached all orders of the protocol's own steps come to rest, and
where the current thread gives the processor up it is the thread of `_tx_thread_execute_ptr` that
executes in the end.
-/

namespace ThreadMetric.ThreadX

open RecursiveMutex Signals Transition

namespace Signals

variable {g : Signals} {bytes : ℕ}

/-- Nothing is left to be done to a released pthread when it is quiet. -/
theorem Released.eq_quiet_of_step (h : Released g) (hstep : g.step = none) : g = Signals.quiet := by
  cases h with
  | quiet => rfl
  | acked | waiting | woken => cases hstep

/-- When nothing is left to be done to stop a pthread, the acknowledgment is there. -/
theorem Stopping.acknowledged (h : Stopping g bytes) (hstep : g.step = none) : 0 < bytes := by
  cases h with
  | pending hreleased => cases hreleased <;> cases hstep
  | entered => cases hstep
  | acked _ => exact Nat.one_pos

end Signals

namespace State

variable {ι : Type} {s s' : State ι} {i : ι}

/-- Thread `i` executes and the scheduler waits for its token. The timer sleeps, unless it waits for
the mutex that the thread has locked. -/
structure Serving (s : State ι) (i : ι) : Prop where
  current : s.currentPtr = some i
  pc : (s.threads i).pc = .running
  signals : (s.threads i).signals = .quiet
  others : ∀ j ≠ i, (s.threads j).Idle
  scheduler : s.schedulerPc = .waitYield
  timer : s.timerPc = .sleep ∨
    (s.timerPc = .saveLock ∨ s.timerPc = .restoreRelock) ∧ s.mutex.owner = some (.thread i)

/-- No thread executes and none is to be executed; the scheduler polls. -/
structure Polling (s : State ι) : Prop where
  current : s.currentPtr = none
  execute : s.executePtr = none
  idle : ∀ j, (s.threads j).Idle
  scheduler : s.schedulerPc = .nap
  timer : s.timerPc = .sleep
  mutex : s.mutex.owner = none

variable [DecidableEq ι]

/-- The protocol takes no step on its own. -/
def Stuck (s : State ι) : Prop :=
  ∀ event, s.own event = none

/-- The events that are not kernel actions decide. -/
theorem stuck_iff : s.Stuck ↔
    (s.own .scheduler = none ∧ s.own .timer = none ∧ s.own .signalTimer = none) ∧
      ∀ i, s.own (.thread i) = none ∧ s.own (.signalThread i) = none := by
  constructor
  · exact fun h ↦ ⟨⟨h _, h _, h _⟩, fun i ↦ ⟨h _, h _⟩⟩
  · rintro ⟨⟨hscheduler, htimer, hsignal⟩, hthreads⟩ event
    cases event with
    | scheduler => exact hscheduler
    | timer => exact htimer
    | thread i => exact (hthreads i).1
    | interrupt action | run i action => rfl
    | signalTimer => exact hsignal
    | signalThread i => exact (hthreads i).2

instance [Fintype ι] (s : State ι) : Decidable s.Stuck :=
  decidable_of_iff _ stuck_iff.symm

namespace Stuck

/-- The scheduler waits, or it polls while no thread is due. -/
theorem threadSchedule (h : s.Stuck) :
    s.threadSchedule = none ∨ s.schedulerPc = .nap ∧ s.due = false := by
  have hnone := h .scheduler
  by_cases hpoll : s.schedulerPc = .nap ∧ s.due = false
  · exact .inr hpoll
  · left
    rw [own, if_pos] at hnone
    · exact hnone
    · simpa [ownEvent, ← imp_iff_not_or] using hpoll

/-- The timer waits or sleeps. -/
theorem posixTimerInterrupt (h : s.Stuck) (hout : s.timerSignals.handler = .out)
    (hpc : s.timerPc ≠ .sleep) : s.posixTimerInterrupt = none := by
  simpa [own, ownEvent, State.next, hpc, hout] using h .timer

/-- A thread that does not execute waits. -/
theorem threadStep (h : s.Stuck) (hout : (s.threads i).signals.handler = .out)
    (hpc : (s.threads i).pc ≠ .running) : s.threadStep i = none := by
  simpa [own, ownEvent, State.next, hpc, hout] using h (.thread i)

/-- Nothing is left to be done to the timer. -/
theorem signalTimer (h : s.Stuck) : s.timerSignals.step = none := by
  simpa [own, ownEvent, State.next] using h .signalTimer

/-- Nothing is left to be done to a thread. -/
theorem signalThread (h : s.Stuck) (i : ι) : (s.threads i).signals.step = none := by
  simpa [own, ownEvent, State.next] using h (.signalThread i)

/-- A posted thread has posted its token. -/
theorem token_of_starting (h : s.Stuck) (hstarting : s.Starting i) : 0 < s.semaphore := by
  have hout : (s.threads i).signals.handler = .out := by
    rw [hstarting.signals]
    rfl
  rcases hstarting.token with ⟨hrun, -, hpc⟩ | ⟨-, -, hpc⟩ | ⟨-, htoken, -⟩
  -- it would take its run semaphore
  · have hnone := h.threadStep hout (by rcases hpc with hpc | hpc <;> simp [hpc])
    rcases hpc with hpc | hpc <;> simp [State.threadStep, hpc, hrun] at hnone
  -- it would post the token
  · have hnone := h.threadStep hout (by rcases hpc with hpc | hpc <;> simp [hpc])
    rcases hpc with hpc | hpc <;> simp [State.threadStep, hpc] at hnone
  · omega

/-- Where the scheduler waits: for the mutex, for the next poll or for the token. -/
theorem scheduler_waits (h : s.Stuck) (hinv : s.Invariant) (hlive : s.Live) :
    s.schedulerPc = .lock ∧ (∃ q ≠ .scheduler, s.mutex.owner = some q) ∨
      s.schedulerPc = .nap ∧ s.due = false ∨ s.schedulerPc = .waitYield ∧ s.semaphore = 0 := by
  rcases h.threadSchedule with hnone | hpoll
  · obtain ⟨holder, hphase⟩ := hinv.phase
    have hsignals := hlive.timerSignals
    unfold State.threadSchedule at hnone
    cases hpc : s.schedulerPc with
    | lock =>
        simp only [hpc, Option.map_eq_none_iff] at hnone
        exact .inl ⟨rfl, owner_of_lock_eq_none hnone⟩
    | select =>
        cases hexec : s.executePtr with
        | none => simp [hpc, hexec] at hnone
        | some i =>
            simp only [hpc, hexec] at hnone
            split_ifs at hnone
    | waitYield =>
        simp only [hpc, ite_eq_right_iff, reduceCtorEq, imp_false, Nat.not_lt,
          Nat.le_zero] at hnone
        exact .inr (.inr ⟨rfl, hnone⟩)
    | resumeThread =>
        rw [hpc] at hphase
        cases hphase with
        | resuming i hsettled _ _ => simp [hpc, hsettled.current] at hnone
    | drainRun | postRun =>
        rw [hpc] at hphase
        cases hphase with
        | offering i hsettled _ _ => simp [hpc, hsettled.current] at hnone
    | waitBeforeIsr | waitBeforeResume =>
        rw [hpc] at hphase
        cases hphase with
        | starting i hstarting _ => simp [hpc, h.token_of_starting hstarting] at hnone
    | readTimerPipe =>
        rw [hpc] at hsignals
        simp [hpc, Stopping.acknowledged hsignals h.signalTimer] at hnone
    | _ => simp [hpc] at hnone
  · exact .inr (.inl hpoll)

/-- The scheduler does not hold the mutex, and nothing is left to be done to the timer. -/
theorem timer_quiet (h : s.Stuck) (hinv : s.Invariant) (hlive : s.Live) :
    s.timerSignals = .quiet ∧ s.mutex.owner ≠ some .scheduler := by
  have hown : s.mutex.Agrees .scheduler s.schedulerPc.hold := hinv.locked .scheduler
  have hsignals := hlive.timerSignals
  rcases h.scheduler_waits hinv hlive with ⟨hpc, -⟩ | ⟨hpc, -⟩ | ⟨hpc, -⟩
  all_goals
    rw [hpc] at hown hsignals
    exact ⟨hsignals.1.eq_quiet_of_step h.signalTimer, hown⟩

/-- An idle thread does not hold the mutex. -/
theorem not_owner_of_idle (h : s.Stuck) (hinv : s.Invariant) (hlive : s.Live)
    (hidle : (s.threads i).Idle) : s.mutex.owner ≠ some (.thread i) := by
  intro howner
  have hquiet := hlive.owner i howner
  have hout : (s.threads i).signals.handler = .out := by
    rw [hquiet]
    rfl
  have hown : s.mutex.Agrees (.thread i) (s.threads i).pc.hold := hinv.locked (.thread i)
  rcases hidle with hparked | hstopped
  · rcases hparked.pc with hpc | hpc | hpc
    · rw [hpc] at hown
      exact hown howner
    -- it would unlock the mutex
    · have hnone := h.threadStep hout (by simp [hpc])
      simp [State.threadStep, hpc] at hnone
    · rw [hpc] at hown
      exact hown howner
  · exact hstopped.signals.handler_ne hout

/-- While the timer waits for `_tx_posix_isr_semaphore`, the scheduler has posted it. -/
theorem isrSemaphore_pos (h : s.Stuck) (hinv : s.Invariant) (hlive : s.Live)
    (hpc : s.timerPc = .restoreWaitIsr) : 0 < s.isrSemaphore := by
  have htimer : s.mutex.Agrees .timer s.timerPc.hold := hinv.locked .timer
  have hscheduler := h.scheduler_waits hinv hlive
  obtain ⟨holder, hphase⟩ := hinv.phase
  rcases hlive.promised hpc with hposted | hoffers | ⟨hpick, i, hexec, -⟩
  · exact hposted
  · rcases hscheduler with ⟨hwait, -⟩ | ⟨hwait, -⟩ | ⟨hwait, -⟩ <;>
      simp [hwait, SchedulerPc.offersIsr] at hoffers
  -- the scheduler would go on to the thread that the timer has seen
  · rcases hscheduler with ⟨-, q, hq, howner⟩ | ⟨-, hdue⟩ | ⟨hwait, hzero⟩
    · cases q with
      | scheduler => exact absurd rfl hq
      | timer =>
          rw [hpc] at htimer
          exact absurd howner htimer
      | thread j =>
          exact absurd howner (h.not_owner_of_idle hinv hlive (hphase.idle_of_picking hpick j))
    · have hactive : s.systemState = 0 := by
        rw [hinv.systemState, hpc]
        rfl
      simp [due, hexec, hactive] at hdue
    · rcases hpick with hstage | ⟨-, hone⟩
      · simp [hwait, SchedulerPc.stage] at hstage
      · omega

/-- Where the timer waits: in its sleep, or for the mutex. -/
theorem timer_waits (h : s.Stuck) (hinv : s.Invariant) (hlive : s.Live) :
    s.timerPc = .sleep ∨
      (s.timerPc = .saveLock ∨ s.timerPc = .interruptLock ∨ s.timerPc = .restoreLock ∨
        s.timerPc = .restoreRelock) ∧ ∃ i, s.mutex.owner = some (.thread i) := by
  by_cases hsleep : s.timerPc = .sleep
  · exact .inl hsleep
  right
  obtain ⟨hquiet, hscheduler⟩ := h.timer_quiet hinv hlive
  have hnone := h.posixTimerInterrupt (by rw [hquiet]; rfl) hsleep
  obtain ⟨holder, hphase⟩ := hinv.phase
  have hthread (hlock : s.mutex.lock .timer = none) : ∃ i, s.mutex.owner = some (.thread i) := by
    obtain ⟨q, hq, howner⟩ := owner_of_lock_eq_none hlock
    cases q with
    | scheduler => exact absurd howner hscheduler
    | timer => exact absurd rfl hq
    | thread i => exact ⟨i, howner⟩
  unfold State.posixTimerInterrupt at hnone
  cases hpc : s.timerPc with
  | sleep => exact absurd hpc hsleep
  | waitStart => simp [hpc, hlive.started hpc] at hnone
  | saveLock | interruptLock | restoreLock | restoreRelock =>
      simp only [hpc, Option.map_eq_none_iff] at hnone
      exact ⟨by simp, hthread hnone⟩
  | saveSuspend | saveMark | restoreResume =>
      obtain ⟨-, i, hrunning⟩ := hphase.running_of_not_rest (by simp [hpc, TimerPc.rest])
        (by simp [hpc])
      simp [hpc, hrunning.current] at hnone
  | saveReadPipe =>
      obtain ⟨-, i, hrunning⟩ := hphase.running_of_not_rest (by simp [hpc, TimerPc.rest])
        (by simp [hpc])
      have hsignals := hrunning.signals
      rw [hpc] at hsignals
      simp [hpc, Stopping.acknowledged hsignals (h.signalThread i)] at hnone
  | restoreLeave =>
      cases hcurrent : s.currentPtr with
      | none => simp [hpc, hcurrent] at hnone
      | some i =>
          simp only [hpc, hcurrent] at hnone
          split_ifs at hnone
  | restoreDrain | restoreDrainIsr =>
      simp only [hpc] at hnone
      split_ifs at hnone
  | restoreTest =>
      cases hexec : s.executePtr with
      | none => simp [hpc, hexec] at hnone
      | some i =>
          simp only [hpc, hexec] at hnone
          split_ifs at hnone
  | restoreWaitIsr =>
      simp [hpc, h.isrSemaphore_pos hinv hlive hpc] at hnone
  | _ => simp [hpc] at hnone

/-- A thread that holds the mutex has the permission to run. -/
theorem holder_of_owner {stage : Stage} {holder : Option ι} (h : s.Stuck) (hinv : s.Invariant)
    (hlive : s.Live) (hphase : s.Phase stage holder) (howner : s.mutex.owner = some (.thread i)) :
    holder = some i := by
  by_contra hne
  exact h.not_owner_of_idle hinv hlive (hphase.idle hne) howner

/-- The timer does not hold the mutex. -/
theorem not_owner_timer (h : s.Stuck) (hinv : s.Invariant) (hlive : s.Live) :
    s.mutex.owner ≠ some .timer := by
  have htimer : s.mutex.Agrees .timer s.timerPc.hold := hinv.locked .timer
  rcases h.timer_waits hinv hlive with hpc | ⟨-, i, howner⟩
  · rw [hpc] at htimer
    exact htimer
  · rw [howner]
    simp

/-- The thread with the permission to run can lock the mutex. -/
theorem lock_ne_none (h : s.Stuck) (hinv : s.Invariant) (hlive : s.Live) {stage : Stage}
    (hphase : s.Phase stage (some i)) : s.mutex.lock (.thread i) ≠ none := by
  intro hlock
  obtain ⟨q, hq, howner⟩ := owner_of_lock_eq_none hlock
  cases q with
  | scheduler => exact (h.timer_quiet hinv hlive).2 howner
  | timer => exact h.not_owner_timer hinv hlive howner
  | thread j =>
      obtain rfl := Option.some.inj (h.holder_of_owner hinv hlive hphase howner)
      exact hq rfl

/-- The current thread has not been stopped, and the timer does not wait inside an interrupt. -/
theorem quiet_of_running (h : s.Stuck) (hinv : s.Invariant) (hlive : s.Live)
    {stage : Stage} (hphase : s.Phase stage (some i)) (hrunning : s.Running i) :
    (s.threads i).signals = .quiet ∧ (s.timerPc = .sleep ∨
      (s.timerPc = .saveLock ∨ s.timerPc = .restoreRelock) ∧
        s.mutex.owner = some (.thread i)) := by
  have hsignals := hrunning.signals
  rcases h.timer_waits hinv hlive with hpc | ⟨hpc, j, howner⟩
  · rw [hpc] at hsignals
    exact ⟨hsignals.1.eq_quiet_of_step (h.signalThread i), .inl hpc⟩
  -- the thread that holds the mutex is this one
  · obtain rfl := Option.some.inj (h.holder_of_owner hinv hlive hphase howner)
    have hquiet := hlive.owner _ howner
    refine ⟨hquiet, .inr ⟨?_, howner⟩⟩
    have hout : (s.threads i).signals.handler = .out := by
      rw [hquiet]
      rfl
    rcases hpc with hpc | hpc | hpc | hpc
    · exact .inl hpc
    · rw [hpc] at hsignals
      exact absurd hout hsignals.1.handler_ne
    · rw [hpc] at hsignals
      exact absurd hout hsignals.1.handler_ne
    · exact .inr hpc

/-- The current thread executes application or kernel code. -/
theorem serving_of_running (h : s.Stuck) (hinv : s.Invariant) (hlive : s.Live)
    (hscheduler : s.schedulerPc = .waitYield) (hphase : s.Phase .waiting (some i))
    (hrunning : s.Running i) : s.Serving i := by
  obtain ⟨hquiet, htimer⟩ := h.quiet_of_running hinv hlive hphase hrunning
  refine ⟨hrunning.current, ?_, hquiet, hrunning.others, hscheduler, htimer⟩
  by_contra hpc
  have hnone := h.threadStep (i := i) (by rw [hquiet]; rfl) hpc
  have hlock := h.lock_ne_none hinv hlive hphase
  rcases hrunning.pc with hat | hat | hat | hat | hat
  · exact hpc hat
  · simp [State.threadStep, hat, hlock] at hnone
  · simp [State.threadStep, hat, hlock] at hnone
  · simp [State.threadStep, hat] at hnone
  · simp [State.threadStep, hat] at hnone

/-- A thread that gives the processor up would go on to the post of its token. -/
theorem not_yielding (h : s.Stuck) (hinv : s.Invariant) (hlive : s.Live) {stage : Stage}
    (hphase : s.Phase stage (some i)) : ¬ s.Yielding i := by
  intro hyielding
  have hout : (s.threads i).signals.handler = .out := by
    rw [hyielding.signals]
    rfl
  have hlock := h.lock_ne_none hinv hlive hphase
  rcases hyielding.pc with hpc | hpc | hpc
  · have hnone := h.threadStep hout (by simp [hpc])
    simp [State.threadStep, hpc, hyielding.semaphore] at hnone
  · have hnone := h.threadStep hout (by simp [hpc])
    simp [State.threadStep, hpc, hlock] at hnone
  · have hnone := h.threadStep hout (by simp [hpc])
    simp [State.threadStep, hpc] at hnone

/-- While all threads are idle nobody holds the mutex, so the timer sleeps. -/
theorem free_of_idle (h : s.Stuck) (hinv : s.Invariant) (hlive : s.Live)
    (hidle : ∀ j, (s.threads j).Idle) : s.mutex.owner = none ∧ s.timerPc = .sleep := by
  have hfree : s.mutex.owner = none := by
    cases howner : s.mutex.owner with
    | none => rfl
    | some q =>
        cases q with
        | scheduler => exact absurd howner (h.timer_quiet hinv hlive).2
        | timer => exact absurd howner (h.not_owner_timer hinv hlive)
        | thread j => exact absurd howner (h.not_owner_of_idle hinv hlive (hidle j))
  refine ⟨hfree, ?_⟩
  rcases h.timer_waits hinv hlive with hpc | ⟨-, j, howner⟩
  · exact hpc
  · exact absurd (hfree.symm.trans howner) (by simp)

/-- A state in which the protocol takes no step on its own is at rest. -/
theorem at_rest (h : s.Stuck) (hinv : s.Invariant) (hlive : s.Live) :
    (∃ i, s.Serving i) ∨ s.Polling := by
  obtain ⟨holder, hphase⟩ := hinv.phase
  rcases h.scheduler_waits hinv hlive with ⟨hpc, q, hq, howner⟩ | ⟨hpc, hdue⟩ | ⟨hpc, htoken⟩
  -- nobody would keep the scheduler from locking the mutex
  · rw [hpc] at hphase
    cases hphase with
    | selecting hsettled _ =>
        have hfree := (h.free_of_idle hinv hlive hsettled.idle).1
        exact absurd (hfree.symm.trans howner) (by simp)
  · rw [hpc] at hphase
    cases hphase with
    | selecting hsettled _ =>
        obtain ⟨hfree, htimer⟩ := h.free_of_idle hinv hlive hsettled.idle
        refine .inr ⟨hsettled.current, ?_, hsettled.idle, hpc, htimer, hfree⟩
        have hactive : s.systemState = 0 := by
          rw [hinv.systemState, htimer]
          rfl
        simpa [due, hactive] using hdue
  · rw [hpc] at hphase
    left
    cases hstart : holder with
    | none =>
        rw [hstart] at hphase
        exfalso
        cases hphase with
        | interrupted _ hat =>
            rcases h.timer_waits hinv hlive with hsleep | ⟨hlock, -⟩
            · rcases hat with hat | hat <;> simp [hat] at hsleep
            · rcases hat with hat | hat <;> simp [hat] at hlock
        | yielded hsettled _ => exact absurd (htoken.symm.trans hsettled.semaphore) (by decide)
    | some i =>
        rw [hstart] at hphase
        refine ⟨i, ?_⟩
        cases hphase with
        | running _ hrunning =>
            exact h.serving_of_running hinv hlive hpc (.running i hrunning) hrunning
        | yielding _ hyielding hrest =>
            exact absurd hyielding (h.not_yielding hinv hlive (.yielding i hyielding hrest))

end Stuck

/-- What the waits rely on holds in every state reached. -/
theorem live_of_reachable {executePtr : Option ι}
    (hreach : Reachable State.next (start executePtr) s) : s.Invariant ∧ s.Live := by
  refine hreach.invariant (fun s ↦ s.Invariant ∧ s.Live)
    ⟨invariant_start executePtr, live_start executePtr⟩ ?_
  intro state event finish h _ hnext
  exact ⟨h.1.next hnext, h.2.next h.1 hnext⟩

/-- Steps that the protocol takes on its own are steps. -/
theorem reachable_of_own {events : List (Event ι)} {finish : State ι}
    (hrun : run State.own events s = some finish) : Reachable State.next s finish := by
  induction events generalizing s with
  | nil =>
      cases hrun
      exact .refl
  | cons event events ih =>
      simp only [run, Option.bind_eq_bind, Option.bind_eq_some_iff] at hrun
      obtain ⟨middle, hown, hrest⟩ := hrun
      simp only [own, Option.ite_none_right_eq_some] at hown
      exact (ReachableWhere.tail event .refl trivial hown.2).trans (ih hrest)

/-! ## Who executes at rest -/

/-- The processor is to go to the thread of `_tx_thread_execute_ptr`: this thread has it already or
none has, the interrupt may preempt the current thread, or the current thread has called
`_tx_thread_system_return`. -/
def HandsOver (s : State ι) : Prop :=
  s.currentPtr = s.executePtr ∨ s.currentPtr = none ∨
    s.timerPc.inInterrupt = true ∧ s.preemptDisable = 0 ∨
    ∃ i, s.currentPtr = some i ∧ ((s.threads i).pc = .returnLock ∨ (s.threads i).pc = .returnClear)

/-- The scheduler gives the processor to the thread of `_tx_thread_execute_ptr` only. -/
theorem HandsOver.threadSchedule (h : s.HandsOver) (hstep : s.threadSchedule = some s') :
    s'.HandsOver ∧ s'.executePtr = s.executePtr := by
  have hkeep (hcurrent : s'.currentPtr = s.currentPtr) (hexecute : s'.executePtr = s.executePtr)
      (htimer : s'.timerPc = s.timerPc) (hpreempt : s'.preemptDisable = s.preemptDisable)
      (hpcs : ∀ i, (s'.threads i).pc = (s.threads i).pc) :
      s'.HandsOver ∧ s'.executePtr = s.executePtr := by
    refine ⟨?_, hexecute⟩
    simpa only [HandsOver, hcurrent, hexecute, htimer, hpreempt, hpcs] using h
  unfold State.threadSchedule at hstep
  cases hpc : s.schedulerPc with
  | select =>
      rcases Option.eq_none_or_eq_some s.executePtr with hexec | ⟨i, hexec⟩
      · simp only [hpc, hexec, Option.some.injEq] at hstep
        subst hstep
        exact hkeep rfl hexec.symm rfl rfl fun _ ↦ rfl
      · simp only [hpc, hexec] at hstep
        split_ifs at hstep
        · obtain rfl := Option.some.inj hstep
          exact ⟨.inl rfl, hexec.symm⟩
        · obtain rfl := Option.some.inj hstep
          exact ⟨.inl rfl, hexec.symm⟩
        · obtain rfl := Option.some.inj hstep
          exact hkeep rfl hexec.symm rfl rfl fun _ ↦ rfl
  | lock =>
      simp only [hpc, Option.map_eq_some_iff] at hstep
      obtain ⟨_, -, rfl⟩ := hstep
      exact hkeep rfl rfl rfl rfl fun _ ↦ rfl
  | resumeThread | postRun =>
      simp only [hpc, Option.map_eq_some_iff] at hstep
      obtain ⟨i, -, rfl⟩ := hstep
      exact hkeep rfl rfl rfl rfl (by simp [resumeThread])
  | drainRun =>
      simp only [hpc, Option.map_eq_some_iff] at hstep
      obtain ⟨i, -, hstep⟩ := hstep
      split_ifs at hstep
      · subst hstep
        exact hkeep rfl rfl rfl rfl (by simp)
      · subst hstep
        exact hkeep rfl rfl rfl rfl fun _ ↦ rfl
  | waitBeforeIsr | readTimerPipe | waitBeforeResume | waitYield =>
      simp only [hpc, Option.ite_none_right_eq_some, Option.some.injEq] at hstep
      obtain ⟨-, rfl⟩ := hstep
      exact hkeep rfl rfl rfl rfl fun _ ↦ rfl
  | _ =>
      simp only [hpc, Option.some.injEq] at hstep
      subst hstep
      exact hkeep rfl rfl rfl rfl fun _ ↦ rfl

/-- The timer leaves the current thread stopped unless it may go on. -/
theorem HandsOver.posixTimerInterrupt (h : s.HandsOver) (hinv : s.Invariant)
    (hstep : s.posixTimerInterrupt = some s') :
    s'.HandsOver ∧ s'.executePtr = s.executePtr := by
  have hkeep (hcurrent : s'.currentPtr = s.currentPtr) (hexecute : s'.executePtr = s.executePtr)
      (htimer : s.timerPc.inInterrupt = true → s'.timerPc.inInterrupt = true)
      (hpreempt : s'.preemptDisable = s.preemptDisable)
      (hpcs : ∀ i, (s'.threads i).pc = (s.threads i).pc) :
      s'.HandsOver ∧ s'.executePtr = s.executePtr := by
    refine ⟨?_, hexecute⟩
    simp only [HandsOver, hcurrent, hexecute, hpreempt, hpcs]
    exact h.imp_right (Or.imp_right (Or.imp_left (And.imp_left htimer)))
  unfold State.posixTimerInterrupt at hstep
  cases hpc : s.timerPc with
  | restoreLeave =>
      have hone : s.systemState = 1 := by
        rw [hinv.systemState, hpc]
        rfl
      cases hcurrent : s.currentPtr with
      | none =>
          simp only [hpc, hcurrent, Option.some.injEq] at hstep
          subst hstep
          exact ⟨.inr (.inl rfl), rfl⟩
      | some i =>
          simp only [hpc, hcurrent, hone, Nat.sub_self, ne_eq, not_true_eq_false, if_false] at hstep
          split_ifs at hstep with hpreempt
          · obtain rfl := Option.some.inj hstep
            exact ⟨.inr (.inl rfl), rfl⟩
          -- it goes on, so it is to be executed unless preemption is disabled
          · obtain rfl := Option.some.inj hstep
            refine ⟨?_, rfl⟩
            rcases h with hsame | hnone | ⟨-, hzero⟩ | hreturns
            · exact .inl (hcurrent.symm.trans hsame)
            · exact absurd (hcurrent.symm.trans hnone) (by simp)
            · exact .inl (by_contra fun hne ↦ hpreempt ⟨hzero, fun heq ↦ hne heq.symm⟩)
            · exact .inr (.inr (.inr (hcurrent ▸ hreturns)))
  | waitStart | saveReadPipe | restoreWaitIsr =>
      simp only [hpc, Option.ite_none_right_eq_some, Option.some.injEq] at hstep
      obtain ⟨-, rfl⟩ := hstep
      exact hkeep rfl rfl (by simp [hpc, TimerPc.inInterrupt]) rfl fun _ ↦ rfl
  | saveLock | interruptLock | restoreLock | restoreRelock =>
      simp only [hpc, Option.map_eq_some_iff] at hstep
      obtain ⟨_, -, rfl⟩ := hstep
      exact hkeep rfl rfl (by simp [hpc, TimerPc.inInterrupt]) rfl fun _ ↦ rfl
  | saveSuspend | saveMark | restoreResume =>
      simp only [hpc, Option.map_eq_some_iff] at hstep
      obtain ⟨i, -, rfl⟩ := hstep
      exact hkeep rfl rfl (by simp [hpc, TimerPc.inInterrupt]) rfl
        (by simp [suspendThread, resumeThread])
  | restoreDrain | restoreDrainIsr =>
      simp only [hpc] at hstep
      split_ifs at hstep
      all_goals
        obtain rfl := Option.some.inj hstep
        exact hkeep rfl rfl (by simp [hpc, TimerPc.inInterrupt]) rfl fun _ ↦ rfl
  | restoreTest =>
      rcases Option.eq_none_or_eq_some s.executePtr with hexec | ⟨i, hexec⟩
      · simp only [hpc, hexec, Option.some.injEq] at hstep
        subst hstep
        exact hkeep rfl hexec.symm (by simp [hpc, TimerPc.inInterrupt]) rfl fun _ ↦ rfl
      · simp only [hpc, hexec] at hstep
        split_ifs at hstep
        all_goals
          obtain rfl := Option.some.inj hstep
          exact hkeep rfl hexec.symm (by simp [hpc, TimerPc.inInterrupt]) rfl fun _ ↦ rfl
  | _ =>
      simp only [hpc, Option.some.injEq] at hstep
      subst hstep
      exact hkeep rfl rfl (by simp [hpc, TimerPc.inInterrupt]) rfl fun _ ↦ rfl

/-- A thread that is not current changes neither pointer; the current thread gives the processor up
only through `_tx_thread_system_return`. -/
theorem HandsOver.threadStep (h : s.HandsOver) (hstep : s.threadStep i = some s') :
    s'.HandsOver ∧ s'.executePtr = s.executePtr := by
  -- all points but the two of the fourth case are left without a look at who is current
  have hkeep (hcurrent : s'.currentPtr = s.currentPtr) (hexecute : s'.executePtr = s.executePtr)
      (htimer : s'.timerPc = s.timerPc) (hpreempt : s'.preemptDisable = s.preemptDisable)
      (hothers : ∀ j ≠ i, (s'.threads j).pc = (s.threads j).pc)
      (hpc : s.currentPtr = some i → (s.threads i).pc = .returnLock ∨
        (s.threads i).pc = .returnClear → (s'.threads i).pc = .returnClear) :
      s'.HandsOver ∧ s'.executePtr = s.executePtr := by
    refine ⟨?_, hexecute⟩
    simp only [HandsOver, hcurrent, hexecute, hpreempt, htimer]
    refine h.imp_right (Or.imp_right (Or.imp_right ?_))
    rintro ⟨j, hj, hreturns⟩
    refine ⟨j, hj, ?_⟩
    by_cases hji : j = i
    · subst hji
      exact .inr (hpc hj hreturns)
    · rwa [hothers j hji]
  unfold State.threadStep at hstep
  cases hpc : (s.threads i).pc with
  | returnLock =>
      simp only [hpc, Option.map_eq_some_iff] at hstep
      obtain ⟨m, -, rfl⟩ := hstep
      exact hkeep rfl rfl rfl rfl (fun j hj ↦ by simp [hj]) (by simp)
  | returnClear =>
      simp only [hpc, exitUnlessCurrent, Option.some.injEq] at hstep
      split_ifs at hstep with hcurrent
      · subst hstep
        exact ⟨.inr (.inl rfl), rfl⟩
      · subst hstep
        exact hkeep rfl rfl rfl rfl (fun j hj ↦ by simp [hj]) fun hi ↦ absurd hi hcurrent
  | returnRecheck =>
      simp only [hpc, exitUnlessCurrent, Option.some.injEq] at hstep
      split_ifs at hstep with hcurrent
      all_goals
        subst hstep
        exact hkeep rfl rfl rfl rfl (fun j hj ↦ by simp [hj]) (by simp [hpc])
  | entryWait | returnWait =>
      simp only [hpc, Option.ite_none_right_eq_some, Option.some.injEq] at hstep
      obtain ⟨-, rfl⟩ := hstep
      exact hkeep rfl rfl rfl rfl (fun j hj ↦ by simp [hj]) (by simp [hpc])
  | returnPostLock | returnRelock =>
      simp only [hpc, Option.map_eq_some_iff] at hstep
      obtain ⟨m, -, rfl⟩ := hstep
      exact hkeep rfl rfl rfl rfl (fun j hj ↦ by simp [hj]) (by simp [hpc])
  | returnDrain =>
      simp only [hpc] at hstep
      split_ifs at hstep
      · obtain rfl := Option.some.inj hstep
        exact hkeep rfl rfl rfl rfl (fun _ _ ↦ rfl) (by simp [hpc])
      · obtain rfl := Option.some.inj hstep
        exact hkeep rfl rfl rfl rfl (fun j hj ↦ by simp [hj]) (by simp [hpc])
  | exited => simp [hpc] at hstep
  | _ =>
      simp only [hpc, Option.some.injEq] at hstep
      subst hstep
      exact hkeep rfl rfl rfl rfl (fun j hj ↦ by simp [hj]) (by simp [hpc])

/-- The protocol's own steps keep the thread to which the processor is to go. -/
theorem HandsOver.own (h : s.HandsOver) (hinv : s.Invariant) {event : Event ι}
    (hown : s.own event = some s') : s'.HandsOver ∧ s'.executePtr = s.executePtr := by
  simp only [State.own, Option.ite_none_right_eq_some] at hown
  obtain ⟨hevent, hnext⟩ := hown
  unfold State.next at hnext
  cases event with
  | scheduler => exact h.threadSchedule hnext
  | timer =>
      simp only [Option.ite_none_right_eq_some] at hnext
      exact h.posixTimerInterrupt hinv hnext.2
  | thread i =>
      simp only [Option.ite_none_right_eq_some] at hnext
      exact h.threadStep hnext.2
  | interrupt action | run i action => cases hevent
  | signalTimer =>
      simp only [Option.map_eq_some_iff] at hnext
      obtain ⟨_, -, rfl⟩ := hnext
      exact ⟨h, rfl⟩
  | signalThread i =>
      simp only [Option.map_eq_some_iff] at hnext
      obtain ⟨_, -, rfl⟩ := hnext
      exact ⟨by simpa [HandsOver] using h, rfl⟩

/-- A run of the protocol's own steps keeps this thread. -/
theorem HandsOver.run (h : s.HandsOver) (hinv : s.Invariant) {events : List (Event ι)}
    {finish : State ι} (hrun : Transition.run State.own events s = some finish) :
    finish.HandsOver ∧ finish.executePtr = s.executePtr := by
  induction events generalizing s with
  | nil =>
      cases hrun
      exact ⟨h, rfl⟩
  | cons event events ih =>
      simp only [Transition.run, Option.bind_eq_bind, Option.bind_eq_some_iff] at hrun
      obtain ⟨middle, hown, hrest⟩ := hrun
      obtain ⟨hafter, hsame⟩ := h.own hinv hown
      simp only [State.own, Option.ite_none_right_eq_some] at hown
      obtain ⟨hfinish, hexecute⟩ := ih hafter (hinv.next hown.2) hrest
      exact ⟨hfinish, hexecute.trans hsame⟩

omit [DecidableEq ι] in
/-- At rest the thread that has the processor is the one to which it was to go. -/
theorem Serving.executes (h : s.Serving i) (hover : s.HandsOver) : s.executePtr = some i := by
  rcases hover with hsame | hnone | ⟨hinterrupt, -⟩ | ⟨j, hcurrent, hreturns⟩
  · exact hsame.symm.trans h.current
  · exact absurd (h.current.symm.trans hnone) (by simp)
  · rcases h.timer with hpc | ⟨hpc | hpc, -⟩ <;> simp [hpc, TimerPc.inInterrupt] at hinterrupt
  · obtain rfl := Option.some.inj (h.current.symm.trans hcurrent)
    simp [h.pc] at hreturns

end State

/-- From every state reached, for any number of threads, the protocol comes to rest in every order
of its own steps, after at most `work` of them: a thread executes and the scheduler waits for its
token, or nothing is to be executed and the scheduler polls. -/
theorem hand_off_settles {ι : Type} [Fintype ι] [DecidableEq ι] {executePtr : Option ι}
    {s : State ι} (hreach : Reachable State.next (State.start executePtr) s) :
    (∃ events finish, run State.own events s = some finish ∧ finish.Stuck) ∧
      ∀ events finish, run State.own events s = some finish → events.length ≤ s.work ∧
        (finish.Stuck → (∃ i, finish.Serving i) ∨ finish.Polling) := by
  have hless (state : State ι) (event : Event ι) (finish : State ι)
      (hown : state.own event = some finish) : finish.work < state.work := State.own_work hown
  have hgo (state : State ι) (_ : True) (hmove : ¬ state.Stuck) :
      ∃ event finish, state.own event = some finish ∧ True ∧ finish.work < state.work := by
    simp only [State.Stuck, not_forall, ← ne_eq, Option.ne_none_iff_exists'] at hmove
    obtain ⟨event, finish, hown⟩ := hmove
    exact ⟨event, finish, hown, trivial, hless _ _ _ hown⟩
  constructor
  · obtain ⟨events, finish, -, hrun, hstuck⟩ : ∃ events finish, events.length ≤ s.work ∧
        run State.own events s = some finish ∧ finish.Stuck :=
      run_until State.Stuck State.work hgo trivial
    exact ⟨events, finish, hrun, hstuck⟩
  · intro events finish hrun
    refine ⟨run_length_le State.work hless hrun, fun hstuck ↦ ?_⟩
    obtain ⟨hinv, hlive⟩ := State.live_of_reachable (hreach.trans (State.reachable_of_own hrun))
    exact hstuck.at_rest hinv hlive

/-- The first hand-off is such a run, and it takes 18 steps. -/
theorem hand_off_settles_first :
    18 ≤ (State.start (some (0 : Fin 2))).work ∧
      ∃ finish, run State.own (firstHandOff 0) (State.start (some (0 : Fin 2))) = some finish ∧
        ((∃ i, finish.Serving i) ∨ finish.Polling) := by
  obtain ⟨finish, hrun, hstuck⟩ : ∃ finish, run State.own (firstHandOff 0)
      (State.start (some (0 : Fin 2))) = some finish ∧ finish.Stuck := ⟨_, rfl, by decide⟩
  obtain ⟨hlength, hrest⟩ := (hand_off_settles .refl).2 (firstHandOff 0) finish hrun
  exact ⟨hlength, finish, hrun, hrest hstuck⟩

/-- Where the current thread calls `_tx_thread_system_return`, may be preempted by the interrupt or
is gone, the thread of `_tx_thread_execute_ptr` executes once the protocol has come to rest,
whatever the order of its steps. -/
theorem processor_handed_over {ι : Type} [DecidableEq ι] {executePtr : Option ι}
    {s finish : State ι} (hreach : Reachable State.next (State.start executePtr) s)
    (hover : s.HandsOver) {events : List (Event ι)}
    (hrun : run State.own events s = some finish) (hstuck : finish.Stuck) :
    (∀ i, s.executePtr = some i → finish.Serving i) ∧
      (s.executePtr = none → finish.Polling) := by
  obtain ⟨hinv, hlive⟩ := State.live_of_reachable (hreach.trans (State.reachable_of_own hrun))
  obtain ⟨hfinish, hexecute⟩ := hover.run (State.live_of_reachable hreach).1 hrun
  rcases hstuck.at_rest hinv hlive with ⟨j, hserving⟩ | hpolling
  · have hj : s.executePtr = some j := hexecute.symm.trans (hserving.executes hfinish)
    refine ⟨fun i hi ↦ ?_, fun hnone ↦ absurd (hj.symm.trans hnone) (by simp)⟩
    obtain rfl := Option.some.inj (hj.symm.trans hi)
    exact hserving
  · have hnone : s.executePtr = none := hexecute.symm.trans hpolling.execute
    exact ⟨fun i hi ↦ absurd (hnone.symm.trans hi) (by simp), fun _ ↦ hpolling⟩

/-- The first hand-off starts thread `i`, and the next interrupt lets thread `j` be executed. -/
def interruptFor {ι : Type} (i j : ι) : List (Event ι) :=
  firstHandOff i ++ interruption i ++ [.timer, .interrupt (.setExecutePtr (some j))]

/-- The interrupt ends, the scheduler starts thread `j` in place of thread `i`, and the timer goes
back to sleep. -/
def handOver {ι : Type} (i j : ι) : List (Event ι) :=
  .signalThread i :: List.replicate 6 .timer ++ List.replicate 6 .scheduler ++
    List.replicate 2 (.thread j) ++ List.replicate 3 .scheduler ++ List.replicate 4 .timer

/-- An interrupt that lets thread 1 be executed takes the processor from thread 0 to it. -/
theorem processor_handed_over_by_interrupt :
    ∃ s finish, run State.next (interruptFor 0 1) (State.start (some (0 : Fin 2))) = some s ∧
      s.currentPtr = some 0 ∧ run State.own (handOver 0 1) s = some finish ∧
        finish.Serving 1 := by
  obtain ⟨s, hrun, hcurrent, hexecute, hinterrupt, hpreempt, finish, hown, hstuck⟩ :
      ∃ s, run State.next (interruptFor 0 1) (State.start (some (0 : Fin 2))) = some s ∧
        s.currentPtr = some 0 ∧ s.executePtr = some 1 ∧ s.timerPc.inInterrupt = true ∧
          s.preemptDisable = 0 ∧ ∃ finish, run State.own (handOver 0 1) s = some finish ∧
            finish.Stuck := ⟨_, rfl, rfl, rfl, rfl, rfl, _, rfl, by decide⟩
  have hover : s.HandsOver := .inr (.inr (.inl ⟨hinterrupt, hpreempt⟩))
  obtain ⟨hserving, -⟩ := processor_handed_over (reachable_of_run hrun) hover hown hstuck
  exact ⟨s, finish, hrun, hcurrent, hown, hserving 1 hexecute⟩

end ThreadMetric.ThreadX
