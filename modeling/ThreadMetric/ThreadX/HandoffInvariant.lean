import ThreadMetric.ThreadX.Handoff

/-!
# The invariant of the hand-off protocol

`Invariant` has three parts. `Locked` says at which points a party holds the mutex. The value of
`_tx_thread_system_state` follows from the timer's point. `Phase` says who may go on: the scheduler
picks a thread, hands it a run semaphore or a signal and waits for the token of
`_tx_posix_semaphore` that comes back when the thread or the interrupt yields. In every phase all
threads but at most one are idle, which means parked at their run semaphore or stopped in the
suspend handler.
-/

namespace ThreadMetric.ThreadX

open RecursiveMutex Signals

/-! ## The mutex -/

/-- Where the scheduler holds the mutex. -/
def SchedulerPc.hold : SchedulerPc → Hold
  | .lock | .nap | .waitYield => .never
  | _ => .once

/-- Where the timer holds the mutex; kernel code in the interrupt may take and release it. -/
def TimerPc.hold : TimerPc → Hold
  | .saveTest | .saveSuspend | .saveReadPipe | .saveMark | .saveEnter => .once
  | .restoreLeave | .restoreResume | .restoreDrain | .restorePost | .restoreTest
  | .restoreDrainIsr | .restoreUnlock => .some
  | .interrupt | .restoreLock => .maybe
  | _ => .never

/-- Where a thread holds the mutex; it may hold it from the moment it disables interrupts. -/
def ThreadPc.hold : ThreadPc → Hold
  | .returnClear | .returnRecheck => .some
  | .returnPost | .returnPostUnlock => .once
  | .running | .returnLock => .maybe
  | _ => .never

namespace State

variable {ι : Type}

/-- What a party's program point says about the mutex. -/
def hold (s : State ι) : Party ι → Hold
  | .scheduler => s.schedulerPc.hold
  | .timer => s.timerPc.hold
  | .thread i => (s.threads i).pc.hold

/-- The mutex is as the program points of all parties demand. -/
def Locked (s : State ι) : Prop :=
  ∀ p, s.mutex.Agrees p (s.hold p)

variable {s s' : State ι} {p q : Party ι}

/-- Two parties do not hold the mutex at once. -/
theorem Locked.owner_unique (h : s.Locked) (p : Party ι) (howner : s.mutex.owner = some q)
    (hne : q ≠ p) : s.hold p ≠ .once ∧ s.hold p ≠ .some := by
  refine ⟨fun hhold ↦ ?_, fun hhold ↦ ?_⟩
  all_goals
    have hother := (h p).owner (by simp [hhold])
    rw [howner] at hother
    exact hne (Option.some.inj hother)

/-- A step that keeps the holds and the points of the other parties need only restore its own
hold. -/
theorem Locked.step (h : s.Locked) (hkeeps : KeepsOthers p s.mutex s'.mutex)
    (hsame : ∀ q ≠ p, s'.hold q = s.hold q) (hown : s'.mutex.Agrees p (s'.hold p)) :
    s'.Locked := by
  classical
  intro q
  by_cases hq : q = p
  · subst hq
    exact hown
  · rw [hsame q hq]
    exact hkeeps q _ hq (h q)

end State

/-! ## Idle threads -/

namespace Thread

/-- The thread waits for its run semaphore or is about to. -/
structure Parked (t : Thread) : Prop where
  runSemaphore : t.runSemaphore = 0
  signals : t.signals = .quiet
  suspensionType : t.suspensionType = false
  pc : t.pc = .entryWait ∨ t.pc = .returnPostUnlock ∨ t.pc = .returnWait

/-- The thread was stopped by the interrupt and will be resumed by a signal. -/
structure Stopped (t : Thread) : Prop where
  runSemaphore : t.runSemaphore = 0
  signals : Halted t.signals
  suspensionType : t.suspensionType = true
  pc : t.pc = .running ∨ t.pc = .returnLock ∨ t.pc = .returnRelock

/-- The thread is parked or stopped. -/
def Idle (t : Thread) : Prop := t.Parked ∨ t.Stopped

variable {t : Thread}

/-- An idle thread does not execute. -/
theorem Idle.not_executing (h : t.Idle) : ¬ t.Executing := by
  rintro ⟨hactive, hstopped⟩
  rcases h with hparked | hhalted
  · rcases hparked.pc with hpc | hpc | hpc <;> simp [hpc, ThreadPc.active] at hactive
  · simp [hhalted.signals.stopped] at hstopped

/-- An idle thread that the scheduler would resume by a signal is stopped. -/
theorem Idle.stopped (h : t.Idle) (htype : t.suspensionType = true) : t.Stopped := by
  rcases h with hparked | hstopped
  · simp [hparked.suspensionType] at htype
  · exact hstopped

/-- An idle thread that the scheduler would post is parked. -/
theorem Idle.parked (h : t.Idle) (htype : t.suspensionType = false) : t.Parked := by
  rcases h with hparked | hstopped
  · exact hparked
  · simp [hstopped.suspensionType] at htype

end Thread

/-! ## Phases -/

/-- Points at which the timer neither suspends nor resumes a thread and does not hold back its
token. -/
def TimerPc.rest : TimerPc → Bool
  | .saveSuspend | .saveReadPipe | .saveMark | .restoreResume | .restoreDrain | .restorePost =>
      false
  | _ => true

/-- Points outside the interrupt at which the timer does not hold the mutex. -/
def TimerPc.outside : TimerPc → Bool
  | .waitStart | .sleep | .saveLock | .restoreWaitIsr | .restoreRelock => true
  | _ => false

/-- The signals of the current thread and the bytes in the pipe, by the timer's point: the thread
is being stopped while the acknowledgment is awaited, it stays halted until it is resumed, and it
may run otherwise. -/
def SignalsAt : TimerPc → Signals → ℕ → Prop
  | .saveReadPipe => Stopping
  | .saveMark | .saveEnter | .interruptLock | .interrupt | .restoreLock | .restoreLeave
  | .restoreResume => fun g bytes ↦ Halted g ∧ bytes = 0
  | .restoreDrain | .restorePost => fun _ _ ↦ False
  | _ => fun g bytes ↦ Released g ∧ bytes = 0

/-- The stages of a pass of the scheduler. -/
inductive Stage where
  | selecting
  | resuming
  | offering
  | starting
  | leaving
  | waiting

/-- The stage of each of the scheduler's points. -/
def SchedulerPc.stage : SchedulerPc → Stage
  | .lock | .select | .unlock | .nap => .selecting
  | .resumeThread => .resuming
  | .drainRun | .postRun => .offering
  | .testWaiting | .waitBeforeIsr | .suspendTimer | .readTimerPipe | .waitBeforeResume =>
      .starting
  | .postIsr | .resumeTimer | .leave => .leaving
  | .waitYield => .waiting

namespace State

variable {ι : Type}

/-- All threads are idle. -/
structure Settled (s : State ι) (current : Option ι) (tokens : ℕ) : Prop where
  current : s.currentPtr = current
  semaphore : s.semaphore = tokens
  otherPipe : s.otherPipe = 0
  idle : ∀ j, (s.threads j).Idle

/-- The permission of a posted thread: its run semaphore, the thread on its way to the post, or the
token it has posted. -/
def Token (s : State ι) (i : ι) : Prop :=
  (s.threads i).runSemaphore = 1 ∧ s.semaphore = 0 ∧
      ((s.threads i).pc = .entryWait ∨ (s.threads i).pc = .returnWait) ∨
    (s.threads i).runSemaphore = 0 ∧ s.semaphore = 0 ∧
      ((s.threads i).pc = .entryPost ∨ (s.threads i).pc = .returnWakePost) ∨
    (s.threads i).runSemaphore = 0 ∧ s.semaphore = 1 ∧
      ((s.threads i).pc = .running ∨ (s.threads i).pc = .returnLock ∨
        (s.threads i).pc = .returnRelock)

/-- Thread `i` has been posted and its token has not been taken. -/
structure Starting (s : State ι) (i : ι) : Prop where
  current : s.currentPtr = some i
  otherPipe : s.otherPipe = 0
  others : ∀ j ≠ i, (s.threads j).Idle
  signals : (s.threads i).signals = .quiet
  suspensionType : (s.threads i).suspensionType = false
  token : s.Token i

/-- Thread `i` runs, unless the timer has stopped it. -/
structure Running (s : State ι) (i : ι) : Prop where
  current : s.currentPtr = some i
  semaphore : s.semaphore = 0
  others : ∀ j ≠ i, (s.threads j).Idle
  runSemaphore : (s.threads i).runSemaphore = 0
  signals : SignalsAt s.timerPc (s.threads i).signals s.otherPipe
  pc : (s.threads i).pc = .running ∨ (s.threads i).pc = .returnLock ∨
    (s.threads i).pc = .returnRelock ∨ (s.threads i).pc = .returnClear ∨
    (s.threads i).pc = .returnRecheck

/-- Thread `i` has cleared `_tx_thread_current_ptr` and has not posted the token yet. -/
structure Yielding (s : State ι) (i : ι) : Prop where
  current : s.currentPtr = none
  semaphore : s.semaphore = 0
  otherPipe : s.otherPipe = 0
  others : ∀ j ≠ i, (s.threads j).Idle
  runSemaphore : (s.threads i).runSemaphore = 0
  signals : (s.threads i).signals = .quiet
  suspensionType : (s.threads i).suspensionType = false
  pc : (s.threads i).pc = .returnDrain ∨ (s.threads i).pc = .returnPostLock ∨
    (s.threads i).pc = .returnPost

/-- The phases, by the stage of the scheduler and the thread that has been given the permission to
run and has not returned it. -/
inductive Phase (s : State ι) : Stage → Option ι → Prop where
  | selecting : s.Settled none 0 → s.timerPc.rest = true → Phase s .selecting none
  | resuming (i : ι) : s.Settled (some i) 0 → (s.threads i).Stopped →
      s.timerPc.outside = true → Phase s .resuming none
  | offering (i : ι) : s.Settled (some i) 0 → (s.threads i).Parked →
      s.timerPc.outside = true → Phase s .offering none
  | starting (i : ι) : s.Starting i → s.timerPc.outside = true → Phase s .starting (some i)
  | leaving (i : ι) : s.Running i → s.timerPc.outside = true → Phase s .leaving (some i)
  | running (i : ι) : s.Running i → Phase s .waiting (some i)
  | yielding (i : ι) : s.Yielding i → s.timerPc.rest = true → Phase s .waiting (some i)
  | interrupted : s.Settled none 0 → s.timerPc = .restoreDrain ∨ s.timerPc = .restorePost →
      Phase s .waiting none
  | yielded : s.Settled none 1 → s.timerPc.rest = true → Phase s .waiting none

/-- The invariant of the protocol. -/
structure Invariant (s : State ι) : Prop where
  locked : s.Locked
  systemState : s.systemState = if s.timerPc.inInterrupt then 1 else 0
  phase : ∃ holder, s.Phase s.schedulerPc.stage holder

/-! ## Phases under small changes -/

/-- Two states agree on what the phases say about the threads, apart from the timer's point. -/
structure SameThreads (s s' : State ι) : Prop where
  currentPtr : s'.currentPtr = s.currentPtr
  semaphore : s'.semaphore = s.semaphore
  otherPipe : s'.otherPipe = s.otherPipe
  threads : s'.threads = s.threads

variable {s s' : State ι} {i : ι} {current : Option ι} {tokens : ℕ} {stage : Stage}
  {holder : Option ι}

/-- The threads stay settled. -/
theorem Settled.congr (h : s.Settled current tokens) (hsame : s.SameThreads s') :
    s'.Settled current tokens where
  current := hsame.currentPtr.trans h.current
  semaphore := hsame.semaphore.trans h.semaphore
  otherPipe := hsame.otherPipe.trans h.otherPipe
  idle := by
    rw [hsame.threads]
    exact h.idle

/-- A posted thread stays posted. -/
theorem Starting.congr (h : s.Starting i) (hsame : s.SameThreads s') : s'.Starting i := by
  obtain ⟨hcurrent, hsemaphore, hpipe, hthreads⟩ := hsame
  constructor
  · exact hcurrent.trans h.current
  · exact hpipe.trans h.otherPipe
  · rw [hthreads]
    exact h.others
  · rw [hthreads]
    exact h.signals
  · rw [hthreads]
    exact h.suspensionType
  · rw [Token, hsemaphore, hthreads]
    exact h.token

/-- The current thread stays current while its signals are as the timer's point demands. -/
theorem Running.congr (h : s.Running i) (hsame : s.SameThreads s')
    (hsignals : SignalsAt s'.timerPc = SignalsAt s.timerPc) : s'.Running i := by
  obtain ⟨hcurrent, hsemaphore, hpipe, hthreads⟩ := hsame
  constructor
  · exact hcurrent.trans h.current
  · exact hsemaphore.trans h.semaphore
  all_goals rw [hthreads]
  · exact h.others
  · exact h.runSemaphore
  · rw [hsignals, hpipe]
    exact h.signals
  · exact h.pc

/-- A yielding thread stays so. -/
theorem Yielding.congr (h : s.Yielding i) (hsame : s.SameThreads s') : s'.Yielding i := by
  obtain ⟨hcurrent, hsemaphore, hpipe, hthreads⟩ := hsame
  constructor
  · exact hcurrent.trans h.current
  · exact hsemaphore.trans h.semaphore
  · exact hpipe.trans h.otherPipe
  all_goals rw [hthreads]
  · exact h.others
  · exact h.runSemaphore
  · exact h.signals
  · exact h.suspensionType
  · exact h.pc

/-- A phase lasts while neither the threads nor the timer's point change. -/
theorem Phase.congr (h : s.Phase stage holder) (hsame : s.SameThreads s')
    (htimer : s'.timerPc = s.timerPc) : s'.Phase stage holder := by
  have hsignals : SignalsAt s'.timerPc = SignalsAt s.timerPc := by rw [htimer]
  cases h with
  | selecting h hrest => exact .selecting (h.congr hsame) (htimer ▸ hrest)
  | resuming i h hstopped hout =>
      exact .resuming i (h.congr hsame) (hsame.threads ▸ hstopped) (htimer ▸ hout)
  | offering i h hparked hout =>
      exact .offering i (h.congr hsame) (hsame.threads ▸ hparked) (htimer ▸ hout)
  | starting i h hout => exact .starting i (h.congr hsame) (htimer ▸ hout)
  | leaving i h hout => exact .leaving i (h.congr hsame hsignals) (htimer ▸ hout)
  | running i h => exact .running i (h.congr hsame hsignals)
  | yielding i h hrest => exact .yielding i (h.congr hsame) (htimer ▸ hrest)
  | interrupted h hpc => exact .interrupted (h.congr hsame) (htimer ▸ hpc)
  | yielded h hrest => exact .yielded (h.congr hsame) (htimer ▸ hrest)

/-- A phase lasts while the timer moves between points that treat the threads alike. -/
theorem Phase.moveTimer (h : s.Phase stage holder) (hsame : s.SameThreads s')
    (hsignals : s.currentPtr ≠ none → SignalsAt s'.timerPc = SignalsAt s.timerPc)
    (hfrom : s.timerPc.rest = true) (hto : s'.timerPc.rest = true)
    (hout : s.timerPc.outside = true →
      s'.timerPc.outside = true ∨ stage = .selecting ∨ stage = .waiting) :
    s'.Phase stage holder := by
  cases h with
  | selecting h _ => exact .selecting (h.congr hsame) hto
  | resuming i h hstopped hpc =>
      exact .resuming i (h.congr hsame) (hsame.threads ▸ hstopped) (by simpa using hout hpc)
  | offering i h hparked hpc =>
      exact .offering i (h.congr hsame) (hsame.threads ▸ hparked) (by simpa using hout hpc)
  | starting i h hpc => exact .starting i (h.congr hsame) (by simpa using hout hpc)
  | leaving i h hpc =>
      exact .leaving i (h.congr hsame (hsignals (by simp [h.current]))) (by simpa using hout hpc)
  | running i h => exact .running i (h.congr hsame (hsignals (by simp [h.current])))
  | yielding i h _ => exact .yielding i (h.congr hsame) hto
  | interrupted _ hpc => rcases hpc with hpc | hpc <;> simp [hpc, TimerPc.rest] at hfrom
  | yielded h _ => exact .yielded (h.congr hsame) hto

/-- From `s` to `s'` nothing that the phases speak of changes except thread `i`. -/
structure OnlyThread (i : ι) (s s' : State ι) : Prop where
  currentPtr : s'.currentPtr = s.currentPtr
  semaphore : s'.semaphore = s.semaphore
  otherPipe : s'.otherPipe = s.otherPipe
  timerPc : s'.timerPc = s.timerPc
  others : ∀ j ≠ i, s'.threads j = s.threads j

/-- When the changed thread stays idle, all idle threads do. -/
theorem OnlyThread.idle (honly : OnlyThread i s s')
    (hkeep : (s.threads i).Idle → (s'.threads i).Idle) {j : ι} (h : (s.threads j).Idle) :
    (s'.threads j).Idle := by
  by_cases hj : j = i
  · subst hj
    exact hkeep h
  · rw [honly.others j hj]
    exact h

/-- The current thread stays current while its signals are not touched. -/
theorem Running.change (h : s.Running i) (honly : OnlyThread i s s')
    (hrun : (s'.threads i).runSemaphore = (s.threads i).runSemaphore)
    (hsignals : (s'.threads i).signals = (s.threads i).signals)
    (hpc : (s'.threads i).pc = .running ∨ (s'.threads i).pc = .returnLock ∨
      (s'.threads i).pc = .returnRelock ∨ (s'.threads i).pc = .returnClear ∨
      (s'.threads i).pc = .returnRecheck) : s'.Running i where
  current := honly.currentPtr.trans h.current
  semaphore := honly.semaphore.trans h.semaphore
  others j hj := by
    rw [honly.others j hj]
    exact h.others j hj
  runSemaphore := hrun.trans h.runSemaphore
  signals := by
    rw [honly.timerPc, honly.otherPipe, hsignals]
    exact h.signals
  pc := hpc

/-- A phase lasts while an idle thread stays parked or stopped. -/
theorem Phase.changeIdle (h : s.Phase stage holder) (honly : OnlyThread i s s')
    (hne : holder ≠ some i) (hparked : (s.threads i).Parked → (s'.threads i).Parked)
    (hstopped : (s.threads i).Stopped → (s'.threads i).Stopped) : s'.Phase stage holder := by
  have hidle {j : ι} : (s.threads j).Idle → (s'.threads j).Idle :=
    honly.idle (Or.imp hparked hstopped)
  have hsettled {current : Option ι} {tokens : ℕ} (h : s.Settled current tokens) :
      s'.Settled current tokens :=
    ⟨honly.currentPtr.trans h.current, honly.semaphore.trans h.semaphore,
      honly.otherPipe.trans h.otherPipe, fun j ↦ hidle (h.idle j)⟩
  have hrunning {j : ι} (hj : some j ≠ some i) (h : s.Running j) : s'.Running j := by
    have hsame := honly.others j fun heq ↦ hj (congrArg some heq)
    refine ⟨honly.currentPtr.trans h.current, honly.semaphore.trans h.semaphore,
      fun k hk ↦ hidle (h.others k hk), ?_, ?_, ?_⟩
    all_goals rw [hsame]
    · exact h.runSemaphore
    · rw [honly.timerPc, honly.otherPipe]
      exact h.signals
    · exact h.pc
  cases h with
  | selecting h hrest => exact .selecting (hsettled h) (honly.timerPc ▸ hrest)
  | resuming j h hstop hout =>
      refine .resuming j (hsettled h) ?_ (honly.timerPc ▸ hout)
      by_cases hj : j = i
      · subst hj
        exact hstopped hstop
      · rwa [honly.others j hj]
  | offering j h hpark hout =>
      refine .offering j (hsettled h) ?_ (honly.timerPc ▸ hout)
      by_cases hj : j = i
      · subst hj
        exact hparked hpark
      · rwa [honly.others j hj]
  | starting j h hout =>
      refine .starting j ?_ (honly.timerPc ▸ hout)
      have hsame := honly.others j fun heq ↦ hne (congrArg some heq)
      refine ⟨honly.currentPtr.trans h.current, honly.otherPipe.trans h.otherPipe,
        fun k hk ↦ hidle (h.others k hk), ?_, ?_, ?_⟩
      · rw [hsame]
        exact h.signals
      · rw [hsame]
        exact h.suspensionType
      · rw [Token, hsame, honly.semaphore]
        exact h.token
  | leaving j h hout => exact .leaving j (hrunning hne h) (honly.timerPc ▸ hout)
  | running j h => exact .running j (hrunning hne h)
  | yielding j h hrest =>
      refine .yielding j ?_ (honly.timerPc ▸ hrest)
      have hsame := honly.others j fun heq ↦ hne (congrArg some heq)
      refine ⟨honly.currentPtr.trans h.current, honly.semaphore.trans h.semaphore,
        honly.otherPipe.trans h.otherPipe, fun k hk ↦ hidle (h.others k hk), ?_, ?_, ?_, ?_⟩
      all_goals rw [hsame]
      · exact h.runSemaphore
      · exact h.signals
      · exact h.suspensionType
      · exact h.pc
  | interrupted h hpc => exact .interrupted (hsettled h) (honly.timerPc ▸ hpc)
  | yielded h hrest => exact .yielded (hsettled h) (honly.timerPc ▸ hrest)

/-- A thread without the permission to run is idle. -/
theorem Phase.idle (h : s.Phase stage holder) (hne : holder ≠ some i) : (s.threads i).Idle := by
  have hother {j : ι} (hj : some j ≠ some i) : i ≠ j := fun heq ↦ hj (congrArg some heq.symm)
  cases h with
  | selecting h _ | resuming _ h _ _ | offering _ h _ _ | interrupted h _ | yielded h _ =>
      exact h.idle i
  | starting j h _ => exact h.others i (hother hne)
  | leaving j h _ | running j h => exact h.others i (hother hne)
  | yielding j h _ => exact h.others i (hother hne)

/-- When the scheduler does not hold the mutex, it is picking a thread or waiting for one. -/
theorem Locked.stage_cases (h : s.Locked) (howner : s.mutex.owner ≠ some .scheduler) :
    s.schedulerPc.stage = .selecting ∨ s.schedulerPc.stage = .waiting := by
  have hscheduler : s.mutex.Agrees .scheduler s.schedulerPc.hold := h .scheduler
  cases hpc : s.schedulerPc with
  | lock | select | unlock | nap => exact .inl rfl
  | waitYield => exact .inr rfl
  | _ =>
      rw [hpc] at hscheduler
      exact absurd (hscheduler.owner (.inl rfl)) howner

/-! ## What the invariant says -/

/-- A thread that executes is the current one, and no interrupt is active. -/
theorem Phase.executing (h : s.Phase stage holder) (hexec : (s.threads i).Executing) :
    s.currentPtr = some i ∧ s.timerPc.inInterrupt = false := by
  -- only the thread with the permission to run is not idle
  obtain rfl : holder = some i := by_contra fun hne ↦ (h.idle hne).not_executing hexec
  cases h with
  | starting i h hout =>
      refine ⟨h.current, ?_⟩
      cases hpc : s.timerPc <;> simp [hpc, TimerPc.outside] at hout <;> rfl
  | leaving i h _ | running i h =>
      refine ⟨h.current, ?_⟩
      have hsignals := h.signals
      cases hpc : s.timerPc with
      | interruptLock | interrupt | restoreLock | restoreLeave =>
          rw [hpc] at hsignals
          exact absurd hexec.2 (by simp [hsignals.1.stopped])
      | _ => rfl
  | yielding i h _ =>
      rcases h.pc with hpc | hpc | hpc <;> simp [Thread.Executing, hpc, ThreadPc.active] at hexec

/-- A thread that executes is the current one, and no interrupt is active. -/
theorem Invariant.executing (h : s.Invariant) (hexec : (s.threads i).Executing) :
    s.currentPtr = some i ∧ s.timerPc.inInterrupt = false ∧ s.systemState = 0 := by
  obtain ⟨holder, hphase⟩ := h.phase
  obtain ⟨hcurrent, hpc⟩ := hphase.executing hexec
  refine ⟨hcurrent, hpc, ?_⟩
  rw [h.systemState, hpc]
  rfl

/-- No thread has reached `pthread_exit`. -/
theorem Phase.not_exited (h : s.Phase stage holder) (i : ι) : (s.threads i).pc ≠ .exited := by
  intro hexit
  by_cases hi : holder = some i
  · subst hi
    cases h with
    | starting i h _ => simpa [Token, hexit] using h.token
    | leaving i h _ | running i h => simpa [hexit] using h.pc
    | yielding i h _ => simpa [hexit] using h.pc
  · rcases h.idle hi with ⟨-, -, -, hpc⟩ | ⟨-, -, -, hpc⟩ <;> simp [hexit] at hpc

/-- The semaphore of the scheduler never holds more than one token. -/
theorem Phase.semaphore_le_one (h : s.Phase stage holder) : s.semaphore ≤ 1 := by
  cases h with
  | selecting h _ | resuming _ h _ _ | offering _ h _ _ | interrupted h _ | yielded h _ =>
      simp [h.semaphore]
  | starting _ h _ => rcases h.token with ⟨-, h, -⟩ | ⟨-, h, -⟩ | ⟨-, h, -⟩ <;> omega
  | leaving _ h _ | running _ h => simp [h.semaphore]
  | yielding _ h _ => simp [h.semaphore]

end State

end ThreadMetric.ThreadX
