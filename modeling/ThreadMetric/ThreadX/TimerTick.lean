import ThreadMetric.ThreadX.HandoffSafety

/-!
# The timer tick of the ThreadX POSIX port

The hand-off protocol with a clock. The timer loop sleeps for the length of a tick and then runs one
interrupt pass. `nanosleep` returns after the requested time, earlier if a signal handler has run in
the sleeping pthread, and at once if the request is invalid; the loop ignores which of these it was.
The scheduler suspends the timer pthread by a signal around every hand-off, so a hand-off during the
sleep makes the tick come early (`tick_runs_ahead`). As long as no handler returns into an
unfinished sleep, the ticks stay within the elapsed time (`ticks_within_elapsed`).
-/

namespace ThreadMetric.ThreadX

open Transition

/-- The handler is about to return: after its `sigsuspend`, or at once as a duplicate. -/
def Signals.returns (g : Signals) : Bool :=
  g.handler = .woken || g.handler = .entered && g.suspended

/-- The port with a clock in nanoseconds: when the timer loop was started, when its last `nanosleep`
was called, and whether a handler has returned into this call. -/
structure Clocked (ι : Type) where
  port : State ι
  now : ℕ
  loopStart : ℕ
  sleepStart : ℕ
  interrupted : Bool

/-- Either the port takes a step or time passes. -/
inductive ClockedEvent (ι : Type) where
  | port (event : Event ι)
  | advance (nanoseconds : ℕ)

/-- `nsec`, the nanoseconds of a tick. -/
def tickLength (ticksPerSecond : ℕ) : ℕ := 1000000000 / ticksPerSecond

namespace Clocked

variable {ι : Type}

/-- The port as it starts, at a given time. -/
def start (executePtr : Option ι) (now : ℕ) : Clocked ι :=
  ⟨.start executePtr, now, now, now, false⟩

/-- The requested time of the last `nanosleep` has passed. -/
def Elapsed (ticksPerSecond : ℕ) (s : Clocked ι) : Prop :=
  s.sleepStart + tickLength ticksPerSecond ≤ s.now

/-- `nanosleep` may return: the request was invalid, its time has passed, or a handler has run. -/
def NanosleepReturns (ticksPerSecond : ℕ) (s : Clocked ι) : Prop :=
  1000000000 ≤ tickLength ticksPerSecond ∨ s.Elapsed ticksPerSecond ∨ s.interrupted = true

instance (ticksPerSecond : ℕ) (s : Clocked ι) : Decidable (s.Elapsed ticksPerSecond) :=
  inferInstanceAs (Decidable (_ ≤ _))

instance (ticksPerSecond : ℕ) (s : Clocked ι) : Decidable (s.NanosleepReturns ticksPerSecond) :=
  inferInstanceAs (Decidable (_ ∨ _ ∨ _))

/-- The clocked state after a step of the timer; `nanosleep` is called on the way to `sleep`. -/
def afterTimer (s : Clocked ι) (port : State ι) : Clocked ι :=
  if port.timerPc = .sleep then
    { s with
      port := port
      loopStart := if s.port.timerPc = .waitStart then s.now else s.loopStart
      sleepStart := s.now
      interrupted := false }
  else { s with port := port }

variable [DecidableEq ι]

/-- One step of the port or of the clock. -/
def next (ticksPerSecond : ℕ) (s : Clocked ι) : ClockedEvent ι → Option (Clocked ι)
  | .advance nanoseconds => some { s with now := s.now + nanoseconds }
  | .port .timer =>
      if s.port.timerPc = .sleep ∧ ¬ s.NanosleepReturns ticksPerSecond then none
      else (s.port.next .timer).map s.afterTimer
  | .port .signalTimer =>
      (s.port.next .signalTimer).map fun port ↦
        { s with
          port := port
          interrupted :=
            s.interrupted || s.port.timerPc = .sleep && s.port.timerSignals.returns }
  | .port event => (s.port.next event).map fun port ↦ { s with port := port }

end Clocked

/-! ## A tick at time zero -/

/-- A hand-off during the first sleep ends it, and the interrupt is entered at once. -/
def earlyTick : List (ClockedEvent (Fin 1)) :=
  (firstHandOff (0 : Fin 1) ++ interruption 0 ++ [Event.timer]).map .port

/-- With 100 ticks a second the first tick can come when no time has passed. -/
theorem tick_runs_ahead :
    ∃ s, run (Clocked.next 100) earlyTick (Clocked.start (some 0) 0) = some s ∧
      ¬ s.loopStart + s.port.timerInterrupts * tickLength 100 ≤ s.now := by
  obtain ⟨s, hrun, hticks, hnow, hstart⟩ : ∃ s,
      run (Clocked.next 100) earlyTick (Clocked.start (some 0) 0) = some s ∧
        s.port.timerInterrupts = 1 ∧ s.now = 0 ∧ s.loopStart = 0 := ⟨_, rfl, rfl, rfl, rfl⟩
  refine ⟨s, hrun, ?_⟩
  rw [hticks, hnow, hstart]
  decide

/-! ## Ticks without disturbed sleeps -/

/-- The timer is between the return of `nanosleep` and the count of the tick. -/
def TimerPc.tickDue : TimerPc → Bool
  | .saveLock | .saveTest | .saveSuspend | .saveReadPipe | .saveMark | .saveEnter
  | .interruptLock => true
  | _ => false

namespace State

variable {ι : Type}

/-- How often `nanosleep` has returned. -/
def sleeps (s : State ι) : ℕ := s.timerInterrupts + if s.timerPc.tickDue then 1 else 0

/-- The timer pthread has neither moved nor counted. -/
def TimerKept (s s' : State ι) : Prop :=
  s'.timerPc = s.timerPc ∧ s'.timerInterrupts = s.timerInterrupts

variable {s s' : State ι} {i : ι}

/-- Nothing but the count and the point of the timer decides how many sleeps have ended. -/
theorem sleeps_congr (hcount : s'.timerInterrupts = s.timerInterrupts)
    (hdue : s'.timerPc.tickDue = s.timerPc.tickDue) : s'.sleeps = s.sleeps := by
  rw [sleeps, sleeps, hcount, hdue]

variable [DecidableEq ι]

/-- The scheduler does not touch the timer's point. -/
theorem timer_kept_of_threadSchedule (hstep : s.threadSchedule = some s') : s.TimerKept s' := by
  unfold threadSchedule at hstep
  cases hpc : s.schedulerPc <;> simp only [hpc] at hstep
  case lock | resumeThread | postRun =>
    obtain ⟨_, -, rfl⟩ := Option.map_eq_some_iff.mp hstep
    exact ⟨rfl, rfl⟩
  case select =>
    cases hexec : s.executePtr with
    | none =>
        rw [hexec] at hstep
        obtain rfl := Option.some.inj hstep
        exact ⟨rfl, rfl⟩
    | some i =>
        simp only [hexec] at hstep
        split_ifs at hstep
        all_goals
          obtain rfl := Option.some.inj hstep
          exact ⟨rfl, rfl⟩
  case drainRun =>
    obtain ⟨i, -, rfl⟩ := Option.map_eq_some_iff.mp hstep
    split_ifs
    all_goals exact ⟨rfl, rfl⟩
  case waitBeforeIsr | readTimerPipe | waitBeforeResume | waitYield =>
    obtain ⟨-, hsome⟩ := Option.ite_none_right_eq_some.mp hstep
    obtain rfl := Option.some.inj hsome
    exact ⟨rfl, rfl⟩
  all_goals
    obtain rfl := Option.some.inj hstep
    exact ⟨rfl, rfl⟩

/-- The check for termination does not touch the timer's point. -/
theorem timer_kept_exitUnlessCurrent {go : State ι} (hgo : s.TimerKept go) :
    s.TimerKept (s.exitUnlessCurrent i go) := by
  unfold exitUnlessCurrent
  split_ifs
  · exact hgo
  · exact ⟨rfl, rfl⟩

/-- A thread does not touch the timer's point. -/
theorem timer_kept_of_threadStep (hstep : s.threadStep i = some s') : s.TimerKept s' := by
  unfold threadStep at hstep
  cases hpc : (s.threads i).pc <;> simp only [hpc] at hstep
  case entryWait | returnWait =>
    obtain ⟨-, hsome⟩ := Option.ite_none_right_eq_some.mp hstep
    obtain rfl := Option.some.inj hsome
    exact ⟨rfl, rfl⟩
  case returnLock | returnPostLock | returnRelock =>
    obtain ⟨_, -, rfl⟩ := Option.map_eq_some_iff.mp hstep
    exact ⟨rfl, rfl⟩
  case returnClear | returnRecheck =>
    obtain rfl := Option.some.inj hstep
    exact timer_kept_exitUnlessCurrent ⟨rfl, rfl⟩
  case returnDrain =>
    split_ifs at hstep
    all_goals
      obtain rfl := Option.some.inj hstep
      exact ⟨rfl, rfl⟩
  case exited => cases hstep
  all_goals
    obtain rfl := Option.some.inj hstep
    exact ⟨rfl, rfl⟩

/-- The change of posture does not touch the timer's point. -/
theorem timer_kept_setPosture (p : Party ι) (posture : Posture) :
    s.TimerKept (s.setPosture p posture) := by
  unfold setPosture
  split_ifs
  · exact ⟨rfl, rfl⟩
  · cases s.currentPtr with
    | none => exact ⟨rfl, rfl⟩
    | some c => exact ⟨rfl, rfl⟩

/-- A kernel action does not touch the timer's point. -/
theorem timer_kept_of_kernelStep {p : Party ι} {action : KernelAction ι}
    (hstep : s.kernelStep p action = some s') : s.TimerKept s' := by
  cases action with
  | setExecutePtr next | setPreemptDisable count =>
      obtain rfl := Option.some.inj hstep
      exact ⟨rfl, rfl⟩
  | interruptControl posture =>
      obtain ⟨m, -, rfl⟩ := Option.map_eq_some_iff.mp hstep
      have hposture := timer_kept_setPosture (s := { s with mutex := m }) p posture
      cases p with
      | thread i => exact timer_kept_exitUnlessCurrent (s := { s with mutex := m }) hposture
      | scheduler | timer => exact hposture

/-- Only the timer's own steps move it and count its interrupts. -/
theorem timer_kept {event : Event ι} (hnext : s.next event = some s') (hevent : event ≠ .timer) :
    s.TimerKept s' := by
  unfold State.next at hnext
  cases event with
  | timer => exact absurd rfl hevent
  | scheduler => exact timer_kept_of_threadSchedule hnext
  | thread i =>
      simp only [Option.ite_none_right_eq_some] at hnext
      exact timer_kept_of_threadStep hnext.2
  | interrupt action | run i action =>
      simp only [Option.ite_none_right_eq_some] at hnext
      exact timer_kept_of_kernelStep hnext.2
  | signalTimer | signalThread i =>
      simp only [Option.map_eq_some_iff] at hnext
      obtain ⟨_, _, rfl⟩ := hnext
      exact ⟨rfl, rfl⟩

/-- When `nanosleep` returns, a tick is due. -/
theorem sleeps_of_sleep (hsleep : s.timerPc = .sleep) (hstep : s.posixTimerInterrupt = some s') :
    s'.timerPc = .saveLock ∧ s'.sleeps = s.sleeps + 1 := by
  unfold posixTimerInterrupt at hstep
  simp only [hsleep, Option.some.injEq] at hstep
  subst hstep
  exact ⟨rfl, by simp [sleeps, hsleep, TimerPc.tickDue]⟩

/-- The other steps of the timer loop keep the number of sleeps that have ended. -/
theorem sleeps_of_not_sleep (hsleep : s.timerPc ≠ .sleep)
    (hstep : s.posixTimerInterrupt = some s') :
    s'.timerPc ≠ .waitStart ∧ s'.sleeps = s.sleeps := by
  unfold posixTimerInterrupt at hstep
  cases hpc : s.timerPc with
  | sleep => exact absurd hpc hsleep
  | interruptLock =>
      -- the count takes the place of the tick that was due
      simp only [hpc, Option.map_eq_some_iff] at hstep
      obtain ⟨m, -, rfl⟩ := hstep
      exact ⟨nofun, by simp [sleeps, hpc, TimerPc.tickDue]⟩
  | saveTest =>
      simp only [hpc, Option.some.injEq] at hstep
      subst hstep
      by_cases hcurrent : s.currentPtr ≠ none ∧ s.systemState = 0
      · rw [if_pos hcurrent]
        exact ⟨nofun, sleeps_congr rfl (by rw [hpc]; rfl)⟩
      · rw [if_neg hcurrent]
        exact ⟨nofun, sleeps_congr rfl (by rw [hpc]; rfl)⟩
  | waitStart | saveReadPipe | restoreWaitIsr =>
      simp only [hpc, Option.ite_none_right_eq_some, Option.some.injEq] at hstep
      obtain ⟨-, rfl⟩ := hstep
      exact ⟨nofun, sleeps_congr rfl (by rw [hpc]; rfl)⟩
  | saveLock | saveSuspend | saveMark | restoreLock | restoreResume | restoreRelock =>
      simp only [hpc, Option.map_eq_some_iff] at hstep
      obtain ⟨_, -, rfl⟩ := hstep
      exact ⟨nofun, sleeps_congr rfl (by rw [hpc]; rfl)⟩
  | restoreLeave =>
      cases hcurrent : s.currentPtr with
      | none =>
          simp only [hpc, hcurrent, Option.some.injEq] at hstep
          subst hstep
          exact ⟨nofun, sleeps_congr rfl (by rw [hpc]; rfl)⟩
      | some i =>
          simp only [hpc, hcurrent] at hstep
          split_ifs at hstep
          all_goals
            obtain rfl := Option.some.inj hstep
            exact ⟨nofun, sleeps_congr rfl (by rw [hpc]; rfl)⟩
  | restoreTest =>
      cases hexec : s.executePtr with
      | none =>
          simp only [hpc, hexec, Option.some.injEq] at hstep
          subst hstep
          exact ⟨nofun, sleeps_congr rfl (by rw [hpc]; rfl)⟩
      | some i =>
          simp only [hpc, hexec] at hstep
          split_ifs at hstep
          all_goals
            obtain rfl := Option.some.inj hstep
            exact ⟨nofun, sleeps_congr rfl (by rw [hpc]; rfl)⟩
  | restoreDrain | restoreDrainIsr =>
      simp only [hpc] at hstep
      split_ifs at hstep
      · obtain rfl := Option.some.inj hstep
        exact ⟨nofun, sleeps_congr rfl (by rw [hpc])⟩
      · obtain rfl := Option.some.inj hstep
        exact ⟨nofun, sleeps_congr rfl (by rw [hpc]; rfl)⟩
  | saveEnter | interrupt | restorePost | restoreUnlock =>
      simp only [hpc, Option.some.injEq] at hstep
      subst hstep
      exact ⟨nofun, sleeps_congr rfl (by rw [hpc]; rfl)⟩

end State

namespace Clocked

variable {ι : Type} {ticksPerSecond : ℕ} {s s' : Clocked ι}

/-- No handler returns into a `nanosleep` whose time has not passed. -/
def Undisturbed (ticksPerSecond : ℕ) (s : Clocked ι) (event : ClockedEvent ι) : Prop :=
  event = .port .signalTimer → s.port.timerPc = .sleep → s.port.timerSignals.returns = true →
    s.Elapsed ticksPerSecond

instance (ticksPerSecond : ℕ) (s : Clocked ι) :
    DecidablePred (Undisturbed ticksPerSecond s)
  | .port .signalTimer =>
      decidable_of_iff (s.port.timerPc = .sleep → s.port.timerSignals.returns = true →
        s.Elapsed ticksPerSecond) ⟨fun h _ ↦ h, fun h ↦ h rfl⟩
  | .advance _ => isTrue nofun
  | .port .scheduler | .port .timer | .port (.thread _) | .port (.interrupt _)
  | .port (.run _ _) | .port (.signalThread _) => isTrue nofun

/-- Every sleep that has ended has taken the length of a tick, and so will the one under way. -/
structure OnTime (ticksPerSecond : ℕ) (s : Clocked ι) : Prop where
  sleepStart : s.sleepStart ≤ s.now
  notStarted : s.port.timerPc = .waitStart → s.port.sleeps = 0
  awake : s.loopStart + s.port.sleeps * tickLength ticksPerSecond ≤ s.now
  asleep : s.port.timerPc = .sleep →
    s.loopStart + s.port.sleeps * tickLength ticksPerSecond ≤ s.sleepStart
  interrupted : s.port.timerPc = .sleep → s.interrupted = true → s.Elapsed ticksPerSecond

/-- The request is valid unless the length of a tick is a whole second. -/
theorem tickLength_lt (h : ticksPerSecond ≠ 1) : tickLength ticksPerSecond < 1000000000 := by
  unfold tickLength
  rcases Nat.eq_zero_or_pos ticksPerSecond with rfl | hpos
  · decide
  · exact Nat.div_lt_self (by decide) (by omega)

/-- The start is on time. -/
theorem onTime_start (executePtr : Option ι) (now : ℕ) :
    (start executePtr now).OnTime ticksPerSecond where
  sleepStart := Nat.le_refl now
  notStarted _ := rfl
  awake := by
    show now + 0 * _ ≤ now
    omega
  asleep := nofun
  interrupted := nofun

/-- A step that does not touch the timer keeps it on time. -/
theorem OnTime.kept (h : s.OnTime ticksPerSecond) {port : State ι} (hkept : s.port.TimerKept port)
    {interrupted : Bool} (hinterrupted : port.timerPc = .sleep → interrupted = true →
      s.Elapsed ticksPerSecond) :
    ({ s with port := port, interrupted := interrupted } : Clocked ι).OnTime ticksPerSecond := by
  obtain ⟨hpc, hcount⟩ := hkept
  have hsleeps : port.sleeps = s.port.sleeps := State.sleeps_congr hcount (by rw [hpc])
  refine ⟨h.sleepStart, fun hstart ↦ ?_, ?_, fun hsleep ↦ ?_, hinterrupted⟩
  · exact hsleeps.trans (h.notStarted (hpc ▸ hstart))
  · show _ + port.sleeps * _ ≤ _
    rw [hsleeps]
    exact h.awake
  · show _ + port.sleeps * _ ≤ _
    rw [hsleeps]
    exact h.asleep (hpc ▸ hsleep)

variable [DecidableEq ι]

/-- A step of the timer loop keeps it on time. -/
theorem OnTime.timer (h : s.OnTime ticksPerSecond) (hvalid : ticksPerSecond ≠ 1) {port : State ι}
    (hreturns : s.port.timerPc = .sleep → s.NanosleepReturns ticksPerSecond)
    (hstep : s.port.posixTimerInterrupt = some port) :
    (s.afterTimer port).OnTime ticksPerSecond := by
  by_cases hsleep : s.port.timerPc = .sleep
  · obtain ⟨hpc, hsleeps⟩ := State.sleeps_of_sleep hsleep hstep
    -- the sleep has taken its time, whatever has made it return
    have helapsed : s.Elapsed ticksPerSecond := by
      rcases hreturns hsleep with hinvalid | helapsed | hinterrupted
      · exact absurd (tickLength_lt hvalid) (Nat.not_lt.mpr hinvalid)
      · exact helapsed
      · exact h.interrupted hsleep hinterrupted
    have hawake : s.loopStart + (s.port.sleeps + 1) * tickLength ticksPerSecond ≤ s.now := by
      have := h.asleep hsleep
      have : s.sleepStart + tickLength ticksPerSecond ≤ s.now := helapsed
      rw [Nat.add_mul]
      omega
    rw [afterTimer, if_neg (by simp [hpc])]
    refine ⟨h.sleepStart, ?_, ?_, ?_, ?_⟩
    · simp [hpc]
    · show _ + port.sleeps * _ ≤ _
      rw [hsleeps]
      exact hawake
    · simp [hpc]
    · simp [hpc]
  · obtain ⟨hstart, hsleeps⟩ := State.sleeps_of_not_sleep hsleep hstep
    unfold afterTimer
    split_ifs with hpc hfirst
    -- the loop begins, and with it the time that counts
    · have hzero : port.sleeps = 0 := hsleeps.trans (h.notStarted hfirst)
      have hnow : s.now + port.sleeps * tickLength ticksPerSecond ≤ s.now := by simp [hzero]
      exact ⟨Nat.le_refl _, fun hwait ↦ absurd hwait hstart, hnow, fun _ ↦ hnow, nofun⟩
    · have hnow : s.loopStart + port.sleeps * tickLength ticksPerSecond ≤ s.now := by
        rw [hsleeps]
        exact h.awake
      exact ⟨Nat.le_refl _, fun hwait ↦ absurd hwait hstart, hnow, fun _ ↦ hnow, nofun⟩
    · have hnow : s.loopStart + port.sleeps * tickLength ticksPerSecond ≤ s.now := by
        rw [hsleeps]
        exact h.awake
      exact ⟨h.sleepStart, fun hwait ↦ absurd hwait hstart, hnow, fun hwait ↦ absurd hwait hpc,
        fun hwait ↦ absurd hwait hpc⟩

/-- An undisturbed step keeps the timer on time. -/
theorem OnTime.next (h : s.OnTime ticksPerSecond) (hvalid : ticksPerSecond ≠ 1)
    {event : ClockedEvent ι} (hundisturbed : Undisturbed ticksPerSecond s event)
    (hnext : s.next ticksPerSecond event = some s') : s'.OnTime ticksPerSecond := by
  cases event with
  | advance nanoseconds =>
      obtain rfl := Option.some.inj hnext
      have hlater : s.now ≤ s.now + nanoseconds := Nat.le_add_right _ _
      exact ⟨h.sleepStart.trans hlater, h.notStarted, h.awake.trans hlater, h.asleep,
        fun hsleep hinterrupted ↦ (h.interrupted hsleep hinterrupted).trans hlater⟩
  | port event =>
      cases event with
      | timer =>
          simp only [Clocked.next, Option.ite_none_left_eq_some, Option.map_eq_some_iff] at hnext
          obtain ⟨hawake, port, hport, rfl⟩ := hnext
          simp only [State.next, Option.ite_none_right_eq_some] at hport
          refine h.timer hvalid (fun hsleep ↦ ?_) hport.2
          by_contra hnot
          exact hawake ⟨hsleep, hnot⟩
      | signalTimer =>
          simp only [Clocked.next, Option.map_eq_some_iff] at hnext
          obtain ⟨port, hport, rfl⟩ := hnext
          have hkept := State.timer_kept hport nofun
          refine h.kept hkept fun hsleep hinterrupted ↦ ?_
          have hbefore : s.port.timerPc = .sleep := hkept.1 ▸ hsleep
          -- either a handler has returned before, or one returns now
          simp only [Bool.or_eq_true, Bool.and_eq_true] at hinterrupted
          rcases hinterrupted with hearlier | ⟨-, hreturns⟩
          · exact h.interrupted hbefore hearlier
          · exact hundisturbed rfl hbefore hreturns
      | _ =>
          obtain ⟨port, hport, rfl⟩ := Option.map_eq_some_iff.mp hnext
          have hkept := State.timer_kept hport nofun
          exact h.kept hkept fun hsleep ↦ h.interrupted (hkept.1 ▸ hsleep)

end Clocked

/-- While no handler of the timer pthread returns into an unfinished `nanosleep`, the ticks counted
since the loop started take no more than the time elapsed. -/
theorem ticks_within_elapsed {ι : Type} [DecidableEq ι] {ticksPerSecond : ℕ}
    (hvalid : ticksPerSecond ≠ 1) {executePtr : Option ι} {now : ℕ} {s : Clocked ι}
    (hreach : ReachableWhere (Clocked.next ticksPerSecond) (Clocked.Undisturbed ticksPerSecond)
      (Clocked.start executePtr now) s) :
    s.loopStart + s.port.timerInterrupts * tickLength ticksPerSecond ≤ s.now := by
  have honTime : s.OnTime ticksPerSecond := by
    refine hreach.invariant (Clocked.OnTime ticksPerSecond) (Clocked.onTime_start executePtr now) ?_
    intro state event finish h hundisturbed hnext
    exact h.next hvalid hundisturbed hnext
  have hle : s.port.timerInterrupts ≤ s.port.sleeps := Nat.le_add_right _ _
  have hmul := Nat.mul_le_mul_right (tickLength ticksPerSecond) hle
  have hawake := honTime.awake
  omega

/-- After a full tick a hand-off stops and resumes the timer pthread, whose handler so returns into
a `nanosleep` that is over, and then the interrupt is entered. -/
def firstTick : List (ClockedEvent (Fin 1)) :=
  .port .timer :: .advance 10000000 ::
    ((firstHandOff (0 : Fin 1)).tail ++ interruption 0 ++ [Event.timer]).map .port

/-- With 100 ticks a second the first undisturbed tick is counted after ten milliseconds. -/
theorem ticks_within_elapsed_first_tick :
    ∃ s, run (Clocked.next 100) firstTick (Clocked.start (some 0) 0) = some s ∧
      s.interrupted = true ∧ s.port.timerInterrupts = 1 ∧
      s.loopStart + 1 * tickLength 100 ≤ s.now := by
  obtain ⟨s, hrun, hinterrupted, hticks⟩ : ∃ s,
      run (Clocked.next 100) firstTick (Clocked.start (some 0) 0) = some s ∧
        s.interrupted = true ∧ s.port.timerInterrupts = 1 := ⟨_, rfl, rfl, rfl⟩
  have hundisturbed : EveryStep (Clocked.next 100) (Clocked.Undisturbed 100) firstTick
      (Clocked.start (some 0) 0) := by
    decide
  have hbound := ticks_within_elapsed (by decide) (hundisturbed.reachable_where hrun)
  rw [hticks] at hbound
  exact ⟨s, hrun, hinterrupted, hticks, hbound⟩

end ThreadMetric.ThreadX
