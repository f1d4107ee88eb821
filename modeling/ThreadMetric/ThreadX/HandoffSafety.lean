import ThreadMetric.Library.Transition
import ThreadMetric.ThreadX.HandoffTimer

/-!
# Safety of the hand-off protocol

The invariant holds when `_tx_thread_schedule` is called and every step keeps it. In every state
reached at most one thread executes, it is the thread of `_tx_thread_current_ptr`, and none executes
during an interrupt; the check for terminated threads never fires, and the scheduler's semaphore
never holds more than one token.
-/

namespace ThreadMetric.ThreadX

open Transition

namespace State

variable {ι : Type} {s s' : State ι}

/-- The invariant holds at the start. -/
theorem invariant_start (executePtr : Option ι) : (start executePtr).Invariant where
  locked p := by
    cases p with
    | scheduler | timer | thread i => exact Option.some_ne_none _ ∘ Eq.symm
  systemState := rfl
  phase := by
    refine ⟨none, .selecting ⟨rfl, rfl, rfl, fun _ ↦ .inl ?_⟩ rfl⟩
    exact ⟨rfl, rfl, rfl, .inl rfl⟩

/-- The delivery of a signal to the timer keeps the invariant. -/
theorem Invariant.signalTimer (h : s.Invariant) (signals : Signals) (bytes : ℕ) :
    ({ s with timerSignals := signals, timerPipe := bytes } : State ι).Invariant where
  locked := h.locked
  systemState := h.systemState
  phase := h.phase.imp fun _ hphase ↦ hphase.congr ⟨rfl, rfl, rfl, rfl⟩ rfl

variable [DecidableEq ι]

/-- Every step keeps the invariant. -/
theorem Invariant.next (h : s.Invariant) {event : Event ι} (hnext : s.next event = some s') :
    s'.Invariant := by
  unfold State.next at hnext
  cases event with
  | scheduler => exact h.threadSchedule hnext
  | timer =>
      simp only [Option.ite_none_right_eq_some] at hnext
      exact h.posixTimerInterrupt hnext.2
  | thread i =>
      simp only [Option.ite_none_right_eq_some] at hnext
      exact h.threadStep hnext.1 hnext.2
  | interrupt action =>
      simp only [Option.ite_none_right_eq_some] at hnext
      exact h.kernelStep_timer hnext.1.2 hnext.2
  | run i action =>
      simp only [Option.ite_none_right_eq_some] at hnext
      exact h.kernelStep_thread hnext.1.1 hnext.1.2 hnext.2
  | signalTimer =>
      simp only [Option.map_eq_some_iff] at hnext
      obtain ⟨_, _, rfl⟩ := hnext
      exact h.signalTimer _ _
  | signalThread i =>
      simp only [Option.map_eq_some_iff] at hnext
      obtain ⟨_, hstep, rfl⟩ := hnext
      exact h.signalThread hstep

/-- The invariant holds in every state reached. -/
theorem invariant_of_reachable {executePtr : Option ι}
    (hreach : Reachable State.next (start executePtr) s) : s.Invariant := by
  refine hreach.invariant Invariant (invariant_start executePtr) ?_
  intro state event finish h _ hnext
  exact h.next hnext

/-- No thread fails the check for terminated threads. -/
theorem no_thread_exits {executePtr : Option ι}
    (hreach : Reachable State.next (start executePtr) s) (i : ι) : (s.threads i).pc ≠ .exited := by
  obtain ⟨holder, hphase⟩ := (invariant_of_reachable hreach).phase
  exact hphase.not_exited i

/-- The scheduler's semaphore never holds more than one token. -/
theorem semaphore_le_one {executePtr : Option ι}
    (hreach : Reachable State.next (start executePtr) s) : s.semaphore ≤ 1 := by
  obtain ⟨holder, hphase⟩ := (invariant_of_reachable hreach).phase
  exact hphase.semaphore_le_one

end State

/-- In every state reached, for any number of threads and any interleaving: at most one thread
executes, an executing thread is the one of `_tx_thread_current_ptr`, and no thread executes between
`_tx_thread_context_save` and the decrement in `_tx_thread_context_restore`. -/
theorem one_thread_executes {ι : Type} [DecidableEq ι] {executePtr : Option ι} {s : State ι}
    (hreach : Reachable State.next (State.start executePtr) s) :
    (∀ i j, (s.threads i).Executing → (s.threads j).Executing → i = j) ∧
      (∀ i, (s.threads i).Executing → s.currentPtr = some i) ∧
      (s.timerPc.inInterrupt = true ∨ s.systemState ≠ 0 → ∀ i, ¬ (s.threads i).Executing) := by
  have hinv := State.invariant_of_reachable hreach
  refine ⟨fun i j hi hj ↦ ?_, fun i hi ↦ (hinv.executing hi).1, fun hactive i hi ↦ ?_⟩
  · have hsame := (hinv.executing hi).1.symm.trans (hinv.executing hj).1
    exact Option.some.inj hsame
  · obtain ⟨-, hpc, hsystem⟩ := hinv.executing hi
    rcases hactive with hinterrupt | hstate
    · simp [hpc] at hinterrupt
    · exact hstate hsystem

/-- The timer begins to sleep, and the first hand-off of thread `i` suspends and resumes it. -/
def firstHandOff {ι : Type} (i : ι) : List (Event ι) :=
  .timer :: List.replicate 6 .scheduler ++ List.replicate 3 .signalTimer ++ [.scheduler] ++
    List.replicate 2 (.thread i) ++ List.replicate 2 .scheduler ++ List.replicate 2 .signalTimer ++
    [.scheduler]

/-- The sleep ends, and the timer stops thread `i` and enters the interrupt. -/
def interruption {ι : Type} (i : ι) : List (Event ι) :=
  List.replicate 4 .timer ++ List.replicate 2 (.signalThread i) ++ List.replicate 3 .timer

/-- After the first hand-off thread 0 executes and is current; after the next interruption it has
been stopped. -/
theorem one_thread_executes_first_hand_off :
    (∃ s, run State.next (firstHandOff 0) (State.start (some (0 : Fin 2))) = some s ∧
      (s.threads 0).Executing ∧ s.currentPtr = some 0 ∧ ¬ (s.threads 1).Executing) ∧
    ∃ s, run State.next (firstHandOff 0 ++ interruption 0) (State.start (some (0 : Fin 2))) =
      some s ∧ s.systemState = 1 ∧ ∀ i, ¬ (s.threads i).Executing := by
  constructor
  · obtain ⟨s, hrun, hexec⟩ : ∃ s, run State.next (firstHandOff 0)
        (State.start (some (0 : Fin 2))) = some s ∧ (s.threads 0).Executing := ⟨_, rfl, by decide⟩
    obtain ⟨honly, hcurrent, -⟩ := one_thread_executes (reachable_of_run hrun)
    refine ⟨s, hrun, hexec, hcurrent 0 hexec, fun hother ↦ ?_⟩
    exact absurd (honly 0 1 hexec hother) (by decide)
  · obtain ⟨s, hrun, hsystem⟩ : ∃ s, run State.next (firstHandOff 0 ++ interruption 0)
        (State.start (some (0 : Fin 2))) = some s ∧ s.systemState = 1 := ⟨_, rfl, rfl⟩
    obtain ⟨-, -, hstopped⟩ := one_thread_executes (reachable_of_run hrun)
    exact ⟨s, hrun, hsystem, hstopped (.inr (by simp [hsystem]))⟩

end ThreadMetric.ThreadX
