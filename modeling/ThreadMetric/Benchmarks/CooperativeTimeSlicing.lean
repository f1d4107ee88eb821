import ThreadMetric.Benchmarks.CooperativeScheduling

/-!
# The cooperative scheduling test under time slicing

FreeRTOS is configured with `configUSE_TIME_SLICING 1`, so a tick may send the running worker to
the end of the ready list before its statement is executed, and so does the reporter when it
preempts that worker: when it sleeps again, the kernel goes on with the next one. A worker that is
preempted while others have already had their turn loses its own: `tick_breaks_balance` is a run
in which one worker keeps losing its turn and the reporter prints its ERROR line.

`balanced_while_preempted_level` says which preemptions are harmless: those that arrive when
equally many increments are due of all workers. The invariant `Steady` is weaker than the `InTurn`
of the ThreadX test, because a harmless preemption may skip a worker in the order.
-/

namespace ThreadMetric.CooperativeScheduling

open Kernel Report Transition

variable {m m' : Machine (Fin 5) (Fin 5)}

/-- No worker has been given more turns than another. -/
def Level (m : Machine (Fin 5) (Fin 5)) : Prop :=
  ∀ j k, due m j = due m k

instance (m : Machine (Fin 5) (Fin 5)) : Decidable (Level m) :=
  inferInstanceAs (Decidable (∀ _ _, _ = _))

/-- Workers that have had fewer turns come first in the ready list, the numbers of turns differ
by at most one, and a worker at the top of its loop has had the fewest. -/
structure Steady (m : Machine (Fin 5) (Fin 5)) : Prop where
  nodup : m.ready.Nodup
  all : ∀ j, j ∈ m.ready
  sorted : m.ready.Pairwise fun j k ↦ due m j ≤ due m k
  close : ∀ j k, due m j ≤ due m k + 1
  slot : ∀ j, m.pc j = some 1 ∨ m.pc j = some 0 ∧ ∀ k, due m j ≤ due m k

/-- The workers when the reporter runs first: all resumed in the order of creation, with `first` the
one that the kernel goes on with. That is worker 0 on the hosts and worker 1 on Cortex-M, where
`vTaskSuspend` has selected a worker once before the scheduler starts. -/
def startFrom (first : Fin 5) : Machine (Fin 5) (Fin 5) :=
  { tmCooperativeSchedulingInitialize .freeRTOS with
    ready := [first, first + 1, first + 2, first + 3, first + 4] }

/-- Without an earlier selection the first worker is the first that was resumed. -/
theorem start_from_zero : startFrom 0 = tmCooperativeSchedulingInitialize .freeRTOS := rfl

/-- The workers are steady at the start, whoever is first. -/
theorem steady_start (first : Fin 5) : Steady (startFrom first) := by
  have hdue : ∀ j, due (startFrom first) j = 0 := by
    intro j
    simp [due, startFrom, tmCooperativeSchedulingInitialize, Setup.start]
  constructor
  case nodup =>
    show [first, first + 1, first + 2, first + 3, first + 4].Nodup
    revert first
    decide
  case all =>
    show ∀ j, j ∈ [first, first + 1, first + 2, first + 3, first + 4]
    revert first
    decide
  case sorted =>
    refine List.pairwise_of_forall fun j k ↦ ?_
    rw [hdue, hdue]
  case close =>
    intro j k
    rw [hdue, hdue]
    exact Nat.zero_le _
  case slot =>
    intro j
    exact .inr ⟨rfl, fun k ↦ by rw [hdue, hdue]⟩

/-- The head of the ready list has had the fewest turns. -/
theorem Steady.head_le {t : Fin 5} {rest : List (Fin 5)} (h : Steady m)
    (hready : m.ready = t :: rest) (k : Fin 5) : due m t ≤ due m k := by
  have hsorted := h.sorted
  have hk := h.all k
  rw [hready] at hsorted hk
  rcases List.mem_cons.mp hk with rfl | hrest
  · exact le_rfl
  · exact (List.pairwise_cons.mp hsorted).1 k hrest

/-- The head of the ready list takes its turn and goes to the end. -/
theorem Steady.relinquish {t : Fin 5} {rest : List (Fin 5)} (h : Steady m)
    (hready : m.ready = t :: rest) (hpc : m.pc t = some 0) :
    Steady { m with pc := Function.update m.pc t (some 1), ready := rest ++ [t] } := by
  have hstep : WorkerStep m t rest _ := .relinquish hpc
  have hdue := hstep.due
  simp only [hpc, true_and] at hdue
  have hhead := h.head_le hready
  have hnodup := h.nodup
  have hsorted := h.sorted
  rw [hready] at hnodup hsorted
  obtain ⟨hnotin, hrest⟩ := List.nodup_cons.mp hnodup
  have hother : ∀ j ∈ rest, j ≠ t := fun j hj heq ↦ hnotin (heq ▸ hj)
  constructor
  case nodup => exact List.nodup_append_comm.mp hnodup
  case all =>
    intro j
    have hj := h.all j
    rw [hready] at hj
    exact List.mem_append.mpr ((List.mem_cons.mp hj).symm.imp_right List.mem_singleton.mpr)
  case sorted =>
    refine List.pairwise_append.mpr ⟨?_, List.pairwise_singleton _ _, ?_⟩
    · refine (List.pairwise_cons.mp hsorted).2.imp_of_mem fun {a b} ha hb hab ↦ ?_
      rw [hdue, hdue, if_neg (hother a ha), if_neg (hother b hb)]
      exact hab
    · intro a ha b hb
      obtain rfl := List.mem_singleton.mp hb
      rw [hdue, hdue, if_neg (hother a ha), if_pos rfl]
      exact h.close a b
  case close =>
    intro j k
    rw [hdue, hdue]
    by_cases hj : j = t
    · subst hj
      have := hhead k
      rw [if_pos rfl]
      omega
    · have := h.close j k
      rw [if_neg hj]
      omega
  case slot =>
    intro j
    by_cases hj : j = t
    · exact .inl (by simp [hj])
    · rcases h.slot j with hone | ⟨hzero, hmin⟩
      · exact .inl (by simpa [hj] using hone)
      · refine .inr ⟨by simpa [hj] using hzero, fun k ↦ ?_⟩
        rw [hdue, hdue, if_neg hj]
        exact le_add_right (hmin k)

/-- The head of the ready list makes the increment that it owes. -/
theorem Steady.increment {t : Fin 5} {rest : List (Fin 5)} (h : Steady m)
    (hready : m.ready = t :: rest) (hpc : m.pc t = some 1) :
    Steady { m with
      pc := Function.update m.pc t (some 0)
      count := Function.update m.count t (m.count t + 1) } := by
  have hstep : WorkerStep m t rest _ := .increment hpc
  have hdue := hstep.due
  simp only [hpc, Option.some.injEq, one_ne_zero, false_and, if_false, Nat.add_zero] at hdue
  have hhead := h.head_le hready
  constructor
  case nodup => exact h.nodup
  case all => exact h.all
  case sorted => exact h.sorted.imp fun {a b} hab ↦ by rwa [hdue, hdue]
  case close =>
    intro j k
    rw [hdue, hdue]
    exact h.close j k
  case slot =>
    intro j
    by_cases hj : j = t
    · subst hj
      exact .inr ⟨by simp, fun k ↦ by rw [hdue, hdue]; exact hhead k⟩
    · rcases h.slot j with hone | ⟨hzero, hmin⟩
      · exact .inl (by simpa [hj] using hone)
      · exact .inr ⟨by simpa [hj] using hzero, fun k ↦ by rw [hdue, hdue]; exact hmin k⟩

/-- A statement of the running worker keeps the workers steady. -/
theorem Steady.run {t : Fin 5} {rest : List (Fin 5)} (h : Steady m)
    (hready : m.ready = t :: rest) (hstep : WorkerStep m t rest m') : Steady m' := by
  cases hstep with
  | relinquish hpc => exact h.relinquish hready hpc
  | increment hpc => exact h.increment hready hpc

/-- The head of the ready list goes to the end; nobody leaves or joins. -/
theorem rotate_perm (port : Port) (ready : List (Fin 5)) :
    ((setup port).rotate ready).Perm ready := by
  cases ready with
  | nil => rfl
  | cons t rest =>
      rw [Setup.rotate, make_ready_eq]
      exact List.perm_append_singleton t rest

/-- Level workers stay steady in any order. -/
theorem Steady.reorder {ready : List (Fin 5)} (h : Steady m) (hlevel : Level m)
    (hperm : ready.Perm m.ready) : Steady { m with ready := ready } := by
  constructor
  case nodup => exact hperm.nodup_iff.mpr h.nodup
  case all => exact fun j ↦ hperm.mem_iff.mpr (h.all j)
  case sorted => exact List.pairwise_of_forall fun j k ↦ (hlevel j k).le
  case close => exact h.close
  case slot => exact h.slot

/-- A tick on level workers keeps them steady. -/
theorem Steady.tick {port : Port} (h : Steady m) (hlevel : Level m) :
    Steady { m with ready := (setup port).rotate m.ready } :=
  h.reorder hlevel (rotate_perm port m.ready)

/-- A reporter that preempts level workers keeps them steady. -/
theorem Steady.preempted {port : Port} (h : Steady m) (hlevel : Level m) :
    Steady ((setup port).preempted m) := by
  rcases (setup port).preempted_cases m with hkept | ⟨-, hmoved⟩
  · rw [hkept]
    exact h
  · rw [hmoved]
    exact h.tick hlevel

/-- The counters of steady workers differ by at most one. -/
theorem Steady.balanced (h : Steady m) (j k : Fin 5) : m.count j ≤ m.count k + 1 := by
  have hclose := h.close j k
  rcases h.slot j with hj | ⟨hj, hminj⟩ <;> rcases h.slot k with hk | ⟨hk, hmink⟩
  · rw [due_of_one hj, due_of_one hk] at hclose
    omega
  · rw [due_of_one hj, due_of_zero hk] at hclose
    omega
  · have hle := hminj k
    rwa [due_of_zero hj, due_of_one hk] at hle
  · have hle := hminj k
    rw [due_of_zero hj, due_of_zero hk] at hle
    omega

/-! ## The FreeRTOS test -/

variable {w : ℕ} {params : Params} {s : Bench (Machine (Fin 5) (Fin 5)) w}

/-- The events after which FreeRTOS goes on with the next worker: a tick that ends a time slice, and
a wake-up of the reporter. -/
def Preempts : Event Setup.Move → Prop
  | .work .tick | .wake => True
  | _ => False

/-- Workers are preempted only when they are level. -/
def LevelPreemption (s : Bench (Machine (Fin 5) (Fin 5)) w) (event : Event Setup.Move) : Prop :=
  Preempts event → Level s.workers

instance : DecidablePred Preempts
  | .work .tick | .wake => isTrue trivial
  | .work .run | .report => isFalse id

instance (s : Bench (Machine (Fin 5) (Fin 5)) w) (event : Event Setup.Move) :
    Decidable (LevelPreemption s event) :=
  inferInstanceAs (Decidable (_ → _))

/-- Every step of the test that preempts only level workers keeps them steady. -/
theorem steady_next {s' : Bench (Machine (Fin 5) (Fin 5)) w} {event : Event Setup.Move}
    (h : Steady s.workers) (hpreempt : LevelPreemption s event)
    (hnext : next .freeRTOS w params s event = some s') : Steady s'.workers := by
  rcases Bench.next_cases hnext with ⟨move, workers, rfl, -, hwork, rfl⟩ | ⟨_, -, -, -, rfl⟩ |
    ⟨rfl, -, rfl⟩
  · rcases next_cases hwork with ⟨t, rest, -, hready, hstep⟩ | ⟨rfl, -, rfl⟩
    · exact h.run hready hstep
    · exact h.tick (hpreempt trivial)
  · exact h
  · show Steady ((setup .freeRTOS).preempted s.workers)
    exact h.preempted (hpreempt trivial)

/-- In every run of the FreeRTOS test in which ticks and wake-ups of the reporter fall only on level
workers, any two counters differ by at most one at every moment, and no ERROR line has been printed
while the sum of the counters fits into the word. -/
theorem balanced_while_preempted_level {first : Fin 5} (hw : 32 ≤ w)
    (hreach : ReachableWhere (next .freeRTOS w params) LevelPreemption
      ⟨startFrom first, .start⟩ s) :
    (∀ j k, s.workers.count j ≤ s.workers.count k + 1) ∧
    ((counters .freeRTOS s.workers).sum < 2 ^ w → Line.error ∉ s.reporter.output) := by
  have hsteady : ∀ t, ReachableWhere (next .freeRTOS w params) LevelPreemption
      ⟨startFrom first, .start⟩ t → Steady t.workers := by
    intro t ht
    refine ht.invariant (fun s ↦ Steady s.workers) (steady_start first) ?_
    intro state event finish h hpreempt hnext
    exact steady_next h hpreempt hnext
  refine ⟨(hsteady s hreach).balanced, ?_⟩
  refine Setup.no_error_while_sum_fits hw rfl (by decide) (by decide) ?_ hreach
  intro t ht
  exact (hsteady t ht).balanced

/-- A tick at the very start, where the workers are level, two turns for each of them, and a
reporter that wakes when they are level again. -/
def levelTick : List (Event Setup.Move) :=
  List.replicate 2 .report ++ .work .tick :: List.replicate 15 (.work .run) ++
    .wake :: List.replicate 8 .report

/-- The reporter finds nothing wrong. -/
theorem balanced_while_preempted_level_report :
    ∃ s, run (next .freeRTOS 32 ⟨30, 1⟩) levelTick ⟨startFrom 0, .start⟩ = some s ∧
      counters .freeRTOS s.workers = [1, 1, 1, 1, 1] ∧ s.workers.ready = [2, 3, 4, 0, 1] ∧
      (∀ j k, s.workers.count j ≤ s.workers.count k + 1) ∧
      ((counters .freeRTOS s.workers).sum < 2 ^ 32 → Line.error ∉ s.reporter.output) := by
  obtain ⟨s, hrun, hcounters, hready⟩ : ∃ s,
      run (next .freeRTOS 32 ⟨30, 1⟩) levelTick ⟨startFrom 0, .start⟩ = some s ∧
        counters .freeRTOS s.workers = [1, 1, 1, 1, 1] ∧ s.workers.ready = [2, 3, 4, 0, 1] :=
    ⟨_, rfl, rfl, rfl⟩
  have hlevel : EveryStep (next .freeRTOS 32 ⟨30, 1⟩) LevelPreemption levelTick
      ⟨startFrom 0, .start⟩ := by
    decide
  exact ⟨s, hrun, hcounters, hready,
    balanced_while_preempted_level le_rfl (hlevel.reachable_where hrun)⟩

/-- The events of a run in which worker 0 is at the head of the ready list four times and loses
its turn to a tick each time, until the reporter wakes and checks the counters. -/
def starvingTicks : List (Event Setup.Move) :=
  let slice (statements : ℕ) : List (Event Setup.Move) :=
    .work .tick :: List.replicate statements (.work .run)
  List.replicate 2 .report ++ slice 4 ++ slice 8 ++ slice 8 ++ slice 8 ++
    .wake :: List.replicate 8 .report

/-- Ticks that always fall on the same worker drive the counters apart, and the reporter prints
its ERROR line although the sum of the counters is far from the end of the word. -/
theorem tick_breaks_balance :
    ¬ ∀ (w : ℕ) (params : Params) (first : Fin 5) (s : Bench (Machine (Fin 5) (Fin 5)) w), 32 ≤ w →
      Reachable (next .freeRTOS w params) ⟨startFrom first, .start⟩ s →
      (∀ j k, s.workers.count j ≤ s.workers.count k + 1) ∧
      ((counters .freeRTOS s.workers).sum < 2 ^ w → Line.error ∉ s.reporter.output) := by
  intro h
  have hobserved : (run (next .freeRTOS 32 ⟨30, 1⟩) starvingTicks ⟨startFrom 0, .start⟩).map
      (fun s ↦ (counters .freeRTOS s.workers, s.reporter.output)) =
      some ([0, 3, 3, 3, 3], [.header 30, .error]) := rfl
  obtain ⟨s, hrun, hs⟩ := Option.map_eq_some_iff.mp hobserved
  obtain ⟨hcounts, houtput⟩ := Prod.mk.inj hs
  refine (h 32 ⟨30, 1⟩ 0 s le_rfl (reachable_of_run hrun)).2 ?_ ?_
  · rw [hcounts]
    decide
  · rw [houtput]
    decide

end ThreadMetric.CooperativeScheduling
