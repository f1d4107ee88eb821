import ThreadMetric.Kernel.Machine
import Mathlib.Data.Fin.VecNotation
import Mathlib.Data.Fintype.Basic
import Mathlib.Tactic.FinCases

/-!
# The cooperative scheduling test

Five threads of equal priority relinquish and increment in turn. On ThreadX, where threads are
created with `TX_NO_TIME_SLICE`, the ready list only rotates when its head relinquishes, and the
counters stay ordered: `counters_ordered` is proved from the invariant `InTurn`, which ties the
rotation of the ready list to every worker's position in its loop and to its counter.

`due` is the bookkeeping device of this module and of the time-slicing one: a worker's counter
plus the increment it owes before it relinquishes next.
-/

namespace ThreadMetric.CooperativeScheduling

open Kernel Report Transition

/-- `while (1) { tm_thread_relinquish(); tm_cooperative_thread_k_counter++; }` -/
def entry (k : Fin 5) : Program (Instr (Fin 5) (Fin 5)) where
  entry := []
  loop := [.relinquish, .increment k]

/-- `tm_cooperative_thread_0_entry`. -/
def tmCooperativeThread0Entry : Program (Instr (Fin 5) (Fin 5)) := entry 0

/-- `tm_cooperative_thread_1_entry`. -/
def tmCooperativeThread1Entry : Program (Instr (Fin 5) (Fin 5)) := entry 1

/-- `tm_cooperative_thread_2_entry`. -/
def tmCooperativeThread2Entry : Program (Instr (Fin 5) (Fin 5)) := entry 2

/-- `tm_cooperative_thread_3_entry`. -/
def tmCooperativeThread3Entry : Program (Instr (Fin 5) (Fin 5)) := entry 3

/-- `tm_cooperative_thread_4_entry`. -/
def tmCooperativeThread4Entry : Program (Instr (Fin 5) (Fin 5)) := entry 4

/-- The five worker threads, all created with priority 3; the reporter has priority 2. -/
def setup (port : Port) : Setup (Fin 5) (Fin 5) where
  port := port
  priority := fun _ ↦ 3
  reporterPriority := 2
  program := ![tmCooperativeThread0Entry, tmCooperativeThread1Entry, tmCooperativeThread2Entry,
    tmCooperativeThread3Entry, tmCooperativeThread4Entry]
  counters := [0, 1, 2, 3, 4]

/-- The threads after `tm_cooperative_scheduling_initialize`, which resumes workers 0 to 4 in
order. -/
def tmCooperativeSchedulingInitialize (port : Port) : Machine (Fin 5) (Fin 5) :=
  (setup port).start [0, 1, 2, 3, 4]

/-- One step of the test: workers and reporter under strict priorities. -/
abbrev next (port : Port) (w : ℕ) (params : Params) :
    Bench (Machine (Fin 5) (Fin 5)) w → Event Setup.Move →
      Option (Bench (Machine (Fin 5) (Fin 5)) w) :=
  Bench.next (setup port).workers (tmCooperativeThreadReport w) params .strict

/-- The test when the scheduler starts; the reporter has the most urgent priority. -/
abbrev start (port : Port) (w : ℕ) : Bench (Machine (Fin 5) (Fin 5)) w :=
  ⟨tmCooperativeSchedulingInitialize port, .start⟩

/-- The counter values in the order in which the reporter reads them. -/
abbrev counters (port : Port) (m : Machine (Fin 5) (Fin 5)) : List ℕ :=
  (setup port).workers.counters m

/-! ## Steps of the workers -/

/-- All five entry functions are the same loop. -/
theorem program_eq (port : Port) (k : Fin 5) : (setup port).program k = entry k := by
  fin_cases k <;> rfl

/-- Among threads of equal priority, becoming ready means going to the end. -/
theorem make_ready_eq (port : Port) (t : Fin 5) (ready : List (Fin 5)) :
    (setup port).makeReady t ready = ready ++ [t] := by
  induction ready with
  | nil => rfl
  | cons u rest ih =>
      rw [Setup.make_ready_cons _ _ _ (by simp [setup]), if_neg (by simp [setup]), ih,
        List.cons_append]

/-- What a running worker does: at position 0 it goes to the end of the ready list, at position 1
it increments its counter. -/
inductive WorkerStep (m : Machine (Fin 5) (Fin 5)) (t : Fin 5) (rest : List (Fin 5)) :
    Machine (Fin 5) (Fin 5) → Prop where
  | relinquish (hpc : m.pc t = some 0) :
      WorkerStep m t rest
        { m with pc := Function.update m.pc t (some 1), ready := rest ++ [t] }
  | increment (hpc : m.pc t = some 1) :
      WorkerStep m t rest
        { m with
          pc := Function.update m.pc t (some 0)
          count := Function.update m.count t (m.count t + 1) }

/-- Every step of the worker side is a statement of the head of the ready list or, with time
slicing, a tick that sends the head to the end. -/
theorem next_cases {port : Port} {m m' : Machine (Fin 5) (Fin 5)} {move : Setup.Move}
    (h : (setup port).next m move = some m') :
    (∃ t rest, move = .run ∧ m.ready = t :: rest ∧ WorkerStep m t rest m') ∨
    (move = .tick ∧ port = .freeRTOS ∧
      m' = { m with ready := (setup port).rotate m.ready }) := by
  rcases Setup.next_cases h with ⟨t, rest, position, instr, hmove, hready, hpc, hfetch, rfl⟩ |
    ⟨hmove, hslice, rfl⟩
  · refine .inl ⟨t, rest, hmove, hready, ?_⟩
    rw [program_eq] at hfetch
    match position, hfetch with
    | 0, hfetch =>
        obtain rfl := Option.some.inj hfetch
        have hstep : WorkerStep m t rest _ := .relinquish hpc
        simpa [Setup.execute, Setup.goOn, Program.advance, program_eq, entry, hready,
          Setup.rotate, make_ready_eq] using hstep
    | 1, hfetch =>
        obtain rfl := Option.some.inj hfetch
        have hstep : WorkerStep m t rest _ := .increment hpc
        simpa [Setup.execute, Setup.goOn, Program.advance, program_eq, entry] using hstep
    | _ + 2, hfetch => simp [Program.fetch, entry] at hfetch
  · exact .inr ⟨hmove, (setup port).time_slicing_iff.mp hslice, rfl⟩

/-! ## Turns -/

/-- A worker's counter plus the increment it owes before it relinquishes next. -/
def due (m : Machine (Fin 5) (Fin 5)) (j : Fin 5) : ℕ :=
  m.count j + if m.pc j = some 1 then 1 else 0

/-- In the middle of its loop a worker owes an increment. -/
theorem due_of_one {m : Machine (Fin 5) (Fin 5)} {j : Fin 5} (h : m.pc j = some 1) :
    due m j = m.count j + 1 := by
  simp [due, h]

/-- At the top of its loop a worker owes nothing. -/
theorem due_of_zero {m : Machine (Fin 5) (Fin 5)} {j : Fin 5} (h : m.pc j = some 0) :
    due m j = m.count j := by
  simp [due, h]

/-- Relinquishing makes one more increment due; every other statement leaves what is due. -/
theorem WorkerStep.due {m m' : Machine (Fin 5) (Fin 5)} {t : Fin 5} {rest : List (Fin 5)}
    (h : WorkerStep m t rest m') (j : Fin 5) :
    CooperativeScheduling.due m' j =
      CooperativeScheduling.due m j + if m.pc t = some 0 ∧ j = t then 1 else 0 := by
  cases h with
  | relinquish hpc =>
      by_cases hj : j = t
      · subst hj
        simp [CooperativeScheduling.due, hpc]
      · simp [CooperativeScheduling.due, hj]
  | increment hpc =>
      by_cases hj : j = t
      · subst hj
        simp [CooperativeScheduling.due, hpc]
      · simp [CooperativeScheduling.due, hj]

/-- The workers take turns: the ready list is a rotation of the order of creation, the workers
before its head `i` have been given one turn more than the others, and only the head and the
workers of the first round that have not run yet stand at the top of their loop. -/
def InTurn (m : Machine (Fin 5) (Fin 5)) : Prop :=
  ∃ i round, m.ready = [i, i + 1, i + 2, i + 3, i + 4] ∧
    ∀ j, due m j = round + (if j < i then 1 else 0) ∧
      (m.pc j = some 1 ∨ m.pc j = some 0 ∧ (j = i ∨ round = 0 ∧ i ≤ j))

/-- The initialization function leaves the workers in turn. -/
theorem in_turn_start (port : Port) : InTurn (tmCooperativeSchedulingInitialize port) := by
  refine ⟨0, 0, by cases port <;> rfl, fun j ↦ ⟨?_, .inr ⟨rfl, .inr ⟨rfl, Fin.zero_le j⟩⟩⟩⟩
  simp [due, tmCooperativeSchedulingInitialize, Setup.start]

/-- Rotating a rotation of the order of creation moves on to the next worker. -/
theorem rotation_succ (i : Fin 5) :
    [i + 1, i + 2, i + 3, i + 4, i] = [i + 1, i + 1 + 1, i + 1 + 2, i + 1 + 3, i + 1 + 4] := by
  revert i
  decide

/-- When worker `i` has had its turn, it joins the workers before the head; after the last worker
a new round starts. -/
theorem before_succ (i j : Fin 5) :
    (if i = 4 then 1 else 0) + (if j < i + 1 then 1 else 0) =
      (if j < i then 1 else 0) + (if j = i then 1 else 0) := by
  revert i j
  decide

/-- The workers after the head come after the next head or are it. -/
theorem succ_le_of_ne {i j : Fin 5} (hle : i ≤ j) (hne : j ≠ i) : i ≠ 4 ∧ i + 1 ≤ j := by
  revert i j
  decide

/-- Every step of the ThreadX workers keeps them in turn. -/
theorem InTurn.next {m m' : Machine (Fin 5) (Fin 5)} {move : Setup.Move} (hturn : InTurn m)
    (hnext : (setup .threadX).next m move = some m') : InTurn m' := by
  obtain ⟨i, round, hready, hworker⟩ := hturn
  rcases next_cases hnext with ⟨t, rest, -, hhead, hstep⟩ | ⟨-, hport, -⟩
  · obtain ⟨rfl, rfl⟩ := List.cons.inj (hready.symm.trans hhead)
    have hdue := hstep.due
    cases hstep with
    | relinquish hpc =>
        refine ⟨i + 1, round + (if i = 4 then 1 else 0), rotation_succ i, fun j ↦ ⟨?_, ?_⟩⟩
        · rw [hdue, (hworker j).1, Nat.add_assoc, Nat.add_assoc, before_succ]
          simp [hpc]
        · by_cases hj : j = i
          · exact .inl (by simp [hj])
          · rcases (hworker j).2 with hone | ⟨hzero, heq | ⟨hround, hle⟩⟩
            · exact .inl (by simpa [hj] using hone)
            · exact absurd heq hj
            · obtain ⟨hlast, hsucc⟩ := succ_le_of_ne hle hj
              exact .inr ⟨by simpa [hj] using hzero, .inr ⟨by simp [hround, hlast], hsucc⟩⟩
    | increment hpc =>
        refine ⟨i, round, hhead, fun j ↦ ⟨?_, ?_⟩⟩
        · rw [hdue]
          simpa [hpc] using (hworker j).1
        · by_cases hj : j = i
          · exact .inr ⟨by simp [hj], .inl hj⟩
          · simpa [hj] using (hworker j).2
  · cases hport

/-- While the workers are in turn, an earlier worker is ahead of a later one by at most one. -/
theorem InTurn.ordered {m : Machine (Fin 5) (Fin 5)} (hturn : InTurn m) {j k : Fin 5}
    (hjk : j ≤ k) : m.count k ≤ m.count j ∧ m.count j ≤ m.count k + 1 := by
  obtain ⟨i, round, -, hworker⟩ := hturn
  obtain ⟨hduej, hpcj⟩ := hworker j
  obtain ⟨hduek, hpck⟩ := hworker k
  rcases hpcj with hj | ⟨hj, hj'⟩ <;> rcases hpck with hk | ⟨hk, hk'⟩
  · rw [due_of_one hj] at hduej
    rw [due_of_one hk] at hduek
    grind
  · rw [due_of_one hj] at hduej
    rw [due_of_zero hk] at hduek
    grind
  · rw [due_of_zero hj] at hduej
    rw [due_of_one hk] at hduek
    grind
  · rw [due_of_zero hj] at hduej
    rw [due_of_zero hk] at hduek
    grind

/-! ## The ThreadX test -/

variable {w : ℕ} {params : Params} {s : Bench (Machine (Fin 5) (Fin 5)) w}

/-- The ThreadX workers are in turn in every state of the test. -/
theorem in_turn_of_reachable {port : Port} (hport : port = .threadX)
    (hreach : Reachable (next port w params) (start port w) s) : InTurn s.workers := by
  subst hport
  refine (Bench.workers_reachable hreach).invariant InTurn (in_turn_start _) ?_
  intro m move m' hturn _ hnext
  exact hturn.next hnext

/-- In every state of the ThreadX test the counters are ordered, the first is at most one ahead of
the last, and no ERROR line has been printed while the sum of the counters fits into the word. -/
theorem counters_ordered (hw : 32 ≤ w)
    (hreach : Reachable (next .threadX w params) (start .threadX w) s) :
    (s.workers.count 1 ≤ s.workers.count 0 ∧ s.workers.count 2 ≤ s.workers.count 1 ∧
      s.workers.count 3 ≤ s.workers.count 2 ∧ s.workers.count 4 ≤ s.workers.count 3 ∧
      s.workers.count 0 ≤ s.workers.count 4 + 1) ∧
    ((counters .threadX s.workers).sum < 2 ^ w → Line.error ∉ s.reporter.output) := by
  have hturn := in_turn_of_reachable rfl hreach
  refine ⟨⟨(hturn.ordered (by decide)).1, (hturn.ordered (by decide)).1,
    (hturn.ordered (by decide)).1, (hturn.ordered (by decide)).1,
    (hturn.ordered (by decide)).2⟩, ?_⟩
  refine Setup.no_error_while_sum_fits hw rfl (by decide) (by decide) ?_ hreach
  intro t ht j k
  rcases le_total j k with hjk | hkj
  · exact ((in_turn_of_reachable rfl ht).ordered hjk).2
  · exact le_add_right ((in_turn_of_reachable rfl ht).ordered hkj).1

/-- The first round with a report in its middle: five first slots, two increments, and a reporter
that wakes, copies the five counters and passes the check. -/
theorem counters_ordered_first_report :
    ∃ s, run (next .threadX 32 ⟨30, 1⟩)
        (List.replicate 2 .report ++ List.replicate 8 (.work .run) ++ .wake ::
          List.replicate 8 .report) (start .threadX 32) = some s ∧
      (counters .threadX s.workers = [1, 1, 0, 0, 0] ∧ s.reporter.output = [.header 30]) ∧
      (s.workers.count 1 ≤ s.workers.count 0 ∧ s.workers.count 2 ≤ s.workers.count 1 ∧
        s.workers.count 3 ≤ s.workers.count 2 ∧ s.workers.count 4 ≤ s.workers.count 3 ∧
        s.workers.count 0 ≤ s.workers.count 4 + 1) ∧
      ((counters .threadX s.workers).sum < 2 ^ 32 → Line.error ∉ s.reporter.output) := by
  obtain ⟨s, hrun, hwork⟩ : ∃ s, run (next .threadX 32 ⟨30, 1⟩)
      (List.replicate 2 .report ++ List.replicate 8 (.work .run) ++ .wake ::
        List.replicate 8 .report) (start .threadX 32) = some s ∧
      counters .threadX s.workers = [1, 1, 0, 0, 0] ∧ s.reporter.output = [.header 30] :=
    ⟨_, rfl, rfl, rfl⟩
  exact ⟨s, hrun, hwork, counters_ordered (by decide) (reachable_of_run hrun)⟩

end ThreadMetric.CooperativeScheduling
