import ThreadMetric.Benchmarks.SingleCounter
import ThreadMetric.Kernel.Machine

/-!
# The worker of the basic processing test

The worker clears an array of 1024 words, and then it goes through the array again and again with
the counter it has read at the start of the pass. Here its entry function runs statement by
statement. `After` says where the worker stands and what the array holds after a number of its
statements; `basic_worker_goes_on` shows that every access stays within the array and that `int i`
does not overflow, whatever the reporter does in between. Under strict priorities the period totals
then measure the work: they add up to the passes that the statements executed so far make up.
-/

namespace ThreadMetric.BasicProcessing

open Kernel Report Transition

variable {w : ℕ}

/-! ## The entry function -/

/-- The elements of `tm_basic_processing_array`. -/
def arrayLength : ℕ := 1024

/-- The two loops over the array. -/
inductive Loop where
  | clearing
  | updating
  deriving DecidableEq

/-- Program points: the initialization, the test, the body and the increment of a loop, the read of
the counter before a pass and its increment after it. -/
inductive Pc where
  | init (loop : Loop)
  | test (loop : Loop)
  | body (loop : Loop)
  | step (loop : Loop)
  | snapshot
  | count
  deriving DecidableEq

/-- The worker with its variables, the array, and the true value of its counter. -/
structure Worker (w : ℕ) where
  pc : Pc
  i : ℤ
  counterSnapshot : BitVec w
  array : List (BitVec w)
  count : ℕ

namespace Worker

/-- The worker before its first statement. -/
def start (array : List (BitVec w)) : Worker w := ⟨.init .clearing, 0, 0, array, 0⟩

/-- Read `tm_basic_processing_array[i]`; `none` outside the array. -/
def element (m : Worker w) : Option (BitVec w) :=
  if 0 ≤ m.i then m.array[m.i.toNat]? else none

/-- Write `tm_basic_processing_array[i]`; `none` outside the array. -/
def setElement (m : Worker w) (value : BitVec w) : Option (Worker w) :=
  if 0 ≤ m.i ∧ m.i.toNat < m.array.length then
    some { m with array := m.array.set m.i.toNat value }
  else none

/-- One statement of `tm_basic_processing_thread_0_entry`. An access outside the array and an
overflow of `int i` stop the worker. -/
def next (m : Worker w) (_ : Unit) : Option (Worker w) :=
  match m.pc with
  | .init loop => some { m with i := 0, pc := .test loop }
  | .test loop =>
      if m.i < 1024 then some { m with pc := .body loop }
      else
        match loop with
        | .clearing => some { m with pc := .snapshot }
        | .updating => some { m with pc := .count }
  | .body .clearing => do
      let cleared ← m.setElement 0
      pure { cleared with pc := .step .clearing }
  | .body .updating => do
      let x ← m.element
      let y ← m.element
      let updated ← m.setElement ((x + m.counterSnapshot) ^^^ y)
      pure { updated with pc := .step .updating }
  | .step loop => if m.i + 1 < 2 ^ 31 then some { m with i := m.i + 1, pc := .test loop } else none
  | .snapshot =>
      some { m with counterSnapshot := BitVec.ofNat w m.count, pc := .init .updating }
  | .count => some { m with count := m.count + 1, pc := .snapshot }

end Worker

/-- The worker side of the test. The worker has priority 10 and the reporter priority 2. -/
def workers (w : ℕ) (port : Port) : Workers (Worker w) Unit where
  next := Worker.next
  counters m := [m.count]
  outranked _ := port.outranks 2 10
  preempted := id
  preempted_cases _ := .inl rfl
  counters_preempted _ := rfl

/-- One step of the test. -/
abbrev next (port : Port) (policy : Policy) (w : ℕ) (params : Params) :
    Bench (Worker w) w → Event Unit → Option (Bench (Worker w) w) :=
  Bench.next (workers w port) (tmBasicProcessingThreadReport w) params policy

/-! ## What the array holds -/

/-- What every element holds after `n` passes. -/
def value (w : ℕ) : ℕ → BitVec w
  | 0 => 0
  | n + 1 => (value w n + BitVec.ofNat w n) ^^^ value w n

/-- The first `d` elements hold `done`, the others what they held before. -/
structure Holds (d : ℕ) (done : BitVec w) (before : ℕ → BitVec w) (array : List (BitVec w)) :
    Prop where
  length : array.length = arrayLength
  element : ∀ j < arrayLength, array[j]? = some (if j < d then done else before j)

namespace Holds

variable {d : ℕ} {done : BitVec w} {before : ℕ → BitVec w} {array : List (BitVec w)}

/-- The element that is next. -/
theorem next (h : Holds d done before array) (hd : d < arrayLength) :
    array[d]? = some (before d) := by
  rw [h.element d hd, if_neg (Nat.lt_irrefl d)]

/-- One more element has been written. -/
theorem set (h : Holds d done before array) (hd : d < arrayLength) :
    Holds (d + 1) done before (array.set d done) where
  length := by
    rw [List.length_set]
    exact h.length
  element j hj := by
    rw [List.getElem?_set, h.length, if_pos hd]
    by_cases hjd : d = j
    · rw [if_pos hjd, if_pos (by omega)]
    · rw [if_neg hjd, h.element j hj]
      congr 1
      have hsame : j < d ↔ j < d + 1 := by omega
      simp only [hsame]

/-- At the end all elements hold `done`, and the next pass may begin. -/
theorem restart (h : Holds arrayLength done before array) (value : BitVec w) :
    Holds 0 value (fun _ ↦ done) array where
  length := h.length
  element j hj := by
    rw [h.element j hj, if_pos hj, if_neg (Nat.not_lt_zero j)]

end Holds

/-! ## Where the worker stands -/

/-- The statements of a loop over the array. -/
def loopSteps : ℕ := 3 * arrayLength + 2

/-- The worker has executed a number of statements of a loop and is done with `d` elements. -/
inductive At (loop : Loop) : ℕ → ℕ → Worker w → Prop where
  | init {m : Worker w} (hpc : m.pc = .init loop) : At loop 0 0 m
  | test {m : Worker w} (d : ℕ) (hpc : m.pc = .test loop) (hi : m.i = d) (hd : d ≤ arrayLength) :
      At loop (3 * d + 1) d m
  | body {m : Worker w} (d : ℕ) (hpc : m.pc = .body loop) (hi : m.i = d) (hd : d < arrayLength) :
      At loop (3 * d + 2) d m
  | step {m : Worker w} (d : ℕ) (hpc : m.pc = .step loop) (hi : m.i = d) (hd : d < arrayLength) :
      At loop (3 * d + 3) (d + 1) m

/-- The worker after `t` statements, the array having held `contents` at the start: what its
variables and the array hold. -/
inductive After (contents : ℕ → BitVec w) (t : ℕ) (m : Worker w) : Prop where
  | clearing {d : ℕ} (hat : At .clearing t d m) (hcount : m.count = 0)
      (harray : Holds d 0 contents m.array)
  | snapshot (n : ℕ) (ht : t = loopSteps + n * (loopSteps + 2)) (hpc : m.pc = .snapshot)
      (hcount : m.count = n) (harray : Holds 0 0 (fun _ ↦ value w n) m.array)
  | updating (n : ℕ) {steps d : ℕ} (ht : t = loopSteps + n * (loopSteps + 2) + 1 + steps)
      (hat : At .updating steps d m) (hcount : m.count = n)
      (hsnapshot : m.counterSnapshot = BitVec.ofNat w n)
      (harray : Holds d (value w (n + 1)) (fun _ ↦ value w n) m.array)
  | count (n : ℕ) (ht : t = loopSteps + n * (loopSteps + 2) + 1 + loopSteps) (hpc : m.pc = .count)
      (hcount : m.count = n)
      (harray : Holds arrayLength (value w (n + 1)) (fun _ ↦ value w n) m.array)

/-- The passes that `t` statements complete. -/
def passes (t : ℕ) : ℕ := (t - loopSteps) / (loopSteps + 2)

namespace Worker

variable {m : Worker w} {d : ℕ}

/-- The element of an index within the array. -/
theorem element_eq (hi : m.i = d) : m.element = m.array[d]? := by
  rw [element, hi, if_pos (Int.natCast_nonneg d), Int.toNat_natCast]

/-- A write within the array. -/
theorem set_element_eq (hi : m.i = d) (hd : d < m.array.length) (value : BitVec w) :
    m.setElement value = some { m with array := m.array.set d value } := by
  rw [setElement, hi, Int.toNat_natCast, if_pos ⟨Int.natCast_nonneg d, hd⟩]

end Worker

/-- The worker keeps the array and its counter, and the counter it has read. -/
structure SameValues (m m' : Worker w) : Prop where
  array : m'.array = m.array
  count : m'.count = m.count
  counterSnapshot : m'.counterSnapshot = m.counterSnapshot

/-- A statement of a loop goes on to the next one, unless it is the body or the end of the loop. -/
theorem At.move {loop : Loop} {steps d : ℕ} {m : Worker w} (hat : At loop steps d m) :
    (∃ m', m.next () = some m' ∧ At loop (steps + 1) d m' ∧ SameValues m m') ∨
      (m.pc = .body loop ∧ m.i = d ∧ d < arrayLength ∧ steps = 3 * d + 2) ∨
      (m.pc = .test loop ∧ ¬ m.i < 1024 ∧ d = arrayLength ∧ steps + 1 = loopSteps) := by
  cases hat with
  | init hpc =>
      left
      refine ⟨{ m with i := 0, pc := .test loop }, ?_, ?_, ⟨rfl, rfl, rfl⟩⟩
      · simp only [Worker.next, hpc]
      · exact .test 0 rfl rfl (Nat.zero_le _)
  | test d hpc hi hd =>
      by_cases hbody : d < arrayLength
      · left
        refine ⟨{ m with pc := .body loop }, ?_, .body d rfl hi hbody, ⟨rfl, rfl, rfl⟩⟩
        have htest : m.i < 1024 := by
          rw [hi]
          exact Int.ofNat_lt.mpr hbody
        simp only [Worker.next, hpc, if_pos htest]
      · obtain rfl : d = arrayLength := Nat.le_antisymm hd (Nat.le_of_not_lt hbody)
        refine .inr (.inr ⟨hpc, ?_, rfl, rfl⟩)
        rw [hi]
        exact Int.lt_irrefl 1024
  | body d hpc hi hd => exact .inr (.inl ⟨hpc, hi, hd, rfl⟩)
  | step d hpc hi hd =>
      left
      refine ⟨{ m with i := m.i + 1, pc := .test loop }, ?_, ?_, ⟨rfl, rfl, rfl⟩⟩
      · have hint : m.i + 1 < 2 ^ 31 := by
          unfold arrayLength at hd
          omega
        simp only [Worker.next, hpc, if_pos hint]
      · refine .test (d + 1) rfl ?_ hd
        show m.i + 1 = ((d + 1 : ℕ) : ℤ)
        rw [hi]
        rfl

/-- Where the worker stands, its next statement is executed and leads on. -/
theorem After.advance {contents : ℕ → BitVec w} {t : ℕ} {m : Worker w} (h : After contents t m) :
    ∃ m', m.next () = some m' ∧ After contents (t + 1) m' := by
  cases h with
  | @clearing d hat hcount harray =>
      rcases hat.move with ⟨m', hnext, hafter, hsame⟩ | ⟨hpc, hi, hd, rfl⟩ | ⟨hpc, hi, rfl, hend⟩
      · refine ⟨m', hnext, .clearing hafter (hsame.count.trans hcount) ?_⟩
        rw [hsame.array]
        exact harray
      · refine ⟨{ m with array := m.array.set d 0, pc := .step .clearing }, ?_, ?_⟩
        · have hset := Worker.set_element_eq hi (by rwa [harray.length]) (0 : BitVec w)
          simp only [Worker.next, hpc, hset, Option.bind_eq_bind, Option.bind_some, Option.pure_def]
        · exact .clearing (.step _ rfl hi hd) hcount (harray.set hd)
      · refine ⟨{ m with pc := .snapshot }, ?_, .snapshot 0 ?_ rfl hcount (harray.restart 0)⟩
        · simp only [Worker.next, hpc, if_neg hi]
        · rw [hend, Nat.zero_mul, Nat.add_zero]
  | snapshot n ht hpc hcount harray =>
      refine ⟨{ m with counterSnapshot := BitVec.ofNat w m.count, pc := .init .updating }, ?_, ?_⟩
      · simp only [Worker.next, hpc]
      · refine .updating n ?_ (.init rfl) hcount (by rw [hcount]) ?_
        · rw [ht]
        · exact ⟨harray.length, harray.element⟩
  | @updating n steps d ht hat hcount hsnapshot harray =>
      rcases hat.move with ⟨m', hnext, hafter, hsame⟩ | ⟨hpc, hi, hd, rfl⟩ | ⟨hpc, hi, rfl, hend⟩
      · refine ⟨m', hnext, .updating n ?_ hafter (hsame.count.trans hcount)
          (hsame.counterSnapshot.trans hsnapshot) ?_⟩
        · omega
        · rw [hsame.array]
          exact harray
      · refine ⟨{ m with array := m.array.set d (value w (n + 1)), pc := .step .updating }, ?_, ?_⟩
        · have hread := (Worker.element_eq hi).trans (harray.next hd)
          have hset : m.setElement ((value w n + BitVec.ofNat w n) ^^^ value w n) =
              some { m with array := m.array.set d (value w (n + 1)) } :=
            Worker.set_element_eq hi (by rwa [harray.length]) _
          simp only [Worker.next, hpc, hread, hsnapshot, hset, Option.bind_eq_bind,
            Option.bind_some, Option.pure_def]
        · refine .updating n ?_ (.step _ rfl hi hd) hcount hsnapshot (harray.set hd)
          omega
      · refine ⟨{ m with pc := .count }, ?_, .count n ?_ rfl hcount harray⟩
        · simp only [Worker.next, hpc, if_neg hi]
        · omega
  | count n ht hpc hcount harray =>
      refine ⟨{ m with count := m.count + 1, pc := .snapshot }, ?_, ?_⟩
      · simp only [Worker.next, hpc]
      · refine .snapshot (n + 1) ?_ rfl (congrArg (· + 1) hcount) (harray.restart 0)
        rw [ht, Nat.succ_mul]
        omega

/-- The counter has counted the passes. -/
theorem After.count_eq {contents : ℕ → BitVec w} {t : ℕ} {m : Worker w} (h : After contents t m) :
    m.count = passes t := by
  have hloop {loop : Loop} {steps d : ℕ} (hat : At loop steps d m) : steps < loopSteps := by
    unfold loopSteps
    cases hat <;> omega
  have hdiv {n r : ℕ} (ht : t = loopSteps + n * (loopSteps + 2) + r) (hr : r < loopSteps + 2) :
      passes t = n := by
    have hsub : t - loopSteps = r + (loopSteps + 2) * n := by
      rw [ht, Nat.mul_comm]
      omega
    rw [passes, hsub, Nat.add_mul_div_left _ _ (Nat.succ_pos _), Nat.div_eq_of_lt hr, Nat.zero_add]
  cases h with
  | clearing hat hcount _ =>
      have hzero : t - loopSteps = 0 := Nat.sub_eq_zero_of_le (hloop hat).le
      rw [hcount, passes, hzero, Nat.zero_div]
  | snapshot n ht _ hcount _ => rw [hcount, hdiv ht (Nat.succ_pos _)]
  | updating n ht hat hcount _ _ =>
      have hsteps := hloop hat
      rw [hcount, hdiv (ht.trans (Nat.add_assoc _ 1 _)) (by omega)]
  | count n ht _ hcount _ => rw [hcount, hdiv (ht.trans (Nat.add_assoc _ 1 _)) (by omega)]

/-! ## Runs of the test -/

/-- The event is a step of the worker. -/
def isWork : Event Unit → Bool
  | .work _ => true
  | _ => false

/-- The worker is where the number of its steps puts it. -/
theorem worker_after {array : List (BitVec w)} (hlength : array.length = arrayLength)
    {port : Port} {policy : Policy} {params : Params} {events : List (Event Unit)}
    {s : Bench (Worker w) w}
    (hrun : run (next port policy w params) events ⟨.start array, .start⟩ = some s) :
    After (array.getD · 0) (events.countP isWork) s.workers := by
  refine run_history (fun events (s : Bench (Worker w) w) ↦
    After (array.getD · 0) (events.countP isWork) s.workers) ?_ ?_ hrun
  · refine .clearing (.init rfl) rfl ⟨hlength, fun j hj ↦ ?_⟩
    rw [if_neg (Nat.not_lt_zero j)]
    show array[j]? = some (array.getD j 0)
    rw [List.getD_eq_getElem?_getD, List.getElem?_eq_getElem (by rwa [hlength]), Option.getD_some]
  · intro events s event s' hafter hnext
    rw [List.countP_append, List.countP_singleton]
    rcases Bench.next_cases hnext with ⟨choice, m', rfl, -, hwork, rfl⟩ | ⟨_, rfl, -, -, rfl⟩ |
      ⟨rfl, -, rfl⟩
    · obtain ⟨m, hstep, hlater⟩ := hafter.advance
      obtain rfl : m = m' := Option.some.inj (hstep.symm.trans hwork)
      exact hlater
    · exact hafter
    · exact hafter

/-- However its steps interleave with those of the reporter and the ends of the reporter's sleep,
the worker is where the number of its steps puts it, it has counted the passes that they make up,
and its next statement stays within the array and within `int`. -/
theorem basic_worker_goes_on {array : List (BitVec w)} (hlength : array.length = arrayLength)
    {port : Port} {policy : Policy} {params : Params} {events : List (Event Unit)}
    {s : Bench (Worker w) w}
    (hrun : run (next port policy w params) events ⟨.start array, .start⟩ = some s) :
    After (array.getD · 0) (events.countP isWork) s.workers ∧
      s.workers.count = passes (events.countP isWork) ∧ ∃ m, s.workers.next () = some m := by
  have hafter := worker_after hlength hrun
  obtain ⟨m, hnext, -⟩ := hafter.advance
  exact ⟨hafter, hafter.count_eq, m, hnext⟩

/-- Two statements of the worker around the first step of the reporter; the third one would be the
first access to the array. -/
theorem basic_worker_goes_on_first :
    ∃ s, run (next .threadX .interleaved 32 ⟨30, 0⟩) [.work (), .report, .work ()]
        ⟨.start (List.replicate arrayLength 7), .start⟩ = some s ∧
      s.workers.pc = .body .clearing ∧ s.workers.count = passes 2 ∧
        ∃ m, s.workers.next () = some m := by
  obtain ⟨s, hrun, hpc⟩ :
      ∃ s, run (next .threadX .interleaved 32 ⟨30, 0⟩) [.work (), .report, .work ()]
        ⟨.start (List.replicate arrayLength 7), .start⟩ = some s ∧
      s.workers.pc = .body .clearing := ⟨_, rfl, rfl⟩
  obtain ⟨-, hcount, hnext⟩ := basic_worker_goes_on List.length_replicate hrun
  exact ⟨s, hrun, hpc, hcount, hnext⟩

/-- Under strict priorities the period totals measure the work of the processor: when a report has
printed its total, all totals printed so far add up to the passes that the statements executed so
far make up, to the width of the word. -/
theorem totals_measure_work {array : List (BitVec w)} (hlength : array.length = arrayLength)
    {port : Port} {params : Params} {events : List (Event Unit)} {s : Bench (Worker w) w}
    (hrun : run (next port .strict w params) events ⟨.start array, .start⟩ = some s)
    (hsave : s.reporter.pc = .save) :
    total s.reporter.totals = BitVec.ofNat w (passes (events.countP isWork)) := by
  have hrank (m : Worker w) : (workers w port).outranked m = true := by
    show port.outranks 2 10 = true
    rw [port.outranks_eq (by decide)]
    rfl
  have hquiet : ∀ event ∈ events, ∀ state, SingleCounter.UndisturbedStep (workers w port)
      (tmBasicProcessingThreadReport w) params .strict state event :=
    fun event _ state ↦ SingleCounter.undisturbed_of_strict hrank state event
  have hreach := reachable_where_of_run events hquiet hrun
  -- at this point the totals add up to the counter, which has counted the passes
  have hcounter := (SingleCounter.accounted_of_reachable rfl hreach).pending hsave
  have hafter := (worker_after hlength hrun).count_eq
  have hread : SingleCounter.counter w (workers w port) s.workers =
      some (BitVec.ofNat w s.workers.count) := rfl
  rw [← hafter]
  exact Option.some.inj (hcounter.symm.trans hread)

/-- A report before which the worker executes two statements. -/
def firstReport : List (Event Unit) :=
  [.report, .report, .work (), .work (), .wake] ++ List.replicate 4 .report

/-- The first period ends before the worker has completed a pass, so that its total is zero. -/
theorem totals_measure_work_first :
    ∃ s, run (next .freeRTOS .strict 32 ⟨30, 0⟩) firstReport
        ⟨.start (List.replicate arrayLength 7), .start⟩ = some s ∧
      s.reporter.totals = [0] ∧ total s.reporter.totals = BitVec.ofNat 32 (passes 2) := by
  obtain ⟨s, hrun, hsave, htotals⟩ :
      ∃ s, run (next .freeRTOS .strict 32 ⟨30, 0⟩) firstReport
        ⟨.start (List.replicate arrayLength 7), .start⟩ = some s ∧
      s.reporter.pc = .save ∧ s.reporter.totals = [0] := ⟨_, rfl, rfl, by decide⟩
  have hsum := totals_measure_work List.length_replicate hrun hsave
  have hwork : firstReport.countP isWork = 2 := rfl
  rw [hwork] at hsum
  exact ⟨s, hrun, htotals, hsum⟩

end ThreadMetric.BasicProcessing
