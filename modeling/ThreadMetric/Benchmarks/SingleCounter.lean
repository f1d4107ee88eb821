import ThreadMetric.Report.Totals
import ThreadMetric.Benchmarks.DeadWorker

/-!
# The reports of the single-counter tests

Four reporters look at one counter. They read it three times in a report: for the comparison with
`last_counter`, for the period total, and for the new `last_counter`. `totals_sum_to_last_counter`
says what the totals add up to and when the ERROR line stands in a report, in every run in which
no worker step makes two of these reads disagree. `UndisturbedStep` states that condition, which a
kernel with strict priorities meets. `increments_fall_between_reads` is a run of the message
processing test in which two increments fall between the reads: the report prints its ERROR line
although its total is one, and the second increment is counted in no report.
-/

namespace ThreadMetric.SingleCounter

open Report Transition

/-- The tests with one counter. -/
inductive Test where
  | basicProcessing
  | messageProcessing
  | synchronizationProcessing
  | memoryAllocation
  deriving DecidableEq

/-- The reporter of the test. -/
def Test.report (w : ℕ) : Test → ReportSpec w
  | basicProcessing => tmBasicProcessingThreadReport w
  | messageProcessing => tmMessageProcessingThreadReport w
  | synchronizationProcessing => tmSynchronizationProcessingThreadReport w
  | memoryAllocation => tmMemoryAllocationThreadReport w

/-- The four reporters look for progress. -/
@[simp] theorem report_criterion {w : ℕ} (test : Test) :
    (test.report w).criterion = .progress := by
  cases test <;> rfl

variable {σ χ : Type} {w : ℕ} {sys : Workers σ χ} {spec : ReportSpec w} {params : Params}
  {policy : Policy} {start : σ} {s s' : Bench σ w} {event : Event χ}

/-- The shared counter as the reporter reads it. -/
def counter (w : ℕ) (sys : Workers σ χ) (workers : σ) : Option (BitVec w) :=
  (words w (sys.counters workers)).head?

/-- Preempting the workers leaves the counter alone. -/
theorem counter_preempted (workers : σ) :
    counter w sys (sys.preempted workers) = counter w sys workers := by
  rw [counter, sys.counters_preempted, counter]

/-- Whatever the event does in this state, the counter is the same before and after it if the
reporter has printed a total and not yet stored it, and if the reporter has made its comparison
and not yet printed the total, then the comparison comes out the same before and after it. -/
def UndisturbedStep (sys : Workers σ χ) (spec : ReportSpec w) (params : Params) (policy : Policy)
    (s : Bench σ w) (event : Event χ) : Prop :=
  ∀ s', Bench.next sys spec params policy s event = some s' →
    (s.reporter.pc = .save → counter w sys s'.workers = counter w sys s.workers) ∧
    (s.reporter.pc = .printTotal →
      (counter w sys s'.workers = some s.reporter.last ↔
        counter w sys s.workers = some s.reporter.last))

/-- A reporter that outranks its workers under strict priorities is never disturbed. -/
theorem undisturbed_of_strict (hrank : ∀ workers, sys.outranked workers = true)
    (s : Bench σ w) (event : Event χ) : UndisturbedStep sys spec params .strict s event := by
  intro s' hnext
  rcases Bench.next_cases hnext with ⟨_, _, -, hmay, -, rfl⟩ | ⟨_, -, -, -, rfl⟩ | ⟨-, -, rfl⟩
  · have hidle : s.reporter.pc = .asleep := by
      by_contra hawake
      simpa [hrank] using hmay.2 rfl hawake
    exact ⟨fun hpc ↦ by simp [hidle] at hpc, fun hpc ↦ by simp [hidle] at hpc⟩
  · exact ⟨fun _ ↦ rfl, fun _ ↦ Iff.rfl⟩
  · refine ⟨fun _ ↦ counter_preempted s.workers, fun _ ↦ ?_⟩
    show counter w sys (sys.preempted s.workers) = _ ↔ _
    rw [counter_preempted]

/-- The lines of one report: the ERROR line is there exactly if the total is zero. -/
def reportLines (report : BitVec w × BitVec w) : List (Line w) :=
  .header report.1 :: (if report.2 = 0 then [.error] else []) ++ [.periodTotal report.2]

/-- The lines that an unfinished report has printed, when the counter is as given. -/
def startedLines (count : Option (BitVec w)) (r : Reporter w) : List (Line w) :=
  match r.pc with
  | .check => [.header r.relativeTime]
  | .printTotal => .header r.relativeTime :: if count = some r.last then [.error] else []
  | _ => []

/-- The printed totals add up to `last_counter`, or to the counter that is about to be stored
there, and the output consists of whole reports and one that may be unfinished. -/
structure Accounted (count : Option (BitVec w)) (r : Reporter w) : Prop where
  remembered : r.pc ≠ .save → total r.totals = r.last
  pending : r.pc = .save → count = some (total r.totals)
  output : ∃ reports : List (BitVec w × BitVec w),
    r.output = reports.flatMap reportLines ++ startedLines count r

/-- Nothing is printed and nothing remembered at the start. -/
theorem accounted_start (count : Option (BitVec w)) : Accounted count Reporter.start where
  remembered _ := rfl
  pending := nofun
  output := ⟨[], rfl⟩

variable {values : List (BitVec w)} {r r' : Reporter w}

/-- A step that prints nothing and assigns nothing, away from the reads of the counter. -/
theorem Accounted.congr {count count' : Option (BitVec w)} (h : Accounted count r)
    (houtput : r'.output = r.output) (hlast : r'.last = r.last)
    (hbefore : r.pc ≠ .check ∧ r.pc ≠ .printTotal ∧ r.pc ≠ .save)
    (hafter : r'.pc ≠ .check ∧ r'.pc ≠ .printTotal ∧ r'.pc ≠ .save) : Accounted count' r' := by
  have htotals : r'.totals = r.totals := by rw [Reporter.totals, Reporter.totals, houtput]
  refine ⟨fun _ ↦ ?_, fun hpc ↦ absurd hpc hafter.2.2, ?_⟩
  · rw [htotals, hlast]
    exact h.remembered hbefore.2.2
  · obtain ⟨reports, hreports⟩ := h.output
    refine ⟨reports, ?_⟩
    rw [houtput, hreports]
    simp [startedLines, hbefore, hafter]

/-- Every step of a reporter that looks for progress keeps its output accounted for. -/
theorem Accounted.step (h : Accounted values.head? r) (hspec : spec.criterion = .progress)
    (hstep : Reporter.Step spec params values r r') : Accounted values.head? r' := by
  obtain ⟨reports, hreports⟩ := h.output
  cases hstep with
  | enter hpc | leave hpc | sleep hpc | addTime hpc | advance hpc | finish hpc =>
      exact h.congr rfl rfl (by simp [hpc]) (by simp)
  | headerSnapshot _ hbalance | read _ hbalance | checkBalance _ hbalance | totalBalance _ hbalance
  | saveBalance _ hbalance => simp [hspec] at hbalance
  | header hpc =>
      refine ⟨fun _ ↦ ?_, by simp [Reporter.print], reports, ?_⟩
      · rw [Reporter.totals_print_header]
        exact h.remembered (by simp [hpc])
      · simp [Reporter.print, startedLines, hreports, hpc]
  | @checkProgress c hpc _ hread =>
      refine ⟨fun _ ↦ ?_, by simp, reports, ?_⟩
      · rw [Reporter.totals_report, Reporter.report_last]
        exact h.remembered (by simp [hpc])
      · rw [hread]
        by_cases hsame : c = r.last
        · simp [Reporter.report, Reporter.print, startedLines, hreports, hpc, hsame]
        · simp [Reporter.report, startedLines, hreports, hpc, hsame]
  | @totalProgress c hpc _ hread =>
      have hsum : total r.totals = r.last := h.remembered (by simp [hpc])
      refine ⟨fun hsave ↦ absurd rfl hsave, fun _ ↦ ?_,
        reports ++ [(r.relativeTime, c - r.last)], ?_⟩
      · rw [hread, Reporter.totals_print_total, Reporter.total_append, hsum, BitVec.add_comm,
          BitVec.sub_add_cancel]
      · have hzero : c - r.last = 0#w ↔ c = r.last := by
          rw [BitVec.sub_eq_iff_eq_add, BitVec.zero_add]
        simp [Reporter.print, startedLines, reportLines, hreports, hpc, hread, hzero]
  | @saveProgress c hpc _ hread =>
      refine ⟨fun _ ↦ ?_, by simp, reports, ?_⟩
      · exact Option.some.inj ((h.pending hpc).symm.trans hread)
      · simp [startedLines, hreports, hpc]

/-- A worker step that does not disturb the report keeps the output accounted for. -/
theorem Accounted.work {count count' : Option (BitVec w)} (h : Accounted count r)
    (hsave : r.pc = .save → count' = count)
    (hprint : r.pc = .printTotal → (count' = some r.last ↔ count = some r.last)) :
    Accounted count' r := by
  refine ⟨h.remembered, fun hpc ↦ (hsave hpc).trans (h.pending hpc), ?_⟩
  obtain ⟨reports, hreports⟩ := h.output
  refine ⟨reports, ?_⟩
  rw [hreports]
  unfold startedLines
  cases hpc : r.pc with
  | printTotal => simp only [hprint hpc]
  | _ => rfl

/-- The output is accounted for in every state of an undisturbed run. -/
theorem accounted_of_reachable (hspec : spec.criterion = .progress)
    (hreach : ReachableWhere (Bench.next sys spec params policy)
      (UndisturbedStep sys spec params policy) ⟨start, .start⟩ s) :
    Accounted (counter w sys s.workers) s.reporter := by
  refine hreach.invariant (fun s ↦ Accounted (counter w sys s.workers) s.reporter)
    (accounted_start _) ?_
  intro state event finish h hquiet hnext
  obtain ⟨hsave, hprint⟩ := hquiet finish hnext
  rcases Bench.reporter_cases hnext with ⟨-, hsame⟩ | ⟨-, hworkers, hstep⟩ |
    ⟨-, hworkers, hpc, hsame⟩
  · rw [hsame]
    exact h.work hsave hprint
  · rw [hworkers]
    exact h.step hspec hstep
  · rw [hsame]
    exact h.congr rfl rfl (by simp [hpc]) (by simp)

/-- What `last_counter` holds: the counter when it was last stored there, or nothing has been
stored yet. -/
def Stored (step : Bench σ w → Event χ → Option (Bench σ w)) (sys : Workers σ χ)
    (start s : Bench σ w) : Prop :=
  s.reporter.totals.length = (if s.reporter.pc = .save then 1 else 0) ∧ s.reporter.last = 0 ∨
    ∃ t, Bench.Took step start t s ∧ t.reporter.pc = .save ∧
      s.reporter.totals.length =
        t.reporter.totals.length + (if s.reporter.pc = .save then 1 else 0) ∧
      counter w sys t.workers = some s.reporter.last

/-- A step that neither prints a total nor stores. -/
theorem Stored.congr {step : Bench σ w → Event χ → Option (Bench σ w)} {start : Bench σ w}
    (h : Stored step sys start s) (hnext : step s event = some s')
    (htotals : s'.reporter.totals = s.reporter.totals)
    (hlast : s'.reporter.last = s.reporter.last)
    (hsave : s'.reporter.pc = .save ↔ s.reporter.pc = .save) : Stored step sys start s' := by
  rw [Stored, htotals, hlast, if_congr hsave rfl rfl]
  rcases h with hnone | ⟨t, htook, ht⟩
  · exact .inl hnone
  · exact .inr ⟨t, htook.tail hnext, ht⟩

/-- Every step of a test with one counter keeps track of what is stored. -/
theorem Stored.next (hspec : spec.criterion = .progress)
    (hreach : Reachable (Bench.next sys spec params policy) ⟨start, .start⟩ s)
    (h : Stored (Bench.next sys spec params policy) sys ⟨start, .start⟩ s)
    (hnext : Bench.next sys spec params policy s event = some s') :
    Stored (Bench.next sys spec params policy) sys ⟨start, .start⟩ s' := by
  rcases Bench.next_cases hnext with ⟨_, _, rfl, -, -, rfl⟩ | ⟨r', rfl, -, hrep, rfl⟩ |
    ⟨rfl, hpc, rfl⟩
  · exact h.congr hnext rfl rfl Iff.rfl
  · cases Reporter.step_of_next hrep with
    | enter hpc | leave hpc | sleep hpc | addTime hpc | advance hpc | finish hpc =>
        exact h.congr hnext rfl rfl (by simp [hpc])
    | headerSnapshot _ hbalance | read _ hbalance | checkBalance _ hbalance
    | totalBalance _ hbalance | saveBalance _ hbalance => simp [hspec] at hbalance
    | header hpc => exact h.congr hnext (by simp) rfl (by simp [Reporter.print, hpc])
    | checkProgress hpc => exact h.congr hnext (by simp) (by simp) (by simp [hpc])
    | totalProgress hpc =>
        -- the new total is the only one that `last_counter` does not include
        rcases h with ⟨hlength, hlast⟩ | ⟨t, htook, ht, hlength, hcount⟩
        · refine .inl ⟨?_, hlast⟩
          simpa [Reporter.print, Reporter.totals, hpc] using hlength
        · refine .inr ⟨t, htook.tail hnext, ht, ?_, hcount⟩
          simpa [Reporter.print, Reporter.totals, hpc] using hlength
    | saveProgress hpc _ hread =>
        exact .inr ⟨s, .last hreach hnext, hpc, rfl, hread⟩
  · exact h.congr hnext rfl rfl (by simp [hpc])

/-- What is stored in every state reached. -/
theorem stored_of_reachable (hspec : spec.criterion = .progress)
    (hreach : Reachable (Bench.next sys spec params policy) ⟨start, .start⟩ s) :
    Stored (Bench.next sys spec params policy) sys ⟨start, .start⟩ s := by
  induction hreach with
  | refl => exact .inl ⟨rfl, rfl⟩
  | tail event hstate _ hnext ih => exact ih.next hspec hstate hnext

/-- In every run without a disturbing worker step, the totals printed so far add up to
`last_counter`, which is the counter at the last store, so that every increment before this store
counts in exactly one report. Every finished report has an ERROR line exactly if its total is
zero. -/
theorem totals_sum_to_last_counter (test : Test)
    (hreach : ReachableWhere (Bench.next sys (test.report w) params policy)
      (UndisturbedStep sys (test.report w) params policy) ⟨start, .start⟩ s) :
    (s.reporter.pc ≠ .save →
      total s.reporter.totals = s.reporter.last ∧
      (s.reporter.totals = [] ∧ s.reporter.last = 0 ∨
        ∃ t, Bench.Took (Bench.next sys (test.report w) params policy) ⟨start, .start⟩ t s ∧
          t.reporter.pc = .save ∧ s.reporter.totals.length = t.reporter.totals.length ∧
          counter w sys t.workers = some s.reporter.last)) ∧
    (¬ s.reporter.InReport → ∃ reports : List (BitVec w × BitVec w),
      s.reporter.output = reports.flatMap reportLines) := by
  have haccounted := accounted_of_reachable (report_criterion test) hreach
  refine ⟨fun hpc ↦ ⟨haccounted.remembered hpc, ?_⟩, fun hreport ↦ ?_⟩
  · have hstored := stored_of_reachable (report_criterion test) hreach.reachable
    simpa [Stored, hpc] using hstored
  · obtain ⟨reports, hreports⟩ := haccounted.output
    refine ⟨reports, ?_⟩
    rw [hreports]
    unfold startedLines
    cases hpc : s.reporter.pc with
    | check | printTotal => simp [Reporter.InReport, hpc] at hreport
    | _ => simp

/-- Under strict priorities the message worker completes one iteration while its reporter sleeps,
and the first report counts it. -/
theorem totals_sum_to_last_counter_message :
    ∃ s, run (DeadWorker.next .messageProcessing .threadX .strict 32 ⟨30, 0⟩)
        (List.replicate 2 .report ++ List.replicate 4 (.work true) ++
          .wake :: List.replicate 6 .report) (DeadWorker.start 32) = some s ∧
      s.reporter.totals = [1] ∧
      (s.reporter.pc ≠ .save →
        total s.reporter.totals = s.reporter.last ∧
        (s.reporter.totals = [] ∧ s.reporter.last = 0 ∨
          ∃ t, Bench.Took (DeadWorker.next .messageProcessing .threadX .strict 32 ⟨30, 0⟩)
              (DeadWorker.start 32) t s ∧
            t.reporter.pc = .save ∧ s.reporter.totals.length = t.reporter.totals.length ∧
            counter 32 (DeadWorker.workers .messageProcessing .threadX) t.workers =
              some s.reporter.last)) ∧
      (¬ s.reporter.InReport → ∃ reports : List (BitVec 32 × BitVec 32),
        s.reporter.output = reports.flatMap reportLines) := by
  let sys := DeadWorker.workers .messageProcessing .threadX
  let events : List (Event Bool) := List.replicate 2 .report ++ List.replicate 4 (.work true) ++
    .wake :: List.replicate 6 .report
  obtain ⟨s, hrun, htotals⟩ :
      ∃ s, run (DeadWorker.next .messageProcessing .threadX .strict 32 ⟨30, 0⟩) events
        (DeadWorker.start 32) = some s ∧ s.reporter.totals = [1] := ⟨_, rfl, by decide⟩
  have hquiet : ∀ event ∈ events, ∀ state : Bench DeadWorker.Worker 32,
      UndisturbedStep sys (Test.messageProcessing.report 32) ⟨30, 0⟩ .strict state event :=
    fun event _ state ↦ undisturbed_of_strict (fun _ ↦ rfl) state event
  exact ⟨s, hrun, htotals,
    totals_sum_to_last_counter .messageProcessing (reachable_where_of_run events hquiet hrun)⟩

/-- The message worker completes its first iteration between the comparison and the print, and the
second one between the print and the store: the report has an ERROR line and the total one, and
`last_counter` is two. -/
theorem increments_fall_between_reads :
    (¬ ∀ (params : Params) (s : Bench DeadWorker.Worker 32),
      Reachable (DeadWorker.next .messageProcessing .threadX .interleaved 32 params)
        (DeadWorker.start 32) s →
      s.reporter.pc ≠ .save → total s.reporter.totals = s.reporter.last) ∧
    ¬ ∀ (params : Params) (s : Bench DeadWorker.Worker 32),
      Reachable (DeadWorker.next .messageProcessing .threadX .interleaved 32 params)
        (DeadWorker.start 32) s →
      ¬ s.reporter.InReport → ∃ reports : List (BitVec 32 × BitVec 32),
        s.reporter.output = reports.flatMap reportLines := by
  obtain ⟨s, hrun, hpc, htotals, hlast, houtput⟩ :
      ∃ s, run (DeadWorker.next .messageProcessing .threadX .interleaved 32 ⟨30, 0⟩)
          (List.replicate 2 .report ++ .wake :: List.replicate 3 .report ++
            List.replicate 4 (.work true) ++ .report :: List.replicate 4 (.work true) ++ [.report])
          (DeadWorker.start 32) = some s ∧
        s.reporter.pc = .advance ∧ total s.reporter.totals = 1 ∧ s.reporter.last = 2 ∧
        s.reporter.output = [.header 30, .error, .periodTotal 1] :=
    ⟨_, rfl, by decide, by decide, by decide, by decide⟩
  have hreach := reachable_of_run hrun
  constructor
  · intro h
    have hsum := h ⟨30, 0⟩ s hreach (by simp [hpc])
    rw [htotals, hlast] at hsum
    revert hsum
    decide
  · intro h
    obtain ⟨reports, hreports⟩ := h ⟨30, 0⟩ s hreach (by simp [Reporter.InReport, hpc])
    rw [houtput] at hreports
    cases reports with
    | nil => cases hreports
    | cons report reports =>
        by_cases hzero : report.2 = 0#32 <;> simp [reportLines, hzero] at hreports

end ThreadMetric.SingleCounter
