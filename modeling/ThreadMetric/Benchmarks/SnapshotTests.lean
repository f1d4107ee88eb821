import ThreadMetric.Report.Totals
import ThreadMetric.Benchmarks.DeadWorker

/-!
# The reports of the snapshot tests

Four reporters copy their counters before they use them, and worker steps may fall between any two
of the copies. `Copied` says which counts the copies are: each is the counter at the step of this
report that read it. `snapshot_reports` adds the schedule of the reports to the sum of their totals:
a bounded run prints one total in each of its cycles and then reaches `tm_report_finish`, and an
unbounded one never does.
-/

namespace ThreadMetric.SnapshotTests

open Counts Report Transition

/-- The tests whose reporter copies its counters. -/
inductive Test where
  | cooperativeScheduling
  | preemptiveScheduling
  | interruptPreemptionProcessing
  | interruptProcessing
  deriving DecidableEq

namespace Test

/-- The reporter of the test. -/
def report (w : ℕ) : Test → ReportSpec w
  | cooperativeScheduling => tmCooperativeThreadReport w
  | preemptiveScheduling => tmPreemptiveThreadReport w
  | interruptPreemptionProcessing => tmInterruptPreemptionThreadReport w
  | interruptProcessing => tmInterruptThreadReport w

/-- The number of counters. -/
def reads : Test → ℕ
  | cooperativeScheduling | preemptiveScheduling => 5
  | interruptPreemptionProcessing => 3
  | interruptProcessing => 2

/-- What the totals count: all iterations in the scheduling tests, the handler runs in the
interrupt tests. -/
def figure (test : Test) (counts : List ℕ) : ℕ :=
  match test with
  | cooperativeScheduling | preemptiveScheduling => counts.sum
  | interruptPreemptionProcessing | interruptProcessing => counts.getLastD 0

/-- The figure that the reporter computes from the copies. -/
def wordFigure {w : ℕ} (test : Test) (snapshot : List (BitVec w)) : BitVec w :=
  match test with
  | cooperativeScheduling | preemptiveScheduling => total snapshot
  | interruptPreemptionProcessing | interruptProcessing => snapshot.getLastD 0

/-- The reporter copies all counters of the test. -/
theorem report_criterion (w : ℕ) (test : Test) :
    (test.report w).criterion = .balance test.reads test.wordFigure := by
  cases test <;> rfl

/-- Every test has a counter. -/
theorem reads_pos (test : Test) : 0 < test.reads := by
  cases test <;> decide

/-- Computed from words, the figure is the word of the figure. -/
theorem word_figure_words {w : ℕ} (test : Test) (counts : List ℕ) :
    test.wordFigure (words w counts) = BitVec.ofNat w (test.figure counts) := by
  have hlast : (words w counts).getLastD 0 = BitVec.ofNat w (counts.getLastD 0) := by
    rw [words, List.getLastD_eq_getLast?, List.getLastD_eq_getLast?, List.getLast?_map]
    cases counts.getLast? <;> rfl
  cases test with
  | cooperativeScheduling | preemptiveScheduling => exact foldl_add_of_nat counts
  | interruptPreemptionProcessing | interruptProcessing => exact hlast

end Test

/-! ## The copies -/

variable {σ χ : Type} {w : ℕ} {sys : Workers σ χ} {params : Params} {policy : Policy} {test : Test}
  {start : Bench σ w} {s s' : Bench σ w} {event : Event χ}
  {step : Bench σ w → Event χ → Option (Bench σ w)}

/-- The count is the true value of counter `i` at the step of the current report that read it. -/
def LastRead (step : Bench σ w → Event χ → Option (Bench σ w)) (sys : Workers σ χ)
    (start s : Bench σ w) (i count : ℕ) : Prop :=
  ∃ t, Bench.Took step start t s ∧ t.reporter.pc = .read i ∧
    t.reporter.headers.length = s.reporter.headers.length ∧
    (sys.counters t.workers)[i]? = some count

/-- A longer run has read the same counts as long as it begins no new report. -/
theorem LastRead.tail {i count : ℕ} (h : LastRead step sys start s i count)
    (hnext : step s event = some s')
    (hheaders : s'.reporter.headers.length = s.reporter.headers.length) :
    LastRead step sys start s' i count := by
  obtain ⟨t, htook, hpc, hlength, hcount⟩ := h
  exact ⟨t, htook.tail hnext, hpc, hlength.trans hheaders.symm, hcount⟩

/-- How many of `n` counters have been copied. -/
def copies (n : ℕ) (r : Reporter w) : ℕ :=
  match r.pc with
  | .read k => k
  | _ => if r.headers = [] then 0 else n

/-- The copies are the given counts, each as it was when it was read. -/
structure Copied (step : Bench σ w → Event χ → Option (Bench σ w)) (sys : Workers σ χ) (n : ℕ)
    (start s : Bench σ w) (counts : List ℕ) : Prop where
  snapshot : s.reporter.snapshot = words w counts
  length : counts.length = copies n s.reporter
  read : ∀ i count, counts[i]? = some count → LastRead step sys start s i count

/-- A step that copies nothing and begins no report. -/
theorem Copied.congr {n : ℕ} {counts : List ℕ} (h : Copied step sys n start s counts)
    (hnext : step s event = some s') (hsnapshot : s'.reporter.snapshot = s.reporter.snapshot)
    (hheaders : s'.reporter.headers = s.reporter.headers)
    (hcopies : copies n s'.reporter = copies n s.reporter) :
    Copied step sys n start s' counts where
  snapshot := hsnapshot.trans h.snapshot
  length := h.length.trans hcopies.symm
  read i count hi := (h.read i count hi).tail hnext (by rw [hheaders])

/-- One more counter is copied. -/
theorem Copied.read_next {n k : ℕ} {counts : List ℕ} {c : BitVec w}
    (h : Copied step sys n start s counts) (hreach : Reachable step start s)
    (hnext : step s .report = some s') (hpc : s.reporter.pc = .read k)
    (hread : (words w (sys.counters s.workers))[k]? = some c)
    (hsnapshot : s'.reporter.snapshot = s.reporter.snapshot ++ [c])
    (hheaders : s'.reporter.headers = s.reporter.headers)
    (hcopies : copies n s'.reporter = k + 1) :
    ∃ counts, Copied step sys n start s' counts := by
  obtain ⟨count, hcount, rfl⟩ : ∃ count, (sys.counters s.workers)[k]? = some count ∧
      BitVec.ofNat w count = c := by
    simpa [words] using hread
  have hlength : counts.length = k := by simpa [copies, hpc] using h.length
  refine ⟨counts ++ [count], ?_, ?_, ?_⟩
  · rw [hsnapshot, h.snapshot]
    simp [words]
  · rw [hcopies, List.length_append, hlength, List.length_singleton]
  · intro i other hi
    rcases lt_trichotomy i k with hlt | rfl | hgt
    · rw [List.getElem?_append_left (by omega)] at hi
      exact (h.read i other hi).tail hnext (by rw [hheaders])
    · rw [← hlength, List.getElem?_concat_length, Option.some.injEq] at hi
      subst hi
      exact ⟨s, .last hreach hnext, hpc, by rw [hheaders], hcount⟩
    · rw [List.getElem?_eq_none (by simp; omega)] at hi
      cases hi

/-- Every step of a snapshot test keeps the copies true. -/
theorem Copied.next {spec : ReportSpec w} {n : ℕ} {figure : List (BitVec w) → BitVec w}
    {counts : List ℕ} (hspec : spec.criterion = .balance n figure) (hpos : 0 < n) {initial : σ}
    (hreach : Reachable (Bench.next sys spec params policy) ⟨initial, .start⟩ s)
    (h : Copied (Bench.next sys spec params policy) sys n ⟨initial, .start⟩ s counts)
    (hnext : Bench.next sys spec params policy s event = some s') :
    ∃ counts, Copied (Bench.next sys spec params policy) sys n ⟨initial, .start⟩ s' counts := by
  rcases Bench.next_cases hnext with ⟨_, _, rfl, -, -, rfl⟩ | ⟨r', rfl, -, hrep, rfl⟩ |
    ⟨rfl, hpc, rfl⟩
  · exact ⟨counts, h.congr hnext rfl rfl rfl⟩
  · cases Reporter.step_of_next hrep with
    | enter hpc | leave hpc | sleep hpc | addTime hpc | advance hpc | finish hpc
    | saveBalance hpc =>
        refine ⟨counts, h.congr hnext rfl rfl ?_⟩
        simp [copies, hpc, Reporter.headers]
    | header _ hprogress | checkProgress _ hprogress | totalProgress _ hprogress
    | saveProgress _ hprogress => simp [hspec] at hprogress
    | headerSnapshot hpc => exact ⟨[], rfl, rfl, by simp⟩
    | @read m _ k c hpc hbalance hread =>
        obtain ⟨rfl, rfl⟩ : n = m ∧ _ := by simpa [hspec] using hbalance
        refine h.read_next hreach hnext hpc hread rfl rfl ?_
        have hlength := (Bench.regular_of_reachable hreach).length
        have hheaders : s.reporter.headers ≠ [] := by
          rw [if_pos (by simp [Reporter.InReport, hpc])] at hlength
          exact List.ne_nil_of_length_eq_add_one hlength
        have hlt : k < n := by
          have hscheduled := Bench.scheduled_of_reachable (by simpa [hspec] using hpos) hreach
          simpa [hspec, Criterion.reads] using hscheduled.read k hpc
        by_cases hk : k + 1 < n
        · simp [copies, hk]
        · have hsame : ({ s.reporter with snapshot := s.reporter.snapshot ++ [c], pc := .check } :
              Reporter w).headers = s.reporter.headers := rfl
          simp only [copies, hk, if_false, hsame, hheaders]
          omega
    | checkBalance hpc =>
        exact ⟨counts, h.congr hnext (by simp) (by simp) (by simp [copies, hpc])⟩
    | totalBalance hpc =>
        refine ⟨counts, h.congr hnext rfl (by simp) ?_⟩
        simp [copies, hpc, Reporter.print, Reporter.headers]
  · exact ⟨counts, h.congr hnext rfl rfl (by simp [copies, hpc, Reporter.headers])⟩

/-- The copies are true in every state reached. -/
theorem copied_of_reachable {spec : ReportSpec w} {n : ℕ} {figure : List (BitVec w) → BitVec w}
    (hspec : spec.criterion = .balance n figure) (hpos : 0 < n) {initial : σ}
    (hreach : Reachable (Bench.next sys spec params policy) ⟨initial, .start⟩ s) :
    ∃ counts, Copied (Bench.next sys spec params policy) sys n ⟨initial, .start⟩ s counts := by
  induction hreach with
  | refl => exact ⟨[], rfl, rfl, by simp⟩
  | tail event hstate _ hnext ih =>
      obtain ⟨counts, hcounts⟩ := ih
      exact hcounts.next hspec hpos hstate hnext

/-! ## The printed totals -/

/-- What the reporter of a test has printed: headers with the multiples of the duration, one total
for each of them, and totals that add up to the figure of the counts that were last read. -/
structure Printed (step : Bench σ w → Event χ → Option (Bench σ w)) (sys : Workers σ χ)
    (params : Params) (test : Test) (start s : Bench σ w) : Prop where
  times : s.reporter.headers =
    (List.range s.reporter.headers.length).map fun j ↦ BitVec.ofNat w ((j + 1) * params.duration)
  length : s.reporter.headers.length =
    s.reporter.totals.length + if s.reporter.InReport then 1 else 0
  counted : ¬ s.reporter.InReport →
    ∃ counts : List ℕ,
      counts.length = (if s.reporter.totals = [] then 0 else test.reads) ∧
      (∀ i count, counts[i]? = some count → LastRead step sys start s i count) ∧
      total s.reporter.totals = BitVec.ofNat w (test.figure counts)

/-- Outside a report the totals add up to the figure of the copies. -/
theorem total_of_reachable {initial : σ} {allowed : Bench σ w → Event χ → Prop}
    (hreach : ReachableWhere (Bench.next sys (test.report w) params policy) allowed
      ⟨initial, .start⟩ s) (hreport : ¬ s.reporter.InReport) :
    total s.reporter.totals = test.wordFigure s.reporter.snapshot := by
  have hspec := test.report_criterion w
  have hbooks : s.reporter.Books (test.wordFigure s.reporter.snapshot) := by
    refine Bench.reporter_invariant (fun r ↦ r.Books (test.wordFigure r.snapshot)) rfl ?_ ?_ hreach
    · intro values r r' h hstep
      exact h.step_balance hspec hstep
    · intro r h hpc
      exact h.congr rfl rfl (by simp [hpc]) (by simp)
  have hremembers : s.reporter.Remembers test.wordFigure := by
    refine Bench.reporter_invariant (Reporter.Remembers test.wordFigure) ?_ ?_ ?_ hreach
    · intro _ _
      show (0 : BitVec w) = test.wordFigure []
      cases test <;> rfl
    · intro values r r' h hstep
      exact h.step hspec hstep
    · intro r h hpc _ _
      exact h (by simp [Reporter.InReport, hpc]) (by simp [hpc])
  by_cases hsave : s.reporter.pc = .save
  · simpa [Reporter.Books, hsave] using hbooks
  · rw [← hremembers hreport hsave]
    simpa [Reporter.Books, hsave] using hbooks

/-- The output of a snapshot test in every state reached. -/
theorem printed_of_reachable {initial : σ}
    (hreach : Reachable (Bench.next sys (test.report w) params policy) ⟨initial, .start⟩ s) :
    Printed (Bench.next sys (test.report w) params policy) sys params test ⟨initial, .start⟩ s := by
  have hregular := Bench.regular_of_reachable hreach
  refine ⟨hregular.times, hregular.length, fun hreport ↦ ?_⟩
  obtain ⟨counts, hcounts⟩ :=
    copied_of_reachable (test.report_criterion w) test.reads_pos hreach
  refine ⟨counts, ?_, hcounts.read, ?_⟩
  · have hlength := hregular.length
    rw [if_neg hreport, Nat.add_zero] at hlength
    have hnone : s.reporter.headers = [] ↔ s.reporter.totals = [] := by
      rw [← List.length_eq_zero_iff, ← List.length_eq_zero_iff, hlength]
    rw [hcounts.length]
    unfold copies
    cases hpc : s.reporter.pc with
    | read k => exact absurd (by simp [Reporter.InReport, hpc]) hreport
    | _ => simp only [hnone]
  · rw [total_of_reachable hreach hreport, hcounts.snapshot, test.word_figure_words]

/-- For any workers, word width, duration, number of cycles and interleaving, the reports of a
snapshot test show the multiples of the duration, and their totals add up to the counters as last
read. With a bound on the cycles the loop index stays within it, the body runs once for each cycle,
and `tm_report_finish` is called after exactly this number of steps, at a single point of the run;
without a bound it is never called. The reporter never gets stuck before. -/
theorem snapshot_reports (test : Test) {initial : σ} {events : List (Event χ)}
    (hrun : run (Bench.next sys (test.report w) params policy) events ⟨initial, .start⟩ = some s) :
    Printed (Bench.next sys (test.report w) params policy) sys params test ⟨initial, .start⟩ s ∧
    (params.cycles ≠ 0 →
      s.reporter.cycle ≤ params.cycles ∧
      (s.reporter.pc = .finish ∨ s.reporter.pc = .exited →
        s.reporter.totals.length = params.cycles) ∧
      events.countP Event.ofReporter ≤ params.cycles * (9 + test.reads) + 2 ∧
      (s.reporter.pc = .finish ↔
        events.countP Event.ofReporter = params.cycles * (9 + test.reads) + 1) ∧
      (s.reporter.pc = .exited ↔
        events.countP Event.ofReporter = params.cycles * (9 + test.reads) + 2)) ∧
    (params.cycles = 0 → s.reporter.pc ≠ .finish ∧ s.reporter.pc ≠ .exited) ∧
    ((policy = .interleaved ∨ ∀ x, sys.outranked x = true) →
      (∀ x, (sys.counters x).length = test.reads) → s.reporter.pc ≠ .exited →
      ∃ event s', event.ofReporter = true ∧
        Bench.next sys (test.report w) params policy s event = some s') := by
  have hspec := test.report_criterion w
  have hreads : (test.report w).criterion.reads = test.reads := by rw [hspec]; rfl
  have hpos : ∀ n figure, (test.report w).criterion = .balance n figure → 0 < n := by
    intro n figure hbalance
    obtain ⟨rfl, -⟩ : test.reads = n ∧ _ := by simpa [hspec] using hbalance
    exact test.reads_pos
  have hreach := reachable_of_run hrun
  have hscheduled := Bench.scheduled_of_reachable hpos hreach
  refine ⟨printed_of_reachable hreach, fun hbounded ↦ ?_, hscheduled.endless, ?_⟩
  · have hfinished := hscheduled.finished hbounded
    rw [Bench.taken_of_run hpos hbounded hrun, hreads] at hfinished
    have hinside := hscheduled.inside hbounded
    refine ⟨?_, fun hend ↦ ?_, hfinished⟩
    · by_cases hend : s.reporter.pc = .finish ∨ s.reporter.pc = .exited
      · rw [if_pos hend] at hinside
        exact hinside.le
      · rw [if_neg hend] at hinside
        split at hinside <;> omega
    · rw [if_pos hend] at hinside
      rw [hscheduled.length hbounded, hinside]
      rcases hend with hpc | hpc <;> simp [hpc]
  · intro hpolicy hcounters hrunning
    refine Bench.exists_reporter_step hpolicy (fun k hpc ↦ ?_) ?_ hrunning
    · have hk : k < test.reads := hreads ▸ hscheduled.read k hpc
      exact ⟨_, _, hspec, by rw [hcounters]; exact hk⟩
    · have hsome := test.reads_pos
      rw [← hcounters s.workers] at hsome
      exact List.length_pos_iff.mp hsome

/-- The interrupt worker completes an iteration between the two reads of the only report, so that
the copies are zero and one, and the program ends after its single cycle. -/
theorem snapshot_reports_interrupt :
    ∃ s, run (DeadWorker.next .interruptProcessing .threadX .interleaved 32 ⟨30, 1⟩)
        (List.replicate 2 .report ++ .wake :: List.replicate 3 .report ++
          List.replicate 5 (.work true) ++ List.replicate 7 .report)
        (DeadWorker.start 32) = some s ∧
      s.reporter.output = [.header 30, .periodTotal 1] ∧ s.reporter.pc = .exited ∧
      Printed (DeadWorker.next .interruptProcessing .threadX .interleaved 32 ⟨30, 1⟩)
        (DeadWorker.workers .interruptProcessing .threadX) ⟨30, 1⟩ .interruptProcessing
        (DeadWorker.start 32) s ∧
      s.reporter.totals.length = 1 := by
  obtain ⟨s, hrun, houtput, hpc⟩ :
      ∃ s, run (DeadWorker.next .interruptProcessing .threadX .interleaved 32 ⟨30, 1⟩)
          (List.replicate 2 .report ++ .wake :: List.replicate 3 .report ++
            List.replicate 5 (.work true) ++ List.replicate 7 .report)
          (DeadWorker.start 32) = some s ∧
        s.reporter.output = [.header 30, .periodTotal 1] ∧ s.reporter.pc = .exited :=
    ⟨_, rfl, by decide, by decide⟩
  obtain ⟨hprinted, hbounded, -⟩ := snapshot_reports .interruptProcessing hrun
  exact ⟨s, hrun, houtput, hpc, hprinted, (hbounded (by decide)).2.1 (.inr hpc)⟩

end ThreadMetric.SnapshotTests
