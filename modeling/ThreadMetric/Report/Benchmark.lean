import ThreadMetric.Report.Reporter

/-!
# A reporter over its workers

A benchmark is a worker system together with its reporting thread. `Bench.next` interleaves the
two. Under the `strict` policy the kernel is a strict fixed-priority preemptive one: a ready
reporter that outranks every ready worker excludes the workers, and one that is outranked waits.
Under the `interleaved` policy any of the two may take the next step. The reporter sleeps until
the kernel wakes it, which can happen between any two steps and preempts the worker that runs.

`no_error_while_sum_fits` is the result the balance tests share: if the true counts are balanced
in every state reached, a strict run prints no ERROR line before the sum of the counters leaves
the word.
-/

namespace ThreadMetric.Report

open Counts Transition

/-- The worker side of a benchmark: its steps, named by an event, the true values of its counters
in the order in which the reporter reads them, whether the reporter has a more urgent priority than
the worker that would run, and what the kernel does with the worker that runs when the reporter
wakes up. It may keep the worker's place or move it as one of the workers' own steps does. -/
structure Workers (σ χ : Type) where
  next : σ → χ → Option σ
  counters : σ → List ℕ
  outranked : σ → Bool
  preempted : σ → σ
  preempted_cases : ∀ x, preempted x = x ∨ ∃ choice, next x choice = some (preempted x)
  counters_preempted : ∀ x, counters (preempted x) = counters x

/-- The kernel's rule for choosing between the reporter and the workers. -/
inductive Policy where
  | strict
  | interleaved
  deriving DecidableEq

/-- The events of a benchmark: a worker event, a step of the reporter, and the end of the
reporter's sleep. -/
inductive Event (χ : Type) where
  | work (event : χ)
  | report
  | wake

/-- The state of a benchmark. -/
structure Bench (σ : Type) (w : ℕ) where
  workers : σ
  reporter : Reporter w

namespace Bench

variable {σ χ : Type} {w : ℕ}

/-- The workers may run unless the program has ended or a ready reporter outranks them. -/
def mayWork (sys : Workers σ χ) (policy : Policy) (s : Bench σ w) : Prop :=
  s.reporter.pc ≠ .exited ∧
    (policy = .strict → s.reporter.pc ≠ .asleep → sys.outranked s.workers = false)

/-- The reporter may run unless a worker outranks it. -/
def mayReport (sys : Workers σ χ) (policy : Policy) (s : Bench σ w) : Prop :=
  policy = .strict → sys.outranked s.workers = true

instance (sys : Workers σ χ) (policy : Policy) (s : Bench σ w) :
    Decidable (mayWork sys policy s) :=
  inferInstanceAs (Decidable (_ ∧ (_ → _ → _)))

instance (sys : Workers σ χ) (policy : Policy) (s : Bench σ w) :
    Decidable (mayReport sys policy s) :=
  inferInstanceAs (Decidable (_ → _))

/-- One step of the benchmark. -/
def next (sys : Workers σ χ) (spec : ReportSpec w) (params : Params) (policy : Policy)
    (s : Bench σ w) : Event χ → Option (Bench σ w)
  | .work event =>
      if mayWork sys policy s then
        (sys.next s.workers event).map fun workers ↦ { s with workers := workers }
      else none
  | .report =>
      if mayReport sys policy s then
        (s.reporter.next spec params (words w (sys.counters s.workers))).map
          fun reporter ↦ { s with reporter := reporter }
      else none
  | .wake => s.reporter.wake.map fun reporter ↦ ⟨sys.preempted s.workers, reporter⟩

variable {sys : Workers σ χ} {spec : ReportSpec w} {params : Params} {policy : Policy}
  {s s' : Bench σ w} {event : Event χ}

/-- Everything a step of the benchmark can do. -/
theorem next_cases (h : next sys spec params policy s event = some s') :
    (∃ choice workers, event = .work choice ∧ mayWork sys policy s ∧
      sys.next s.workers choice = some workers ∧ s' = { s with workers := workers }) ∨
    (∃ reporter, event = .report ∧ mayReport sys policy s ∧
      s.reporter.next spec params (words w (sys.counters s.workers)) = some reporter ∧
      s' = { s with reporter := reporter }) ∨
    (event = .wake ∧ s.reporter.pc = .asleep ∧
      s' = ⟨sys.preempted s.workers, { s.reporter with pc := .addTime }⟩) := by
  cases event with
  | work choice =>
      simp only [next, Option.ite_none_right_eq_some, Option.map_eq_some_iff] at h
      obtain ⟨hmay, workers, hnext, rfl⟩ := h
      exact .inl ⟨choice, workers, rfl, hmay, hnext, rfl⟩
  | report =>
      simp only [next, Option.ite_none_right_eq_some, Option.map_eq_some_iff] at h
      obtain ⟨hmay, reporter, hnext, rfl⟩ := h
      exact .inr (.inl ⟨reporter, rfl, hmay, hnext, rfl⟩)
  | wake =>
      simp only [next, Reporter.wake, Option.map_eq_some_iff, Option.ite_none_right_eq_some,
        Option.some.injEq] at h
      obtain ⟨reporter, ⟨hpc, rfl⟩, rfl⟩ := h
      exact .inr (.inr ⟨rfl, hpc, rfl⟩)

/-- The workers of a benchmark reach only what the worker system reaches on its own. -/
theorem workers_reachable {allowed : Bench σ w → Event χ → Prop} {start : Bench σ w}
    (h : ReachableWhere (next sys spec params policy) allowed start s) :
    Reachable sys.next start.workers s.workers := by
  refine h.project Bench.workers fun s event s' hnext ↦ ?_
  rcases next_cases hnext with ⟨choice, workers, -, -, hwork, rfl⟩ | ⟨_, -, -, -, rfl⟩ |
    ⟨-, -, rfl⟩
  · exact .inr ⟨choice, hwork⟩
  · exact .inl rfl
  · exact sys.preempted_cases s.workers

end Bench

/-! ## Snapshots under strict priorities -/

namespace Reporter

variable {w : ℕ}

/-- The reporter has begun to copy the counters and has not yet used the copies up. -/
def Committed (r : Reporter w) : Prop :=
  match r.pc with
  | .read k => 0 < k
  | .check | .printTotal | .save => True
  | _ => False

/-- The copies made so far are the given values. -/
def SnapshotOf (n : ℕ) (values : List (BitVec w)) (r : Reporter w) : Prop :=
  match r.pc with
  | .read k => k < n ∧ r.snapshot = values.take k
  | .check | .printTotal | .save => r.snapshot = values.take n
  | _ => True

variable {spec : ReportSpec w} {params : Params} {values : List (BitVec w)} {r r' : Reporter w}
  {n : ℕ} {figure : List (BitVec w) → BitVec w}

/-- While nothing has been copied, the copies made so far are those of any values. -/
theorem SnapshotOf.of_not_committed (h : SnapshotOf n values r) (hc : ¬ r.Committed)
    (others : List (BitVec w)) : SnapshotOf n others r := by
  unfold SnapshotOf Committed at *
  cases hpc : r.pc with
  | read k =>
      rw [hpc] at h hc
      obtain rfl : k = 0 := by simpa using hc
      simpa using h
  | check | printTotal | save =>
      rw [hpc] at hc
      exact absurd trivial hc
  | _ => trivial

/-- A step of a snapshot reporter keeps the copies equal to the values it reads. -/
theorem SnapshotOf.next (h : SnapshotOf n values r) (hspec : spec.criterion = .balance n figure)
    (hpos : 0 < n) (hnext : r.next spec params values = some r') : SnapshotOf n values r' := by
  unfold SnapshotOf at h
  unfold Reporter.next at hnext
  cases hpc : r.pc with
  | read k =>
      simp only [hpc, hspec, Option.bind_eq_bind, Option.bind_eq_some_iff, Option.pure_def,
        Option.some.injEq] at h hnext
      obtain ⟨c, hc, rfl⟩ := hnext
      have hcopy : r.snapshot ++ [c] = values.take (k + 1) := by
        rw [h.2, List.take_add_one, hc]
        rfl
      by_cases hk : k + 1 < n
      · simp only [SnapshotOf, hk, if_true]
        exact ⟨trivial, hcopy⟩
      · obtain rfl : k + 1 = n := by omega
        simpa [SnapshotOf] using hcopy
  | loopTest =>
      simp only [hpc, Option.some.injEq] at hnext
      subst hnext
      by_cases hloop : params.cycles = 0 ∨ r.cycle < params.cycles <;>
        simp [SnapshotOf, hloop]
  | check =>
      simp only [hpc, hspec, Option.some.injEq] at h hnext
      subst hnext
      cases hinvalid : invalidCounters r.snapshot <;>
        simpa [SnapshotOf, report, print] using h
  | asleep | exited => simp [hpc] at hnext
  | _ =>
      simp only [hpc, hspec, Option.some.injEq] at h hnext
      subst hnext
      simp_all [SnapshotOf, print]

/-- A snapshot reporter prints its ERROR line only when the check fails on its copies. -/
theorem error_of_next (hspec : spec.criterion = .balance n figure)
    (hnext : r.next spec params values = some r') (herror : Line.error ∈ r'.output) :
    Line.error ∈ r.output ∨ r.pc = .check ∧ invalidCounters r.snapshot = true := by
  unfold Reporter.next at hnext
  cases hpc : r.pc with
  | read k =>
      simp only [hpc, hspec, Option.bind_eq_bind, Option.bind_eq_some_iff, Option.pure_def,
        Option.some.injEq] at hnext
      obtain ⟨c, -, rfl⟩ := hnext
      exact .inl herror
  | check =>
      simp only [hpc, hspec, Option.some.injEq] at hnext
      subst hnext
      cases hinvalid : invalidCounters r.snapshot with
      | false => exact .inl (by simpa [report, hinvalid] using herror)
      | true => exact .inr ⟨rfl, rfl⟩
  | asleep | exited => simp [hpc] at hnext
  | _ =>
      simp only [hpc, hspec, Option.some.injEq] at hnext
      subst hnext
      exact .inl (by simpa [print] using herror)

end Reporter

namespace Bench

variable {σ χ : Type} {w n : ℕ} {sys : Workers σ χ} {spec : ReportSpec w} {params : Params}
  {figure : List (BitVec w) → BitVec w} {s s' : Bench σ w} {event : Event χ}

/-- Under strict priorities the copies of a snapshot reporter are the current counters, because a
reporter that has begun to copy outranks the workers until it sleeps again. -/
structure Consistent (sys : Workers σ χ) (n : ℕ) (s : Bench σ w) : Prop where
  snapshot : s.reporter.SnapshotOf n (words w (sys.counters s.workers))
  running : s.reporter.Committed → sys.outranked s.workers = true

/-- Every step of a strict benchmark keeps the snapshot consistent. -/
theorem Consistent.next (h : Consistent sys n s) (hspec : spec.criterion = .balance n figure)
    (hpos : 0 < n) (hnext : next sys spec params .strict s event = some s') :
    Consistent sys n s' := by
  rcases next_cases hnext with ⟨choice, workers, -, hmay, -, rfl⟩ | ⟨reporter, -, hmay, hrep, rfl⟩ |
    ⟨-, -, rfl⟩
  · have hidle : ¬ s.reporter.Committed := by
      intro hc
      have hawake : s.reporter.pc ≠ .asleep := by
        intro hpc
        simp [Reporter.Committed, hpc] at hc
      exact absurd (h.running hc) (by simp [hmay.2 rfl hawake])
    exact ⟨h.snapshot.of_not_committed hidle _, fun hc ↦ absurd hc hidle⟩
  · exact ⟨h.snapshot.next hspec hpos hrep, fun _ ↦ hmay rfl⟩
  · exact ⟨trivial, False.elim⟩

/-- If the true counts are balanced in every state reached, a strict run of a snapshot reporter
prints no ERROR line as long as the sum of the counters fits into the word. -/
theorem no_error_while_sum_fits {allowed : Bench σ w → Event χ → Prop} {start : σ}
    (hspec : spec.criterion = .balance n figure) (htwo : 2 ≤ n) (hword : n < 2 ^ w)
    (hlen : ∀ x, (sys.counters x).length = n)
    (hmono : ∀ x choice x', sys.next x choice = some x' →
      (sys.counters x).sum ≤ (sys.counters x').sum)
    (hbal : ∀ t, ReachableWhere (next sys spec params .strict) allowed ⟨start, .start⟩ t →
      Balanced (sys.counters t.workers))
    (hreach : ReachableWhere (next sys spec params .strict) allowed ⟨start, .start⟩ s)
    (hsum : (sys.counters s.workers).sum < 2 ^ w) : Line.error ∉ s.reporter.output := by
  suffices h : Consistent sys n s ∧
      ((sys.counters s.workers).sum < 2 ^ w → Line.error ∉ s.reporter.output) from h.2 hsum
  clear hsum
  induction hreach with
  | refl => exact ⟨⟨trivial, False.elim⟩, fun _ ↦ by simp [Reporter.start]⟩
  | @tail state _ event hstate _ hnext ih =>
      refine ⟨ih.1.next hspec (by omega) hnext, fun hsum herror ↦ ?_⟩
      rcases next_cases hnext with ⟨choice, workers, -, -, hwork, rfl⟩ |
        ⟨reporter, -, -, hrep, rfl⟩ | ⟨-, -, rfl⟩
      · exact ih.2 (lt_of_le_of_lt (hmono _ _ _ hwork) hsum) herror
      · rcases Reporter.error_of_next hspec hrep herror with hold | ⟨hcheck, hinvalid⟩
        · exact ih.2 hsum hold
        · have hcopy : state.reporter.snapshot = words w (sys.counters state.workers) := by
            have h := ih.1.snapshot
            simp only [Reporter.SnapshotOf, hcheck] at h
            rw [h, List.take_of_length_le (by rw [words_length, hlen])]
          have hsilent := invalid_counters_of_sum_lt (hbal _ hstate)
            (by rw [hlen]; exact htwo) (by rw [hlen]; exact hword) hsum
          rw [hcopy, hsilent] at hinvalid
          exact Bool.false_ne_true hinvalid
      · exact ih.2 (by rwa [sys.counters_preempted] at hsum) herror

end Bench

/-! ## Reports on workers that no longer run -/

namespace Reporter

variable {w : ℕ} {spec : ReportSpec w} {params : Params} {values : List (BitVec w)}
  {r r' : Reporter w}

/-- What the reporter remembers of the counters are the given values: the counter stored at the
end of the previous report, or the copies made so far. At `save` it is about to be so. -/
def UpToDate (criterion : Criterion w) (values : List (BitVec w)) (r : Reporter w) : Prop :=
  r.pc = .save ∨
    match criterion with
    | .progress => values.head? = some r.last
    | .balance n _ => r.SnapshotOf n values

/-- A single-counter reporter stores the counter it reads and keeps it until the next report. -/
theorem UpToDate.next_progress (h : r.UpToDate .progress values)
    (hspec : spec.criterion = .progress) (hnext : r.next spec params values = some r') :
    r'.UpToDate .progress values := by
  refine .inr ?_
  unfold Reporter.next at hnext
  cases hpc : r.pc with
  | save =>
      simp only [hpc, hspec, Option.bind_eq_bind, Option.bind_eq_some_iff, Option.pure_def,
        Option.some.injEq] at hnext
      obtain ⟨c, hc, rfl⟩ := hnext
      exact hc
  | check =>
      simp only [hpc, hspec, Option.bind_eq_bind, Option.bind_eq_some_iff, Option.pure_def,
        Option.some.injEq] at hnext
      obtain ⟨c, hc, rfl⟩ := hnext
      have hlast := h.resolve_left (by simp [hpc])
      cases hsame : c == r.last <;> simpa [report, print] using hlast
  | printTotal =>
      simp only [hpc, hspec, Option.bind_eq_bind, Option.bind_eq_some_iff, Option.pure_def,
        Option.some.injEq] at hnext
      obtain ⟨c, hc, rfl⟩ := hnext
      exact h.resolve_left (by simp [hpc])
  | asleep | exited => simp [hpc] at hnext
  | read k => simp [hpc, hspec] at hnext
  | _ =>
      simp only [hpc, hspec, Option.some.injEq] at hnext
      subst hnext
      exact h.resolve_left (by simp [hpc])

/-- A reporter that reads the same values again stays up to date. -/
theorem UpToDate.next (h : r.UpToDate spec.criterion values)
    (hpos : ∀ n figure, spec.criterion = .balance n figure → 0 < n)
    (hnext : r.next spec params values = some r') : r'.UpToDate spec.criterion values := by
  cases hspec : spec.criterion with
  | progress =>
      rw [hspec] at h
      exact h.next_progress hspec hnext
  | balance n figure =>
      rw [hspec] at h
      rcases h with hsave | hcopies
      · simp only [Reporter.next, hsave, hspec, Option.some.injEq] at hnext
        subst hnext
        exact .inr trivial
      · exact .inr (SnapshotOf.next hcopies hspec (hpos n figure hspec) hnext)

/-- What the check of an up-to-date reporter finds: no progress, or the outcome of the tolerance
check on the values. -/
def verdict (criterion : Criterion w) (values : List (BitVec w)) : Bool :=
  match criterion with
  | .progress => true
  | .balance n _ => invalidCounters (values.take n)

/-- The check of an up-to-date reporter depends on the values only. -/
theorem UpToDate.check (h : r.UpToDate spec.criterion values) (hpc : r.pc = .check) :
    r.next spec params values = some (r.report (verdict spec.criterion values)) := by
  have hremembered := h.resolve_left (by simp [hpc])
  cases hspec : spec.criterion with
  | progress =>
      rw [hspec] at hremembered
      have hlast : values.head? = some r.last := hremembered
      simp [Reporter.next, hpc, hspec, hlast, verdict]
  | balance n figure =>
      rw [hspec] at hremembered
      have hcopies : r.snapshot = values.take n := by
        simpa only [SnapshotOf, hpc] using hremembered
      simp [Reporter.next, hpc, hspec, hcopies, verdict]

end Reporter

namespace Bench

variable {σ χ : Type} {w : ℕ} {sys : Workers σ χ} {spec : ReportSpec w} {params : Params}
  {policy : Policy} {s s' : Bench σ w}

/-- If the workers can take no more step when the reporter is about to save what it has read, then
later they are unchanged and the reporter remembers their counters. -/
theorem up_to_date_of_stopped (hpos : ∀ n figure, spec.criterion = .balance n figure → 0 < n)
    (hstopped : ∀ choice, sys.next s.workers choice = none) (hsave : s.reporter.pc = .save)
    (hlater : Reachable (next sys spec params policy) s s') :
    s'.workers = s.workers ∧
      s'.reporter.UpToDate spec.criterion (words w (sys.counters s.workers)) := by
  induction hlater with
  | refl => exact ⟨rfl, .inl hsave⟩
  | tail event _ _ hnext ih =>
      obtain ⟨hworkers, hdate⟩ := ih
      rcases next_cases hnext with ⟨choice, workers, -, -, hwork, rfl⟩ |
        ⟨reporter, -, -, hrep, rfl⟩ | ⟨-, hasleep, rfl⟩
      · rw [hworkers, hstopped] at hwork
        cases hwork
      · rw [hworkers] at hrep
        exact ⟨hworkers, hdate.next hpos hrep⟩
      · have hkept : sys.preempted s.workers = s.workers := by
          refine (sys.preempted_cases s.workers).resolve_right ?_
          rintro ⟨choice, hmoved⟩
          rw [hstopped] at hmoved
          cases hmoved
        have hremembered := hdate.resolve_left (by simp [hasleep])
        refine ⟨by rw [hworkers, hkept], .inr ?_⟩
        cases hspec : spec.criterion with
        | progress => simpa only [hspec] using hremembered
        | balance n figure => trivial

end Bench

end ThreadMetric.Report
