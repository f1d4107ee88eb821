import ThreadMetric.Report.Benchmark

/-!
# What a reporter prints

`Reporter.Step` lists everything that one step of a reporter can do. From it follow the invariants
that all eight reporters share: the printed relative times are the multiples of the duration, every
report prints one header and one total, and the totals printed so far add up to the figure that the
reporter remembers. `Scheduled` relates the loop index and the control point to the number of steps
the reporter has taken, which fixes when a bounded run reaches `tm_report_finish`.
-/

namespace ThreadMetric.Report

open Counts Transition

variable {w : ℕ}

namespace Reporter

/-- The relative times in the headers printed so far. -/
def headers (r : Reporter w) : List (BitVec w) :=
  r.output.filterMap fun
    | .header time => some time
    | _ => none

/-- The period totals printed so far. -/
def totals (r : Reporter w) : List (BitVec w) :=
  r.output.filterMap fun
    | .periodTotal value => some value
    | _ => none

/-- The reporter has printed the header of a report and not yet its total. -/
def InReport (r : Reporter w) : Prop :=
  match r.pc with
  | .read _ | .check | .printTotal => True
  | _ => False

instance (r : Reporter w) : Decidable r.InReport := by
  unfold InReport
  split <;> infer_instance

end Reporter

/-- How many counters a report copies. -/
def Criterion.reads : Criterion w → ℕ
  | .progress => 0
  | .balance n _ => n

namespace Reporter

/-- What a step of a reporter that reads `values` does. The two kinds of reporters differ in how
they begin a report, in what they check, and in which figure they print and remember. -/
inductive Step (spec : ReportSpec w) (params : Params) (values : List (BitVec w))
    (r : Reporter w) : Reporter w → Prop where
  | enter (hpc : r.pc = .loopTest) (hgo : params.cycles = 0 ∨ r.cycle < params.cycles) :
      Step spec params values r { r with pc := .sleep }
  | leave (hpc : r.pc = .loopTest) (hbounded : params.cycles ≠ 0)
      (hdone : params.cycles ≤ r.cycle) : Step spec params values r { r with pc := .finish }
  | sleep (hpc : r.pc = .sleep) : Step spec params values r { r with pc := .asleep }
  | addTime (hpc : r.pc = .addTime) :
      Step spec params values r
        { r with
          relativeTime := r.relativeTime + BitVec.ofNat w params.duration
          pc := .printHeader }
  | header (hpc : r.pc = .printHeader) (hspec : spec.criterion = .progress) :
      Step spec params values r (r.print (.header r.relativeTime) .check)
  | headerSnapshot {n : ℕ} {figure : List (BitVec w) → BitVec w} (hpc : r.pc = .printHeader)
      (hspec : spec.criterion = .balance n figure) :
      Step spec params values r
        { r.print (.header r.relativeTime) (.read 0) with snapshot := [] }
  | read {n : ℕ} {figure : List (BitVec w) → BitVec w} {k : ℕ} {c : BitVec w}
      (hpc : r.pc = .read k) (hspec : spec.criterion = .balance n figure)
      (hread : values[k]? = some c) :
      Step spec params values r
        { r with
          snapshot := r.snapshot ++ [c]
          pc := if k + 1 < n then .read (k + 1) else .check }
  | checkProgress {c : BitVec w} (hpc : r.pc = .check) (hspec : spec.criterion = .progress)
      (hread : values.head? = some c) : Step spec params values r (r.report (c == r.last))
  | checkBalance {n : ℕ} {figure : List (BitVec w) → BitVec w} (hpc : r.pc = .check)
      (hspec : spec.criterion = .balance n figure) :
      Step spec params values r (r.report (invalidCounters r.snapshot))
  | totalProgress {c : BitVec w} (hpc : r.pc = .printTotal) (hspec : spec.criterion = .progress)
      (hread : values.head? = some c) :
      Step spec params values r (r.print (.periodTotal (c - r.last)) .save)
  | totalBalance {n : ℕ} {figure : List (BitVec w) → BitVec w} (hpc : r.pc = .printTotal)
      (hspec : spec.criterion = .balance n figure) :
      Step spec params values r (r.print (.periodTotal (figure r.snapshot - r.last)) .save)
  | saveProgress {c : BitVec w} (hpc : r.pc = .save) (hspec : spec.criterion = .progress)
      (hread : values.head? = some c) :
      Step spec params values r { r with last := c, pc := .advance }
  | saveBalance {n : ℕ} {figure : List (BitVec w) → BitVec w} (hpc : r.pc = .save)
      (hspec : spec.criterion = .balance n figure) :
      Step spec params values r { r with last := figure r.snapshot, pc := .advance }
  | advance (hpc : r.pc = .advance) :
      Step spec params values r
        { r with cycle := if params.cycles = 0 then r.cycle else r.cycle + 1, pc := .loopTest }
  | finish (hpc : r.pc = .finish) : Step spec params values r { r with pc := .exited }

variable {spec : ReportSpec w} {params : Params} {values : List (BitVec w)} {r r' : Reporter w}

/-- `Step` is what the reporter executes. -/
theorem step_of_next (h : r.next spec params values = some r') : Step spec params values r r' := by
  unfold Reporter.next at h
  cases hpc : r.pc with
  | loopTest =>
      simp only [hpc, Option.some.injEq] at h
      subst h
      by_cases hgo : params.cycles = 0 ∨ r.cycle < params.cycles
      · rw [if_pos hgo]
        exact .enter hpc hgo
      · rw [if_neg hgo]
        exact .leave hpc (fun hzero ↦ hgo (.inl hzero)) (by omega)
  | sleep =>
      simp only [hpc, Option.some.injEq] at h
      subst h
      exact .sleep hpc
  | asleep | exited => simp [hpc] at h
  | addTime =>
      simp only [hpc, Option.some.injEq] at h
      subst h
      exact .addTime hpc
  | advance =>
      simp only [hpc, Option.some.injEq] at h
      subst h
      exact .advance hpc
  | finish =>
      simp only [hpc, Option.some.injEq] at h
      subst h
      exact .finish hpc
  | printHeader =>
      cases hspec : spec.criterion with
      | progress =>
          simp only [hpc, hspec, Option.some.injEq] at h
          subst h
          exact .header hpc hspec
      | balance n figure =>
          simp only [hpc, hspec, Option.some.injEq] at h
          subst h
          exact .headerSnapshot hpc hspec
  | read k =>
      cases hspec : spec.criterion with
      | progress => simp [hpc, hspec] at h
      | balance n figure =>
          simp only [hpc, hspec, Option.bind_eq_bind, Option.bind_eq_some_iff, Option.pure_def,
            Option.some.injEq] at h
          obtain ⟨c, hread, rfl⟩ := h
          exact .read hpc hspec hread
  | check =>
      cases hspec : spec.criterion with
      | progress =>
          simp only [hpc, hspec, Option.bind_eq_bind, Option.bind_eq_some_iff, Option.pure_def,
            Option.some.injEq] at h
          obtain ⟨c, hread, rfl⟩ := h
          exact .checkProgress hpc hspec hread
      | balance n figure =>
          simp only [hpc, hspec, Option.some.injEq] at h
          subst h
          exact .checkBalance hpc hspec
  | printTotal =>
      cases hspec : spec.criterion with
      | progress =>
          simp only [hpc, hspec, Option.bind_eq_bind, Option.bind_eq_some_iff, Option.pure_def,
            Option.some.injEq] at h
          obtain ⟨c, hread, rfl⟩ := h
          exact .totalProgress hpc hspec hread
      | balance n figure =>
          simp only [hpc, hspec, Option.some.injEq] at h
          subst h
          exact .totalBalance hpc hspec
  | save =>
      cases hspec : spec.criterion with
      | progress =>
          simp only [hpc, hspec, Option.bind_eq_bind, Option.bind_eq_some_iff, Option.pure_def,
            Option.some.injEq] at h
          obtain ⟨c, hread, rfl⟩ := h
          exact .saveProgress hpc hspec hread
      | balance n figure =>
          simp only [hpc, hspec, Option.some.injEq] at h
          subst h
          exact .saveBalance hpc hspec

/-- A reporter is stuck only in its sleep and at its end. -/
theorem exists_next (hawake : r.pc ≠ .asleep) (hrunning : r.pc ≠ .exited)
    (hreads : ∀ k, r.pc = .read k →
      ∃ n figure, spec.criterion = .balance n figure ∧ k < values.length)
    (hvalues : values ≠ []) : ∃ r', r.next spec params values = some r' := by
  obtain ⟨c, cs, rfl⟩ := List.exists_cons_of_ne_nil hvalues
  unfold Reporter.next
  cases hpc : r.pc with
  | asleep => exact absurd hpc hawake
  | exited => exact absurd hpc hrunning
  | read k =>
      obtain ⟨n, figure, hspec, hk⟩ := hreads k hpc
      simp [hspec, List.getElem?_eq_getElem hk]
  | printHeader | check | printTotal | save => cases hspec : spec.criterion <;> simp
  | _ => simp

@[simp] theorem headers_print_header (time : BitVec w) (pc : Pc) :
    (r.print (.header time) pc).headers = r.headers ++ [time] := by
  simp [headers, print]

@[simp] theorem headers_print_total (value : BitVec w) (pc : Pc) :
    (r.print (.periodTotal value) pc).headers = r.headers := by
  simp [headers, print]

@[simp] theorem totals_print_header (time : BitVec w) (pc : Pc) :
    (r.print (.header time) pc).totals = r.totals := by
  simp [totals, print]

@[simp] theorem totals_print_total (value : BitVec w) (pc : Pc) :
    (r.print (.periodTotal value) pc).totals = r.totals ++ [value] := by
  simp [totals, print]

@[simp] theorem headers_report (invalid : Bool) : (r.report invalid).headers = r.headers := by
  cases invalid <;> simp [headers, report, print]

@[simp] theorem totals_report (invalid : Bool) : (r.report invalid).totals = r.totals := by
  cases invalid <;> simp [totals, report, print]

@[simp] theorem report_pc (invalid : Bool) : (r.report invalid).pc = .printTotal := by
  cases invalid <;> rfl

@[simp] theorem report_relativeTime (invalid : Bool) :
    (r.report invalid).relativeTime = r.relativeTime := by
  cases invalid <;> rfl

@[simp] theorem report_cycle (invalid : Bool) : (r.report invalid).cycle = r.cycle := by
  cases invalid <;> rfl

@[simp] theorem report_last (invalid : Bool) : (r.report invalid).last = r.last := by
  cases invalid <;> rfl

@[simp] theorem report_snapshot (invalid : Bool) :
    (r.report invalid).snapshot = r.snapshot := by
  cases invalid <;> rfl

/-- The headers show the multiples of the duration, and every report prints one header and one
total. -/
structure Regular (params : Params) (r : Reporter w) : Prop where
  times : r.headers =
    (List.range r.headers.length).map fun j ↦ BitVec.ofNat w ((j + 1) * params.duration)
  relativeTime : r.relativeTime =
    BitVec.ofNat w ((r.headers.length + if r.pc = .printHeader then 1 else 0) * params.duration)
  length : r.headers.length = r.totals.length + if r.InReport then 1 else 0

/-- A reporter that has printed nothing is regular. -/
theorem regular_start : (start : Reporter w).Regular params where
  times := rfl
  relativeTime := by simp [start, headers]
  length := rfl

/-- A step that prints nothing and keeps the relative time keeps the reporter regular, unless it
enters or leaves a report or the moment after the addition. -/
theorem Regular.congr (h : r.Regular params) (houtput : r'.output = r.output)
    (htime : r'.relativeTime = r.relativeTime)
    (hheader : r'.pc = .printHeader ↔ r.pc = .printHeader) (hreport : r'.InReport ↔ r.InReport) :
    r'.Regular params := by
  have hheaders : r'.headers = r.headers := by rw [headers, headers, houtput]
  have htotals : r'.totals = r.totals := by rw [totals, totals, houtput]
  constructor
  · rw [hheaders]
    exact h.times
  · rw [htime, hheaders, if_congr hheader rfl rfl]
    exact h.relativeTime
  · rw [hheaders, htotals, if_congr hreport rfl rfl]
    exact h.length

/-- The header shows the next multiple of the duration. -/
theorem Regular.print_header (h : r.Regular params) (hpc : r.pc = .printHeader) {pc : Pc}
    (hafter : pc = .check ∨ pc = .read 0) :
    (r.print (.header r.relativeTime) pc).Regular params := by
  have htime := h.relativeTime
  have hlength := h.length
  simp only [hpc, if_true] at htime
  simp only [InReport, hpc, if_false, Nat.add_zero] at hlength
  constructor
  · rw [headers_print_header, List.length_append, List.length_singleton, List.range_succ,
      List.map_append, ← h.times, htime]
    rfl
  · have hnot : pc ≠ .printHeader := by rcases hafter with rfl | rfl <;> simp
    show r.relativeTime = _
    rw [headers_print_header, htime, List.length_append, List.length_singleton]
    simp [print, hnot]
  · have hin : (r.print (.header r.relativeTime) pc).InReport := by
      rcases hafter with rfl | rfl <;> trivial
    rw [if_pos hin, headers_print_header, totals_print_header, List.length_append,
      List.length_singleton, hlength]

/-- The total closes a report. -/
theorem Regular.print_total (h : r.Regular params) (hpc : r.pc = .printTotal) (value : BitVec w) :
    (r.print (.periodTotal value) .save).Regular params := by
  have htime := h.relativeTime
  have hlength := h.length
  simp only [hpc, reduceCtorEq, if_false, Nat.add_zero] at htime
  simp only [InReport, hpc, if_true] at hlength
  constructor
  · rw [headers_print_total]
    exact h.times
  · show r.relativeTime = _
    simp [print, htime, headers]
  · rw [headers_print_total, totals_print_total, List.length_append, List.length_singleton, hlength]
    rfl

/-- Every step keeps the reporter regular. -/
theorem Regular.step (h : r.Regular params) (hstep : Step spec params values r r') :
    r'.Regular params := by
  cases hstep with
  | enter hpc | leave hpc | sleep hpc | finish hpc | saveProgress hpc | saveBalance hpc
  | advance hpc => exact h.congr rfl rfl (by simp [hpc]) (by simp [InReport, hpc])
  | addTime hpc =>
      have htime := h.relativeTime
      have hlength := h.length
      simp only [hpc, reduceCtorEq, if_false, Nat.add_zero] at htime
      refine ⟨h.times, ?_, by simpa [InReport, hpc, headers, totals] using hlength⟩
      show r.relativeTime + BitVec.ofNat w params.duration =
        BitVec.ofNat w ((r.headers.length + 1) * params.duration)
      rw [htime, Nat.add_mul, Nat.one_mul, BitVec.ofNat_add]
  | header hpc => exact h.print_header hpc (.inl rfl)
  | headerSnapshot hpc =>
      exact (h.print_header hpc (.inr rfl)).congr rfl rfl (by simp [print])
        (by simp [InReport, print])
  | @read n _ k _ hpc =>
      by_cases hk : k + 1 < n
      · exact h.congr rfl rfl (by simp [hpc, hk]) (by simp [InReport, hpc, hk])
      · exact h.congr rfl rfl (by simp [hpc, hk]) (by simp [InReport, hpc, hk])
  | @checkProgress c hpc =>
      have hlength := h.length
      refine ⟨by simpa using h.times, by simpa [hpc] using h.relativeTime, ?_⟩
      simpa [InReport, hpc] using hlength
  | checkBalance hpc =>
      have hlength := h.length
      refine ⟨by simpa using h.times, by simpa [hpc] using h.relativeTime, ?_⟩
      simpa [InReport, hpc] using hlength
  | totalProgress hpc | totalBalance hpc => exact h.print_total hpc _

/-! ## The sum of the totals -/

/-- The totals printed so far add up to what the reporter remembers. Between the print of a total
and the assignment that follows it they add up to `figure` already. -/
def Books (figure : BitVec w) (r : Reporter w) : Prop :=
  total r.totals = if r.pc = .save then figure else r.last

/-- Adding a value at the end. -/
theorem total_append (values : List (BitVec w)) (value : BitVec w) :
    total (values ++ [value]) = total values + value := by
  simp [total]

/-- Printing the difference between a figure and the remembered one brings the sum to this
figure. -/
theorem Books.print_total {before figure : BitVec w} (h : r.Books before)
    (hpc : r.pc = .printTotal) :
    (r.print (.periodTotal (figure - r.last)) .save).Books figure := by
  have hsum : total r.totals = r.last := by simpa [Books, hpc] using h
  show total (r.print (.periodTotal (figure - r.last)) .save).totals = figure
  rw [totals_print_total, total_append, hsum, BitVec.add_comm, BitVec.sub_add_cancel]

/-- A step that prints no total and assigns nothing keeps the books. -/
theorem Books.congr {before after : BitVec w} (h : r.Books before) (htotals : r'.totals = r.totals)
    (hlast : r'.last = r.last) (hbefore : r.pc ≠ .save) (hafter : r'.pc ≠ .save) :
    r'.Books after := by
  rw [Books, if_neg hbefore] at h
  rw [Books, if_neg hafter, htotals, hlast]
  exact h

/-- A step of a snapshot reporter keeps the books for the figure of its copies. -/
theorem Books.step_balance {n : ℕ} {figure : List (BitVec w) → BitVec w}
    (h : r.Books (figure r.snapshot)) (hspec : spec.criterion = .balance n figure)
    (hstep : Step spec params values r r') : r'.Books (figure r'.snapshot) := by
  cases hstep with
  | enter hpc | leave hpc | sleep hpc | finish hpc | advance hpc | addTime hpc =>
      exact h.congr rfl rfl (by simp [hpc]) (by simp)
  | header _ hprogress | checkProgress _ hprogress | totalProgress _ hprogress
  | saveProgress _ hprogress => simp [hspec] at hprogress
  | headerSnapshot hpc =>
      refine h.congr ?_ rfl (by simp [hpc]) (by simp [print])
      exact totals_print_header r.relativeTime (.read 0)
  | @read m _ k _ hpc =>
      refine h.congr rfl rfl (by simp [hpc]) ?_
      by_cases hk : k + 1 < m <;> simp [hk]
  | checkBalance hpc => exact h.congr (by simp) (by simp) (by simp [hpc]) (by simp)
  | totalBalance hpc hsame =>
      obtain ⟨rfl, rfl⟩ : n = _ ∧ figure = _ := by simpa [hspec] using hsame
      exact h.print_total hpc
  | saveBalance hpc hsame =>
      obtain ⟨rfl, rfl⟩ : n = _ ∧ figure = _ := by simpa [hspec] using hsame
      have hsum : total r.totals = figure r.snapshot := by simpa [Books, hpc] using h
      exact hsum

/-- Between two reports a snapshot reporter remembers the figure of its copies. -/
def Remembers (figure : List (BitVec w) → BitVec w) (r : Reporter w) : Prop :=
  ¬ r.InReport → r.pc ≠ .save → r.last = figure r.snapshot

/-- Every step of a snapshot reporter keeps what it remembers. -/
theorem Remembers.step {n : ℕ} {figure : List (BitVec w) → BitVec w}
    (h : r.Remembers figure) (hspec : spec.criterion = .balance n figure)
    (hstep : Step spec params values r r') : r'.Remembers figure := by
  intro hreport hsave
  cases hstep with
  | enter hpc | leave hpc | sleep hpc | finish hpc | advance hpc | addTime hpc =>
      exact h (by simp [InReport, hpc]) (by simp [hpc])
  | header _ hprogress | checkProgress _ hprogress | totalProgress _ hprogress
  | saveProgress _ hprogress => simp [hspec] at hprogress
  | headerSnapshot => exact absurd trivial hreport
  | @read m _ k _ hpc =>
      refine absurd ?_ hreport
      by_cases hk : k + 1 < m <;> simp [InReport, hk]
  | checkBalance => exact absurd (by simp [InReport]) hreport
  | totalBalance => exact absurd rfl hsave
  | saveBalance _ hsame =>
      obtain ⟨rfl, rfl⟩ : n = _ ∧ figure = _ := by simpa [hspec] using hsame
      rfl

end Reporter

/-! ## The schedule of the steps -/

/-- The position of a control point within a cycle, when a report copies `reads` counters. -/
def Pc.offset (reads : ℕ) : Pc → ℕ
  | .loopTest => 0
  | .sleep => 1
  | .asleep => 2
  | .addTime => 3
  | .printHeader => 4
  | .read k => 5 + k
  | .check => 5 + reads
  | .printTotal => 6 + reads
  | .save => 7 + reads
  | .advance => 8 + reads
  | .finish => 1
  | .exited => 2

namespace Reporter

variable {spec : ReportSpec w} {params : Params} {values : List (BitVec w)} {r r' : Reporter w}

/-- The number of steps the reporter has taken so far when the number of cycles is bounded. -/
def taken (reads : ℕ) (r : Reporter w) : ℕ :=
  r.cycle * (9 + reads) + r.pc.offset reads

/-- The loop index of a bounded reporter stays within the bound, and the reporter prints one total
in each cycle. An unbounded reporter stays in its loop. -/
structure Scheduled (params : Params) (reads : ℕ) (r : Reporter w) : Prop where
  read : ∀ k, r.pc = .read k → k < reads
  inside : params.cycles ≠ 0 →
    if r.pc = .finish ∨ r.pc = .exited then r.cycle = params.cycles
    else if r.pc = .loopTest then r.cycle ≤ params.cycles else r.cycle < params.cycles
  length : params.cycles ≠ 0 →
    r.totals.length = r.cycle + if r.pc = .save ∨ r.pc = .advance then 1 else 0
  endless : params.cycles = 0 → r.pc ≠ .finish ∧ r.pc ≠ .exited

/-- A reporter that has printed nothing is on schedule. -/
theorem scheduled_start (reads : ℕ) : (start : Reporter w).Scheduled params reads where
  read k hpc := by cases hpc
  inside _ := Nat.zero_le _
  length _ := rfl
  endless _ := ⟨nofun, nofun⟩

/-- A step to the next point within a cycle keeps the reporter on schedule. -/
theorem Scheduled.congr {reads : ℕ} (h : r.Scheduled params reads) (hcycle : r'.cycle = r.cycle)
    (hlength : r'.totals.length = r.totals.length)
    (hbefore : r.pc ≠ .finish ∧ r.pc ≠ .exited ∧ r.pc ≠ .loopTest ∧ r.pc ≠ .save ∧ r.pc ≠ .advance)
    (hafter : r'.pc ≠ .finish ∧ r'.pc ≠ .exited ∧ r'.pc ≠ .loopTest ∧ r'.pc ≠ .save ∧
      r'.pc ≠ .advance) (hread : ∀ k, r'.pc = .read k → k < reads) :
    r'.Scheduled params reads where
  read := hread
  inside hbounded := by
    have hlt := h.inside hbounded
    simp only [hbefore, hafter, or_self, if_false] at hlt ⊢
    rwa [hcycle]
  length hbounded := by
    have hsame := h.length hbounded
    simp only [hbefore, hafter, or_self, if_false] at hsame ⊢
    rwa [hlength, hcycle]
  endless _ := ⟨hafter.1, hafter.2.1⟩

/-- Every step keeps the reporter on schedule. -/
theorem Scheduled.step (h : r.Scheduled params spec.criterion.reads)
    (hpos : ∀ n figure, spec.criterion = .balance n figure → 0 < n)
    (hstep : Step spec params values r r') : r'.Scheduled params spec.criterion.reads := by
  cases hstep with
  | enter hpc hgo =>
      refine ⟨by simp, fun hbounded ↦ ?_, fun hbounded ↦ ?_, fun _ ↦ by simp⟩
      · simpa [hbounded] using hgo
      · show r.totals.length = r.cycle
        simpa [hpc] using h.length hbounded
  | leave hpc hbounded hdone =>
      refine ⟨by simp, fun _ ↦ ?_, fun _ ↦ ?_, fun hzero ↦ absurd hzero hbounded⟩
      · have hle : r.cycle ≤ params.cycles := by simpa [hpc] using h.inside hbounded
        simpa using Nat.le_antisymm hle hdone
      · show r.totals.length = r.cycle
        simpa [hpc] using h.length hbounded
  | sleep hpc => exact h.congr rfl rfl (by simp [hpc]) (by simp) (by simp)
  | addTime hpc => exact h.congr rfl rfl (by simp [hpc]) (by simp) (by simp)
  | header hpc =>
      refine h.congr rfl ?_ (by simp [hpc]) (by simp [print]) (by simp [print])
      rw [totals_print_header]
  | @headerSnapshot n figure hpc hspec =>
      refine h.congr rfl ?_ (by simp [hpc]) (by simp [print]) fun k hk ↦ ?_
      · show (r.print (.header r.relativeTime) (.read 0)).totals.length = _
        rw [totals_print_header]
      · obtain rfl : 0 = k := by simpa [print] using hk
        simpa [Criterion.reads, hspec] using hpos n figure hspec
  | @read n _ k _ hpc hspec =>
      by_cases hk : k + 1 < n
      · refine h.congr rfl rfl (by simp [hpc]) (by simp [hk]) fun j hj ↦ ?_
        obtain rfl : k + 1 = j := by simpa [hk] using hj
        simpa [Criterion.reads, hspec] using hk
      · exact h.congr rfl rfl (by simp [hpc]) (by simp [hk]) (by simp [hk])
  | checkProgress hpc => exact h.congr (by simp) (by simp) (by simp [hpc]) (by simp) (by simp)
  | checkBalance hpc => exact h.congr (by simp) (by simp) (by simp [hpc]) (by simp) (by simp)
  | totalProgress hpc | totalBalance hpc =>
      refine ⟨by simp [print], fun hbounded ↦ ?_, fun hbounded ↦ ?_, fun _ ↦ by simp [print]⟩
      · simpa [hpc, print] using h.inside hbounded
      · have hsame : r.totals.length = r.cycle := by simpa [hpc] using h.length hbounded
        rw [totals_print_total, List.length_append, hsame]
        rfl
  | saveProgress hpc | saveBalance hpc =>
      refine ⟨by simp, fun hbounded ↦ ?_, fun hbounded ↦ ?_, fun _ ↦ by simp⟩
      · simpa [hpc] using h.inside hbounded
      · show r.totals.length = r.cycle + 1
        simpa [hpc] using h.length hbounded
  | advance hpc =>
      refine ⟨by simp, fun hbounded ↦ ?_, fun hbounded ↦ ?_, fun _ ↦ by simp⟩
      · have hlt : r.cycle < params.cycles := by simpa [hpc] using h.inside hbounded
        simpa [hbounded] using Nat.succ_le_of_lt hlt
      · rw [if_neg hbounded]
        show r.totals.length = r.cycle + 1
        simpa [hpc] using h.length hbounded
  | finish hpc =>
      refine ⟨by simp, fun hbounded ↦ ?_, fun hbounded ↦ ?_, fun hzero ↦ ?_⟩
      · simpa [hpc] using h.inside hbounded
      · show r.totals.length = r.cycle
        simpa [hpc] using h.length hbounded
      · exact absurd hpc (h.endless hzero).1

/-- Every step of a bounded reporter counts. -/
theorem taken_step (h : r.Scheduled params spec.criterion.reads)
    (hbounded : params.cycles ≠ 0)
    (hstep : Step spec params values r r') :
    r'.taken spec.criterion.reads = r.taken spec.criterion.reads + 1 := by
  cases hstep with
  | @read n _ k _ hpc hspec =>
      have hreads : spec.criterion.reads = n := by rw [hspec]; rfl
      have hk : k < n := hreads ▸ h.read k hpc
      by_cases hlast : k + 1 < n
      · simp [taken, hpc, hlast, Pc.offset]
        omega
      · simp [taken, hpc, hlast, Pc.offset, hreads]
        omega
  | header hpc hspec => simp [taken, hpc, print, Pc.offset, hspec, Criterion.reads]
  | advance hpc =>
      simp [taken, hpc, hbounded, Pc.offset, Nat.add_mul]
      omega
  | checkProgress hpc | checkBalance hpc | totalProgress hpc | totalBalance hpc
  | saveProgress hpc | saveBalance hpc =>
      simp [taken, hpc, print, Pc.offset]
      omega
  | _ hpc => simp [taken, hpc, print, Pc.offset]

/-- The end of the sleep is a step of the schedule. -/
theorem Scheduled.wake {reads : ℕ} (h : r.Scheduled params reads) (hpc : r.pc = .asleep) :
    ({ r with pc := .addTime } : Reporter w).Scheduled params reads ∧
      ({ r with pc := .addTime } : Reporter w).taken reads = r.taken reads + 1 :=
  ⟨h.congr rfl rfl (by simp [hpc]) (by simp) nofun, by simp [taken, hpc, Pc.offset]⟩

/-- The points of a bounded schedule at which the program ends. -/
theorem Scheduled.finished (h : r.Scheduled params spec.criterion.reads)
    (hbounded : params.cycles ≠ 0) :
    r.taken spec.criterion.reads ≤ params.cycles * (9 + spec.criterion.reads) + 2 ∧
    (r.pc = .finish ↔
      r.taken spec.criterion.reads = params.cycles * (9 + spec.criterion.reads) + 1) ∧
    (r.pc = .exited ↔
      r.taken spec.criterion.reads = params.cycles * (9 + spec.criterion.reads) + 2) := by
  have hinside := h.inside hbounded
  generalize hreads : spec.criterion.reads = reads at *
  by_cases hend : r.pc = .finish ∨ r.pc = .exited
  · rw [if_pos hend] at hinside
    rcases hend with hpc | hpc <;> simp [taken, hpc, hinside, Pc.offset]
  -- within the loop a whole cycle is still to come, or the loop index has just reached the bound
  · rw [if_neg hend] at hinside
    have hnot : r.pc ≠ .finish ∧ r.pc ≠ .exited := not_or.mp hend
    have hlt : r.taken reads < params.cycles * (9 + reads) + 1 := by
      by_cases htest : r.pc = .loopTest
      · rw [if_pos htest] at hinside
        have hmul := Nat.mul_le_mul_right (9 + reads) hinside
        simp only [taken, htest, Pc.offset]
        omega
      · rw [if_neg htest] at hinside
        have hmul := Nat.mul_le_mul_right (9 + reads) (Nat.succ_le_of_lt hinside)
        rw [Nat.succ_mul] at hmul
        have hoffset : r.pc.offset reads < 9 + reads := by
          cases hpc : r.pc with
          | read k =>
              have := h.read k hpc
              simp only [Pc.offset]
              omega
          | finish | exited => simp [hpc] at hnot
          | _ => simp only [Pc.offset]; omega
        simp only [taken]
        omega
    simp only [hnot.1, hnot.2, false_iff]
    omega

end Reporter

/-! ## Reporters in a benchmark -/

/-- The event is a step of the reporter or the end of its sleep. -/
def Event.ofReporter {χ : Type} : Event χ → Bool
  | .work _ => false
  | .report | .wake => true

namespace Bench

variable {σ χ : Type} {sys : Workers σ χ} {spec : ReportSpec w} {params : Params}
  {policy : Policy} {s s' : Bench σ w} {event : Event χ} {start : σ}

/-- What a step of the benchmark does to the reporter. -/
theorem reporter_cases (h : next sys spec params policy s event = some s') :
    (event.ofReporter = false ∧ s'.reporter = s.reporter) ∨
    (event.ofReporter = true ∧ s'.workers = s.workers ∧
      Reporter.Step spec params (words w (sys.counters s.workers)) s.reporter s'.reporter) ∨
    (event.ofReporter = true ∧ s'.workers = sys.preempted s.workers ∧ s.reporter.pc = .asleep ∧
      s'.reporter = { s.reporter with pc := .addTime }) := by
  rcases next_cases h with ⟨_, _, rfl, -, -, rfl⟩ | ⟨_, rfl, -, hrep, rfl⟩ | ⟨rfl, hpc, rfl⟩
  · exact .inl ⟨rfl, rfl⟩
  · exact .inr (.inl ⟨rfl, rfl, Reporter.step_of_next hrep⟩)
  · exact .inr (.inr ⟨rfl, rfl, hpc, rfl⟩)

/-- A property of the reporter alone that its steps and the end of its sleep preserve. -/
theorem reporter_invariant (holds : Reporter w → Prop) (hstart : holds .start)
    (hstep : ∀ values r r', holds r → Reporter.Step spec params values r r' → holds r')
    (hwake : ∀ r : Reporter w, holds r → r.pc = .asleep → holds { r with pc := .addTime })
    {allowed : Bench σ w → Event χ → Prop}
    (hreach : ReachableWhere (next sys spec params policy) allowed ⟨start, .start⟩ s) :
    holds s.reporter := by
  refine hreach.invariant (fun s ↦ holds s.reporter) hstart ?_
  intro state event finish h _ hnext
  rcases reporter_cases hnext with ⟨-, hsame⟩ | ⟨-, -, hrep⟩ | ⟨-, -, hpc, hsame⟩
  · exact hsame ▸ h
  · exact hstep _ _ _ h hrep
  · exact hsame ▸ hwake _ h hpc

/-- The reporter is regular in every state reached. -/
theorem regular_of_reachable {allowed : Bench σ w → Event χ → Prop}
    (hreach : ReachableWhere (next sys spec params policy) allowed ⟨start, .start⟩ s) :
    s.reporter.Regular params :=
  reporter_invariant _ Reporter.regular_start (fun _ _ _ h hstep ↦ h.step hstep)
    (fun _ h hpc ↦ h.congr rfl rfl (by simp [hpc]) (by simp [Reporter.InReport, hpc])) hreach

/-- The reporter is on schedule in every state reached. -/
theorem scheduled_of_reachable
    (hpos : ∀ n figure, spec.criterion = .balance n figure → 0 < n)
    {allowed : Bench σ w → Event χ → Prop}
    (hreach : ReachableWhere (next sys spec params policy) allowed ⟨start, .start⟩ s) :
    s.reporter.Scheduled params spec.criterion.reads :=
  reporter_invariant _ (Reporter.scheduled_start _) (fun _ _ _ h hstep ↦ h.step hpos hstep)
    (fun _ h hpc ↦ (h.wake hpc).1) hreach

/-- The steps of a bounded reporter and the end of each of its sleeps are counted. -/
theorem taken_of_run (hpos : ∀ n figure, spec.criterion = .balance n figure → 0 < n)
    (hbounded : params.cycles ≠ 0) {events : List (Event χ)}
    (hrun : run (next sys spec params policy) events ⟨start, .start⟩ = some s) :
    s.reporter.taken spec.criterion.reads = events.countP Event.ofReporter := by
  suffices h : s.reporter.Scheduled params spec.criterion.reads ∧
      s.reporter.taken spec.criterion.reads = events.countP Event.ofReporter from h.2
  refine run_history (fun events s ↦ s.reporter.Scheduled params spec.criterion.reads ∧
      s.reporter.taken spec.criterion.reads = events.countP Event.ofReporter)
    ⟨Reporter.scheduled_start _, ?_⟩ ?_ hrun
  · simp [Reporter.taken, Reporter.start, Pc.offset]
  · intro events state event finish h hnext
    rw [List.countP_append, List.countP_singleton, ← h.2]
    rcases reporter_cases hnext with ⟨hworker, hsame⟩ | ⟨hreporter, -, hstep⟩ |
      ⟨hreporter, -, hpc, hsame⟩
    · rw [hsame, hworker]
      exact ⟨h.1, rfl⟩
    · rw [hreporter]
      exact ⟨h.1.step hpos hstep, Reporter.taken_step h.1 hbounded hstep⟩
    · rw [hsame, hreporter]
      exact h.1.wake hpc

/-- A reporter that has not ended can always go on, unless a worker outranks it. -/
theorem exists_reporter_step (hpolicy : policy = .interleaved ∨ ∀ x, sys.outranked x = true)
    (hreads : ∀ k, s.reporter.pc = .read k →
      ∃ n figure, spec.criterion = .balance n figure ∧ k < (sys.counters s.workers).length)
    (hcounter : sys.counters s.workers ≠ []) (hrunning : s.reporter.pc ≠ .exited) :
    ∃ event s', event.ofReporter = true ∧ next sys spec params policy s event = some s' := by
  by_cases hasleep : s.reporter.pc = .asleep
  · exact ⟨.wake, ⟨sys.preempted s.workers, { s.reporter with pc := .addTime }⟩, rfl,
      by simp [next, Reporter.wake, hasleep]⟩
  · have hmay : mayReport sys policy s := by
      rcases hpolicy with rfl | hrank
      · exact fun hstrict ↦ by cases hstrict
      · exact fun _ ↦ hrank s.workers
    obtain ⟨r', hr'⟩ : ∃ r', s.reporter.next spec params (words w (sys.counters s.workers)) =
        some r' :=
      Reporter.exists_next hasleep hrunning (by simpa using hreads)
        (by simpa [words] using hcounter)
    exact ⟨.report, { s with reporter := r' }, rfl, by simp [next, hmay, hr']⟩

/-- The run from `start` to the last state has taken a step of the reporter in `t`. -/
def Took (step : Bench σ w → Event χ → Option (Bench σ w)) (start t s : Bench σ w) : Prop :=
  Reachable step start t ∧ ∃ t', step t .report = some t' ∧ Reachable step t' s

/-- A step of the reporter at the end of a run is one that the run has taken. -/
theorem Took.last {step : Bench σ w → Event χ → Option (Bench σ w)} {start s s' : Bench σ w}
    (hreach : Reachable step start s) (hnext : step s .report = some s') : Took step start s s' :=
  ⟨hreach, s', hnext, .refl⟩

/-- A longer run has taken the same steps. -/
theorem Took.tail {step : Bench σ w → Event χ → Option (Bench σ w)} {start t s s' : Bench σ w}
    (h : Took step start t s) (hnext : step s event = some s') : Took step start t s' := by
  obtain ⟨hreach, t', hstep, hlater⟩ := h
  exact ⟨hreach, t', hstep, hlater.tail event trivial hnext⟩

end Bench

end ThreadMetric.Report
