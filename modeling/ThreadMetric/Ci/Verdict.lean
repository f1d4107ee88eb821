import ThreadMetric.Ci.Aggregate

/-!
# From a detected error to the overall verdict

A reporter that finds its counters wrong prints an ERROR line. `ErrorsReachVerdict` asks that every
stage counts a test with such a line as failed: the check loop, the collection of its job's results
and the summary of all jobs. The loop looks for nothing but a period total, which the reporters
print after their ERROR line as well, so `errors_reach_verdict_iff` holds only for tests that print
no total besides.
-/

namespace ThreadMetric.Ci

open Shell CStrings

/-- A job of the workflow: the arguments of `collect_data`, the tests of its check loop, and what
its results directory held before. -/
structure Job where
  rtos : List Char
  target : List Char
  runnerOs : List Char
  tests : List Test
  dir : ResultDir

/-- The results of the job: the check loop and then `collect_data` on its output. -/
def Job.results (job : Job) : ResultDir :=
  collectData job.rtos job.target job.runnerOs (commandSubstitution (runCheckLoop job.tests))
    job.dir

/-- The test's results have a record of it with the given status. -/
def Job.Records (job : Job) (t : Test) (status : Status) : Prop :=
  ∃ data, job.results.testsData = some data ∧ t.basename ++ "=".toList ++ status.text ∈ data

/-- The test's output has an ERROR line of a report. -/
def Test.ReportsError (t : Test) : Prop :=
  ∃ line ∈ t.output.splitOn '\n', "ERROR:".toList <+: line

/-- Every stage counts the test as failed: the loop when it comes to it, the results of its job, and
the summary of all jobs. The test stands behind `before` in the tests of its job. -/
structure CountedFailed (env : Environment) (jobs : List Job) (job : Job) (before : List Test)
    (t : Test) : Prop where
  counted : (checkTests (before ++ [t])).failed = (checkTests before).failed + 1
  recorded : job.Records t .failed
  jobFailed : job.results.status = some (Status.failed.text ++ ['\n'])
  overall : getValue "summary".toList "status".toList (aggregate env (jobs.map Job.results)) =
    some Status.failed.text

/-- Detected errors reach the verdict. -/
def ErrorsReachVerdict (env : Environment) (jobs : List Job) : Prop :=
  ∀ job ∈ jobs, ∀ before t after, job.tests = before ++ t :: after → t.ReportsError →
    CountedFailed env jobs job before t

/-- Lines are appended behind those that the file holds. -/
theorem fold_append_some (held ls : List (List Char)) :
    ls.foldl appendLine (some held) = some (held ++ ls) := by
  induction ls generalizing held with
  | nil =>
      rw [List.append_nil]
      rfl
  | cons line ls ih =>
      rw [List.foldl_cons, appendLine, Option.getD_some, ih, List.append_assoc]
      rfl

/-- An appended line is in the file. -/
theorem mem_fold_append (file : Option (List (List Char))) {ls : List (List Char)}
    {line : List Char} (hmem : line ∈ ls) :
    ∃ data, ls.foldl appendLine file = some data ∧ line ∈ data := by
  cases ls with
  | nil => cases hmem
  | cons first ls =>
      refine ⟨_, fold_append_some _ ls, ?_⟩
      rw [List.append_assoc]
      exact List.mem_append_right _ hmem

/-- The loop counts a test as failed exactly if it finds no total. -/
theorem counted_iff (before : List Test) (t : Test) :
    (checkTests (before ++ [t])).failed = (checkTests before).failed + 1 ↔ ¬ t.PrintsTotal := by
  rw [check_tests, check_tests, List.countP_append, List.countP_singleton]
  by_cases htotal : t.PrintsTotal
  · simp [htotal]
  · simp [htotal]

/-- The line about a test of the job is recorded. -/
theorem Job.records_of_line {job : Job} {t : Test} (hmem : t ∈ job.tests) {status : Status}
    (hline : t.dataLine = t.basename ++ "=".toList ++ status.text) : job.Records t status := by
  obtain ⟨counters, hresults⟩ :=
    collect_data_check job.rtos job.target job.runnerOs job.tests job.dir
  obtain ⟨data, hdata, hrecord⟩ := mem_fold_append job.dir.testsData
    (List.mem_map_of_mem (f := Test.dataLine) hmem)
  refine ⟨data, ?_, hline ▸ hrecord⟩
  rw [results, hresults]
  exact hdata

/-- A test without a total is recorded as failed, and so is its job. -/
theorem Job.results_failed {job : Job} {t : Test} (hmem : t ∈ job.tests)
    (htotal : ¬ t.PrintsTotal) :
    job.Records t .failed ∧ job.results.status = some (Status.failed.text ++ ['\n']) := by
  obtain ⟨counters, hresults⟩ :=
    collect_data_check job.rtos job.target job.runnerOs job.tests job.dir
  have hline : t.dataLine = t.basename ++ "=".toList ++ Status.failed.text := by
    rw [Test.dataLine, if_neg htotal]
  have hnot : ¬ ((∀ other ∈ job.tests, other.PrintsTotal) ∧ job.tests ≠ []) :=
    fun h ↦ htotal (h.1 t hmem)
  refine ⟨records_of_line hmem hline, ?_⟩
  rw [results, hresults]
  simp only [collected, if_neg hnot]

/-- A failed job makes the overall status `failed`. -/
theorem overall_of_failed (env : Environment) {jobs : List Job} {job : Job} (hmem : job ∈ jobs)
    (hstatus : job.results.status = some (Status.failed.text ++ ['\n'])) :
    getValue "summary".toList "status".toList (aggregate env (jobs.map Job.results)) =
      some Status.failed.text := by
  have hvalue : job.results.statusValue = Status.failed.text := by
    rw [ResultDir.statusValue, contents, hstatus]
    rfl
  have hnot : overallStatus env (jobs.map Job.results) ≠ .passed := by
    intro hpassed
    have hall := ((overall_passed_iff env _).mp hpassed).2 job.results (List.mem_map_of_mem hmem)
      (by rw [hstatus]; rfl)
    rw [hvalue] at hall
    revert hall
    decide
  rw [get_overall_status]
  cases hoverall : overallStatus env (jobs.map Job.results) with
  | passed => exact absurd hoverall hnot
  | failed => rfl

/-- If all tests print a total, they are recorded as passed, and so is their job. -/
theorem Job.results_passed {job : Job} {t : Test} (hmem : t ∈ job.tests)
    (hall : ∀ other ∈ job.tests, other.PrintsTotal) :
    job.Records t .passed ∧ job.results.status = some (Status.passed.text ++ ['\n']) := by
  obtain ⟨counters, hresults⟩ :=
    collect_data_check job.rtos job.target job.runnerOs job.tests job.dir
  have hline : t.dataLine = t.basename ++ "=".toList ++ Status.passed.text := by
    rw [Test.dataLine, if_pos (hall t hmem)]
  refine ⟨records_of_line hmem hline, ?_⟩
  rw [results, hresults]
  simp only [collected, if_pos (And.intro hall (List.ne_nil_of_mem hmem))]

/-- If all jobs have passed, the overall status is `passed`. -/
theorem overall_of_passed (env : Environment) {jobs : List Job} (hne : jobs ≠ [])
    (hall : ∀ job ∈ jobs, job.results.status = some (Status.passed.text ++ ['\n'])) :
    getValue "summary".toList "status".toList (aggregate env (jobs.map Job.results)) =
      some Status.passed.text := by
  obtain ⟨job, rest, rfl⟩ := List.exists_cons_of_ne_nil hne
  have hsome : job.results.status.isSome = true := by
    rw [hall job List.mem_cons_self]
    rfl
  rw [get_overall_status, (overall_passed_iff env _).mpr]
  refine ⟨⟨job.results, List.mem_cons_self, hsome⟩, fun dir hdir _ ↦ ?_⟩
  obtain ⟨other, hother, rfl⟩ := List.mem_map.mp hdir
  rw [ResultDir.statusValue, contents, hall other hother]
  rfl

/-- Every stage counts a test as failed exactly if its captured output has no total. -/
theorem counted_failed_iff (env : Environment) {jobs : List Job} {job : Job} (hjob : job ∈ jobs)
    {before after : List Test} {t : Test} (htests : job.tests = before ++ t :: after) :
    CountedFailed env jobs job before t ↔ ¬ t.PrintsTotal := by
  constructor
  · intro h
    exact (counted_iff before t).mp h.counted
  · intro htotal
    have hmem : t ∈ job.tests := by
      rw [htests]
      exact List.mem_append_right _ List.mem_cons_self
    obtain ⟨hrecorded, hstatus⟩ := Job.results_failed hmem htotal
    exact ⟨(counted_iff before t).mpr htotal, hrecorded, hstatus,
      overall_of_failed env hjob hstatus⟩

/-- Detected errors reach the verdict if and only if no test prints both an ERROR line and a period
total. -/
theorem errors_reach_verdict_iff (env : Environment) (jobs : List Job) :
    ErrorsReachVerdict env jobs ↔
      ∀ job ∈ jobs, ∀ t ∈ job.tests, t.ReportsError → ¬ t.PrintsTotal := by
  constructor
  · intro h job hjob t ht herror
    obtain ⟨before, after, htests⟩ := List.append_of_mem ht
    exact (counted_failed_iff env hjob htests).mp (h job hjob before t after htests herror)
  · intro h job hjob before t after htests herror
    have ht : t ∈ job.tests := by
      rw [htests]
      exact List.mem_append_right _ List.mem_cons_self
    exact (counted_failed_iff env hjob htests).mpr (h job hjob t ht herror)

/-- A run of the cooperative test whose reporter finds its counters wrong. -/
def uncooperativeRun : Test where
  name := "cooperative_scheduling".toList
  name_ne_nil := by decide
  name_word := forall_of_all rfl
  output := unlines
    ["**** Thread-Metric Cooperative Scheduling Test **** Relative Time: 3".toList,
      "ERROR: Invalid counter value(s). Cooperative counters should ".toList ++
        "not be more that 1 different than the average!".toList,
      "Time Period Total:  16".toList, []]

/-- Its output has the ERROR line. -/
theorem uncooperative_reports_error : uncooperativeRun.ReportsError := by
  have hline : ∃ line ∈ uncooperativeRun.output.splitOn '\n', "ERROR:".toList <+: line := by
    decide +kernel
  exact hline

/-- The total follows. -/
theorem uncooperative_prints_total : uncooperativeRun.PrintsTotal := by
  decide +kernel

/-- The loop counts that run as passed, and so do the results of its job and the summary. -/
theorem detected_error_passes :
    uncooperativeRun.ReportsError ∧ (checkTests [uncooperativeRun]).passed = 1 ∧
      ∃ job : Job, job.tests = [uncooperativeRun] ∧ job.Records uncooperativeRun .passed ∧
        job.results.status = some (Status.passed.text ++ ['\n']) ∧
        ∀ env, ¬ ErrorsReachVerdict env [job] ∧
          getValue "summary".toList "status".toList (aggregate env [job.results]) =
            some Status.passed.text := by
  have herror := uncooperative_reports_error
  have htotal := uncooperative_prints_total
  generalize uncooperativeRun = t at herror htotal ⊢
  obtain ⟨job, hjob⟩ : ∃ job : Job, job.tests = [t] :=
    ⟨{ rtos := "threadx".toList, target := "posix".toList, runnerOs := "ubuntu-24.04".toList
       tests := [t], dir := ⟨none, none, none, none, none, none, none, none, none⟩ }, rfl⟩
  have hmem : t ∈ job.tests := by
    rw [hjob]
    exact List.mem_cons_self
  have hall : ∀ other ∈ job.tests, other.PrintsTotal := by
    rw [hjob]
    exact fun other hother ↦ List.mem_singleton.mp hother ▸ htotal
  obtain ⟨hrecords, hstatus⟩ := Job.results_passed hmem hall
  refine ⟨herror, ?_, job, hjob, hrecords, hstatus, fun env ↦ ⟨?_, ?_⟩⟩
  · rw [check_tests]
    simp [htotal]
  · rw [errors_reach_verdict_iff]
    intro h
    exact h job List.mem_cons_self t hmem herror htotal
  · have hjobs : ∀ other ∈ [job], other.results.status = some (Status.passed.text ++ ['\n']) :=
      fun other hother ↦ List.mem_singleton.mp hother ▸ hstatus
    have hmap : [job].map Job.results = [job.results] := rfl
    rw [← hmap]
    exact overall_of_passed env (List.cons_ne_nil _ _) hjobs

end ThreadMetric.Ci
