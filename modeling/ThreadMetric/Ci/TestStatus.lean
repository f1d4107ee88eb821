import ThreadMetric.Ci.RoundTrip

/-!
# The status of the test step

The workflow does not ask `make check` for its exit status. It looks in what was printed for a line
that ends in `0 failed` with no digit before. `test_status_agrees_iff` says when it decides like
`collect_data`, which counts the result lines of the same text.
-/

namespace ThreadMetric.Ci

open Shell CStrings

/-- `0 failed`. -/
def zeroFailed : List Char :=
  "0 failed".toList

/-- `grep -qE '[^0-9]0 failed$'` on one line. -/
def isZeroFailed (line : List Char) : Bool :=
  zeroFailed.isSuffixOf line &&
    (line.take (line.length - zeroFailed.length)).getLast?.any (!·.isDigit)

/-- `test_status` for `output`. -/
def testStatus (output : List Char) : Status :=
  if (lines (echo output)).any isZeroFailed then .passed else .failed

/-- Lines of `make` itself: none of them is taken for a result line or the line of the counters. -/
structure MakeLines (ls : List (List Char)) : Prop where
  printed : ∀ line ∈ ls, '\n' ∉ line ∧ '\x00' ∉ line
  no_results : ∀ line ∈ ls, isResultLine line = false
  no_counts : ∀ line ∈ ls, isZeroFailed line = false

/-- `output=$(make check 2>&1)`, where `make` prints lines of its own before and after the loop. -/
def makeOutput (before : List (List Char)) (tests : List Test) (after : List (List Char)) :
    List Char :=
  commandSubstitution (unlines before ++ runCheckLoop tests ++ unlines after)

/-- `collect_data` on what `make check` printed. -/
def Job.collectOutput (job : Job) (before after : List (List Char)) : ResultDir :=
  collectData job.rtos job.target job.runnerOs (makeOutput before job.tests after) job.dir

/-- A line of the test that would be taken for the line of the counters. -/
def Test.ImitatesCounts (t : Test) : Prop :=
  ∃ line ∈ t.raw.splitOn '\n', line = zeroFailed ∨ isZeroFailed line = true

/-! ## Lines -/

/-- The scan is the regular expression. -/
theorem zero_failed_iff (line : List Char) :
    isZeroFailed line = true ↔ ∃ text c, line = text ++ c :: zeroFailed ∧ c.isDigit = false := by
  constructor
  · intro h
    rw [isZeroFailed, Bool.and_eq_true, List.isSuffixOf_iff_suffix] at h
    obtain ⟨⟨text, rfl⟩, hlast⟩ := h
    rw [List.length_append, Nat.add_sub_cancel, List.take_left, Option.any_eq_true] at hlast
    obtain ⟨c, hc, hdigit⟩ := hlast
    obtain ⟨first, rfl⟩ := List.getLast?_eq_some_iff.mp hc
    refine ⟨first, c, ?_, by simpa using hdigit⟩
    rw [List.append_assoc, List.singleton_append]
  · rintro ⟨text, c, rfl, hdigit⟩
    have hsplit : text ++ c :: zeroFailed = (text ++ [c]) ++ zeroFailed := by
      rw [List.append_assoc, List.singleton_append]
    rw [hsplit, isZeroFailed, Bool.and_eq_true, List.isSuffixOf_iff_suffix, List.length_append,
      Nat.add_sub_cancel, List.take_left, List.getLast?_concat]
    exact ⟨List.suffix_append _ _, by rw [Option.any_some, hdigit]; rfl⟩

/-- A line ends in the line's last word. -/
theorem not_zero_failed {line : List Char} (hlast : ∀ c ∈ line.getLast?, c ≠ 'd') :
    isZeroFailed line = false := by
  rw [← Bool.not_eq_true, zero_failed_iff]
  rintro ⟨text, c, rfl, -⟩
  refine hlast 'd' ?_ rfl
  rw [List.getLast?_append_of_ne_nil _ (List.cons_ne_nil _ _)]
  rfl

/-- The line of the counters is found if and only if no test has failed. The digit before the zero
in `10 failed` tells the two apart. -/
theorem counts_zero_failed_iff (s : CheckLoop) : isZeroFailed s.counts = true ↔ s.failed = 0 := by
  have hword : zeroFailed = '0' :: " failed".toList := rfl
  rw [zero_failed_iff]
  constructor
  · rintro ⟨text, c, hline, hdigit⟩
    have hdigits : Nat.toDigits 10 s.passed ++ " passed, ".toList ++ Nat.toDigits 10 s.failed =
        text ++ [c, '0'] := by
      refine List.append_cancel_right (Eq.trans hline ?_)
      rw [List.append_assoc text]
      rfl
    by_cases hsmall : s.failed < 10
    · rw [Nat.toDigits_of_lt_base hsmall] at hdigits
      have hlast := congrArg List.getLast? hdigits
      rw [List.getLast?_concat, List.getLast?_append_of_ne_nil _ (List.cons_ne_nil _ _)] at hlast
      have hzero : Nat.digitChar s.failed = '0' := Option.some.inj hlast
      have hdigit : ∀ n, n < 10 → Nat.digitChar n = '0' → n = 0 := by decide
      exact hdigit _ hsmall hzero
    · have hsplit := Decimal.to_digits_split (n := s.failed) (by omega)
      rw [hsplit, ← List.append_assoc] at hdigits
      have hcut : text ++ [c, '0'] = (text ++ [c]) ++ ['0'] := by
        rw [List.append_assoc]
        rfl
      rw [hcut] at hdigits
      have hfront := (List.append_inj' hdigits rfl).1
      have hne : Nat.toDigits 10 (s.failed / 10) ≠ [] := Nat.toDigits_ne_nil
      have hlast := congrArg List.getLast? hfront
      rw [List.getLast?_append_of_ne_nil _ hne, List.getLast?_concat] at hlast
      have hmem := (Decimal.is_numeral (s.failed / 10)).isDigit c (List.mem_of_mem_getLast? hlast)
      exact Bool.noConfusion (hdigit.symm.trans hmem)
  · intro hnone
    refine ⟨Nat.toDigits 10 s.passed ++ " passed,".toList, ' ', ?_, rfl⟩
    rw [CheckLoop.counts, hnone, hword]
    simp only [List.append_assoc]
    rfl

/-- A line behind the margin is found if the line itself would be, or is the word alone. -/
theorem margin_zero_failed_iff (line : List Char) :
    isZeroFailed ("    | ".toList ++ line) = true ↔
      line = zeroFailed ∨ isZeroFailed line = true := by
  constructor
  · intro h
    obtain ⟨text, c, hline, hdigit⟩ := (zero_failed_iff _).mp h
    have hcut : "    | ".toList ++ line = (text ++ [c]) ++ zeroFailed := by
      rw [hline, List.append_assoc, List.singleton_append]
    rcases List.append_eq_append_iff.mp hcut with ⟨rest, hrest, rfl⟩ | ⟨rest, hrest, hword⟩
    · rcases List.eq_nil_or_concat rest with rfl | ⟨first, last, rfl⟩
      · exact .inl rfl
      · rw [List.concat_eq_append, ← List.append_assoc] at hrest
        have hlast : c = last := List.singleton_inj.mp (List.append_inj' hrest rfl).2
        refine .inr ((zero_failed_iff _).mpr ⟨first, c, ?_, hdigit⟩)
        rw [hlast, List.concat_eq_append, List.append_assoc, List.singleton_append]
    · cases rest with
      | nil => exact .inl hword.symm
      | cons d rest =>
          have hzero : '0' = d := (List.cons.inj hword).1
          have hmargin : '0' ∈ "    | ".toList := by
            rw [hrest, hzero]
            exact List.mem_append_right _ List.mem_cons_self
          exact absurd hmargin (by decide)
  · rintro (rfl | h)
    · exact (zero_failed_iff _).mpr ⟨"    |".toList, ' ', rfl, rfl⟩
    · obtain ⟨text, c, rfl, hdigit⟩ := (zero_failed_iff _).mp h
      refine (zero_failed_iff _).mpr ⟨"    | ".toList ++ text, c, ?_, hdigit⟩
      rw [List.append_assoc]

/-- The report of a test is taken for the line of the counters if and only if the test has failed
and wrote such a line. -/
theorem Test.report_zero_failed_iff (t : Test) :
    t.report.any isZeroFailed = true ↔ ¬ t.PrintsTotal ∧ t.ImitatesCounts := by
  have hresult : isZeroFailed (t.label ++ t.verdict) = false := by
    refine not_zero_failed fun c hc ↦ ?_
    unfold verdict at hc
    split at hc
    all_goals
      rw [List.getLast?_append_of_ne_nil _ (by decide)] at hc
      rw [← Option.some.inj hc]
      decide
  rw [report, List.any_cons, hresult, Bool.false_or, captured]
  split
  · rename_i htotal
    exact iff_of_false Bool.false_ne_true fun h ↦ h.1 htotal
  · rename_i htotal
    rw [List.any_map, List.any_eq_true]
    simp only [Function.comp_apply, margin_zero_failed_iff]
    exact ⟨fun h ↦ ⟨htotal, h⟩, fun h ↦ h.2⟩

/-! ## The status -/

section Output

variable {before after : List (List Char)} (hbefore : MakeLines before) (hafter : MakeLines after)
  (tests : List Test)

/-- The lines that `make check` prints. -/
def checkLines (before : List (List Char)) (tests : List Test) (after : List (List Char)) :
    List (List Char) :=
  before ++ (tests.flatMap Test.report ++ [[], (checkTests tests).counts]) ++ after

/-- Its output is made of them. -/
theorem make_output_eq (before : List (List Char)) (after : List (List Char)) :
    makeOutput before tests after =
      commandSubstitution (unlines (checkLines before tests after)) := by
  rw [makeOutput, run_check_loop_eq, checkLines, unlines_append _ after, unlines_append before]

/-- `echo` prints it, because of the words in the line of the counters. -/
theorem echo_make_output (before : List (List Char)) (after : List (List Char)) :
    echo (makeOutput before tests after) = makeOutput before tests after ++ ['\n'] := by
  have hcounts : (checkTests tests).counts ∈ checkLines before tests after := by
    refine List.mem_append_left _ (List.mem_append_right _ (List.mem_append_right _ ?_))
    exact List.mem_cons_of_mem _ List.mem_cons_self
  have hp : 'p' ∈ makeOutput before tests after := by
    rw [make_output_eq]
    refine mem_substitution (List.mem_flatMap.mpr ⟨_, hcounts, List.mem_append_left _ ?_⟩)
      (by decide) (by decide)
    rw [CheckLoop.counts, List.append_assoc, List.append_assoc]
    exact List.mem_append_right _ (List.mem_append_left _ (by decide))
  rw [echo, not_echo_option hp (by decide) (by decide), if_neg Bool.false_ne_true]

/-- The scan of the test step. -/
theorem test_status_eq_passed_iff (output : List Char) :
    testStatus output = .passed ↔ (lines (echo output)).any isZeroFailed = true := by
  rw [testStatus]
  split
  · rename_i h
    exact iff_of_true rfl h
  · rename_i h
    exact iff_of_false (by decide) h

include hbefore hafter

/-- None of them has a newline or a null character. -/
theorem check_lines_printed :
    ∀ line ∈ checkLines before tests after, '\n' ∉ line ∧ '\x00' ∉ line := by
  intro line hline
  rcases List.mem_append.mp hline with hline | hline
  · rcases List.mem_append.mp hline with hline | hline
    · exact hbefore.printed line hline
    · rcases List.mem_append.mp hline with hline | hline
      · obtain ⟨t, -, hreport⟩ := List.mem_flatMap.mp hline
        refine ⟨t.newline_not_mem_report line hreport, fun hnul ↦ ?_⟩
        exact t.nul_not_mem_report
          (List.mem_flatMap.mpr ⟨line, hreport, List.mem_append_left _ hnul⟩)
      · rcases List.mem_cons.mp hline with rfl | hline
        · exact ⟨List.not_mem_nil, List.not_mem_nil⟩
        · rw [List.mem_singleton.mp hline]
          exact ⟨CheckLoop.not_mem_counts _ (by decide) (by decide) (by decide),
            CheckLoop.not_mem_counts _ (by decide) (by decide) (by decide)⟩
  · exact hafter.printed line hline

/-- The verdicts on the tests can be read from them. -/
theorem Collection.reads_check_lines (s : Collection) :
    s.Reads tests ((checkLines before tests after).foldl read s) := by
  rw [checkLines, List.foldl_append, List.foldl_append]
  have hloop := (s.reads_nil hbefore.no_results).append (reads_loop_lines _ tests)
  have hall := hloop.append (reads_nil _ hafter.no_results)
  rwa [List.nil_append, List.append_nil] at hall

/-- `collect_data` gives the job its status, whatever `make` printed around the loop. -/
theorem Job.collect_output_status (job : Job) :
    (job.collectOutput before after).statusValue = job.status.text := by
  have hempty : ∀ s : Collection, s.read [] = s := fun _ ↦ rfl
  have hreads := Collection.reads_check_lines hbefore hafter job.tests
    ⟨0, 0, 0, job.dir.testsData, job.dir.counters⟩
  rw [← foldl_substitution hempty (check_lines_printed hbefore hafter job.tests),
    ← make_output_eq] at hreads
  obtain ⟨counters, hresults⟩ := collect_data_of_reads job.rtos job.target job.runnerOs hreads
  rw [collectOutput, hresults, ResultDir.statusValue]
  exact contents_status job.status _

/-- It finds a line in the reports, or the line of the counters. -/
theorem any_zero_failed :
    (lines (echo (makeOutput before tests after))).any isZeroFailed =
      ((tests.flatMap Test.report).any isZeroFailed ||
        isZeroFailed (checkTests tests).counts) := by
  have hnone : ∀ {own : List (List Char)}, MakeLines own → own.any isZeroFailed = false :=
    fun hown ↦ List.any_eq_false.mpr fun line hline ↦ by
      rw [hown.no_counts line hline]
      exact Bool.false_ne_true
  have hempty : isZeroFailed [] = false := rfl
  rw [echo_make_output, make_output_eq,
    any_substitution hempty (check_lines_printed hbefore hafter tests), checkLines,
    List.any_append, List.any_append, List.any_append, hnone hbefore, hnone hafter, List.any_cons,
    List.any_cons, List.any_nil, hempty, Bool.false_or, Bool.or_false, Bool.false_or, Bool.or_false]

/-- The test step passes if and only if no test has failed or a failed one wrote a line that looks
like the line of the counters. -/
theorem test_status_passed_iff :
    testStatus (makeOutput before tests after) = .passed ↔
      (∀ t ∈ tests, t.PrintsTotal) ∨ ∃ t ∈ tests, ¬ t.PrintsTotal ∧ t.ImitatesCounts := by
  have hreports : (tests.flatMap Test.report).any isZeroFailed = true ↔
      ∃ t ∈ tests, ¬ t.PrintsTotal ∧ t.ImitatesCounts := by
    rw [List.any_flatMap, List.any_eq_true]
    simp only [Test.report_zero_failed_iff]
  have hfailed : (checkTests tests).failed = 0 ↔ ∀ t ∈ tests, t.PrintsTotal := by
    rw [check_tests]
    simp [List.countP_eq_zero]
  rw [test_status_eq_passed_iff, any_zero_failed hbefore hafter, Bool.or_eq_true, hreports,
    counts_zero_failed_iff, hfailed]
  exact or_comm

end Output

/-- The test step decides like `collect_data` does from the same output if and only if the job has a
test, and no failed test of it wrote a line that looks like the line of the counters. -/
theorem test_status_agrees_iff (job : Job) (before after : List (List Char))
    (hbefore : MakeLines before) (hafter : MakeLines after) :
    (testStatus (makeOutput before job.tests after)).text =
        (job.collectOutput before after).statusValue ↔
      job.tests ≠ [] ∧ ∀ t ∈ job.tests, ¬ t.PrintsTotal → ¬ t.ImitatesCounts := by
  have hpassed := test_status_passed_iff hbefore hafter job.tests
  have htext : ∀ a b : Status, a.text = b.text ↔ a = b := by
    rintro (_ | _) (_ | _) <;> decide
  rw [job.collect_output_status hbefore hafter, htext]
  by_cases hall : ∀ t ∈ job.tests, t.PrintsTotal
  · have hstep : testStatus (makeOutput before job.tests after) = .passed :=
      hpassed.mpr (.inl hall)
    rw [hstep, Job.status]
    by_cases hne : job.tests ≠ []
    · rw [if_pos ⟨hall, hne⟩]
      exact iff_of_true rfl ⟨hne, fun t ht hnot ↦ absurd (hall t ht) hnot⟩
    · rw [if_neg fun h ↦ hne h.2]
      exact iff_of_false (by decide) fun h ↦ hne h.1
  · have hne : job.tests ≠ [] := by
      intro hnil
      rw [hnil] at hall
      exact hall fun _ ht ↦ absurd ht List.not_mem_nil
    rw [Job.status, if_neg fun h ↦ hall h.1]
    constructor
    · intro hstep
      refine ⟨hne, fun t ht hnot himitates ↦ ?_⟩
      rw [hpassed.mpr (.inr ⟨t, ht, hnot, himitates⟩)] at hstep
      cases hstep
    · rintro ⟨-, hnone⟩
      cases hstep : testStatus (makeOutput before job.tests after) with
      | failed => rfl
      | passed =>
          rcases hpassed.mp hstep with hall' | ⟨t, ht, hnot, himitates⟩
          · exact absurd hall' hall
          · exact absurd himitates (hnone t ht hnot)

/-- The lines that `make` prints around a failed check, after which both say so. -/
theorem threadx_test_status :
    (testStatus (makeOutput ["  CHECK   ThreadX + POSIX host".toList] threadxJob.tests
        ["make: *** [Makefile:289: check] Error 1".toList])).text =
      (threadxJob.collectOutput ["  CHECK   ThreadX + POSIX host".toList]
        ["make: *** [Makefile:289: check] Error 1".toList]).statusValue ∧
    testStatus (makeOutput ["  CHECK   ThreadX + POSIX host".toList] threadxJob.tests
      ["make: *** [Makefile:289: check] Error 1".toList]) = .failed := by
  have hmake : ∀ line : List Char, '\n' ∉ line ∧ '\x00' ∉ line → isResultLine line = false →
      isZeroFailed line = false → MakeLines [line] :=
    fun line hprinted hresults hcounts ↦
      ⟨fun other hmem ↦ by rw [List.mem_singleton.mp hmem]; exact hprinted,
        fun other hmem ↦ by rw [List.mem_singleton.mp hmem]; exact hresults,
        fun other hmem ↦ by rw [List.mem_singleton.mp hmem]; exact hcounts⟩
  have hagrees := test_status_agrees_iff threadxJob ["  CHECK   ThreadX + POSIX host".toList]
    ["make: *** [Makefile:289: check] Error 1".toList]
    (hmake _ (by decide) (by decide) (by decide)) (hmake _ (by decide) (by decide) (by decide))
  refine ⟨hagrees.mpr ⟨List.cons_ne_nil _ _, ?_⟩, by decide +kernel⟩
  intro t ht _
  have hlines : ∀ t ∈ threadxJob.tests, ∀ line ∈ t.raw.splitOn '\n',
      line ≠ zeroFailed ∧ isZeroFailed line = false := by
    decide +kernel
  rintro ⟨line, hline, himitates⟩
  obtain ⟨hword, hno⟩ := hlines t ht line hline
  rcases himitates with h | h
  · exact hword h
  · exact Bool.noConfusion (hno.symm.trans h)

end ThreadMetric.Ci
