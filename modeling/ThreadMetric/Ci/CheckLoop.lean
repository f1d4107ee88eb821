import ThreadMetric.Library.Decimal
import ThreadMetric.Library.Lines

/-!
# The loop of `make check`

`run-check-loop` runs every test binary, looks for a line with a period total in what it wrote, and
prints one result line for it. Below the result line of a failed test stands everything that the
test wrote, each line behind a margin. `check_tests` gives the printed lines and both counts.
-/

namespace ThreadMetric.Ci

open Shell

/-- A binary `$(BUILD)/tm_…` of `BINS`, with what it writes to standard output and standard error
when the loop runs it. -/
structure Test where
  name : List Char
  name_ne_nil : name ≠ []
  name_word : ∀ c ∈ name, c.isAlphanum ∨ c = '_'
  output : List Char

namespace Test

/-- `$(basename $t)`. -/
def basename (t : Test) : List Char :=
  "tm_".toList ++ t.name

/-- `raw`. -/
def raw (t : Test) : List Char :=
  commandSubstitution t.output

/-- `printf "  %-40s" "$(basename $t) ..."`. -/
def label (t : Test) : List Char :=
  "  ".toList ++ (t.basename ++ " ...".toList).rightpad 40 ' '

end Test

/-- What the loop has printed, and its two counters. -/
structure CheckLoop where
  stdout : List Char
  passed : ℕ
  failed : ℕ

namespace CheckLoop

/-- `printf`. -/
def printf (s : CheckLoop) (text : List Char) : CheckLoop :=
  { s with stdout := s.stdout ++ text }

/-- One turn of the loop. -/
def check (s : CheckLoop) (t : Test) : CheckLoop :=
  let s := s.printf t.label
  let out := commandSubstitution (grep "Time Period Total".toList (t.raw ++ ['\n']))
  if out ≠ [] then
    { s.printf "OK\n".toList with passed := s.passed + 1 }
  else
    let s := { s.printf "FAIL\n".toList with failed := s.failed + 1 }
    s.printf (sed ("    | ".toList ++ ·) (t.raw ++ ['\n']))

end CheckLoop

/-- The loop after some tests. -/
def checkTests (tests : List Test) : CheckLoop :=
  tests.foldl CheckLoop.check ⟨[], 0, 0⟩

/-- The line of the counters. -/
def CheckLoop.counts (s : CheckLoop) : List Char :=
  Nat.toDigits 10 s.passed ++ " passed, ".toList ++ Nat.toDigits 10 s.failed ++ " failed".toList

/-- `run-check-loop`: what it prints. -/
def runCheckLoop (tests : List Test) : List Char :=
  let s := checkTests tests
  s.stdout ++ "\n".toList ++ s.counts ++ "\n".toList

/-- The exit status of the loop is zero. -/
def checkSucceeds (tests : List Test) : Bool :=
  (checkTests tests).failed = 0

/-! ## The printed lines -/

namespace Test

/-- The test's captured output has a line with a period total. -/
def PrintsTotal (t : Test) : Prop :=
  ∃ line ∈ t.raw.splitOn '\n', "Time Period Total".toList <:+: line

instance (t : Test) : Decidable t.PrintsTotal :=
  inferInstanceAs (Decidable (∃ line ∈ _, _))

/-- What the loop writes after the label. -/
def verdict (t : Test) : List Char :=
  if t.PrintsTotal then "OK".toList else "FAIL".toList

/-- The captured output of a failed test, behind the margin. -/
def captured (t : Test) : List (List Char) :=
  if t.PrintsTotal then [] else (t.raw.splitOn '\n').map ("    | ".toList ++ ·)

/-- The lines that the loop prints for a test. -/
def report (t : Test) : List (List Char) :=
  (t.label ++ t.verdict) :: t.captured

/-- Only letters, digits and underscores stand in the name of a binary. -/
theorem not_mem_basename (t : Test) {d : Char} (hd : d.isAlphanum = false) (hline : d ≠ '_') :
    d ∉ t.basename := by
  intro hmem
  rcases List.mem_append.mp hmem with htm | hname
  · have hword : ∀ c ∈ "tm_".toList, c.isAlphanum = true ∨ c = '_' :=
      forall_of_all rfl
    rcases hword d htm with halpha | rfl
    · exact Bool.noConfusion (hd.symm.trans halpha)
    · exact hline rfl
  · rcases t.name_word d hname with halpha | rfl
    · exact Bool.noConfusion (hd.symm.trans halpha)
    · exact hline rfl

/-- The label is the name of the binary, three dots and blanks. -/
theorem label_eq (t : Test) :
    ∃ n, t.label = "  ".toList ++ t.basename ++ " ...".toList ++ List.replicate n ' ' :=
  ⟨40 - (t.basename ++ " ...".toList).length, by simp [label, List.rightpad]⟩

/-- A character that is neither in a name nor in the fixed parts is not in the label. -/
theorem not_mem_label (t : Test) {d : Char} (hd : d.isAlphanum = false) (hline : d ≠ '_')
    (hblank : d ≠ ' ') (hdot : d ≠ '.') : d ∉ t.label := by
  obtain ⟨n, hlabel⟩ := t.label_eq
  rw [hlabel]
  have hname := t.not_mem_basename hd hline
  simp [hname, hblank, hdot]

/-- The loop finds a total exactly if the captured output has one. -/
theorem found_iff (t : Test) :
    commandSubstitution (grep "Time Period Total".toList (t.raw ++ ['\n'])) ≠ [] ↔
      t.PrintsTotal :=
  grep_ne_nil_iff (c := 'T') (by decide) (by decide) (by decide) t.raw

/-- No printed line contains a newline. -/
theorem newline_not_mem_report (t : Test) : ∀ line ∈ t.report, '\n' ∉ line := by
  intro line hline
  cases hline with
  | head =>
      have hlabel : '\n' ∉ t.label :=
        t.not_mem_label (by decide) (by decide) (by decide) (by decide)
      have hverdict : '\n' ∉ t.verdict := by
        unfold verdict
        split <;> decide
      simp [hlabel, hverdict]
  | tail _ hline =>
      unfold captured at hline
      split at hline
      · cases hline
      · obtain ⟨part, hpart, rfl⟩ := List.mem_map.mp hline
        have hnone := newline_not_mem hpart
        simp [hnone]

/-- No null character is printed for a test. -/
theorem nul_not_mem_report (t : Test) : '\x00' ∉ unlines t.report := by
  have hlabel : '\x00' ∉ t.label :=
    t.not_mem_label (by decide) (by decide) (by decide) (by decide)
  have hverdict : '\x00' ∉ t.verdict := by
    unfold verdict
    split <;> decide
  have hcaptured : '\x00' ∉ unlines t.captured := by
    unfold captured
    split
    · exact List.not_mem_nil
    · intro hmem
      obtain ⟨line, hline, hnul⟩ := List.mem_flatMap.mp hmem
      obtain ⟨part, hpart, rfl⟩ := List.mem_map.mp hline
      have hraw : '\x00' ∈ unlines (t.raw.splitOn '\n') :=
        List.mem_flatMap.mpr ⟨part, hpart, by simpa using hnul⟩
      rw [unlines_split] at hraw
      rcases List.mem_append.mp hraw with hraw | hnewline
      · exact nul_not_mem_substitution t.output hraw
      · exact absurd (List.mem_singleton.mp hnewline) (by decide)
  simp [report, hlabel, hverdict, hcaptured]

end Test

/-- One turn prints the report of its test and counts it. -/
theorem CheckLoop.check_eq (s : CheckLoop) (t : Test) :
    s.check t =
      { stdout := s.stdout ++ unlines t.report
        passed := s.passed + if t.PrintsTotal then 1 else 0
        failed := s.failed + if t.PrintsTotal then 0 else 1 } := by
  by_cases htotal : t.PrintsTotal
  · have hok : "OK\n".toList = "OK".toList ++ ['\n'] := rfl
    rw [check, if_pos (t.found_iff.mpr htotal), hok]
    simp only [printf, Test.report, Test.verdict, Test.captured, if_pos htotal, unlines_cons,
      unlines_nil, List.append_assoc, Nat.add_zero]
  · have hfail : "FAIL\n".toList = "FAIL".toList ++ ['\n'] := rfl
    rw [check, if_neg (fun hfound ↦ htotal (t.found_iff.mp hfound)), hfail]
    simp only [printf, Test.report, Test.verdict, Test.captured, if_neg htotal, unlines_cons,
      sed_newline, List.append_assoc, Nat.add_zero, List.cons_append, List.nil_append]

/-- The loop prints the reports of the tests in order and counts both kinds. -/
theorem check_tests (tests : List Test) :
    checkTests tests =
      { stdout := unlines (tests.flatMap Test.report)
        passed := tests.countP (·.PrintsTotal)
        failed := tests.countP (¬ ·.PrintsTotal) } := by
  induction tests using List.reverseRecOn with
  | nil => rfl
  | append_singleton tests t ih =>
      have hstep : checkTests (tests ++ [t]) = (checkTests tests).check t := by
        rw [checkTests, List.foldl_append, List.foldl_cons, List.foldl_nil, checkTests]
      rw [hstep, ih, CheckLoop.check_eq]
      by_cases htotal : t.PrintsTotal <;> simp [htotal]

/-- The line of the counters begins with a digit. -/
theorem CheckLoop.counts_cons (s : CheckLoop) :
    ∃ d rest, s.counts = d :: rest ∧ d.isDigit = true := by
  obtain ⟨d, digits, hdigits⟩ : ∃ d digits, Nat.toDigits 10 s.passed = d :: digits :=
    List.exists_cons_of_ne_nil Nat.toDigits_ne_nil
  have hd : d ∈ Nat.toDigits 10 s.passed := by
    rw [hdigits]
    exact List.mem_cons_self
  refine ⟨d, digits ++ " passed, ".toList ++ Nat.toDigits 10 s.failed ++ " failed".toList, ?_,
    (Decimal.is_numeral _).isDigit d hd⟩
  rw [counts, hdigits]
  simp only [List.cons_append]

/-- Letters, digits, blanks and a comma stand in the line of the counters. -/
theorem CheckLoop.not_mem_counts (s : CheckLoop) {d : Char} (hd : d.isAlphanum = false)
    (hblank : d ≠ ' ') (hcomma : d ≠ ',') : d ∉ s.counts := by
  have hdigits : ∀ n, d ∉ Nat.toDigits 10 n :=
    Decimal.not_mem_to_digits (Bool.or_eq_false_iff.mp hd).2
  have hwords : ∀ c ∈ " passed, ".toList ++ " failed".toList,
      c.isAlphanum = true ∨ c = ' ' ∨ c = ',' :=
      forall_of_all rfl
  intro hmem
  rw [counts] at hmem
  have hword : d ∈ " passed, ".toList ++ " failed".toList := by
    simp only [List.mem_append] at hmem ⊢
    rcases hmem with ((hmem | hmem) | hmem) | hmem
    · exact absurd hmem (hdigits s.passed)
    · exact .inl hmem
    · exact absurd hmem (hdigits s.failed)
    · exact .inr hmem
  rcases hwords d hword with halpha | heq | heq
  · exact Bool.noConfusion (hd.symm.trans halpha)
  · exact hblank heq
  · exact hcomma heq

/-- The loop prints the reports, an empty line and the counts. -/
theorem run_check_loop_eq (tests : List Test) :
    runCheckLoop tests =
      unlines (tests.flatMap Test.report ++ [[], (checkTests tests).counts]) := by
  have hstdout : (checkTests tests).stdout = unlines (tests.flatMap Test.report) := by
    rw [check_tests]
  have hnewline : "\n".toList = ['\n'] := rfl
  rw [runCheckLoop, hstdout, hnewline, unlines_append, unlines_cons, unlines_cons, unlines_nil]
  simp only [List.append_assoc, List.nil_append, List.cons_append]

/-- The lines of the loop, captured by a command substitution and read one by one. -/
theorem lines_run_check_loop (tests : List Test) :
    (commandSubstitution (runCheckLoop tests)).splitOn '\n' =
      tests.flatMap Test.report ++ [[], (checkTests tests).counts] := by
  obtain ⟨d, rest, hcounts, -⟩ := (checkTests tests).counts_cons
  have hnul : '\x00' ∉ (checkTests tests).counts :=
    CheckLoop.not_mem_counts _ (by decide) (by decide) (by decide)
  have hnewline : '\n' ∉ (checkTests tests).counts :=
    CheckLoop.not_mem_counts _ (by decide) (by decide) (by decide)
  have hreports : '\x00' ∉ unlines (tests.flatMap Test.report) := by
    intro hmem
    obtain ⟨line, hline, hchar⟩ := List.mem_flatMap.mp hmem
    obtain ⟨t, -, hreport⟩ := List.mem_flatMap.mp hline
    exact t.nul_not_mem_report (List.mem_flatMap.mpr ⟨line, hreport, hchar⟩)
  have hsplit : tests.flatMap Test.report ++ [[], (checkTests tests).counts] =
      (tests.flatMap Test.report ++ [[]]) ++ [(checkTests tests).counts] := by
    rw [List.append_assoc]
    rfl
  have hall : '\x00' ∉ unlines
      ((tests.flatMap Test.report ++ [[]]) ++ [(checkTests tests).counts]) := by
    simp [hreports, hnul]
  rw [← lines_newline, run_check_loop_eq, hsplit,
    substitution_unlines hall (by rw [hcounts]; exact List.cons_ne_nil d rest) hnewline]
  refine lines_unlines ?_
  intro line hline
  rcases List.mem_append.mp hline with hline | hline
  · rcases List.mem_append.mp hline with hline | hline
    · obtain ⟨t, -, hreport⟩ := List.mem_flatMap.mp hline
      exact t.newline_not_mem_report line hreport
    · rw [List.mem_singleton.mp hline]
      exact List.not_mem_nil
  · rwa [List.mem_singleton.mp hline]

end ThreadMetric.Ci
