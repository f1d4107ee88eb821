import ThreadMetric.Ci.CheckLoop
import ThreadMetric.Library.Strtol

/-!
# The collection of a job's results

`collect_data` reads what `make check` printed line by line, takes the result lines, and writes one
file for each piece of information into a directory. `collect_data_check` says what it finds in the
output of the check loop: the verdicts in order and their numbers. The margin keeps whatever a
failed test wrote from being taken for a result line.
-/

namespace ThreadMetric.Ci

open Shell CStrings

/-- The files of a directory with results: a text, or the lines appended to a file. -/
structure ResultDir where
  rtos : Option (List Char)
  target : Option (List Char)
  runnerOs : Option (List Char)
  status : Option (List Char)
  passed : Option (List Char)
  failed : Option (List Char)
  total : Option (List Char)
  testsData : Option (List (List Char))
  counters : Option (List (List Char))

/-- The statuses of tests, of jobs and of the whole. -/
inductive Status where
  | passed
  | failed
  deriving DecidableEq

/-- The text of a status. -/
def Status.text : Status → List Char
  | passed => "passed".toList
  | failed => "failed".toList

/-- `echo "…" >> file`. -/
def appendLine (file : Option (List (List Char))) (line : List Char) :
    Option (List (List Char)) :=
  some (file.getD [] ++ [line])

/-- `grep -qE '^[[:space:]]+tm_[^[:space:]]+[[:space:]]+\.\.\.'`. -/
def isResultLine (line : List Char) : Bool :=
  let name := (line.dropWhile isSpace).drop "tm_".toList.length
  let gap := name.dropWhile (!isSpace ·)
  !(line.takeWhile isSpace).isEmpty && "tm_".toList.isPrefixOf (line.dropWhile isSpace) &&
    !(name.takeWhile (!isSpace ·)).isEmpty && !(gap.takeWhile isSpace).isEmpty &&
    "...".toList.isPrefixOf (gap.dropWhile isSpace)

/-- The characters at which `awk` splits a line into fields. -/
def isBlank (c : Char) : Bool :=
  c = ' ' ∨ c = '\t'

/-- `awk '{print $1}'`. -/
def firstField (line : List Char) : List Char :=
  (line.dropWhile isBlank).takeWhile (!isBlank ·)

/-- The variables of the loop in `collect_data`, with the two files that it appends to. -/
structure Collection where
  passed : ℕ
  failed : ℕ
  total : ℕ
  testsData : Option (List (List Char))
  counters : Option (List (List Char))

namespace Collection

/-- A result line. -/
def result (s : Collection) (line : List Char) : Collection :=
  let testName := firstField line
  if "OK".toList <:+ line then
    { s with
      passed := s.passed + 1
      total := s.total + 1
      testsData := appendLine s.testsData (testName ++ "=".toList ++ Status.passed.text) }
  else
    { s with
      failed := s.failed + 1
      total := s.total + 1
      testsData := appendLine s.testsData (testName ++ "=".toList ++ Status.failed.text) }

/-- One turn of the loop. -/
def read (s : Collection) (line : List Char) : Collection :=
  let s := if isResultLine line then s.result line else s
  { s with
    counters :=
      if "Time Period Total".toList <:+: line then appendLine s.counters line else s.counters }

end Collection

/-- `collect_data`, where the directory holds the given files already. -/
def collectData (rtos target runnerOs rawOutput : List Char) (dir : ResultDir) : ResultDir :=
  let s := (lines (rawOutput ++ ['\n'])).foldl Collection.read
    ⟨0, 0, 0, dir.testsData, dir.counters⟩
  { rtos := some (echo rtos)
    target := some (echo target)
    runnerOs := some (echo runnerOs)
    passed := some (Nat.toDigits 10 s.passed ++ ['\n'])
    failed := some (Nat.toDigits 10 s.failed ++ ['\n'])
    total := some (Nat.toDigits 10 s.total ++ ['\n'])
    status := some ((if s.failed = 0 ∧ 0 < s.total then Status.passed else Status.failed).text ++
      ['\n'])
    testsData := s.testsData
    counters := s.counters }

/-! ## Result lines -/

/-- A text begins with a character of its first part. -/
theorem head_append {p : Char → Prop} {first rest : List Char} (hne : first ≠ [])
    (hfirst : ∀ c ∈ first, p c) : ∀ c ∈ (first ++ rest).head?, p c := by
  obtain ⟨d, tail, rfl⟩ := List.exists_cons_of_ne_nil hne
  intro c hc
  rw [List.cons_append, List.head?_cons, Option.mem_some_iff] at hc
  exact hfirst c (hc ▸ List.mem_cons_self)

/-- The scan is the regular expression: blanks, a word that begins with `tm_` and goes on, blanks
and three dots. -/
theorem is_result_line_iff (line : List Char) :
    isResultLine line = true ↔
      ∃ blanks name gap rest,
        line = blanks ++ ("tm_".toList ++ (name ++ (gap ++ ("...".toList ++ rest)))) ∧
        (blanks ≠ [] ∧ ∀ c ∈ blanks, isSpace c = true) ∧
        (name ≠ [] ∧ ∀ c ∈ name, isSpace c = false) ∧
        (gap ≠ [] ∧ ∀ c ∈ gap, isSpace c = true) := by
  constructor
  · intro h
    simp only [isResultLine, Bool.and_eq_true, Bool.not_eq_true', List.isEmpty_eq_false_iff,
      List.isPrefixOf_iff_prefix] at h
    obtain ⟨⟨⟨⟨hblanks, word, hword⟩, hname⟩, hgap⟩, rest, hrest⟩ := h
    rw [← hword, List.drop_left] at hname hgap hrest
    refine ⟨_, _, _, rest, ?_, ⟨hblanks, fun c hc ↦ List.mem_takeWhile_imp hc⟩,
      ⟨hname, fun c hc ↦ ?_⟩, ⟨hgap, fun c hc ↦ List.mem_takeWhile_imp hc⟩⟩
    · rw [hrest, List.takeWhile_append_dropWhile, List.takeWhile_append_dropWhile, hword,
        List.takeWhile_append_dropWhile]
    · simpa using List.mem_takeWhile_imp hc
  · rintro ⟨blanks, name, gap, rest, rfl, ⟨hblanks, hblanks'⟩, ⟨hname, hname'⟩, hgap, hgap'⟩
    have htm : ∀ c ∈ "tm_".toList, isSpace c = false :=
      forall_of_all rfl
    have hdots : ∀ c ∈ "...".toList, isSpace c = false :=
      forall_of_all rfl
    have hword : ∀ c ∈ name, (!isSpace c) = true := by simpa using hname'
    have hstop : ∀ c ∈ gap, (!isSpace c) = false := by simpa using hgap'
    obtain ⟨htake, hdrop⟩ := cut_append hblanks' (head_append (by decide) htm)
    obtain ⟨htake', hdrop'⟩ := cut_append hword (head_append hgap hstop)
    obtain ⟨htake'', hdrop''⟩ := cut_append hgap' (head_append (by decide) hdots)
    simp only [isResultLine]
    rw [htake, hdrop, List.drop_left, htake', hdrop', htake'', hdrop'']
    simp [hblanks, hname, hgap]

/-- A line behind the margin is no result line, whatever it says. -/
theorem margin_not_result (line : List Char) :
    isResultLine ("    | ".toList ++ line) = false :=
  rfl

/-- No line that a test wrote is taken for a result line. -/
theorem Test.captured_not_result (t : Test) : ∀ line ∈ t.captured, isResultLine line = false := by
  intro line hline
  unfold captured at hline
  split at hline
  · cases hline
  · obtain ⟨part, -, rfl⟩ := List.mem_map.mp hline
    exact margin_not_result part

/-- The line of the counters is no result line. -/
theorem counts_not_result (s : CheckLoop) : isResultLine s.counts = false := by
  obtain ⟨d, rest, hcounts, hdigit⟩ := s.counts_cons
  have hspace : isSpace d = false := (digit_cases hdigit).1
  simp [isResultLine, hcounts, hspace]

/-- A label begins a result line. -/
theorem label_is_result (t : Test) (text : List Char) : isResultLine (t.label ++ text) = true := by
  obtain ⟨n, hlabel⟩ := t.label_eq
  have hname : ∀ c ∈ t.name, isSpace c = false := by
    intro c hc
    by_contra hspace
    rw [Bool.not_eq_false, isSpace, decide_eq_true_iff] at hspace
    have hblanks : ∀ d ∈ blanks, d.isAlphanum = false ∧ d ≠ '_' :=
      forall_of_all rfl
    obtain ⟨halpha, hline⟩ := hblanks c hspace
    exact t.not_mem_basename halpha hline (List.mem_append_right _ hc)
  rw [is_result_line_iff]
  refine ⟨"  ".toList, t.name, " ".toList, List.replicate n ' ' ++ text, ?_, ?_,
    ⟨t.name_ne_nil, hname⟩, ?_⟩
  · have hdots : " ...".toList = " ".toList ++ "...".toList := rfl
    rw [hlabel, Test.basename, hdots]
    simp only [List.append_assoc]
  · exact ⟨by decide, forall_of_all rfl⟩
  · exact ⟨by decide, forall_of_all rfl⟩

/-- The first field of a result line is the name of its test. -/
theorem first_field_label (t : Test) (text : List Char) :
    firstField (t.label ++ text) = t.basename := by
  obtain ⟨n, hlabel⟩ := t.label_eq
  have hblank : ∀ c ∈ t.basename, (!isBlank c) = true := by
    intro c hc
    by_contra hspace
    have hcases : c = ' ' ∨ c = '\t' := by
      simpa [isBlank, or_iff_not_imp_left] using hspace
    rcases hcases with rfl | rfl
    · exact t.not_mem_basename (by decide) (by decide) hc
    · exact t.not_mem_basename (by decide) (by decide) hc
  have hdrop : (t.label ++ text).dropWhile isBlank =
      t.basename ++ (" ...".toList ++ (List.replicate n ' ' ++ text)) := by
    rw [hlabel]
    simp only [List.append_assoc]
    rfl
  have hstop : ∀ c ∈ (" ...".toList ++ (List.replicate n ' ' ++ text)).head?,
      (!isBlank c) = false :=
    fun c hc ↦ by cases hc; rfl
  rw [firstField, hdrop]
  exact (cut_append hblank hstop).1

/-- A result line ends in `OK` exactly if the test printed a total. -/
theorem Test.ok_suffix_iff (t : Test) : "OK".toList <:+ t.label ++ t.verdict ↔ t.PrintsTotal := by
  unfold verdict
  split
  · rename_i htotal
    exact iff_of_true (List.suffix_append _ _) htotal
  · rename_i htotal
    refine iff_of_false ?_ htotal
    rintro ⟨first, hend⟩
    have hlast := congrArg List.getLast? hend
    simp [List.getLast?_append] at hlast

/-! ## The output of the loop -/

/-- The line that records the verdict on a test. -/
def Test.dataLine (t : Test) : List Char :=
  t.basename ++ "=".toList ++ (if t.PrintsTotal then Status.passed else Status.failed).text

/-- The verdicts on some tests have been read. -/
structure Collection.Reads (s : Collection) (tests : List Test) (s' : Collection) : Prop where
  passed : s'.passed = s.passed + tests.countP (·.PrintsTotal)
  failed : s'.failed = s.failed + tests.countP (¬ ·.PrintsTotal)
  total : s'.total = s.total + tests.length
  testsData : s'.testsData = (tests.map Test.dataLine).foldl appendLine s.testsData

namespace Collection

/-- The verdicts on two groups of tests. -/
theorem Reads.append {s middle s' : Collection} {first rest : List Test}
    (h : s.Reads first middle) (h' : middle.Reads rest s') : s.Reads (first ++ rest) s' where
  passed := by rw [h'.passed, h.passed, List.countP_append, Nat.add_assoc]
  failed := by rw [h'.failed, h.failed, List.countP_append, Nat.add_assoc]
  total := by rw [h'.total, h.total, List.length_append, Nat.add_assoc]
  testsData := by rw [h'.testsData, h.testsData, List.map_append, List.foldl_append]

/-- Lines that are no result lines leave the verdicts as they are. -/
theorem reads_nil (s : Collection) {ls : List (List Char)}
    (hls : ∀ line ∈ ls, isResultLine line = false) : s.Reads [] (ls.foldl read s) := by
  induction ls generalizing s with
  | nil => exact ⟨rfl, rfl, rfl, rfl⟩
  | cons line ls ih =>
      have hline : isResultLine line = false := hls line List.mem_cons_self
      have hsame : s.Reads [] (s.read line) := by
        rw [read, hline, if_neg Bool.false_ne_true]
        exact ⟨rfl, rfl, rfl, rfl⟩
      exact hsame.append
        (ih (s.read line) fun other hmem ↦ hls other (List.mem_cons_of_mem line hmem))

/-- The result line of a test gives its verdict. -/
theorem reads_result (s : Collection) (t : Test) : s.Reads [t] (s.read (t.label ++ t.verdict)) := by
  have hresult : s.Reads [t] (s.result (t.label ++ t.verdict)) := by
    by_cases htotal : t.PrintsTotal
    · have hdata : t.dataLine = t.basename ++ "=".toList ++ Status.passed.text := by
        rw [Test.dataLine, if_pos htotal]
      rw [result, if_pos (t.ok_suffix_iff.mpr htotal), first_field_label, ← hdata]
      exact ⟨by simp only [List.countP_singleton, htotal, decide_true, if_true],
        by simp only [List.countP_singleton, htotal, not_true, decide_false, if_false,
          Bool.false_eq_true, Nat.add_zero], rfl, rfl⟩
    · have hdata : t.dataLine = t.basename ++ "=".toList ++ Status.failed.text := by
        rw [Test.dataLine, if_neg htotal]
      rw [result, if_neg (fun hok ↦ htotal (t.ok_suffix_iff.mp hok)), first_field_label, ← hdata]
      exact ⟨by simp only [List.countP_singleton, htotal, decide_false, if_false,
          Bool.false_eq_true, Nat.add_zero],
        by simp only [List.countP_singleton, htotal, not_false_eq_true, decide_true, if_true], rfl,
        rfl⟩
  rw [read, if_pos (label_is_result t t.verdict)]
  exact ⟨hresult.passed, hresult.failed, hresult.total, hresult.testsData⟩

/-- The report of a test gives its verdict and nothing else. -/
theorem reads_report (s : Collection) (t : Test) : s.Reads [t] (t.report.foldl read s) :=
  (s.reads_result t).append (reads_nil _ t.captured_not_result)

/-- The reports of some tests give their verdicts. -/
theorem reads_reports (s : Collection) (tests : List Test) :
    s.Reads tests ((tests.flatMap Test.report).foldl read s) := by
  induction tests generalizing s with
  | nil => exact ⟨rfl, rfl, rfl, rfl⟩
  | cons t tests ih =>
      rw [List.flatMap_cons, List.foldl_append]
      exact (s.reads_report t).append (ih _)

/-- So do the lines of the loop. -/
theorem reads_loop_lines (s : Collection) (tests : List Test) :
    s.Reads tests
      ((tests.flatMap Test.report ++ [[], (checkTests tests).counts]).foldl read s) := by
  have hend : ∀ line ∈ [[], (checkTests tests).counts], isResultLine line = false := by
    intro line hline
    cases hline with
    | head => rfl
    | tail _ hline =>
        rw [List.mem_singleton.mp hline]
        exact counts_not_result _
  have hboth := (s.reads_reports tests).append (reads_nil _ hend)
  rwa [List.append_nil, ← List.foldl_append] at hboth

/-- The whole output of the loop gives the verdicts on its tests. -/
theorem reads_check_loop (s : Collection) (tests : List Test) :
    s.Reads tests
      ((lines (commandSubstitution (runCheckLoop tests) ++ ['\n'])).foldl read s) := by
  rw [lines_newline, lines_run_check_loop]
  exact s.reads_loop_lines tests

end Collection

/-- A directory into which the verdicts on some tests have been collected: each of them and their
numbers. The job has passed if and only if it has a test and all its tests have passed. -/
def collected (rtos target runnerOs : List Char) (tests : List Test) (dir : ResultDir)
    (counters : Option (List (List Char))) : ResultDir where
  rtos := some (echo rtos)
  target := some (echo target)
  runnerOs := some (echo runnerOs)
  passed := some (Nat.toDigits 10 (tests.countP (·.PrintsTotal)) ++ ['\n'])
  failed := some (Nat.toDigits 10 (tests.countP (¬ ·.PrintsTotal)) ++ ['\n'])
  total := some (Nat.toDigits 10 tests.length ++ ['\n'])
  status := some ((if (∀ t ∈ tests, t.PrintsTotal) ∧ tests ≠ [] then Status.passed
    else Status.failed).text ++ ['\n'])
  testsData := (tests.map Test.dataLine).foldl appendLine dir.testsData
  counters := counters

/-- Output from which the verdicts on some tests are read. -/
theorem collect_data_of_reads (rtos target runnerOs : List Char) {rawOutput : List Char}
    {tests : List Test} {dir : ResultDir}
    (hreads : (⟨0, 0, 0, dir.testsData, dir.counters⟩ : Collection).Reads tests
      ((lines (rawOutput ++ ['\n'])).foldl Collection.read
        ⟨0, 0, 0, dir.testsData, dir.counters⟩)) :
    ∃ counters, collectData rtos target runnerOs rawOutput dir =
      collected rtos target runnerOs tests dir counters := by
  obtain ⟨s, hs⟩ : ∃ s, (lines (rawOutput ++ ['\n'])).foldl Collection.read
      ⟨0, 0, 0, dir.testsData, dir.counters⟩ = s := ⟨_, rfl⟩
  rw [hs] at hreads
  have hpassed := hreads.passed
  have hfailed := hreads.failed
  have htotal := hreads.total
  simp only [Nat.zero_add] at hpassed hfailed htotal
  have hnone : tests.countP (¬ ·.PrintsTotal) = 0 ↔ ∀ t ∈ tests, t.PrintsTotal := by
    simp [List.countP_eq_zero]
  refine ⟨s.counters, ?_⟩
  rw [collectData, hs]
  simp only [collected, hpassed, hfailed, htotal, hreads.testsData, hnone, List.length_pos_iff]

/-- Collecting the output of the loop writes the verdict on every test and their numbers. -/
theorem collect_data_check (rtos target runnerOs : List Char) (tests : List Test)
    (dir : ResultDir) :
    ∃ counters, collectData rtos target runnerOs (commandSubstitution (runCheckLoop tests)) dir =
      collected rtos target runnerOs tests dir counters :=
  collect_data_of_reads rtos target runnerOs (Collection.reads_check_loop _ tests)

end ThreadMetric.Ci
