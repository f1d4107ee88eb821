import Mathlib.Data.List.Nodup
import ThreadMetric.Ci.Sections
import ThreadMetric.Ci.Verdict

/-!
# Reading the results back

The check loop prints the verdicts of a job, `collect_data` reads them, `aggregate` writes the
results of all jobs, and `get_value` reads those. `results_round_trip` says that these agree: what
is read about a job is what its tests did, whatever a failed test wrote.
-/

namespace ThreadMetric.Ci

open Shell CStrings

/-- A directory before anything has been collected into it. -/
def ResultDir.fresh : ResultDir :=
  ⟨none, none, none, none, none, none, none, none, none⟩

/-- The name of the job's section. -/
def Job.sectionName (job : Job) : List Char :=
  job.results.sectionName

/-- rtos-target-os. -/
def Job.joinedName (job : Job) : List Char :=
  job.rtos ++ "-".toList ++ job.target ++ "-".toList ++ job.runnerOs

/-- `echo` prints the three words, and they have no other characters than names of sections. -/
structure Job.PlainWords (job : Job) : Prop where
  printed : ∀ word ∈ [job.rtos, job.target, job.runnerOs], isEchoOption word = false
  word : ∀ c ∈ job.joinedName, c.isAlphanum = true ∨ c = '-' ∨ c = '.'

/-- Letters, digits, `-` and `.`, beginning with a letter. No name is that of the first section or
of a section with tests. -/
structure SectionName (name : List Char) : Prop where
  letter : ∃ c ∈ name.head?, c.isAlpha = true
  word : ∀ c ∈ name, c.isAlphanum = true ∨ c = '-' ∨ c = '.'
  not_summary : ¬ "summary".toList <+: name
  not_tests : ¬ ".tests".toList <:+ name

/-- No value from the environment has a second line. -/
structure Environment.SingleLine (env : Environment) : Prop where
  githubSha : '\n' ∉ env.githubSha
  gitHead : '\n' ∉ env.gitHead
  githubRepository : '\n' ∉ env.githubRepository
  timestamp : '\n' ∉ env.timestamp

/-- Jobs with distinct section names and distinct tests, each collected into a directory of its
own. -/
structure Collectable (jobs : List Job) : Prop where
  names : ∀ job ∈ jobs, SectionName job.sectionName
  distinct : (jobs.map Job.sectionName).Nodup
  tests : ∀ job ∈ jobs, (job.tests.map Test.basename).Nodup
  fresh : ∀ job ∈ jobs, job.dir = ResultDir.fresh

/-- The verdict of the check loop on a test. -/
def Test.status (t : Test) : Status :=
  if t.PrintsTotal then .passed else .failed

/-- What `get_value` reads about the job: the numbers of its tests and the verdict on each, and none
on any other test. For plain words the section is named rtos-target-os in lower case. -/
structure Job.ReadBack (job : Job) (file : List Char) : Prop where
  named : job.PlainWords → job.sectionName = job.joinedName.map Char.toLower
  passed : getValue job.sectionName "passed".toList file =
    some (Nat.toDigits 10 (job.tests.countP (·.PrintsTotal)))
  failed : getValue job.sectionName "failed".toList file =
    some (Nat.toDigits 10 (job.tests.countP (¬ ·.PrintsTotal)))
  total : getValue job.sectionName "total".toList file =
    some (Nat.toDigits 10 job.tests.length)
  own : ∀ t ∈ job.tests,
    getValue (job.sectionName ++ ".tests".toList) t.basename file = some t.status.text
  other : ∀ t : Test, t.basename ∉ job.tests.map Test.basename →
    getValue (job.sectionName ++ ".tests".toList) t.basename file = none

/-! ## Section names -/

/-- Only letters change to lower case. -/
theorem eq_of_to_lower {c d : Char} (hd : d.toNat < 97) (h : c.toLower = d) : c = d := by
  unfold Char.toLower at h
  split at h
  · rename_i hupper
    have hfirst : 65 ≤ c.val.toNat := UInt32.le_iff_toNat_le.mp hupper.1
    have hlast : c.val.toNat ≤ 90 := UInt32.le_iff_toNat_le.mp hupper.2
    have hshift : d.val.toNat = (c.val.toNat + 32) % 2 ^ 32 := by
      rw [← h]
      exact UInt32.toNat_add _ _
    rw [Nat.mod_eq_of_lt (by omega)] at hshift
    have hd' : d.val.toNat < 97 := hd
    omega
  · exact h

/-- `tr '[:upper:]' '[:lower:]' | tr ' ' '-'` on one character. -/
def sectionChar (c : Char) : Char :=
  if c.toLower = ' ' then '-' else c.toLower

/-- No other character becomes a control character. -/
theorem eq_of_section_char {c d : Char} (hd : d.toNat < 32) (h : sectionChar c = d) : c = d := by
  unfold sectionChar at h
  split at h
  · rw [← h] at hd
    exact absurd hd (by decide)
  · exact eq_of_to_lower (by omega) h

/-- The section name is the three values in lower case with `-` between them and for blanks. -/
theorem ResultDir.section_name_eq (dir : ResultDir) :
    dir.sectionName = (contents dir.rtos "unknown".toList ++ "-".toList ++
      contents dir.target "unknown".toList ++ "-".toList ++
      contents dir.runnerOs "unknown".toList).map sectionChar := by
  obtain ⟨name, hname⟩ : ∃ name, contents dir.rtos "unknown".toList ++ "-".toList ++
      contents dir.target "unknown".toList ++ "-".toList ++
      contents dir.runnerOs "unknown".toList = name := ⟨_, rfl⟩
  have hnul : '\x00' ∉ name := by
    have hdash : '\x00' ∉ "-".toList := by decide
    rw [← hname]
    simp only [List.mem_append, contents, nul_not_mem_substitution, hdash, or_self,
      not_false_eq_true]
  have hlast : ∀ c ∈ name.getLast?, c ≠ '\n' := by
    intro c hc
    cases hos : contents dir.runnerOs "unknown".toList with
    | nil =>
        rw [← hname, hos, List.append_nil, List.getLast?_append_of_ne_nil _ (by decide)] at hc
        rw [← Option.some.inj hc]
        decide
    | cons d rest =>
        rw [← hname, List.getLast?_append_of_ne_nil _ (hos ▸ List.cons_ne_nil _ _)] at hc
        exact getLast_substitution _ c hc
  have hmap : ((name ++ ['\n']).map Char.toLower).map (fun c ↦ if c = ' ' then '-' else c) =
      name.map sectionChar ++ ['\n'] := by
    rw [List.map_map, List.map_append]
    rfl
  rw [sectionName, hname]
  show commandSubstitution (((name ++ ['\n']).map Char.toLower).map _) = _
  rw [hmap, substitution_newline]
  · intro hmem
    obtain ⟨c, hc, hchar⟩ := List.mem_map.mp hmem
    rw [eq_of_section_char (by decide) hchar] at hc
    exact hnul hc
  · intro c hc hnewline
    rw [List.getLast?_map] at hc
    obtain ⟨d, hd, hchar⟩ := Option.mem_map.mp hc
    exact hlast d hd (eq_of_section_char (by decide) (hchar.trans hnewline))

/-- For plain words the section name is rtos-target-os in lower case. -/
theorem Job.section_name_of_words {job : Job} (hplain : job.PlainWords) :
    job.sectionName = job.joinedName.map Char.toLower := by
  have hnot : ∀ d : Char, d.isAlphanum = false → d ≠ '-' → d ≠ '.' → d ∉ job.joinedName := by
    intro d hd hdash hdot hmem
    rcases hplain.word d hmem with h | h | h
    · exact Bool.noConfusion (hd.symm.trans h)
    · exact hdash h
    · exact hdot h
  have hcontents : ∀ word ∈ [job.rtos, job.target, job.runnerOs],
      contents (some (echo word)) "unknown".toList = word := by
    intro word hmem
    have hsub : ∀ d ∈ word, d ∈ job.joinedName := by
      intro d hd
      simp only [List.mem_cons, List.not_mem_nil, or_false] at hmem
      rcases hmem with rfl | rfl | rfl <;>
        simp only [joinedName, List.mem_append, hd, true_or, or_true]
    exact substitution_echo (hplain.printed word hmem)
      (fun hnul ↦ hnot _ (by decide) (by decide) (by decide) (hsub _ hnul))
      (fun hnewline ↦ hnot _ (by decide) (by decide) (by decide) (hsub _ hnewline))
  obtain ⟨counters, hresults⟩ :=
    collect_data_check job.rtos job.target job.runnerOs job.tests job.dir
  rw [sectionName, ResultDir.section_name_eq, results, hresults]
  simp only [List.forall_mem_cons] at hcontents
  simp only [collected, hcontents]
  refine List.map_congr_left fun c hc ↦ ?_
  rw [sectionChar, if_neg]
  intro hblank
  rw [eq_of_to_lower (by decide) hblank] at hc
  exact hnot ' ' (by decide) (by decide) (by decide) hc

/-- A section name of one line comes from values of one line. -/
theorem ResultDir.values_single_line {dir : ResultDir} (hname : '\n' ∉ dir.sectionName) :
    '\n' ∉ contents dir.rtos "unknown".toList ∧ '\n' ∉ contents dir.target "unknown".toList ∧
      '\n' ∉ contents dir.runnerOs "unknown".toList := by
  rw [section_name_eq] at hname
  refine ⟨fun hmem ↦ hname ?_, fun hmem ↦ hname ?_, fun hmem ↦ hname ?_⟩
  all_goals
    refine List.mem_map.mpr ⟨'\n', ?_, rfl⟩
    simp only [List.mem_append, hmem, true_or, or_true]

/-! ## The directory of a job -/

/-- Lines appended to a file that did not exist. -/
theorem fold_append_none (ls : List (List Char)) :
    ls.foldl appendLine none = if ls = [] then none else some ls := by
  cases ls with
  | nil => rfl
  | cons line ls => exact fold_append_some [line] ls

/-- The file of a number holds its digits. -/
theorem contents_number (n : ℕ) (default : List Char) :
    contents (some (Nat.toDigits 10 n ++ ['\n'])) default = Nat.toDigits 10 n := by
  refine substitution_newline (Decimal.not_mem_to_digits rfl n) fun c hc ↦ ?_
  exact ne_of_mem_of_not_mem (List.mem_of_mem_getLast? hc) (Decimal.not_mem_to_digits rfl n)

/-- The file of a status holds its text. -/
theorem contents_status (status : Status) (default : List Char) :
    contents (some (status.text ++ ['\n'])) default = status.text := by
  cases status <;> rfl

namespace Job

/-- The status that `collect_data` gives the job. -/
def status (job : Job) : Status :=
  if (∀ t ∈ job.tests, t.PrintsTotal) ∧ job.tests ≠ [] then .passed else .failed

/-- The directory has a status, and it is that of the job. -/
theorem results_status (job : Job) :
    job.results.status.isSome = true ∧ job.results.statusValue = job.status.text := by
  obtain ⟨counters, hresults⟩ :=
    collect_data_check job.rtos job.target job.runnerOs job.tests job.dir
  have hstatus : job.results.status = some (job.status.text ++ ['\n']) := by
    rw [results, hresults]
    rfl
  rw [ResultDir.statusValue, hstatus, contents_status]
  exact ⟨rfl, rfl⟩

/-- The directory has the numbers of the tests. -/
theorem results_numbers (job : Job) :
    contents job.results.passed "0".toList = Nat.toDigits 10 (job.tests.countP (·.PrintsTotal)) ∧
      contents job.results.failed "0".toList =
        Nat.toDigits 10 (job.tests.countP (¬ ·.PrintsTotal)) ∧
      contents job.results.total "0".toList = Nat.toDigits 10 job.tests.length := by
  obtain ⟨counters, hresults⟩ :=
    collect_data_check job.rtos job.target job.runnerOs job.tests job.dir
  rw [results, hresults]
  exact ⟨contents_number _ _, contents_number _ _, contents_number _ _⟩

/-- The directory has a record of every test. -/
theorem results_tests {job : Job} (hfresh : job.dir = ResultDir.fresh) :
    job.results.testsData =
      if job.tests = [] then none else some (job.tests.map Test.dataLine) := by
  obtain ⟨counters, hresults⟩ :=
    collect_data_check job.rtos job.target job.runnerOs job.tests job.dir
  have hdata : job.results.testsData =
      (job.tests.map Test.dataLine).foldl appendLine job.dir.testsData := by
    rw [results, hresults, collected]
  rw [hdata, hfresh, ResultDir.fresh, fold_append_none]
  simp only [List.map_eq_nil_iff]

end Job

/-! ## The sections of a job -/

/-- The key and the value in the record of a test. -/
theorem Test.record_cut (t : Test) :
    t.dataLine.takeWhile (· ≠ '=') = t.basename ∧
      (t.dataLine.dropWhile (· ≠ '=')).drop 1 = t.status.text := by
  have hword : ∀ c ∈ t.basename, decide (c ≠ '=') = true := by
    intro c hc
    refine decide_eq_true (ne_of_mem_of_not_mem hc ?_)
    exact t.not_mem_basename (by decide) (by decide)
  have hstop : ∀ c ∈ ('=' :: t.status.text).head?, decide (c ≠ '=') = false := by
    intro c hc
    rw [← Option.some.inj hc]
    rfl
  have hline : t.dataLine = t.basename ++ '=' :: t.status.text := by
    rw [dataLine, List.append_assoc]
    rfl
  obtain ⟨htake, hdrop⟩ := cut_append hword hstop
  rw [hline, htake, hdrop]
  exact ⟨rfl, rfl⟩

/-- The field of a record: the name and the status of the test in double quotes. -/
theorem Test.field_record (t : Test) :
    (ResultDir.testField t.dataLine).key.text = "\"".toList ++ t.basename ++ "\"".toList ∧
      (ResultDir.testField t.dataLine).text = '"' :: (t.status.text ++ ['"']) := by
  obtain ⟨hname, hresult⟩ := t.record_cut
  constructor
  · show "\"".toList ++ t.dataLine.takeWhile (· ≠ '=') ++ "\"".toList = _
    rw [hname]
  · show '"' :: ((t.dataLine.dropWhile (· ≠ '=')).drop 1 ++ ['"']) = _
    rw [hresult]

/-- No quotes stand in the name of a test. -/
theorem Test.filter_basename (t : Test) : t.basename.filter (· ≠ '"') = t.basename := by
  rw [List.filter_eq_self]
  intro c hc
  refine decide_eq_true (ne_of_mem_of_not_mem hc ?_)
  exact t.not_mem_basename (by decide) (by decide)

/-- The name of a test begins no section. -/
theorem Test.key_not_bracket (t : Test) : (t.basename.filter (· ≠ '"')).head? ≠ some '[' := by
  rw [t.filter_basename]
  intro hhead
  exact t.not_mem_basename (by decide) (by decide) (List.mem_of_mem_head? hhead)

/-- The record of a test answers to its name with its status. -/
theorem Test.get_record (t u : Test) :
    (ResultDir.testField t.dataLine).get u.basename =
      if t.basename = u.basename then some t.status.text else none := by
  have hkey : (ResultDir.testField t.dataLine).key.text.filter (· ≠ '"') = t.basename := by
    have hquote : ("\"".toList).filter (· ≠ '"') = [] := rfl
    rw [t.field_record.1, List.filter_append, List.filter_append, t.filter_basename, hquote,
      List.append_nil, List.nil_append]
  rw [Field.get, hkey, Field.value_of_quoted t.field_record.2, u.filter_basename]

/-- A section of one line for each field. -/
theorem Section.single_line {s : Section} (hname : '\n' ∉ s.name)
    (hfields : ∀ f ∈ s.fields, '\n' ∉ f.key.text ∧ '\n' ∉ f.text) :
    ∀ line ∈ s.lines, '\n' ∉ line := by
  intro line hline
  rcases List.mem_cons.mp hline with rfl | hline
  · simp [hname]
  · rcases List.mem_append.mp hline with hline | hline
    · obtain ⟨f, hf, rfl⟩ := List.mem_map.mp hline
      obtain ⟨hkey, htext⟩ := hfields f hf
      simp [Field.line, hkey, htext]
    · rw [List.mem_singleton.mp hline]
      exact List.not_mem_nil

/-- A value between quotes has no line break of its own. -/
theorem Field.quoted_single_line {key : Key} {value : List Char} (hkey : '\n' ∉ key.text)
    (hvalue : '\n' ∉ value) :
    '\n' ∉ (Field.quoted key value).key.text ∧ '\n' ∉ (Field.quoted key value).text :=
  ⟨hkey, by simp [Field.quoted, hvalue]⟩

/-- The first section has one line for each field. -/
theorem summary_single_line {env : Environment} (henv : env.SingleLine) {status : List Char}
    (hstatus : '\n' ∉ status) : ∀ line ∈ (summarySection env status).lines, '\n' ∉ line := by
  have hcommit : '\n' ∉ orDefault env.githubSha env.gitHead := by
    unfold orDefault
    split
    · exact henv.gitHead
    · exact henv.githubSha
  have hshort : '\n' ∉ (orDefault env.githubSha env.gitHead).take 7 :=
    fun hmem ↦ hcommit (List.mem_of_mem_take hmem)
  have hrepository : '\n' ∉ orDefault env.githubRepository "local".toList := by
    unfold orDefault
    split
    · decide
    · exact henv.githubRepository
  have hname : '\n' ∉ (summarySection env status).name := by
    show '\n' ∉ "summary".toList
    decide
  refine Section.single_line hname ?_
  show ∀ f ∈ [_, _, _, _, _], _
  simp only [List.forall_mem_cons]
  exact ⟨Field.quoted_single_line (by decide) hstatus,
    Field.quoted_single_line (by decide) henv.timestamp,
    Field.quoted_single_line (by decide) hcommit, Field.quoted_single_line (by decide) hshort,
    Field.quoted_single_line (by decide) hrepository, fun _ hnil ↦ absurd hnil List.not_mem_nil⟩

/-- A status has one line. -/
theorem newline_not_mem_status (status : Status) : '\n' ∉ status.text := by
  cases status <;> decide

namespace Job

/-- The job's own section has its name. -/
theorem job_section_name (job : Job) : job.results.jobSection.name = job.sectionName := by
  rw [ResultDir.jobSection, sectionName]

/-- The section with the tests of the job. -/
def testSection (job : Job) : Section where
  name := job.sectionName ++ ".tests".toList
  fields := job.tests.map fun t ↦ ResultDir.testField t.dataLine

/-- A job has a section with tests if and only if it has tests. -/
theorem mem_test_sections {job : Job} (hfresh : job.dir = ResultDir.fresh) {s : Section} :
    s ∈ job.results.testSections ↔ job.tests ≠ [] ∧ s = job.testSection := by
  rw [ResultDir.testSections, results_tests hfresh]
  by_cases hnil : job.tests = []
  · rw [if_pos hnil]
    simp [hnil]
  · rw [if_neg hnil]
    simp [hnil, testSection, sectionName, Function.comp_def]

/-- The sections about a job have one line for each field. -/
theorem single_line {job : Job} (hfresh : job.dir = ResultDir.fresh)
    (hname : '\n' ∉ job.sectionName) :
    ∀ line ∈ job.results.sections.flatMap Section.lines, '\n' ∉ line := by
  have hjob : ∀ line ∈ job.results.jobSection.lines, '\n' ∉ line := by
    obtain ⟨hrtos, htarget, hos⟩ := ResultDir.values_single_line hname
    obtain ⟨hpassed, hfailed, htotal⟩ := job.results_numbers
    rw [← job.job_section_name] at hname
    refine Section.single_line hname ?_
    simp only [ResultDir.jobSection, List.forall_mem_cons, job.results_status.2, hpassed, hfailed,
      htotal]
    exact ⟨Field.quoted_single_line (by decide) hrtos,
      Field.quoted_single_line (by decide) htarget, Field.quoted_single_line (by decide) hos,
      Field.quoted_single_line (by decide) (newline_not_mem_status _),
      ⟨by decide, Decimal.not_mem_to_digits rfl _⟩, ⟨by decide, Decimal.not_mem_to_digits rfl _⟩,
      ⟨by decide, Decimal.not_mem_to_digits rfl _⟩, fun _ hnil ↦ absurd hnil List.not_mem_nil⟩
  have htests : ∀ s ∈ job.results.testSections, ∀ line ∈ s.lines, '\n' ∉ line := by
    intro s hs
    obtain ⟨-, rfl⟩ := (mem_test_sections hfresh).mp hs
    refine Section.single_line ?_ ?_
    · intro hmem
      rcases List.mem_append.mp hmem with hmem | hmem
      · exact hname hmem
      · exact absurd hmem (by decide)
    · intro f hf
      obtain ⟨t, -, rfl⟩ := List.mem_map.mp hf
      have hbase : '\n' ∉ t.basename := t.not_mem_basename (by decide) (by decide)
      have hstatus := newline_not_mem_status t.status
      rw [t.field_record.1, t.field_record.2]
      simp [hbase, hstatus]
  intro line hline
  obtain ⟨s, hs, hline⟩ := List.mem_flatMap.mp hline
  rcases List.mem_cons.mp hs with rfl | hs
  · exact hjob line hline
  · exact htests s hs line hline

end Job

/-! ## The sections of all jobs -/

/-- The document has the first section and those of the jobs. -/
theorem mem_document {env : Environment} {status : List Char} {jobs : List Job} {s : Section} :
    s ∈ document env status (jobs.map Job.results) ↔
      s = summarySection env status ∨ ∃ job ∈ jobs, s ∈ job.results.sections := by
  rw [document, List.mem_cons, List.mem_flatMap]
  refine or_congr_right ?_
  constructor
  · rintro ⟨dir, hdir, hs⟩
    obtain ⟨job, hjob, rfl⟩ := List.mem_map.mp (List.mem_filter.mp hdir).1
    exact ⟨job, hjob, hs⟩
  · rintro ⟨job, hjob, hs⟩
    exact ⟨job.results, List.mem_filter.mpr ⟨List.mem_map_of_mem hjob, job.results_status.1⟩, hs⟩

namespace Collectable

variable {jobs : List Job} (hjobs : Collectable jobs)
include hjobs

/-- A job is known by its section name. -/
theorem eq_of_name {job other : Job} (hjob : job ∈ jobs) (hother : other ∈ jobs)
    (hname : other.sectionName = job.sectionName) : other = job :=
  List.inj_on_of_nodup_map hjobs.distinct hother hjob hname

/-- No section but the job's own has its name. -/
theorem job_section_of_name {env : Environment} {status : List Char} {job : Job} (hjob : job ∈ jobs)
    {s : Section} (hs : s ∈ document env status (jobs.map Job.results))
    (hname : s.name = job.sectionName) : s = job.results.jobSection := by
  have hword := hjobs.names job hjob
  rcases mem_document.mp hs with rfl | ⟨other, hother, hs⟩
  · refine absurd ?_ hword.not_summary
    rw [← hname]
    exact List.prefix_refl _
  · rcases List.mem_cons.mp hs with rfl | hs
    · rw [other.job_section_name] at hname
      rw [hjobs.eq_of_name hjob hother hname]
    · obtain ⟨-, rfl⟩ := (Job.mem_test_sections (hjobs.fresh other hother)).mp hs
      refine absurd ?_ hword.not_tests
      rw [← hname]
      exact List.suffix_append _ _

/-- No section but that with the job's tests has its name. -/
theorem test_section_of_name {env : Environment} {status : List Char} {job : Job}
    (hjob : job ∈ jobs) {s : Section} (hs : s ∈ document env status (jobs.map Job.results))
    (hname : s.name = job.sectionName ++ ".tests".toList) :
    job.tests ≠ [] ∧ s = job.testSection := by
  rcases mem_document.mp hs with rfl | ⟨other, hother, hs⟩
  · have hsuffix : ".tests".toList <:+ "summary".toList := ⟨_, hname.symm⟩
    exact absurd hsuffix (by decide)
  · rcases List.mem_cons.mp hs with rfl | hs
    · rw [other.job_section_name] at hname
      exact absurd ⟨_, hname.symm⟩ (hjobs.names other hother).not_tests
    · obtain ⟨hne, rfl⟩ := (Job.mem_test_sections (hjobs.fresh other hother)).mp hs
      have hsame := hjobs.eq_of_name hjob hother (List.append_cancel_right hname)
      rw [hsame] at hne ⊢
      exact ⟨hne, rfl⟩

/-- The document has one line for each field. -/
theorem single_line {env : Environment} (henv : env.SingleLine) {status : List Char}
    (hstatus : '\n' ∉ status) :
    ∀ line ∈ (document env status (jobs.map Job.results)).flatMap Section.lines, '\n' ∉ line := by
  intro line hline
  obtain ⟨s, hs, hline⟩ := List.mem_flatMap.mp hline
  rcases mem_document.mp hs with rfl | ⟨job, hjob, hs⟩
  · exact summary_single_line henv hstatus line hline
  · have hname : '\n' ∉ job.sectionName := by
      intro hmem
      rcases (hjobs.names job hjob).word _ hmem with h | h | h
      · exact Bool.noConfusion h
      · exact absurd h (by decide)
      · exact absurd h (by decide)
    exact Job.single_line (hjobs.fresh job hjob) hname line (List.mem_flatMap.mpr ⟨s, hs, hline⟩)

/-- `get_value` looks through the document that `aggregate` writes. -/
theorem read_document {env : Environment} (henv : env.SingleLine) {sec key : List Char}
    (hkey : (key.filter (· ≠ '"')).head? ≠ some '[') :
    getValue sec key (aggregate env (jobs.map Job.results)) =
      (document env (overallStatus env (jobs.map Job.results)).text
        (jobs.map Job.results)).findSome? (Section.get sec key) := by
  have hfinished : ∀ dir ∈ jobs.map Job.results,
      ∃ status : Status, dir.statusValue = status.text := by
    intro dir hdir
    obtain ⟨job, -, rfl⟩ := List.mem_map.mp hdir
    exact ⟨job.status, job.results_status.2⟩
  rw [aggregate_document env hfinished (hjobs.single_line henv (by decide))]
  exact get_value_document sec hkey (hjobs.single_line henv (newline_not_mem_status _))

/-- A section whose name no other section has is read. -/
theorem read_section {env : Environment} (henv : env.SingleLine) {key : List Char}
    (hkey : (key.filter (· ≠ '"')).head? ≠ some '[') {s : Section}
    (hs : ∀ status, s ∈ document env status (jobs.map Job.results))
    (honly : ∀ status, ∀ other ∈ document env status (jobs.map Job.results),
      other.name = s.name → other = s) :
    getValue s.name key (aggregate env (jobs.map Job.results)) =
      s.fields.findSome? (Field.get key) := by
  have hget : Section.get s.name key s = s.fields.findSome? (Field.get key) := by
    rw [Section.get, if_pos rfl]
  have hother : ∀ status, ∀ other ∈ document env status (jobs.map Job.results), ∀ value,
      Section.get s.name key other = some value →
        s.fields.findSome? (Field.get key) = some value := by
    intro status other hmem value hvalue
    have hname : other.name = s.name := by
      by_contra hne
      rw [Section.get, if_neg hne] at hvalue
      cases hvalue
    rwa [honly status other hmem hname, hget] at hvalue
  rw [hjobs.read_document henv hkey]
  cases hfind : s.fields.findSome? (Field.get key) with
  | some value =>
      refine find_some_unique (hs _) (hget.trans hfind) ?_
      intro other hmem found hfound
      exact Option.some.inj ((hother _ other hmem found hfound).symm.trans hfind)
  | none =>
      rw [List.findSome?_eq_none_iff]
      intro other hmem
      by_contra hne
      obtain ⟨value, hvalue⟩ := Option.ne_none_iff_exists'.mp hne
      rw [hother _ other hmem value hvalue] at hfind
      cases hfind

/-- What a job's section has for a key is read. -/
theorem read_job {env : Environment} (henv : env.SingleLine) {job : Job} (hjob : job ∈ jobs)
    {key : List Char} (hkey : (key.filter (· ≠ '"')).head? ≠ some '[') :
    getValue job.sectionName key (aggregate env (jobs.map Job.results)) =
      job.results.jobSection.fields.findSome? (Field.get key) := by
  rw [← job.job_section_name, hjobs.read_section henv hkey
    (fun _ ↦ mem_document.mpr (.inr ⟨job, hjob, List.mem_cons_self⟩))
    fun _ _ hother hname ↦
      hjobs.job_section_of_name hjob hother (hname.trans job.job_section_name)]

/-- A number in a job's section is read. -/
theorem read_number {env : Environment} (henv : env.SingleLine) {job : Job} (hjob : job ∈ jobs)
    (key : Key) (hkey : (key.text.filter (· ≠ '"')).head? ≠ some '[') {n : ℕ}
    (hfield : job.results.jobSection.fields.findSome? (Field.get key.text) =
      some (valueOf (Field.mk key (Nat.toDigits 10 n)).line)) :
    getValue job.sectionName key.text (aggregate env (jobs.map Job.results)) =
      some (Nat.toDigits 10 n) := by
  have hspace : ∀ c ∈ Nat.toDigits 10 n, isSpace c = false :=
    fun c hc ↦ (digit_cases ((Decimal.is_numeral n).isDigit c hc)).1
  rw [hjobs.read_job henv hjob hkey, hfield,
    Field.value_of_plain hspace (Decimal.not_mem_to_digits rfl n)]

/-- The verdict on a test of the job is read. -/
theorem read_own {env : Environment} (henv : env.SingleLine) {job : Job} (hjob : job ∈ jobs)
    {t : Test} (ht : t ∈ job.tests) :
    getValue (job.sectionName ++ ".tests".toList) t.basename
      (aggregate env (jobs.map Job.results)) = some t.status.text := by
  have hmem : job.testSection ∈ job.results.sections :=
    List.mem_cons_of_mem _
      ((Job.mem_test_sections (hjobs.fresh job hjob)).mpr ⟨List.ne_nil_of_mem ht, rfl⟩)
  have hname : job.sectionName ++ ".tests".toList = job.testSection.name := rfl
  rw [hname, hjobs.read_section henv t.key_not_bracket
    (fun _ ↦ mem_document.mpr (.inr ⟨job, hjob, hmem⟩))
    fun _ _ hother hsame ↦ (hjobs.test_section_of_name hjob hother hsame).2]
  refine find_some_unique (List.mem_map_of_mem ht) (by rw [t.get_record, if_pos rfl]) ?_
  intro f hf found hfound
  obtain ⟨other, hother, rfl⟩ := List.mem_map.mp hf
  rw [other.get_record] at hfound
  split at hfound
  · rename_i hsame
    rw [List.inj_on_of_nodup_map (hjobs.tests job hjob) hother ht hsame] at hfound
    exact (Option.some.inj hfound).symm
  · cases hfound

/-- No verdict on any other test is read. -/
theorem read_other {env : Environment} (henv : env.SingleLine) {job : Job} (hjob : job ∈ jobs)
    {t : Test} (ht : t.basename ∉ job.tests.map Test.basename) :
    getValue (job.sectionName ++ ".tests".toList) t.basename
      (aggregate env (jobs.map Job.results)) = none := by
  rw [hjobs.read_document henv t.key_not_bracket, List.findSome?_eq_none_iff]
  intro s hs
  rw [Section.get]
  split
  · rename_i hname
    rw [(hjobs.test_section_of_name hjob hs hname).2, List.findSome?_eq_none_iff]
    intro f hf
    obtain ⟨other, hother, rfl⟩ := List.mem_map.mp hf
    rw [other.get_record, if_neg]
    intro hsame
    exact ht (List.mem_map.mpr ⟨other, hother, hsame⟩)
  · rfl

/-- What is read about a job is what its tests did. -/
theorem read_back {env : Environment} (henv : env.SingleLine) {job : Job} (hjob : job ∈ jobs) :
    job.ReadBack (aggregate env (jobs.map Job.results)) := by
  obtain ⟨hpassed, hfailed, htotal⟩ := job.results_numbers
  refine ⟨Job.section_name_of_words, ?_, ?_, ?_, fun t ht ↦ hjobs.read_own henv hjob ht,
    fun t ht ↦ hjobs.read_other henv hjob ht⟩
  · refine hjobs.read_number henv hjob (.word "passed".toList rfl) (by decide) ?_
    rw [← hpassed]
    rfl
  · refine hjobs.read_number henv hjob (.word "failed".toList rfl) (by decide) ?_
    rw [← hfailed]
    rfl
  · refine hjobs.read_number henv hjob (.word "total".toList rfl) (by decide) ?_
    rw [← htotal]
    rfl

end Collectable

/-- The summary has passed if and only if there is a job, and every job has a test and no failed
one. -/
theorem overall_jobs_passed_iff (env : Environment) (jobs : List Job) :
    overallStatus env (jobs.map Job.results) = .passed ↔
      jobs ≠ [] ∧ ∀ job ∈ jobs, job.tests ≠ [] ∧ ∀ t ∈ job.tests, t.PrintsTotal := by
  have hjob : ∀ job : Job, job.results.statusValue = Status.passed.text ↔
      job.tests ≠ [] ∧ ∀ t ∈ job.tests, t.PrintsTotal := by
    intro job
    rw [job.results_status.2, Job.status]
    split
    · rename_i h
      exact iff_of_true rfl h.symm
    · rename_i h
      exact iff_of_false (by decide) fun h' ↦ h h'.symm
  rw [overall_passed_iff]
  constructor
  · rintro ⟨⟨dir, hdir, -⟩, hall⟩
    refine ⟨fun hnil ↦ ?_, fun job hmem ↦ ?_⟩
    · rw [hnil] at hdir
      cases hdir
    · exact (hjob job).mp (hall _ (List.mem_map_of_mem hmem) job.results_status.1)
  · rintro ⟨hne, hall⟩
    obtain ⟨job, hmem⟩ := List.exists_mem_of_ne_nil jobs hne
    refine ⟨⟨job.results, List.mem_map_of_mem hmem, job.results_status.1⟩, fun dir hdir _ ↦ ?_⟩
    obtain ⟨other, hother, rfl⟩ := List.mem_map.mp hdir
    exact (hjob other).mpr (hall other hother)

/-- What `get_value` reads in the summary of jobs is what their tests did: the numbers and verdicts
of each job and the overall status. No line that a test wrote is taken for a result line. -/
theorem results_round_trip (env : Environment) (jobs : List Job) (henv : env.SingleLine)
    (hjobs : Collectable jobs) :
    (∀ job ∈ jobs, job.ReadBack (aggregate env (jobs.map Job.results))) ∧
      (∃ overall : Status,
        getValue "summary".toList "status".toList (aggregate env (jobs.map Job.results)) =
            some overall.text ∧
          (overall = .passed ↔
            jobs ≠ [] ∧ ∀ job ∈ jobs, job.tests ≠ [] ∧ ∀ t ∈ job.tests, t.PrintsTotal)) ∧
      ∀ t : Test, ∀ line ∈ t.captured, isResultLine line = false :=
  ⟨fun _ hjob ↦ hjobs.read_back henv hjob,
    ⟨_, get_overall_status env _, overall_jobs_passed_iff env jobs⟩,
    fun t ↦ t.captured_not_result⟩

/-- A run without a total that writes the result line of another test. -/
def imitatingRun : Test where
  name := "basic_processing".toList
  name_ne_nil := by decide
  name_word := forall_of_all rfl
  output := "  tm_message_processing ...    OK\n".toList

/-- It prints no total of its own. -/
theorem imitating_prints_no_total : ¬ imitatingRun.PrintsTotal := by
  decide +kernel

/-- A job with one passed and one failed test. -/
def threadxJob : Job where
  rtos := "ThreadX".toList
  target := "posix".toList
  runnerOs := "ubuntu-24.04".toList
  tests := [uncooperativeRun, imitatingRun]
  dir := .fresh

/-- The environment of a run outside the workflow. -/
def localEnvironment : Environment where
  githubSha := []
  gitHead := "unknown".toList
  githubRepository := []
  timestamp := "2025-01-01T00:00:00Z".toList

/-- Its section has the name of the job in lower case. -/
theorem threadx_section_name :
    threadxJob.sectionName = "threadx-posix-ubuntu-24.04".toList :=
  (Job.section_name_of_words ⟨forall_of_all rfl, forall_of_all rfl⟩).trans rfl

/-- What that job printed is read back, and no test that its output only mentions. -/
theorem threadx_round_trip :
    let file := aggregate localEnvironment [threadxJob.results]
    let sec := "threadx-posix-ubuntu-24.04".toList
    getValue sec "passed".toList file = some "1".toList ∧
      getValue sec "failed".toList file = some "1".toList ∧
      getValue sec "total".toList file = some "2".toList ∧
      getValue (sec ++ ".tests".toList) "tm_cooperative_scheduling".toList file =
        some "passed".toList ∧
      getValue (sec ++ ".tests".toList) "tm_basic_processing".toList file =
        some "failed".toList ∧
      getValue (sec ++ ".tests".toList) "tm_message_processing".toList file = none ∧
      getValue "summary".toList "status".toList file = some "failed".toList := by
  have henv : localEnvironment.SingleLine :=
    ⟨by decide, by decide, by decide, by decide⟩
  have hjobs : Collectable [threadxJob] := by
    refine ⟨?_, List.nodup_singleton _, ?_, ?_⟩
    all_goals
      intro job hjob
      rw [List.mem_singleton.mp hjob]
    · rw [threadx_section_name]
      exact ⟨⟨'t', rfl, rfl⟩, forall_of_all rfl, by decide, by decide⟩
    · decide
    · rfl
  obtain ⟨hread, ⟨overall, hoverall, hpassed⟩, -⟩ :=
    results_round_trip localEnvironment [threadxJob] henv hjobs
  have hjob := hread threadxJob List.mem_cons_self
  have htotal := uncooperative_prints_total
  have hnone := imitating_prints_no_total
  have hown : uncooperativeRun.status = .passed ∧ imitatingRun.status = .failed :=
    ⟨if_pos htotal, if_neg hnone⟩
  have hcounts : threadxJob.tests.countP (·.PrintsTotal) = 1 ∧
      threadxJob.tests.countP (¬ ·.PrintsTotal) = 1 := by
    have hruns : threadxJob.tests = [uncooperativeRun, imitatingRun] := rfl
    rw [hruns]
    simp [htotal, hnone]
  have hfailed : overall = .failed := by
    cases overall with
    | failed => rfl
    | passed =>
        have hall := ((hpassed.mp rfl).2 threadxJob List.mem_cons_self).2
        exact absurd (hall imitatingRun (List.mem_cons_of_mem _ List.mem_cons_self)) hnone
  have hmessage := hjob.other
    ⟨"message_processing".toList, by decide, forall_of_all rfl, []⟩ (by decide)
  have hcooperative := hjob.own uncooperativeRun List.mem_cons_self
  have hbasic := hjob.own imitatingRun (List.mem_cons_of_mem _ List.mem_cons_self)
  have hpass := hjob.passed
  have hfail := hjob.failed
  have htests := hjob.total
  rw [threadx_section_name] at hmessage hcooperative hbasic hpass hfail htests
  rw [hcounts.1] at hpass
  rw [hcounts.2] at hfail
  rw [hown.1] at hcooperative
  rw [hown.2] at hbasic
  rw [hfailed] at hoverall
  exact ⟨hpass, hfail, htests, hcooperative, hbasic, hmessage, hoverall⟩

end ThreadMetric.Ci
