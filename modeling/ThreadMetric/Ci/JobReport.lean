import ThreadMetric.Ci.FormatSummary
import ThreadMetric.Ci.RoundTrip

/-!
# The report of the jobs

`Report` is what the Markdown report says: a row for each job and a line of symbols for each test.
`format_summary_report` says that `format_summary` prints the report of the jobs from the file that
`aggregate` has written about them, and `overall_verdicts_agree` that the badge, the comment and the
last step of the workflow tell the same.
-/

namespace ThreadMetric.Ci

open Shell CStrings

/-- What the report says about a job. -/
structure JobSummary where
  rtos : List Char
  target : List Char
  runnerOs : List Char
  status : Status
  passed : ℕ
  failed : ℕ
  total : ℕ

/-- What the report says: about all jobs, about each job, and about each test the symbols of all
jobs. -/
structure Report where
  overall : Status
  commitShort : List Char
  repository : List Char
  commitSha : List Char
  timestamp : List Char
  jobs : List JobSummary
  tests : List (List Char × List Symbol)

/-- The symbol of a status. -/
def Status.symbol : Status → Symbol
  | passed => .pass
  | failed => .fail

namespace JobSummary

/-- The row of the job. -/
def row (job : JobSummary) : List Char :=
  rowOf job.rtos job.target job.runnerOs job.status.symbol.text job.status.text
    (Nat.toDigits 10 job.passed) (Nat.toDigits 10 job.failed) (Nat.toDigits 10 job.total)

end JobSummary

namespace Report

/-- The table of the tests, if there are any. -/
def testTable (report : Report) : List (List Char) :=
  if report.tests = [] then []
  else
    tableOf (report.jobs.map fun job ↦ columnHead job.rtos job.target)
      (report.tests.map fun test ↦ testRow test.1 test.2)

/-- The lines of the report. -/
def markdown (report : Report) : List (List Char) :=
  reportLines
    (heading (badge report.overall.text) report.commitShort report.repository report.commitSha
      report.timestamp)
    (report.jobs.map JobSummary.row) report.testTable

end Report

namespace Job

/-- The job's line in the report. -/
def summary (job : Job) : JobSummary where
  rtos := commandSubstitution (echo job.rtos)
  target := commandSubstitution (echo job.target)
  runnerOs := commandSubstitution (echo job.runnerOs)
  status := job.status
  passed := job.tests.countP (·.PrintsTotal)
  failed := job.tests.countP (¬ ·.PrintsTotal)
  total := job.tests.length

/-- The job's symbol for a test: the verdict on it, or that it was skipped. -/
def symbol (job : Job) (name : List Char) : Symbol :=
  ((job.tests.find? (·.basename = name)).map (·.status.symbol)).getD .skip

end Job

/-- The names of all tests, each where it first stands. -/
def testNames (jobs : List Job) : List (List Char) :=
  (jobs.flatMap fun job ↦ job.tests.map Test.basename).eraseDups

/-- The report of the jobs. -/
def reportOf (env : Environment) (jobs : List Job) : Report where
  overall := overallStatus env (jobs.map Job.results)
  commitShort := (orDefault env.githubSha env.gitHead).take 7
  repository := orDefault env.githubRepository "local".toList
  commitSha := orDefault env.githubSha env.gitHead
  timestamp := env.timestamp
  jobs := jobs.map Job.summary
  tests := (testNames jobs).map fun name ↦ (name, jobs.map (·.symbol name))

/-- No value from the environment has a second line or a null character. -/
structure Environment.Printable (env : Environment) : Prop extends env.SingleLine where
  githubShaNul : '\x00' ∉ env.githubSha
  gitHeadNul : '\x00' ∉ env.gitHead
  githubRepositoryNul : '\x00' ∉ env.githubRepository
  timestampNul : '\x00' ∉ env.timestamp

/-! ## Section titles -/

/-- A character of a section name is none of the brackets, no blank and no null character. -/
theorem SectionName.not_mem {name : List Char} (hname : SectionName name) {d : Char}
    (hd : d.isAlphanum = false) (hdash : d ≠ '-') (hdot : d ≠ '.') : d ∉ name := by
  intro hmem
  rcases hname.word d hmem with h | h | h
  · exact Bool.noConfusion (hd.symm.trans h)
  · exact hdash h
  · exact hdot h

/-- A letter of a section name is a small one. -/
theorem is_lower_of_to_lower {c d : Char} (hc : c.isAlpha = true) (h : sectionChar d = c) :
    c.isLower = true := by
  have hupper : c.isUpper = false := by
    unfold sectionChar at h
    split at h
    · rw [← h]
      rfl
    · rw [← h]
      unfold Char.toLower
      split
      · rename_i hd
        have hfirst : 65 ≤ d.val.toNat := UInt32.le_iff_toNat_le.mp hd.1
        have hlast : d.val.toNat ≤ 90 := UInt32.le_iff_toNat_le.mp hd.2
        have hshift : (d.val + 32).toNat = (d.val.toNat + 32) % 2 ^ 32 := UInt32.toNat_add _ _
        rw [Nat.mod_eq_of_lt (by omega)] at hshift
        refine decide_eq_false fun hcapital ↦ ?_
        have hbound : (d.val + 32).toNat ≤ 90 := UInt32.le_iff_toNat_le.mp hcapital.2
        omega
      · rename_i hd
        exact decide_eq_false hd
  have halpha : (c.isUpper || c.isLower) = true := hc
  rw [hupper, Bool.false_or] at halpha
  exact halpha

/-- The three filters let a title through if its name begins with a small letter. -/
theorem SectionName.title_kept {name : List Char} (hname : SectionName name)
    (hlower : ∀ c ∈ name.head?, c.isLower = true) :
    isJobTitle ("[".toList ++ name ++ "]".toList) = true := by
  have htitle : isTitle ("[".toList ++ name ++ "]".toList) = true := by
    obtain ⟨c, hc, -⟩ := hname.letter
    cases name with
    | nil => cases hc
    | cons first tail => exact hlower first rfl
  have hsummary : ¬ "[summary".toList <+: "[".toList ++ name ++ "]".toList := by
    rintro ⟨rest, hrest⟩
    have hcut : "summary".toList ++ rest = name ++ "]".toList := (List.cons.inj hrest).2
    rcases List.append_eq_append_iff.mp hcut with ⟨tail, htail, -⟩ | ⟨tail, htail, hlast⟩
    · exact hname.not_summary ⟨tail, htail.symm⟩
    · cases tail with
      | nil =>
          rw [List.append_nil] at htail
          exact hname.not_summary ⟨[], by rw [List.append_nil, htail]⟩
      | cons c tail =>
          have hc : ']' = c := (List.cons.inj hlast).1
          have hbracket : ']' ∈ "summary".toList := by
            rw [htail, hc]
            exact List.mem_append_right _ List.mem_cons_self
          exact absurd hbracket (by decide)
  have htests : ¬ ".tests]".toList <:+: "[".toList ++ name ++ "]".toList := by
    rintro ⟨first, rest, hparts⟩
    have hno : ']' ∉ '[' :: name := by
      intro hmem
      rcases List.mem_cons.mp hmem with h | h
      · exact absurd h (by decide)
      · exact hname.not_mem (by decide) (by decide) (by decide) h
    have hcut : ('[' :: name) ++ ']' :: [] = (first ++ ".tests".toList) ++ ']' :: rest := by
      rw [List.append_assoc]
      show _ = first ++ (".tests]".toList ++ rest)
      rw [← List.append_assoc, hparts]
      rfl
    have hfirst : '[' :: name = first ++ ".tests".toList :=
      ((List.append_cons_inj_of_notMem hno List.not_mem_nil).mp hcut).1
    rcases List.suffix_cons_iff.mp ⟨first, hfirst.symm⟩ with h | h
    · exact absurd (List.cons.inj h).1 (by decide)
    · exact hname.not_tests h
  rw [isJobTitle, htitle]
  simp only [Bool.true_and, Bool.and_eq_true, Bool.not_eq_true', decide_eq_false_iff_not]
  exact ⟨Bool.eq_false_iff.mpr fun h ↦ hsummary (List.isPrefixOf_iff_prefix.mp h), htests⟩

/-- They let no title of a section with tests through. -/
theorem tests_title_dropped (name : List Char) :
    isJobTitle ("[".toList ++ (name ++ ".tests".toList) ++ "]".toList) = false := by
  have htests : ".tests]".toList <:+: "[".toList ++ (name ++ ".tests".toList) ++ "]".toList := by
    refine ⟨"[".toList ++ name, [], ?_⟩
    have hclose : ".tests]".toList = ".tests".toList ++ "]".toList := rfl
    rw [hclose]
    simp only [List.append_assoc, List.append_nil]
  rw [isJobTitle]
  simp only [Bool.and_eq_false_iff, Bool.not_eq_false', decide_eq_true_eq]
  exact .inr htests

/-- `sed` takes the brackets away. -/
theorem SectionName.unbracket {name : List Char} (hname : SectionName name) :
    (("[".toList ++ name ++ "]".toList).erase '[').erase ']' = name := by
  have hbracket : ']' ∉ name := hname.not_mem (by decide) (by decide) (by decide)
  have hopen : ("[".toList ++ name ++ "]".toList).erase '[' = name ++ "]".toList := rfl
  rw [hopen, List.erase_append_right _ hbracket]
  exact List.append_nil name

/-- The name of a job's section begins with a small letter. -/
theorem Job.head_lower {job : Job} (hname : SectionName job.sectionName) :
    ∀ c ∈ job.sectionName.head?, c.isLower = true := by
  intro c hc
  obtain ⟨first, hfirst, halpha⟩ := hname.letter
  have hsame : first = c := Option.some.inj (hfirst.symm.trans hc)
  have hmem : c ∈ job.sectionName := List.mem_of_mem_head? hc
  rw [sectionName, ResultDir.section_name_eq] at hmem
  obtain ⟨d, -, hd⟩ := List.mem_map.mp hmem
  exact is_lower_of_to_lower (hsame ▸ halpha) hd

/-! ## The lines of the file -/

/-- If no two elements have the same key, only the element itself contributes for its key. -/
theorem flat_map_of_key {α β γ : Type} [DecidableEq β] {key : α → β} {l : List α} {a : α}
    (hdistinct : (l.map key).Nodup) (hmem : a ∈ l) (f : α → List γ) :
    (l.flatMap fun b ↦ if key b = key a then f b else []) = f a := by
  induction l with
  | nil => cases hmem
  | cons b l ih =>
      rw [List.map_cons, List.nodup_cons] at hdistinct
      rw [List.flatMap_cons]
      rcases List.mem_cons.mp hmem with rfl | hmem
      · have hrest : (l.flatMap fun c ↦ if key c = key a then f c else []) = [] := by
          rw [List.flatMap_eq_nil_iff]
          intro c hc
          refine if_neg fun hsame ↦ hdistinct.1 ?_
          rw [← hsame]
          exact List.mem_map_of_mem hc
        rw [if_pos rfl, hrest, List.append_nil]
      · have hother : key b ≠ key a := by
          intro hsame
          rw [hsame] at hdistinct
          exact hdistinct.1 (List.mem_map_of_mem hmem)
        rw [if_neg hother, List.nil_append, ih hdistinct.2 hmem]

/-- No name stands twice. -/
theorem nodup_erase_dups (names : List (List Char)) : names.eraseDups.Nodup := by
  rw [← fold_add_test]
  induction names using List.reverseRecOn with
  | nil => exact List.nodup_nil
  | append_singleton names name ih =>
      rw [List.foldl_append, List.foldl_cons, List.foldl_nil, addTest]
      split
      · exact ih
      · rename_i hnew
        exact List.nodup_append.mpr ⟨ih, List.nodup_singleton name,
          fun _ hmem _ hname ↦ by
            rw [List.mem_singleton.mp hname]
            exact ne_of_mem_of_not_mem hmem hnew⟩

/-- The key of a record is the name of its test. -/
theorem Test.key_of_record (t : Test) :
    testKey (ResultDir.testField t.dataLine).line = t.basename := by
  have hword : ∀ d : Char, d.isAlphanum = false → d ≠ '_' → d ∉ t.basename :=
    fun d hd hline ↦ t.not_mem_basename hd hline
  have htake : (ResultDir.testField t.dataLine).line.takeWhile (· ≠ '=') =
      '"' :: (t.basename ++ ['"', ' ']) := by
    rw [(ResultDir.testField t.dataLine).cut.1, t.field_record.1, List.append_assoc,
      List.append_assoc]
    rfl
  have hecho : echo ('"' :: (t.basename ++ ['"', ' '])) =
      unlines ['"' :: (t.basename ++ ['"', ' '])] := by
    have hoption : isEchoOption ('"' :: (t.basename ++ ['"', ' '])) = false := rfl
    rw [echo, hoption, if_neg Bool.false_ne_true, unlines_cons, unlines_nil]
  have hstrip : stripQuotes ('"' :: (t.basename ++ ['"', ' '])) = t.basename := by
    have hsplit : t.basename ++ ['"', ' '] = (t.basename ++ ['"']) ++ [' '] := by
      rw [List.append_assoc]
      rfl
    have hblank : isSpace ' ' = true := rfl
    have hquote : ¬ isSpace '"' = true := by decide
    rw [stripQuotes, List.head?_cons, if_pos rfl, List.tail_cons, hsplit]
    simp only [List.rdropWhile_concat_pos _ _ _ hblank, List.rdropWhile_concat_neg _ _ _ hquote,
      List.getLast?_concat, if_true, List.dropLast_concat]
  rw [testKey, htake, hecho, sed, lines_unlines, List.map_cons, List.map_nil, hstrip, unlines_cons,
    unlines_nil, substitution_newline (hword _ (by decide) (by decide))]
  · intro c hc
    exact ne_of_mem_of_not_mem (List.mem_of_mem_getLast? hc) (hword _ (by decide) (by decide))
  · intro line hline
    rw [List.mem_singleton.mp hline]
    simp [hword '\n' (by decide) (by decide)]

namespace Collectable

variable {jobs : List Job} (hjobs : Collectable jobs)
include hjobs

/-- The lines of the file are those of the document. -/
theorem lines_aggregate {env : Environment} (henv : env.SingleLine) :
    lines (aggregate env (jobs.map Job.results)) =
      (document env (overallStatus env (jobs.map Job.results)).text
        (jobs.map Job.results)).flatMap Section.lines := by
  have hfinished : ∀ dir ∈ jobs.map Job.results,
      ∃ status : Status, dir.statusValue = status.text := by
    intro dir hdir
    obtain ⟨job, -, rfl⟩ := List.mem_map.mp hdir
    exact ⟨job.status, job.results_status.2⟩
  rw [aggregate_document env hfinished (hjobs.single_line henv (by decide))]
  exact lines_unlines (hjobs.single_line henv (newline_not_mem_status _))

omit hjobs in
/-- The sections of the document are those of the jobs. -/
theorem document_jobs (env : Environment) (status : List Char) :
    document env status (jobs.map Job.results) =
      summarySection env status :: jobs.flatMap (·.results.sections) := by
  have hall : (jobs.map Job.results).filter (·.status.isSome) = jobs.map Job.results := by
    rw [List.filter_eq_self]
    intro dir hdir
    obtain ⟨job, -, rfl⟩ := List.mem_map.mp hdir
    exact job.results_status.1
  rw [document, hall, List.flatMap_map]

/-- The titles that the filters let through are those of the jobs, in order. -/
theorem job_titles {env : Environment} (henv : env.SingleLine) :
    jobTitles (aggregate env (jobs.map Job.results)) =
      jobs.map fun job ↦ "[".toList ++ job.sectionName ++ "]".toList := by
  have hsummary (status : List Char) :
      (summarySection env status).lines.filter isJobTitle = [] := by
    rw [Section.filter_lines, if_neg]
    rw [Bool.not_eq_true]
    rfl
  have hjob : ∀ job ∈ jobs, (job.results.sections.flatMap Section.lines).filter isJobTitle =
      ["[".toList ++ job.sectionName ++ "]".toList] := by
    intro job hmem
    have hname := hjobs.names job hmem
    have hown : job.results.jobSection.lines.filter isJobTitle =
        ["[".toList ++ job.sectionName ++ "]".toList] := by
      rw [Section.filter_lines, Section.title, job.job_section_name,
        if_pos (hname.title_kept (Job.head_lower hname))]
    have htests : ∀ s ∈ job.results.testSections, s.lines.filter isJobTitle = [] := by
      intro s hs
      obtain ⟨-, rfl⟩ := (Job.mem_test_sections (hjobs.fresh job hmem)).mp hs
      rw [Section.filter_lines, Section.title, Job.testSection, tests_title_dropped,
        if_neg Bool.false_ne_true]
    rw [ResultDir.sections, List.flatMap_cons, List.filter_append, hown, List.filter_flatMap,
      List.flatMap_eq_nil_iff.mpr htests, List.append_nil]
  rw [jobTitles, hjobs.lines_aggregate henv, document_jobs, List.flatMap_cons, List.filter_append,
    hsummary, List.nil_append, List.flatMap_assoc, List.filter_flatMap]
  have hflat : (jobs.flatMap fun job ↦
      (job.results.sections.flatMap Section.lines).filter isJobTitle) =
      jobs.flatMap fun job ↦ ["[".toList ++ job.sectionName ++ "]".toList] :=
    List.flatMap_congr fun job hmem ↦ hjob job hmem
  rw [hflat, List.map_eq_flatMap]

/-- The loops of `format_summary` go through the jobs in order. -/
theorem job_sections {env : Environment} (henv : env.SingleLine) :
    jobSections (aggregate env (jobs.map Job.results)) = jobs.map Job.sectionName := by
  have hstrip : (jobTitles (aggregate env (jobs.map Job.results))).map
      (fun line ↦ (line.erase '[').erase ']') = jobs.map Job.sectionName := by
    rw [hjobs.job_titles henv, List.map_map]
    refine List.map_congr_left fun job hmem ↦ ?_
    rw [Function.comp_apply, (hjobs.names job hmem).unbracket]
  have hname : ∀ name ∈ jobs.map Job.sectionName, SectionName name := by
    intro name hmem
    obtain ⟨job, hjob, rfl⟩ := List.mem_map.mp hmem
    exact hjobs.names job hjob
  rw [jobSections, hstrip]
  refine words_substitution ?_ ?_ ?_
  · intro name hmem hnil
    obtain ⟨c, hc, -⟩ := (hname name hmem).letter
    rw [hnil] at hc
    cases hc
  · intro name hmem c hc
    by_contra hblank
    rw [Bool.not_eq_false, isIfs, decide_eq_true_iff] at hblank
    rcases hblank with rfl | rfl | rfl <;>
      exact (hname name hmem).not_mem (by decide) (by decide) (by decide) hc
  · intro hmem
    obtain ⟨name, hline, hnul⟩ := List.mem_flatMap.mp hmem
    rcases List.mem_append.mp hnul with hnul | hnul
    · exact (hname name hline).not_mem (by decide) (by decide) (by decide) hnul
    · exact absurd (List.mem_singleton.mp hnul) (by decide)

/-- `get_section_keys` prints a line for each test of the job. -/
theorem section_keys {env : Environment} (henv : env.SingleLine) {job : Job} (hjob : job ∈ jobs) :
    getSectionKeys (job.sectionName ++ ".tests".toList) (aggregate env (jobs.map Job.results)) =
      job.tests.map fun t ↦ (ResultDir.testField t.dataLine).line := by
  have hsummary (status : List Char) :
      (summarySection env status).name ≠ job.sectionName ++ ".tests".toList := by
    intro hname
    have hsuffix : ".tests".toList <:+ "summary".toList := ⟨_, hname.symm⟩
    exact absurd hsuffix (by decide)
  have hother : ∀ other ∈ jobs, (other.results.sections.flatMap fun s ↦
      if s.name = job.sectionName ++ ".tests".toList then s.fields.map Field.line else []) =
      if other.sectionName = job.sectionName then
        other.tests.map fun t ↦ (ResultDir.testField t.dataLine).line else [] := by
    intro other hmem
    have hown : other.results.jobSection.name ≠ job.sectionName ++ ".tests".toList := by
      rw [other.job_section_name]
      intro hname
      exact (hjobs.names other hmem).not_tests ⟨_, hname.symm⟩
    rw [ResultDir.sections, List.flatMap_cons, if_neg hown, List.nil_append]
    by_cases hnil : other.tests = []
    · have hnone : other.results.testSections = [] := by
        rw [List.eq_nil_iff_forall_not_mem]
        intro s hs
        exact ((Job.mem_test_sections (hjobs.fresh other hmem)).mp hs).1 hnil
      rw [hnone, hnil, List.map_nil, ite_self, List.flatMap_nil]
    · have hone : other.results.testSections = [other.testSection] := by
        rw [ResultDir.testSections, Job.results_tests (hjobs.fresh other hmem), if_neg hnil]
        show [Section.mk _ _] = [Section.mk _ _]
        rw [List.map_map]
        rfl
      have hname : other.testSection.name = job.sectionName ++ ".tests".toList ↔
          other.sectionName = job.sectionName := by
        rw [Job.testSection]
        exact List.append_left_inj _
      rw [hone, List.flatMap_singleton]
      simp only [hname]
      rw [Job.testSection, List.map_map]
      rfl
  rw [getSectionKeys, hjobs.lines_aggregate henv, document_jobs, scan_keys_document,
    List.flatMap_cons, if_neg (hsummary _), List.nil_append, List.flatMap_assoc,
    List.flatMap_congr hother]
  exact flat_map_of_key hjobs.distinct hjob _

/-- The tests of the report are those of the jobs. -/
theorem all_tests {env : Environment} (henv : env.SingleLine) :
    allTests (aggregate env (jobs.map Job.results)) (jobs.map Job.sectionName) =
      testNames jobs := by
  have hkeys : ∀ job ∈ jobs, (getSectionKeys (job.sectionName ++ ".tests".toList)
      (aggregate env (jobs.map Job.results))).map testKey = job.tests.map Test.basename := by
    intro job hjob
    rw [hjobs.section_keys henv hjob, List.map_map]
    refine List.map_congr_left fun t _ ↦ ?_
    rw [Function.comp_apply, t.key_of_record]
  rw [all_tests_eq, List.flatMap_map, List.flatMap_congr hkeys, testNames]

/-- The symbol of a test in the column of a job is the job's own. -/
theorem cell_symbol {env : Environment} (henv : env.SingleLine) {job : Job} (hjob : job ∈ jobs)
    {name : List Char} (hname : name ∈ testNames jobs) :
    cellSymbol (aggregate env (jobs.map Job.results)) name job.sectionName = job.symbol name := by
  obtain ⟨u, rfl⟩ : ∃ u : Test, u.basename = name := by
    obtain ⟨other, -, hmem⟩ := List.mem_flatMap.mp (List.mem_eraseDups.mp hname)
    obtain ⟨u, -, hu⟩ := List.mem_map.mp hmem
    exact ⟨u, hu⟩
  have hquotes : getValue (job.sectionName ++ ".tests".toList)
      ("\"".toList ++ u.basename ++ "\"".toList) (aggregate env (jobs.map Job.results)) =
      getValue (job.sectionName ++ ".tests".toList) u.basename
        (aggregate env (jobs.map Job.results)) := by
    refine scan_value_quotes _ ?_ _ _
    rw [List.filter_append, List.filter_append]
    exact List.append_nil _
  rw [cellSymbol, value, hquotes, Job.symbol]
  cases hfind : job.tests.find? (·.basename = u.basename) with
  | some t =>
      have hmem : t ∈ job.tests := List.mem_of_find?_eq_some hfind
      have hsame : t.basename = u.basename := by
        have hfound := List.find?_some hfind
        exact of_decide_eq_true hfound
      rw [← hsame, hjobs.read_own henv hjob hmem, Option.map_some, Option.getD_some]
      cases t.status with
      | passed => rfl
      | failed => rfl
  | none =>
      have hnot : u.basename ∉ job.tests.map Test.basename := by
        intro hmem
        obtain ⟨t, ht, hsame⟩ := List.mem_map.mp hmem
        have hno := List.find?_eq_none.mp hfind t ht
        exact hno (decide_eq_true hsame)
      rw [hjobs.read_other henv hjob hnot]
      rfl

/-- A value in quotes is read from a job's section. -/
theorem value_of_quoted {env : Environment} (henv : env.SingleLine) {job : Job} (hjob : job ∈ jobs)
    (key : Key) (hkey : (key.text.filter (· ≠ '"')).head? ≠ some '[') {text : List Char}
    (hfield : job.results.jobSection.fields.findSome? (Field.get key.text) =
      some (valueOf (Field.quoted key text).line))
    (hnul : '\x00' ∉ text) (hnewline : '\n' ∉ text) :
    value job.sectionName key.text (aggregate env (jobs.map Job.results)) = text := by
  refine value_of_get ?_ hnul hnewline
  rw [hjobs.read_job henv hjob hkey, hfield]
  exact congrArg some (Field.value_of_quoted rfl)

/-- The words of a job are read as its files have them. -/
theorem value_words {env : Environment} (henv : env.SingleLine) {job : Job} (hjob : job ∈ jobs) :
    let file := aggregate env (jobs.map Job.results)
    value job.sectionName "rtos".toList file = job.summary.rtos ∧
      value job.sectionName "target".toList file = job.summary.target ∧
      value job.sectionName "runner_os".toList file = job.summary.runnerOs := by
  have hname : '\n' ∉ job.results.sectionName :=
    (hjobs.names job hjob).not_mem (by decide) (by decide) (by decide)
  obtain ⟨hrtos, htarget, hos⟩ := ResultDir.values_single_line hname
  obtain ⟨counters, hresults⟩ :=
    collect_data_check job.rtos job.target job.runnerOs job.tests job.dir
  have hwords : contents job.results.rtos "unknown".toList = job.summary.rtos ∧
      contents job.results.target "unknown".toList = job.summary.target ∧
      contents job.results.runnerOs "unknown".toList = job.summary.runnerOs := by
    rw [Job.results, hresults]
    exact ⟨rfl, rfl, rfl⟩
  obtain ⟨hrtos', htarget', hos'⟩ := hwords
  rw [hrtos'] at hrtos
  rw [htarget'] at htarget
  rw [hos'] at hos
  refine ⟨?_, ?_, ?_⟩
  · refine hjobs.value_of_quoted henv hjob (.word "rtos".toList rfl) (by decide) ?_
      (nul_not_mem_substitution _) hrtos
    rw [← hrtos']
    rfl
  · refine hjobs.value_of_quoted henv hjob (.word "target".toList rfl) (by decide) ?_
      (nul_not_mem_substitution _) htarget
    rw [← htarget']
    rfl
  · refine hjobs.value_of_quoted henv hjob (.word "runner_os".toList rfl) (by decide) ?_
      (nul_not_mem_substitution _) hos
    rw [← hos']
    rfl

/-- The row of a job is that of its line in the report. -/
theorem job_row {env : Environment} (henv : env.SingleLine) {job : Job} (hjob : job ∈ jobs) :
    jobRow (aggregate env (jobs.map Job.results)) job.sectionName = job.summary.row := by
  obtain ⟨hrtos, htarget, hos⟩ := hjobs.value_words henv hjob
  have hread := hjobs.read_back henv hjob
  have hdigits : ∀ {key : List Char} {n : ℕ},
      getValue job.sectionName key (aggregate env (jobs.map Job.results)) =
        some (Nat.toDigits 10 n) →
      value job.sectionName key (aggregate env (jobs.map Job.results)) = Nat.toDigits 10 n :=
    fun hget ↦ value_of_get hget (Decimal.not_mem_to_digits rfl _)
      (Decimal.not_mem_to_digits rfl _)
  have hstatus : value job.sectionName "status".toList (aggregate env (jobs.map Job.results)) =
      job.status.text := by
    refine hjobs.value_of_quoted henv hjob (.word "status".toList rfl) (by decide) ?_ ?_
      (newline_not_mem_status _)
    · rw [← job.results_status.2]
      rfl
    · cases job.status with
      | passed => decide
      | failed => decide
  have hsymbol : getSymbol job.status.text = job.status.symbol := by
    cases job.status with
    | passed => rfl
    | failed => rfl
  rw [jobRow, hrtos, htarget, hos, hstatus, hsymbol, hdigits hread.passed, hdigits hread.failed,
    hdigits hread.total]
  rfl

/-- A value is read from the first section. -/
theorem value_of_summary {env : Environment} (henv : env.SingleLine) (key : Key)
    (hkey : (key.text.filter (· ≠ '"')).head? ≠ some '[') {text : List Char}
    (hfield : ∀ status, (summarySection env status).fields.findSome? (Field.get key.text) =
      some (valueOf (Field.quoted key text).line))
    (hnul : '\x00' ∉ text) (hnewline : '\n' ∉ text) :
    value "summary".toList key.text (aggregate env (jobs.map Job.results)) = text := by
  have hget (status : List Char) :
      Section.get "summary".toList key.text (summarySection env status) = some text := by
    have hname : (summarySection env status).name = "summary".toList := rfl
    rw [Section.get, if_pos hname, hfield, Field.value_of_quoted rfl]
  refine value_of_get ?_ hnul hnewline
  rw [hjobs.read_document henv hkey, document_jobs, List.findSome?_cons, hget]

/-- The heading of the report has the values of the environment. -/
theorem heading_of {env : Environment} (henv : env.Printable) :
    headingOf (aggregate env (jobs.map Job.results)) =
      heading (badge (overallStatus env (jobs.map Job.results)).text)
        ((orDefault env.githubSha env.gitHead).take 7)
        (orDefault env.githubRepository "local".toList)
        (orDefault env.githubSha env.gitHead) env.timestamp := by
  have hdefault : ∀ {c : Char} {text default : List Char}, c ∉ text → c ∉ default →
      c ∉ orDefault text default := by
    intro c text default htext hdefault
    unfold orDefault
    split
    · exact hdefault
    · exact htext
  have hstatus : value "summary".toList "status".toList (aggregate env (jobs.map Job.results)) =
      (overallStatus env (jobs.map Job.results)).text := by
    rw [value, get_overall_status]
    cases overallStatus env (jobs.map Job.results) with
    | passed => rfl
    | failed => rfl
  have hshort : value "summary".toList "commit_short".toList
      (aggregate env (jobs.map Job.results)) = (orDefault env.githubSha env.gitHead).take 7 :=
    hjobs.value_of_summary henv.toSingleLine (.word "commit_short".toList rfl) (by decide)
      (fun _ ↦ rfl)
      (fun hmem ↦ hdefault henv.githubShaNul henv.gitHeadNul (List.mem_of_mem_take hmem))
      (fun hmem ↦ hdefault henv.githubSha henv.gitHead (List.mem_of_mem_take hmem))
  have hrepo : value "summary".toList "repository".toList
      (aggregate env (jobs.map Job.results)) = orDefault env.githubRepository "local".toList :=
    hjobs.value_of_summary henv.toSingleLine (.word "repository".toList rfl) (by decide)
      (fun _ ↦ rfl) (hdefault henv.githubRepositoryNul (by decide))
      (hdefault henv.githubRepository (by decide))
  have hsha : value "summary".toList "commit_sha".toList
      (aggregate env (jobs.map Job.results)) = orDefault env.githubSha env.gitHead :=
    hjobs.value_of_summary henv.toSingleLine (.word "commit_sha".toList rfl) (by decide)
      (fun _ ↦ rfl) (hdefault henv.githubShaNul henv.gitHeadNul)
      (hdefault henv.githubSha henv.gitHead)
  have htimestamp : value "summary".toList "timestamp".toList
      (aggregate env (jobs.map Job.results)) = env.timestamp :=
    hjobs.value_of_summary henv.toSingleLine (.word "timestamp".toList rfl) (by decide)
      (fun _ ↦ rfl) henv.timestampNul henv.timestamp
  rw [headingOf, hstatus, hshort, hrepo, hsha, htimestamp]

/-- The second table is that of the report. -/
theorem test_table {env : Environment} (henv : env.SingleLine) :
    testTable (aggregate env (jobs.map Job.results)) (jobs.map Job.sectionName) =
      (reportOf env jobs).testTable := by
  have hheads : (jobs.map Job.sectionName).map (fun sec ↦
      columnHead (value sec "rtos".toList (aggregate env (jobs.map Job.results)))
        (value sec "target".toList (aggregate env (jobs.map Job.results)))) =
      (jobs.map Job.summary).map fun job ↦ columnHead job.rtos job.target := by
    rw [List.map_map, List.map_map]
    refine List.map_congr_left fun job hjob ↦ ?_
    obtain ⟨hrtos, htarget, -⟩ := hjobs.value_words henv hjob
    rw [Function.comp_apply, Function.comp_apply, hrtos, htarget]
  have hrows : (testNames jobs).map (fun t ↦ testRow t ((jobs.map Job.sectionName).map
      (cellSymbol (aggregate env (jobs.map Job.results)) t))) =
      (reportOf env jobs).tests.map fun test ↦ testRow test.1 test.2 := by
    rw [reportOf, List.map_map]
    refine List.map_congr_left fun name hname ↦ ?_
    rw [Function.comp_apply, List.map_map]
    refine congrArg (testRow name) (List.map_congr_left fun job hjob ↦ ?_)
    rw [Function.comp_apply, hjobs.cell_symbol henv hjob hname]
  have hnil : (reportOf env jobs).tests = [] ↔ testNames jobs = [] := List.map_eq_nil_iff
  rw [testTable, hjobs.all_tests henv, hheads, hrows, Report.testTable]
  simp only [hnil]
  rfl

end Collectable

/-- From the file that `aggregate` has written about at least one job, `format_summary` prints the
report of the jobs: their own numbers and verdicts, and the symbol of every job for every test. -/
theorem format_summary_report (env : Environment) (jobs : List Job) (henv : env.Printable)
    (hjobs : Collectable jobs) (hne : jobs ≠ []) (errexit : Bool) :
    formatSummary errexit (aggregate env (jobs.map Job.results)) =
      ⟨unlines (reportOf env jobs).markdown, true⟩ := by
  have hsingle := henv.toSingleLine
  have htitles : jobTitles (aggregate env (jobs.map Job.results)) ≠ [] := by
    rw [hjobs.job_titles hsingle]
    exact fun hnil ↦ hne (List.map_eq_nil_iff.mp hnil)
  have hrows : (jobs.map Job.sectionName).map (jobRow (aggregate env (jobs.map Job.results))) =
      (jobs.map Job.summary).map JobSummary.row := by
    rw [List.map_map, List.map_map]
    refine List.map_congr_left fun job hjob ↦ ?_
    rw [Function.comp_apply, Function.comp_apply, hjobs.job_row hsingle hjob]
  rw [formatSummary, if_neg (fun h ↦ htitles h.2), hjobs.job_sections hsingle]
  show Outcome.mk (unlines (reportLines _ ((jobs.map Job.sectionName).map _) _)) true = _
  rw [hrows, hjobs.test_table hsingle, hjobs.heading_of henv]
  rfl

/-- A job with one test, which passed. -/
def freertosJob : Job where
  rtos := "FreeRTOS".toList
  target := "posix".toList
  runnerOs := "ubuntu-24.04".toList
  tests := [uncooperativeRun]
  dir := .fresh

/-- The two jobs have sections of their own. -/
theorem both_collectable : Collectable [threadxJob, freertosJob] := by
  have hname : freertosJob.sectionName = "freertos-posix-ubuntu-24.04".toList :=
    (Job.section_name_of_words ⟨forall_of_all rfl, forall_of_all rfl⟩).trans rfl
  refine ⟨?_, ?_, ?_, ?_⟩
  · simp only [List.forall_mem_cons, threadx_section_name, hname]
    exact ⟨⟨⟨'t', rfl, rfl⟩, forall_of_all rfl, by decide, by decide⟩,
      ⟨⟨'f', rfl, rfl⟩, forall_of_all rfl, by decide, by decide⟩,
      fun _ hnil ↦ absurd hnil List.not_mem_nil⟩
  · simp only [List.map_cons, List.map_nil, threadx_section_name, hname]
    decide
  · simp only [List.forall_mem_cons]
    exact ⟨by decide, by decide, fun _ hnil ↦ absurd hnil List.not_mem_nil⟩
  · simp only [List.forall_mem_cons]
    exact ⟨rfl, rfl, fun _ hnil ↦ absurd hnil List.not_mem_nil⟩

/-- The environment outside the workflow can be printed. -/
theorem local_printable : localEnvironment.Printable :=
  ⟨⟨by decide, by decide, by decide, by decide⟩, by decide, by decide, by decide, by decide⟩

/-- The report of the two jobs: the failed test of the first was skipped by the second. -/
theorem both_reported :
    formatSummary true (aggregate localEnvironment [threadxJob.results, freertosJob.results]) =
      ⟨unlines ["## Thread-Metric Benchmark Results".toList, [],
        ("**❌ Some tests failed** &mdash; [`unknown`]".toList ++
          "(https://github.com/local/commit/unknown) &mdash; 2025-01-01T00:00:00Z".toList), [],
        "### Summary".toList, [],
        "| RTOS | Target | OS | Status | Passed | Failed | Total |".toList,
        "|------|--------|----|--------|--------|--------|-------|".toList,
        "| ThreadX | posix | ubuntu-24.04 | ❌ failed | 1 | 1 | 2 |".toList,
        "| FreeRTOS | posix | ubuntu-24.04 | ✅ passed | 1 | 0 | 1 |".toList, [],
        "### Per-Test Results".toList, [],
        "| Test | ThreadX/posix | FreeRTOS/posix |".toList,
        "|------|------|------|".toList,
        "| `cooperative_scheduling` | ✅ | ✅ |".toList,
        "| `basic_processing` | ❌ | ⏭️ |".toList], true⟩ := by
  have hreport := format_summary_report localEnvironment [threadxJob, freertosJob] local_printable
    both_collectable (List.cons_ne_nil _ _) true
  refine hreport.trans (congrArg (fun ls ↦ Outcome.mk (unlines ls) true) ?_)
  decide +kernel

/-! ## The verdicts of the report -/

/-- The row of a job says `passed` if and only if it has a test and no failed one. -/
theorem Job.summary_passed_iff (job : Job) :
    job.summary.status = .passed ↔ job.summary.failed = 0 ∧ 0 < job.summary.total := by
  have hfailed : job.summary.failed = 0 ↔ ∀ t ∈ job.tests, t.PrintsTotal := by
    show job.tests.countP (¬ ·.PrintsTotal) = 0 ↔ _
    simp [List.countP_eq_zero]
  have htotal : 0 < job.summary.total ↔ job.tests ≠ [] := List.length_pos_iff
  rw [hfailed, htotal]
  show job.status = .passed ↔ _
  rw [Job.status]
  split
  · rename_i h
    exact iff_of_true rfl h
  · rename_i h
    exact iff_of_false (by decide) h

/-- A job's column has the symbol of a failed test if and only if its row counts one. -/
theorem Collectable.column_fails_iff {jobs : List Job} (hjobs : Collectable jobs) {job : Job}
    (hjob : job ∈ jobs) :
    (∃ name ∈ testNames jobs, job.symbol name = .fail) ↔ job.summary.failed ≠ 0 := by
  have hfailed : job.summary.failed ≠ 0 ↔ ∃ t ∈ job.tests, ¬ t.PrintsTotal := by
    show job.tests.countP (¬ ·.PrintsTotal) ≠ 0 ↔ _
    rw [Ne, List.countP_eq_zero]
    simp
  have hsymbol : ∀ t : Test, t.status.symbol = .fail ↔ ¬ t.PrintsTotal := by
    intro t
    rw [Test.status]
    split
    · rename_i htotal
      exact iff_of_false (by decide) (not_not_intro htotal)
    · rename_i htotal
      exact iff_of_true rfl htotal
  rw [hfailed]
  constructor
  · rintro ⟨name, -, hfail⟩
    rw [Job.symbol] at hfail
    cases hfind : job.tests.find? (·.basename = name) with
    | none =>
        rw [hfind] at hfail
        cases hfail
    | some t =>
        rw [hfind, Option.map_some, Option.getD_some] at hfail
        exact ⟨t, List.mem_of_find?_eq_some hfind, (hsymbol t).mp hfail⟩
  · rintro ⟨t, ht, hnot⟩
    have hname : t.basename ∈ testNames jobs :=
      List.mem_eraseDups.mpr (List.mem_flatMap.mpr ⟨job, hjob, List.mem_map_of_mem ht⟩)
    refine ⟨t.basename, hname, ?_⟩
    rw [Job.symbol]
    cases hfind : job.tests.find? (·.basename = t.basename) with
    | none =>
        have hno := List.find?_eq_none.mp hfind t ht
        exact absurd (decide_eq_true rfl) hno
    | some u =>
        have hsame : u.basename = t.basename := by
          have hfound := List.find?_some hfind
          exact of_decide_eq_true hfound
        have hu : u ∈ job.tests := List.mem_of_find?_eq_some hfind
        rw [Option.map_some, Option.getD_some,
          List.inj_on_of_nodup_map (hjobs.tests job hjob) hu ht hsame]
        exact (hsymbol t).mpr hnot

/-- The last step of the workflow finds the overall status. -/
theorem overall_status_passed_iff (env : Environment) (dirs : List ResultDir) :
    overallStatusPassed (aggregate env dirs) = true ↔ overallStatus env dirs = .passed := by
  obtain ⟨rest, hlines⟩ := aggregate_lines env dirs
  rw [overallStatusPassed, hlines]
  cases overallStatus env dirs with
  | passed => exact iff_of_true rfl rfl
  | failed => exact iff_of_false Bool.false_ne_true (by decide)

/-- The report says nothing that contradicts the verdict. The last step of the workflow succeeds if
and only if there is a row and all rows say `passed`; a row says so if and only if it counts a test
and no failed one; the counts of a row add up; and a column has the symbol of a failed test if and
only if its row counts one. -/
theorem report_consistent (env : Environment) (jobs : List Job) (hjobs : Collectable jobs) :
    (overallStatusPassed (aggregate env (jobs.map Job.results)) = true ↔
        (reportOf env jobs).jobs ≠ [] ∧ ∀ row ∈ (reportOf env jobs).jobs, row.status = .passed) ∧
      (∀ row ∈ (reportOf env jobs).jobs,
        (row.status = .passed ↔ row.failed = 0 ∧ 0 < row.total) ∧
          row.passed + row.failed = row.total) ∧
      (testNames jobs).Nodup ∧
      ∀ job ∈ jobs, (∃ name ∈ testNames jobs, job.symbol name = .fail) ↔
        job.summary.failed ≠ 0 := by
  have hrows : (reportOf env jobs).jobs = jobs.map Job.summary := rfl
  have hpassed : ∀ job : Job, job.summary.status = .passed ↔
      job.tests ≠ [] ∧ ∀ t ∈ job.tests, t.PrintsTotal := by
    intro job
    show job.status = .passed ↔ _
    rw [Job.status]
    split
    · rename_i h
      exact iff_of_true rfl h.symm
    · rename_i h
      exact iff_of_false (by decide) fun h' ↦ h h'.symm
  refine ⟨?_, ?_, ?_, fun job hjob ↦ hjobs.column_fails_iff hjob⟩
  · rw [overall_status_passed_iff, overall_jobs_passed_iff, hrows]
    simp only [ne_eq, List.map_eq_nil_iff, List.forall_mem_map, hpassed]
  · rw [hrows, List.forall_mem_map]
    intro job _
    refine ⟨job.summary_passed_iff, ?_⟩
    show job.tests.countP (·.PrintsTotal) + job.tests.countP (¬ ·.PrintsTotal) = job.tests.length
    have hadd := List.length_eq_countP_add_countP (fun t : Test ↦ decide t.PrintsTotal)
      (l := job.tests)
    simpa only [decide_eq_true_eq] using hadd.symm
  · exact nodup_erase_dups _

/-- The report about the two jobs is consistent. -/
theorem both_consistent :
    overallStatusPassed (aggregate localEnvironment [threadxJob.results, freertosJob.results]) =
        false ∧
      (testNames [threadxJob, freertosJob]).Nodup ∧ threadxJob.summary.failed ≠ 0 := by
  obtain ⟨hoverall, -, hnodup, hcolumns⟩ :=
    report_consistent localEnvironment [threadxJob, freertosJob] both_collectable
  have hfail : ∃ name ∈ testNames [threadxJob, freertosJob], threadxJob.symbol name = .fail :=
    ⟨imitatingRun.basename, by decide +kernel, by decide +kernel⟩
  refine ⟨?_, hnodup, (hcolumns threadxJob List.mem_cons_self).mp hfail⟩
  rw [← Bool.not_eq_true]
  intro hpassed
  have hrow := (hoverall.mp hpassed).2 threadxJob.summary List.mem_cons_self
  revert hrow
  decide +kernel

/-! ## The comment -/

/-- No value has a null character. -/
theorem nul_not_mem_value (sec key file : List Char) : '\x00' ∉ value sec key file :=
  nul_not_mem_substitution _

/-- No line of the heading has a null character. -/
theorem nul_not_mem_heading (toml : List Char) : ∀ line ∈ headingOf toml, '\x00' ∉ line := by
  have hbadge : ∀ overall, '\x00' ∉ badge overall := by
    intro overall
    unfold badge
    split <;> decide
  have hvalue := nul_not_mem_value
  show ∀ line ∈ [_, _, _, _, _, _, _, _], _
  simp only [List.forall_mem_cons, List.mem_append, not_or, hvalue, hbadge, not_false_eq_true,
    and_true]
  exact ⟨by decide, by decide⟩

/-- No row of a job has a null character. -/
theorem nul_not_mem_row (toml sec : List Char) : '\x00' ∉ jobRow toml sec := by
  have hsymbol : ∀ sym : Symbol, '\x00' ∉ sym.text := by
    intro sym
    cases sym <;> decide
  have hvalue := nul_not_mem_value
  show '\x00' ∉ rowOf _ _ _ _ _ _ _ _
  unfold rowOf
  simp only [List.mem_append, not_or, hvalue, hsymbol, not_false_eq_true, and_true]
  decide

/-- The second table if there are tests. -/
theorem test_table_of_ne {toml : List Char} {sections : List (List Char)}
    (htests : allTests toml sections ≠ []) :
    testTable toml sections = tableOf
      (sections.map fun sec ↦
        columnHead (value sec "rtos".toList toml) (value sec "target".toList toml))
      ((allTests toml sections).map fun t ↦ testRow t (sections.map (cellSymbol toml t))) :=
  if_neg htests

/-- No line of the second table has a null character. -/
theorem nul_not_mem_table (toml : List Char) (sections : List (List Char)) :
    ∀ line ∈ testTable toml sections, '\x00' ∉ line := by
  have hsymbol : ∀ sym : Symbol, '\x00' ∉ sym.text := by
    intro sym
    cases sym <;> decide
  have hvalue := nul_not_mem_value
  have hname : ∀ t ∈ allTests toml sections, '\x00' ∉ pretty t := by
    intro t ht
    rw [all_tests_eq, List.mem_eraseDups] at ht
    obtain ⟨sec, -, ht⟩ := List.mem_flatMap.mp ht
    obtain ⟨line, -, rfl⟩ := List.mem_map.mp ht
    have hkey : '\x00' ∉ testKey line := nul_not_mem_substitution _
    unfold pretty
    split
    · exact fun hmem ↦ hkey (List.mem_of_mem_drop hmem)
    · exact hkey
  by_cases htests : allTests toml sections = []
  · have hnone : testTable toml sections = [] := if_pos htests
    rw [hnone]
    exact fun _ hnil ↦ absurd hnil List.not_mem_nil
  · rw [test_table_of_ne htests]
    intro line hline
    rcases List.mem_cons.mp hline with rfl | hline
    · simp only [List.mem_append, List.mem_flatten, List.mem_map, not_or, not_exists, not_and]
      refine ⟨by decide, ?_⟩
      rintro head ⟨sec, -, rfl⟩
      unfold columnHead
      simp only [List.mem_append, not_or, hvalue, not_false_eq_true, and_true]
      decide
    · rcases List.mem_cons.mp hline with rfl | hline
      · simp only [List.mem_append, List.mem_flatMap, not_or, not_exists, not_and]
        exact ⟨by decide, fun _ _ ↦ by decide⟩
      · obtain ⟨t, ht, rfl⟩ := List.mem_map.mp hline
        unfold testRow
        simp only [List.mem_append, List.mem_flatMap, not_or, not_exists, not_and, hname t ht,
          hsymbol, not_false_eq_true, and_true]
        exact ⟨by decide, fun _ _ ↦ by decide⟩

/-- The last line of a table with a row ends in a bar. -/
theorem getLast_test_row (t : List Char) (symbols : List Symbol) :
    (testRow t symbols).getLast? = some '|' := by
  unfold testRow
  rcases List.eq_nil_or_concat symbols with rfl | ⟨first, last, rfl⟩
  · rw [List.flatMap_nil, List.append_nil, List.getLast?_append_of_ne_nil _ (by decide)]
    rfl
  · rw [List.concat_eq_append, List.flatMap_append, ← List.append_assoc, List.flatMap_singleton,
      ← List.append_assoc, List.getLast?_append_of_ne_nil _ (by decide)]
    rfl

/-- For a file with a test, the comment is the report, although it is rendered without `set -e`. -/
theorem comment_is_report (toml : List Char) (htests : allTests toml (jobSections toml) ≠ []) :
    formatSummary true toml = ⟨commentBody toml, true⟩ := by
  have htitles : jobTitles toml ≠ [] := by
    intro hnil
    refine htests ?_
    rw [jobSections, hnil]
    rfl
  obtain ⟨ls, hls⟩ : ∃ ls, reportLines (headingOf toml) ((jobSections toml).map (jobRow toml))
      (testTable toml (jobSections toml)) = ls := ⟨_, rfl⟩
  have hformat : ∀ errexit, formatSummary errexit toml = ⟨unlines ls, true⟩ := by
    intro errexit
    rw [formatSummary, if_neg (fun h ↦ htitles h.2)]
    exact congrArg (fun ls ↦ Outcome.mk (unlines ls) true) hls
  have hnul : '\x00' ∉ unlines ls := by
    intro hmem
    obtain ⟨line, hline, hchar⟩ := List.mem_flatMap.mp hmem
    have hfree : '\x00' ∉ line := by
      rw [← hls, reportLines] at hline
      rcases List.mem_append.mp hline with hline | hline
      · rcases List.mem_append.mp hline with hline | hline
        · rcases List.mem_append.mp hline with hline | hline
          · exact nul_not_mem_heading toml line hline
          · obtain ⟨sec, -, rfl⟩ := List.mem_map.mp hline
            exact nul_not_mem_row toml sec
        · revert hline
          simp only [List.mem_cons, List.not_mem_nil, or_false]
          rintro (rfl | rfl | rfl) <;> decide
      · exact nul_not_mem_table toml _ line hline
    rcases List.mem_append.mp hchar with hchar | hchar
    · exact hfree hchar
    · exact absurd (List.mem_singleton.mp hchar) (by decide)
  obtain ⟨first, last, hlast, hbar⟩ : ∃ first last, ls = first ++ [last] ∧
      last.getLast? = some '|' := by
    obtain ⟨names, t, hnames⟩ := (List.eq_nil_or_concat _).resolve_left htests
    rw [List.concat_eq_append] at hnames
    rw [← hls, reportLines, test_table_of_ne htests, tableOf, hnames, List.map_append,
      List.map_singleton, ← List.cons_append, ← List.cons_append, ← List.append_assoc]
    exact ⟨_, _, rfl, getLast_test_row _ _⟩
  have htext : unlines ls = (unlines first ++ last) ++ ['\n'] := by
    rw [hlast]
    simp
  have hend : ∀ c ∈ (unlines first ++ last).getLast?, c ≠ '\n' := by
    intro c hc
    have hne : last ≠ [] := by
      intro hnil
      rw [hnil] at hbar
      cases hbar
    rw [List.getLast?_append_of_ne_nil _ hne, hbar] at hc
    rw [← Option.some.inj hc]
    decide
  have hoption : isEchoOption (unlines first ++ last) = false := by
    obtain ⟨rest, hrest⟩ : ∃ rest, unlines ls = '#' :: rest := ⟨_, by rw [← hls]; rfl⟩
    have hhead : (unlines first ++ last).head? = some '#' := by
      cases hcase : unlines first ++ last with
      | nil =>
          rw [htext, hcase] at hrest
          exact absurd (List.cons.inj hrest).1 (by decide)
      | cons c tail =>
          rw [htext, hcase] at hrest
          rw [List.head?_cons, (List.cons.inj hrest).1]
    rw [isEchoOption, hhead]
    rfl
  rw [commentBody, hformat true, hformat false, htext]
  rw [htext] at hnul
  rw [substitution_newline (fun hmem ↦ hnul (List.mem_append_left _ hmem)) hend, echo, hoption,
    if_neg Bool.false_ne_true]

/-- The comment on the two jobs is their report. -/
theorem both_commented :
    let file := aggregate localEnvironment [threadxJob.results, freertosJob.results]
    formatSummary true file = ⟨commentBody file, true⟩ := by
  refine comment_is_report _ ?_
  have hsections := both_collectable.job_sections local_printable.toSingleLine
  have htests := both_collectable.all_tests local_printable.toSingleLine
  rw [← hsections] at htests
  intro hnil
  have hnames : testNames [threadxJob, freertosJob] = [] := htests.symm.trans hnil
  revert hnames
  decide +kernel

end ThreadMetric.Ci
