import ThreadMetric.Ci.CollectData

/-!
# The summary of all jobs

`aggregate` writes one TOML file from the results of all jobs. It begins with a pending status, to
which `sed` gives its value at the end. `getValue` reads the file back; `get_overall_status` says
that it finds the status that the loop over the jobs has determined, and `overall_passed_iff` what
that is.
-/

namespace ThreadMetric.Ci

open Shell CStrings

/-- What `aggregate` takes from its environment. An unset variable is empty, and `gitHead` is the
result of `$(git rev-parse HEAD 2> /dev/null || echo unknown)`. -/
structure Environment where
  githubSha : List Char
  gitHead : List Char
  githubRepository : List Char
  timestamp : List Char

/-- `${variable:-default}`. -/
def orDefault (value default : List Char) : List Char :=
  if value = [] then default else value

/-- `key = "value"`. -/
def quoted (key value : List Char) : List Char :=
  key ++ " = \"".toList ++ value ++ "\"".toList

/-- The first lines of the file. -/
def summaryLines (env : Environment) : List (List Char) :=
  let commitSha := orDefault env.githubSha env.gitHead
  ["[summary]".toList, quoted "status".toList "pending".toList,
    quoted "timestamp".toList env.timestamp, quoted "commit_sha".toList commitSha,
    quoted "commit_short".toList (commitSha.take 7),
    quoted "repository".toList (orDefault env.githubRepository "local".toList), []]

/-- `$(cat file 2> /dev/null || echo …)`. -/
def contents (file : Option (List Char)) (default : List Char) : List Char :=
  commandSubstitution (file.getD (default ++ ['\n']))

namespace ResultDir

/-- `rtos-target-os` in lower case, with `-` for every blank. -/
def sectionName (dir : ResultDir) : List Char :=
  let name := contents dir.rtos "unknown".toList ++ "-".toList ++
    contents dir.target "unknown".toList ++ "-".toList ++ contents dir.runnerOs "unknown".toList
  -- with two `-` in it, the name is no option of `echo`
  commandSubstitution (((name ++ ['\n']).map Char.toLower).map fun c ↦ if c = ' ' then '-' else c)

/-- The value of `status` for a directory with a file of that name. -/
def statusValue (dir : ResultDir) : List Char :=
  contents dir.status "failed".toList

/-- The lines about the job. -/
def jobLines (dir : ResultDir) : List (List Char) :=
  ["[".toList ++ dir.sectionName ++ "]".toList,
    quoted "rtos".toList (contents dir.rtos "unknown".toList),
    quoted "target".toList (contents dir.target "unknown".toList),
    quoted "runner_os".toList (contents dir.runnerOs "unknown".toList),
    quoted "status".toList dir.statusValue,
    "passed = ".toList ++ contents dir.passed "0".toList,
    "failed = ".toList ++ contents dir.failed "0".toList,
    "total = ".toList ++ contents dir.total "0".toList, []]

/-- `IFS='=' read -r name result` and the line that is written for it. -/
def testLine (line : List Char) : List Char :=
  let name := line.takeWhile (· ≠ '=')
  let result := (line.dropWhile (· ≠ '=')).drop 1
  quoted ("\"".toList ++ name ++ "\"".toList) result

/-- The lines about the tests of the job. -/
def testLines (dir : ResultDir) : List (List Char) :=
  match dir.testsData with
  | none => []
  | some data =>
      ("[".toList ++ dir.sectionName ++ ".tests]".toList) :: data.map testLine ++ [[]]

end ResultDir

/-- The output file and the variables of the loop in `aggregate`. -/
structure Aggregation where
  output : List Char
  overall : Status
  jobCount : ℕ

/-- One turn of the loop. A directory without a status is skipped. -/
def Aggregation.job (s : Aggregation) (dir : ResultDir) : Aggregation :=
  if dir.status.isSome then
    { output := s.output ++ unlines dir.jobLines ++ unlines dir.testLines
      overall := if dir.statusValue = Status.passed.text then s.overall else .failed
      jobCount := s.jobCount + 1 }
  else s

/-- The loop over all directories. -/
def aggregateJobs (env : Environment) (dirs : List ResultDir) : Aggregation :=
  dirs.foldl Aggregation.job ⟨unlines (summaryLines env), .passed, 0⟩

/-- The overall status. -/
def overallStatus (env : Environment) (dirs : List ResultDir) : Status :=
  let s := aggregateJobs env dirs
  if s.jobCount = 0 then .failed else s.overall

/-- `s/^status = "pending"/status = "…"/`. -/
def patchStatus (overall : Status) (line : List Char) : List Char :=
  let pending := quoted "status".toList "pending".toList
  if pending.isPrefixOf line then
    quoted "status".toList overall.text ++ line.drop pending.length
  else line

/-- `aggregate`: the contents of the output file. -/
def aggregate (env : Environment) (dirs : List ResultDir) : List Char :=
  sed (patchStatus (overallStatus env dirs)) (aggregateJobs env dirs).output

/-! ## The overall status -/

/-- The loop counts the directories with a status, keeps the status `passed` as long as all of them
have passed, and appends their lines. -/
theorem aggregate_jobs_eq (env : Environment) (dirs : List ResultDir) :
    aggregateJobs env dirs =
      { output := unlines (summaryLines env ++
          (dirs.filter (·.status.isSome)).flatMap fun dir ↦ dir.jobLines ++ dir.testLines)
        overall :=
          if ∀ dir ∈ dirs, dir.status.isSome = true → dir.statusValue = Status.passed.text then
            .passed else .failed
        jobCount := (dirs.filter (·.status.isSome)).length } := by
  induction dirs using List.reverseRecOn with
  | nil =>
      rw [List.filter_nil, List.flatMap_nil, List.append_nil]
      rfl
  | append_singleton dirs dir ih =>
      have hstep : aggregateJobs env (dirs ++ [dir]) = (aggregateJobs env dirs).job dir := by
        rw [aggregateJobs, List.foldl_append, List.foldl_cons, List.foldl_nil, aggregateJobs]
      rw [hstep, ih, Aggregation.job]
      by_cases hsome : dir.status.isSome = true
      · by_cases hpassed : dir.statusValue = Status.passed.text
        · simp [hsome, hpassed, or_imp, forall_and]
        · simp [hsome, hpassed, or_imp, forall_and]
      · simp [hsome, or_imp, forall_and]

/-- The overall status is `passed` if and only if some directory has a status and all statuses are
`passed`. -/
theorem overall_passed_iff (env : Environment) (dirs : List ResultDir) :
    overallStatus env dirs = .passed ↔
      (∃ dir ∈ dirs, dir.status.isSome = true) ∧
        ∀ dir ∈ dirs, dir.status.isSome = true → dir.statusValue = Status.passed.text := by
  have hnone : (dirs.filter (·.status.isSome)).length = 0 ↔
      ¬∃ dir ∈ dirs, dir.status.isSome = true := by
    rw [List.length_eq_zero_iff, List.filter_eq_nil_iff]
    simp
  rw [overallStatus, aggregate_jobs_eq]
  simp only [hnone]
  by_cases hexists : ∃ dir ∈ dirs, dir.status.isSome = true
  · rw [if_neg (not_not_intro hexists)]
    by_cases hall : ∀ dir ∈ dirs, dir.status.isSome = true →
        dir.statusValue = Status.passed.text
    · rw [if_pos hall]
      exact iff_of_true rfl ⟨hexists, hall⟩
    · rw [if_neg hall]
      exact iff_of_false (by decide) fun h ↦ hall h.2
  · rw [if_pos hexists]
    exact iff_of_false (by decide) fun h ↦ hexists h.1

/-! ## Reading the file -/

/-- The key of a line: what stands before the first `=`, without blanks at its end and quotes. -/
def keyOf (line : List Char) : List Char :=
  ((line.takeWhile (· ≠ '=')).rdropWhile isSpace).filter (· ≠ '"')

/-- The value of a line: what follows the first `=` and blanks, without one quote at each end. -/
def valueOf (line : List Char) : List Char :=
  let value := ((line.dropWhile (· ≠ '=')).drop 1).dropWhile isSpace
  let value := if value.head? = some '"' then value.drop 1 else value
  if value.getLast? = some '"' then value.dropLast else value

/-- The `awk` program of `get_value` on the rest of the lines, given `in_sec`. -/
def scanValue (sec key : List Char) : Bool → List (List Char) → Option (List Char)
  | _, [] => none
  | inSec, line :: rest =>
      let inSec := if line.head? = some '[' then
        decide (line = "[".toList ++ sec ++ "]".toList) else inSec
      if inSec ∧ '=' ∈ line ∧ keyOf line = key.filter (· ≠ '"') then some (valueOf line)
      else scanValue sec key inSec rest

/-- `get_value section key file`: what it prints, if anything. -/
def getValue (sec key file : List Char) : Option (List Char) :=
  scanValue sec key false (lines file)

/-- The file begins with its section name and the overall status. -/
theorem aggregate_lines (env : Environment) (dirs : List ResultDir) :
    ∃ rest, lines (aggregate env dirs) =
      "[summary]".toList :: quoted "status".toList (overallStatus env dirs).text :: rest := by
  obtain ⟨rest, hrest⟩ : ∃ rest, (aggregateJobs env dirs).output =
      "[summary]".toList ++ '\n' :: (quoted "status".toList "pending".toList ++ '\n' :: rest) := by
    rw [aggregate_jobs_eq]
    exact ⟨_, by simp only [summaryLines, List.cons_append, unlines_cons]; rfl⟩
  have hsummary : patchStatus (overallStatus env dirs) "[summary]".toList = "[summary]".toList :=
    rfl
  have hstatus : patchStatus (overallStatus env dirs) (quoted "status".toList "pending".toList) =
      quoted "status".toList (overallStatus env dirs).text := by
    rw [patchStatus, if_pos (by decide), List.drop_length, List.append_nil]
  have hnewline : '\n' ∉ quoted "status".toList (overallStatus env dirs).text := by
    cases overallStatus env dirs <;> decide
  refine ⟨lines (unlines ((lines rest).map (patchStatus (overallStatus env dirs)))), ?_⟩
  rw [aggregate, sed, hrest, lines_cons (by decide), lines_cons (by decide), List.map_cons,
    List.map_cons, hsummary, hstatus, unlines_cons, unlines_cons, lines_cons (by decide),
    lines_cons hnewline]

/-- `get_value summary status` is the overall status. -/
theorem get_overall_status (env : Environment) (dirs : List ResultDir) :
    getValue "summary".toList "status".toList (aggregate env dirs) =
      some (overallStatus env dirs).text := by
  obtain ⟨rest, hlines⟩ := aggregate_lines env dirs
  rw [getValue, hlines]
  cases overallStatus env dirs with
  | passed => rfl
  | failed => rfl

end ThreadMetric.Ci
