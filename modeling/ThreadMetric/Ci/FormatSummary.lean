import ThreadMetric.Ci.Sections

/-!
# The report of the summary

`format_summary` reads the file that `aggregate` has written and prints a report in Markdown: a line
with the overall status, a table with a row for each job, and a table with a row for each test and
a column for each job. The lemmas below say what it reads in a document.
-/

namespace ThreadMetric.Ci

open Shell CStrings

/-- The symbols of the report. -/
inductive Symbol where
  | pass
  | fail
  | skip
  deriving DecidableEq

/-- `$sym_pass`, `$sym_fail` and `$sym_skip`. -/
def Symbol.text : Symbol → List Char
  | pass => "✅".toList
  | fail => "❌".toList
  | skip => "⏭️".toList

/-- `get_symbol`. -/
def getSymbol (status : List Char) : Symbol :=
  if status = Status.passed.text then .pass
  else if status = Status.failed.text then .fail
  else .skip

/-- `$(get_value section key file)`. -/
def value (sec key file : List Char) : List Char :=
  commandSubstitution ((getValue sec key file).elim [] (· ++ ['\n']))

/-- The `awk` program of `get_section_keys` on the rest of the lines, given `in_sec`. -/
def scanKeys (sec : List Char) : Bool → List (List Char) → List (List Char)
  | _, [] => []
  | inSec, line :: rest =>
      if line.head? = some '[' then
        scanKeys sec (decide (line = "[".toList ++ sec ++ "]".toList)) rest
      else if inSec ∧ '=' ∈ line then line :: scanKeys sec inSec rest
      else scanKeys sec inSec rest

/-- `get_section_keys section file`: the lines that it prints. -/
def getSectionKeys (sec file : List Char) : List (List Char) :=
  scanKeys sec false (lines file)

/-! ## The sections of the jobs -/

/-- `grep -E '^\[[a-z]'`. -/
def isTitle : List Char → Bool
  | bracket :: letter :: _ => bracket = '[' && letter.isLower
  | _ => false

/-- The three filters: titles, except of the first section and of sections with tests. -/
def isJobTitle (line : List Char) : Bool :=
  isTitle line && !"[summary".toList.isPrefixOf line && !(".tests]".toList <:+: line : Bool)

/-- The titles that the three filters let through. With `pipefail` the pipeline fails if there is
none. -/
def jobTitles (toml : List Char) : List (List Char) :=
  (lines toml).filter isJobTitle

/-- `$sections`, split into words; `sed` takes away the first `[` and the first `]`. -/
def jobSections (toml : List Char) : List (List Char) :=
  words (commandSubstitution
    (unlines ((jobTitles toml).map fun line ↦ (line.erase '[').erase ']')))

/-- A row of the first table. -/
def rowOf (rtos target runnerOs sym status passed failed total : List Char) : List Char :=
  "| ".toList ++ rtos ++ " | ".toList ++ target ++ " | ".toList ++ runnerOs ++
    " | ".toList ++ sym ++ " ".toList ++ status ++ " | ".toList ++ passed ++
    " | ".toList ++ failed ++ " | ".toList ++ total ++ " |".toList

/-- The row of a job. -/
def jobRow (toml sec : List Char) : List Char :=
  let status := value sec "status".toList toml
  rowOf (value sec "rtos".toList toml) (value sec "target".toList toml)
    (value sec "runner_os".toList toml) (getSymbol status).text status
    (value sec "passed".toList toml) (value sec "failed".toList toml)
    (value sec "total".toList toml)

/-! ## The names of the tests -/

/-- `s/^"//;s/"[[:space:]]*$//`. -/
def stripQuotes (line : List Char) : List Char :=
  let line := if line.head? = some '"' then line.tail else line
  let kept := line.rdropWhile isSpace
  if kept.getLast? = some '"' then kept.dropLast else line

/-- `k`: what `IFS='=' read -r k _` takes of a line, without quotes. -/
def testKey (line : List Char) : List Char :=
  commandSubstitution (sed stripQuotes (echo (line.takeWhile (· ≠ '='))))

/-- Add the test if it is not already present. -/
def addTest (allTests : List (List Char)) (k : List Char) : List (List Char) :=
  if k ∈ allTests then allTests else allTests ++ [k]

/-- `all_tests`. -/
def allTests (toml : List Char) (sections : List (List Char)) : List (List Char) :=
  sections.foldl (fun found sec ↦
    (getSectionKeys (sec ++ ".tests".toList) toml).foldl (fun found line ↦
      addTest found (testKey line)) found) []

/-! ## The table of the tests -/

/-- The head of a job's column: `printf " %s/%s |"`. -/
def columnHead (rtos target : List Char) : List Char :=
  " ".toList ++ rtos ++ "/".toList ++ target ++ " |".toList

/-- `${t#tm_}`. -/
def pretty (t : List Char) : List Char :=
  if "tm_".toList.isPrefixOf t then t.drop "tm_".toList.length else t

/-- The symbol of a test in a job's column. -/
def cellSymbol (toml t sec : List Char) : Symbol :=
  let val := value (sec ++ ".tests".toList) ("\"".toList ++ t ++ "\"".toList) toml
  getSymbol (if val = [] then "skipped".toList else val)

/-- The row of a test with the symbols of all columns. -/
def testRow (t : List Char) (symbols : List Symbol) : List Char :=
  "| `".toList ++ pretty t ++ "` |".toList ++
    symbols.flatMap fun sym ↦ " ".toList ++ sym.text ++ " |".toList

/-- The lines of the second table: its head, the separator and the rows. -/
def tableOf (heads : List (List Char)) (rows : List (List Char)) : List (List Char) :=
  ("| Test |".toList ++ heads.flatten) ::
    ("|------|".toList ++ heads.flatMap fun _ ↦ "------|".toList) :: rows

/-- The second table, if there are any tests. -/
def testTable (toml : List Char) (sections : List (List Char)) : List (List Char) :=
  let tests := allTests toml sections
  if tests = [] then []
  else
    tableOf
      (sections.map fun sec ↦
        columnHead (value sec "rtos".toList toml) (value sec "target".toList toml))
      (tests.map fun t ↦ testRow t (sections.map (cellSymbol toml t)))

/-! ## The report -/

/-- `badge`. -/
def badge (overall : List Char) : List Char :=
  if overall = Status.passed.text then Symbol.pass.text ++ " All tests passed".toList
  else Symbol.fail.text ++ " Some tests failed".toList

/-- The lines above the first table and its head. -/
def heading (badge commitShort repo commitSha timestamp : List Char) : List (List Char) :=
  ["## Thread-Metric Benchmark Results".toList, [],
    "**".toList ++ badge ++ "** &mdash; [`".toList ++ commitShort ++
      "`](https://github.com/".toList ++ repo ++ "/commit/".toList ++ commitSha ++
      ") &mdash; ".toList ++ timestamp, [],
    "### Summary".toList, [],
    "| RTOS | Target | OS | Status | Passed | Failed | Total |".toList,
    "|------|--------|----|--------|--------|--------|-------|".toList]

/-- What a function of the script has printed, and whether it has come to its end. -/
structure Outcome where
  stdout : List Char
  completed : Bool

/-- The lines that `format_summary` prints before it looks for sections. -/
def headingOf (toml : List Char) : List (List Char) :=
  heading (badge (value "summary".toList "status".toList toml))
    (value "summary".toList "commit_short".toList toml)
    (value "summary".toList "repository".toList toml)
    (value "summary".toList "commit_sha".toList toml)
    (value "summary".toList "timestamp".toList toml)

/-- The report with a heading, the rows of the jobs and the table of the tests. -/
def reportLines (heading rows table : List (List Char)) : List (List Char) :=
  heading ++ rows ++ [[], "### Per-Test Results".toList, []] ++ table

/-- `format_summary toml_file`. Under `set -e` it ends where the pipeline of the sections fails. -/
def formatSummary (errexit : Bool) (toml : List Char) : Outcome :=
  if errexit ∧ jobTitles toml = [] then ⟨unlines (headingOf toml), false⟩
  else
    let sections := jobSections toml
    ⟨unlines (reportLines (headingOf toml) (sections.map (jobRow toml))
      (testTable toml sections)), true⟩

/-- The body of the comment that `post_comment` writes. A command substitution runs without
`set -e`. -/
def commentBody (toml : List Char) : List Char :=
  echo (commandSubstitution (formatSummary false toml).stdout)

/-- The value between the last two quotes of a line and what follows them:
`sed 's/.*"\(.*\)"/\1/'`. -/
def betweenQuotes (line : List Char) : List Char :=
  let after := line.reverse.takeWhile (· ≠ '"')
  let quoted := (line.reverse.dropWhile (· ≠ '"')).drop 1
  if '"' ∈ quoted then (after ++ quoted.takeWhile (· ≠ '"')).reverse else line

/-- The step of the workflow that checks the overall status succeeds. -/
def overallStatusPassed (toml : List Char) : Bool :=
  let found := ((lines toml).dropWhile fun line ↦ !"[summary]".toList.isPrefixOf line).find?
    fun line ↦ "status".toList.isPrefixOf line
  let status := commandSubstitution (found.elim [] fun line ↦ betweenQuotes line ++ ['\n'])
  status = Status.passed.text

/-! ## The sections of a document -/

/-- The title of a section. -/
def Section.title (s : Section) : List Char :=
  "[".toList ++ s.name ++ "]".toList

/-- No field stands in a line that begins a section. -/
theorem Field.head_line (f : Field) : f.line.head? ≠ some '[' := by
  rw [line, List.append_assoc]
  cases hkey : f.key.text with
  | nil =>
      intro hblank
      have hchars : ' ' = '[' := Option.some.inj hblank
      exact absurd hchars (by decide)
  | cons c text =>
      have hbracket := f.key.not_bracket
      rwa [hkey] at hbracket

/-- Of the lines of a section only its title can be the title of a job. -/
theorem Section.filter_lines (s : Section) :
    s.lines.filter isJobTitle = if isJobTitle s.title = true then [s.title] else [] := by
  have hother : ∀ line : List Char, line.head? ≠ some '[' → isJobTitle line = false := by
    intro line hhead
    cases line with
    | nil => rfl
    | cons c rest =>
        have hc : c ≠ '[' := fun h ↦ hhead (congrArg some h)
        cases rest <;> simp [isJobTitle, isTitle, hc]
  have hfields : (s.fields.map Field.line ++ [[]]).filter isJobTitle = [] := by
    rw [List.filter_eq_nil_iff]
    intro line hline
    rw [Bool.not_eq_true]
    rcases List.mem_append.mp hline with hline | hline
    · obtain ⟨f, -, rfl⟩ := List.mem_map.mp hline
      exact hother _ f.head_line
    · rw [List.mem_singleton.mp hline]
      rfl
  show (s.title :: (s.fields.map Field.line ++ [[]])).filter isJobTitle = _
  rw [List.filter_cons, hfields]

section Keys

variable (sec : List Char)

/-- The fields of the section are printed, and no others. -/
theorem scan_keys_fields (inSec : Bool) (fields : List Field) (rest : List (List Char)) :
    scanKeys sec inSec (fields.map Field.line ++ rest) =
      (if inSec then fields.map Field.line else []) ++ scanKeys sec inSec rest := by
  induction fields with
  | nil => cases inSec <;> rfl
  | cons f fields ih =>
      have hequals : '=' ∈ f.line := by simp [Field.line]
      rw [List.map_cons, List.cons_append, scanKeys, if_neg f.head_line, ih]
      cases inSec with
      | false => rfl
      | true =>
          rw [if_pos ⟨rfl, hequals⟩]
          rfl

/-- The fields of a section are printed if it has the name. -/
theorem scan_keys_section (inSec : Bool) (s : Section) (rest : List (List Char)) :
    scanKeys sec inSec (s.lines ++ rest) =
      (if s.name = sec then s.fields.map Field.line else []) ++
        scanKeys sec (decide (s.name = sec)) rest := by
  have hname : s.title = "[".toList ++ sec ++ "]".toList ↔ s.name = sec := by
    rw [Section.title, List.append_left_inj, List.append_right_inj]
  have hhead : s.title.head? = some '[' := rfl
  have hempty : ∀ inSec, scanKeys sec inSec ([] :: rest) = scanKeys sec inSec rest := by
    intro inSec
    cases inSec <;> rfl
  show scanKeys sec inSec (s.title :: (s.fields.map Field.line ++ [[]] ++ rest)) = _
  rw [scanKeys, if_pos hhead]
  simp only [hname]
  rw [List.append_assoc, scan_keys_fields, List.singleton_append, hempty]
  simp only [decide_eq_true_eq]

/-- The fields of all sections with the name are printed. -/
theorem scan_keys_document (inSec : Bool) (doc : List Section) :
    scanKeys sec inSec (doc.flatMap Section.lines) =
      doc.flatMap fun s ↦ if s.name = sec then s.fields.map Field.line else [] := by
  induction doc generalizing inSec with
  | nil => cases inSec <;> rfl
  | cons s doc ih => rw [List.flatMap_cons, scan_keys_section, ih, List.flatMap_cons]

end Keys

/-! ## Keys and values -/

/-- The quotes around a key do not matter. -/
theorem scan_value_quotes (sec : List Char) {key other : List Char}
    (hkey : key.filter (· ≠ '"') = other.filter (· ≠ '"')) (inSec : Bool)
    (ls : List (List Char)) : scanValue sec key inSec ls = scanValue sec other inSec ls := by
  induction ls generalizing inSec with
  | nil => cases inSec <;> rfl
  | cons line ls ih => rw [scanValue, scanValue, hkey, ih]

/-- A text of one line is taken as it is printed. -/
theorem value_of_get {sec key file text : List Char} (hget : getValue sec key file = some text)
    (hnul : '\x00' ∉ text) (hnewline : '\n' ∉ text) : value sec key file = text := by
  rw [value, hget]
  refine substitution_newline hnul fun c hc ↦ ?_
  exact ne_of_mem_of_not_mem (List.mem_of_mem_getLast? hc) hnewline

/-- Adding one test after another keeps the first of equal ones. -/
theorem fold_add_test (names : List (List Char)) : names.foldl addTest [] = names.eraseDups := by
  induction names using List.reverseRecOn with
  | nil => rfl
  | append_singleton names name ih =>
      rw [List.foldl_append, ih, List.foldl_cons, List.foldl_nil, List.eraseDups_append, addTest]
      by_cases hmem : name ∈ names
      · have hremoved : [name].removeAll names = [] := by simp [List.removeAll, hmem]
        rw [if_pos (List.mem_eraseDups.mpr hmem), hremoved, List.eraseDups_nil, List.append_nil]
      · have hkept : [name].removeAll names = [name] := by simp [List.removeAll, hmem]
        rw [if_neg (fun h ↦ hmem (List.mem_eraseDups.mp h)), hkept]
        rfl

/-- The tests of the report are the keys of all sections, each once. -/
theorem all_tests_eq (toml : List Char) (sections : List (List Char)) :
    allTests toml sections =
      (sections.flatMap fun sec ↦
        (getSectionKeys (sec ++ ".tests".toList) toml).map testKey).eraseDups := by
  rw [← fold_add_test, List.foldl_flatMap, allTests]
  simp only [List.foldl_map]

end ThreadMetric.Ci
