import ThreadMetric.Ci.Aggregate

/-!
# The sections of the summary

The file that `aggregate` writes is a document: sections of fields, each section with a name and
each field with a key. `get_value_document` says what `getValue` means for documents, and
`aggregate_document` which document `aggregate` writes.
-/

namespace ThreadMetric.Ci

open Shell CStrings

/-- A key as it stands in its line. No line with a key begins a section, and the key ends where the
first `=` or the blanks before it begin. -/
structure Key where
  text : List Char
  not_bracket : text.head? ≠ some '['
  not_equals : '=' ∉ text
  not_blank : ∀ c ∈ text.getLast?, isSpace c = false

/-- A line `key = text`. -/
structure Field where
  key : Key
  text : List Char

/-- A section: its name and its fields. -/
structure Section where
  name : List Char
  fields : List Field

namespace Field

/-- The line of the field. -/
def line (f : Field) : List Char :=
  f.key.text ++ " = ".toList ++ f.text

/-- What `getValue` finds in the field. -/
def get (key : List Char) (f : Field) : Option (List Char) :=
  if f.key.text.filter (· ≠ '"') = key.filter (· ≠ '"') then some (valueOf f.line) else none

end Field

namespace Section

/-- The lines of the section: its name, its fields and an empty line. -/
def lines (s : Section) : List (List Char) :=
  ("[".toList ++ s.name ++ "]".toList) :: (s.fields.map Field.line ++ [[]])

/-- What `getValue` finds in the section. -/
def get (sec key : List Char) (s : Section) : Option (List Char) :=
  if s.name = sec then s.fields.findSome? (Field.get key) else none

end Section

/-! ## Reading a document -/

/-- The rest of a line after its key. -/
theorem Field.cut (f : Field) :
    f.line.takeWhile (· ≠ '=') = f.key.text ++ [' '] ∧
      f.line.dropWhile (· ≠ '=') = '=' :: ' ' :: f.text := by
  have hkey : ∀ c ∈ f.key.text ++ [' '], decide (c ≠ '=') = true := by
    intro c hc
    rcases List.mem_append.mp hc with hc | hc
    · exact decide_eq_true (ne_of_mem_of_not_mem hc f.key.not_equals)
    · rw [List.mem_singleton.mp hc]
      rfl
  have hstop : ∀ c ∈ ('=' :: ' ' :: f.text).head?, decide (c ≠ '=') = false := by
    intro c hc
    rw [← Option.some.inj hc]
    rfl
  have hline : f.line = (f.key.text ++ [' ']) ++ '=' :: ' ' :: f.text := by
    rw [line, List.append_assoc, List.append_assoc]
    rfl
  rw [hline]
  exact cut_append hkey hstop

/-- The key of the line is the key of the field without its quotes. -/
theorem Field.key_of_line (f : Field) : keyOf f.line = f.key.text.filter (· ≠ '"') := by
  rw [keyOf, f.cut.1, List.rdropWhile_concat_pos _ _ _ rfl]
  cases htext : f.key.text.getLast? with
  | none => rw [List.getLast?_eq_none_iff.mp htext, List.rdropWhile_nil]
  | some c =>
      have hblank : ¬ isSpace c = true := by
        rw [f.key.not_blank c htext]
        exact Bool.false_ne_true
      obtain ⟨first, hfirst⟩ := List.getLast?_eq_some_iff.mp htext
      rw [hfirst, List.rdropWhile_concat_neg _ _ _ hblank]

/-- A field in double quotes has the value between them. -/
theorem Field.value_of_quoted {f : Field} {value : List Char}
    (htext : f.text = '"' :: (value ++ ['"'])) : valueOf f.line = value := by
  have hblank : isSpace ' ' = true := rfl
  have hquote : isSpace '"' = false := rfl
  rw [valueOf, f.cut.2, htext]
  simp [hblank, hquote]

/-- A field without quotes and blanks is its own value. -/
theorem Field.value_of_plain {f : Field} (hspace : ∀ c ∈ f.text, isSpace c = false)
    (hquote : '"' ∉ f.text) : valueOf f.line = f.text := by
  have hblank : isSpace ' ' = true := rfl
  have hdrop : f.text.dropWhile isSpace = f.text := by
    rw [List.dropWhile_eq_self_iff]
    intro hlength hfirst
    rw [hspace _ (List.getElem_mem hlength)] at hfirst
    exact Bool.false_ne_true hfirst
  have hhead : f.text.head? ≠ some '"' := fun hhead ↦ hquote (List.mem_of_mem_head? hhead)
  have hlast : f.text.getLast? ≠ some '"' := fun hlast ↦ hquote (List.mem_of_mem_getLast? hlast)
  rw [valueOf, f.cut.2, List.drop_one, List.tail_cons, List.dropWhile_cons_of_pos hblank, hdrop]
  simp only [if_neg hhead, if_neg hlast]

/-- The line of a name is the field of no key. -/
theorem key_of_name {key : List Char} (hkey : (key.filter (· ≠ '"')).head? ≠ some '[')
    (text : List Char) : keyOf ('[' :: text) ≠ key.filter (· ≠ '"') := by
  obtain ⟨rest, htake⟩ : ∃ rest, ('[' :: text).takeWhile (· ≠ '=') = '[' :: rest :=
    ⟨_, List.takeWhile_cons_of_pos rfl⟩
  have hne : ('[' :: rest).rdropWhile isSpace ≠ [] := by
    intro hnil
    rw [List.rdropWhile_eq_nil_iff] at hnil
    exact Bool.noConfusion (hnil '[' List.mem_cons_self)
  obtain ⟨c, kept, hkept⟩ := List.exists_cons_of_ne_nil hne
  have hbracket : c = '[' := by
    have hhead := List.rdropWhile_prefix isSpace ('[' :: rest)
    rw [hkept] at hhead
    exact (List.cons_prefix_cons.mp hhead).1
  intro heq
  rw [keyOf, htake, hkept, hbracket] at heq
  rw [← heq] at hkey
  exact hkey rfl

section Scan

variable (sec : List Char) {key : List Char}

/-- A field is read only in its section. -/
theorem scan_field (key : List Char) (inSec : Bool) (f : Field) (rest : List (List Char)) :
    scanValue sec key inSec (f.line :: rest) =
      (if inSec then f.get key else none).or (scanValue sec key inSec rest) := by
  have hhead : f.line.head? ≠ some '[' := by
    rw [Field.line, List.append_assoc]
    cases hkey : f.key.text with
    | nil =>
        intro hblank
        have hchars : ' ' = '[' := Option.some.inj hblank
        exact absurd hchars (by decide)
    | cons c text =>
        have hbracket := f.key.not_bracket
        rwa [hkey] at hbracket
  have hequals : '=' ∈ f.line := by simp [Field.line]
  rw [scanValue, if_neg hhead, f.key_of_line, Field.get]
  cases inSec with
  | false => rfl
  | true =>
      by_cases hkey : f.key.text.filter (· ≠ '"') = key.filter (· ≠ '"')
      · rw [if_pos ⟨rfl, hequals, hkey⟩, if_pos hkey]
        rfl
      · rw [if_neg (fun h ↦ hkey h.2.2), if_neg hkey]
        rfl

/-- Of several fields the first with the key is read. -/
theorem scan_fields (key : List Char) (inSec : Bool) (fields : List Field)
    (rest : List (List Char)) :
    scanValue sec key inSec (fields.map Field.line ++ rest) =
      (if inSec then fields.findSome? (Field.get key) else none).or
        (scanValue sec key inSec rest) := by
  induction fields with
  | nil => cases inSec <;> rfl
  | cons f fields ih =>
      rw [List.map_cons, List.cons_append, scan_field, ih]
      cases inSec with
      | false => rfl
      | true =>
          rw [List.findSome?_cons]
          cases f.get key <;> rfl

/-- A section is read if it has the name. -/
theorem scan_section (hkey : (key.filter (· ≠ '"')).head? ≠ some '[') (inSec : Bool) (s : Section)
    (rest : List (List Char)) :
    scanValue sec key inSec (s.lines ++ rest) =
      (s.get sec key).or (scanValue sec key (decide (s.name = sec)) rest) := by
  have hname : "[".toList ++ s.name ++ "]".toList = "[".toList ++ sec ++ "]".toList ↔
      s.name = sec := by
    rw [List.append_left_inj, List.append_right_inj]
  have hhead : ("[".toList ++ s.name ++ "]".toList).head? = some '[' := rfl
  have hempty : ∀ inSec, scanValue sec key inSec ([] :: rest) = scanValue sec key inSec rest := by
    intro inSec
    cases inSec <;> rfl
  have htitle : scanValue sec key inSec
      (("[".toList ++ s.name ++ "]".toList) :: (s.fields.map Field.line ++ [[]] ++ rest)) =
      scanValue sec key (decide (s.name = sec)) (s.fields.map Field.line ++ [[]] ++ rest) := by
    rw [scanValue, if_pos hhead, if_neg fun h ↦ key_of_name hkey _ h.2.2]
    simp only [hname]
  rw [Section.lines, List.cons_append, htitle, List.append_assoc, scan_fields,
    List.singleton_append, hempty, Section.get]
  simp only [decide_eq_true_eq]

/-- `getValue` looks through the sections. -/
theorem scan_document (hkey : (key.filter (· ≠ '"')).head? ≠ some '[') (inSec : Bool)
    (doc : List Section) :
    scanValue sec key inSec (doc.flatMap Section.lines) = doc.findSome? (Section.get sec key) := by
  induction doc generalizing inSec with
  | nil => cases inSec <;> rfl
  | cons s doc ih =>
      rw [List.flatMap_cons, scan_section sec hkey, ih, List.findSome?_cons]
      cases s.get sec key <;> rfl

/-- `getValue` on a document. -/
theorem get_value_document (hkey : (key.filter (· ≠ '"')).head? ≠ some '[') {doc : List Section}
    (hlines : ∀ line ∈ doc.flatMap Section.lines, '\n' ∉ line) :
    getValue sec key (unlines (doc.flatMap Section.lines)) =
      doc.findSome? (Section.get sec key) := by
  rw [getValue, lines_unlines hlines, scan_document sec hkey]

end Scan

/-- If all that a search can find is the same, it finds that. -/
theorem find_some_unique {α β : Type} {f : α → Option β} {l : List α} {a : α} {b : β}
    (hmem : a ∈ l) (ha : f a = some b) (hall : ∀ x ∈ l, ∀ y, f x = some y → y = b) :
    l.findSome? f = some b := by
  cases hfind : l.findSome? f with
  | none =>
      have hnone := List.findSome?_eq_none_iff.mp hfind a hmem
      rw [ha] at hnone
      cases hnone
  | some y =>
      obtain ⟨x, hx, hy⟩ := List.exists_of_findSome?_eq_some hfind
      rw [hall x hx y hy]

/-! ## The document of the summary -/

/-- A key of letters and underscores. -/
def Key.word (text : List Char) (htext : text.all (fun c ↦ c.isAlpha || c = '_') = true) : Key where
  text := text
  not_bracket := by
    intro hhead
    have hbracket := List.all_eq_true.mp htext '[' (List.mem_of_mem_head? hhead)
    exact Bool.noConfusion hbracket
  not_equals := by
    intro hmem
    have hequals := List.all_eq_true.mp htext '=' hmem
    exact Bool.noConfusion hequals
  not_blank := by
    intro c hc
    by_contra hspace
    rw [Bool.not_eq_false, isSpace, decide_eq_true_iff] at hspace
    have hblanks : ∀ d ∈ blanks, (d.isAlpha || d = '_') = false :=
      forall_of_all rfl
    have hword := List.all_eq_true.mp htext c (List.mem_of_mem_getLast? hc)
    exact Bool.noConfusion (hword.symm.trans (hblanks c hspace))

/-- A key in double quotes: the name of a test in its record. -/
def Key.test (record : List Char) : Key where
  text := "\"".toList ++ record.takeWhile (· ≠ '=') ++ "\"".toList
  not_bracket := by
    intro hhead
    have hchars : '"' = '[' := Option.some.inj hhead
    exact absurd hchars (by decide)
  not_equals := by
    intro hmem
    simp only [List.mem_append] at hmem
    rcases hmem with (hmem | hmem) | hmem
    · exact absurd hmem (by decide)
    · simpa using List.mem_takeWhile_imp hmem
    · exact absurd hmem (by decide)
  not_blank := by
    intro c hc
    rw [List.getLast?_append_of_ne_nil _ (by decide)] at hc
    rw [← Option.some.inj hc]
    rfl

/-- `key = "value"`. -/
def Field.quoted (key : Key) (value : List Char) : Field where
  key := key
  text := '"' :: (value ++ ['"'])

/-- The first section, with a given status. -/
def summarySection (env : Environment) (status : List Char) : Section where
  name := "summary".toList
  fields := [.quoted (.word "status".toList rfl) status,
    .quoted (.word "timestamp".toList rfl) env.timestamp,
    .quoted (.word "commit_sha".toList rfl) (orDefault env.githubSha env.gitHead),
    .quoted (.word "commit_short".toList rfl) ((orDefault env.githubSha env.gitHead).take 7),
    .quoted (.word "repository".toList rfl) (orDefault env.githubRepository "local".toList)]

namespace ResultDir

/-- The section about the job. -/
def jobSection (dir : ResultDir) : Section where
  name := dir.sectionName
  fields := [.quoted (.word "rtos".toList rfl) (contents dir.rtos "unknown".toList),
    .quoted (.word "target".toList rfl) (contents dir.target "unknown".toList),
    .quoted (.word "runner_os".toList rfl) (contents dir.runnerOs "unknown".toList),
    .quoted (.word "status".toList rfl) dir.statusValue,
    ⟨.word "passed".toList rfl, contents dir.passed "0".toList⟩,
    ⟨.word "failed".toList rfl, contents dir.failed "0".toList⟩,
    ⟨.word "total".toList rfl, contents dir.total "0".toList⟩]

/-- The field about one test. -/
def testField (record : List Char) : Field :=
  .quoted (.test record) ((record.dropWhile (· ≠ '=')).drop 1)

/-- The section about the tests of the job, if there are any. -/
def testSections (dir : ResultDir) : List Section :=
  match dir.testsData with
  | none => []
  | some data => [⟨dir.sectionName ++ ".tests".toList, data.map testField⟩]

/-- The sections about the job. -/
def sections (dir : ResultDir) : List Section :=
  dir.jobSection :: dir.testSections

end ResultDir

/-- The document of a summary with a given status. -/
def document (env : Environment) (status : List Char) (dirs : List ResultDir) : List Section :=
  summarySection env status :: (dirs.filter (·.status.isSome)).flatMap ResultDir.sections

/-- The line of a field in double quotes. -/
theorem Field.line_quoted (key : Key) (value : List Char) :
    (Field.quoted key value).line = Ci.quoted key.text value := by
  have hopen : " = \"".toList = " = ".toList ++ ['"'] := rfl
  have hclose : "\"".toList = ['"'] := rfl
  rw [line, Ci.quoted, hopen, hclose]
  simp [Field.quoted]

/-- The lines of the first section. -/
theorem summary_section_lines (env : Environment) (status : List Char) :
    (summarySection env status).lines =
      ["[summary]".toList, quoted "status".toList status,
        quoted "timestamp".toList env.timestamp,
        quoted "commit_sha".toList (orDefault env.githubSha env.gitHead),
        quoted "commit_short".toList ((orDefault env.githubSha env.gitHead).take 7),
        quoted "repository".toList (orDefault env.githubRepository "local".toList), []] := by
  show _ :: ([_, _, _, _, _].map Field.line ++ [[]]) = _
  simp only [List.map_cons, List.map_nil, Field.line_quoted]
  rfl

/-- The lines about a job are its sections. -/
theorem ResultDir.sections_lines (dir : ResultDir) :
    dir.sections.flatMap Section.lines = dir.jobLines ++ dir.testLines := by
  have hjob : dir.jobSection.lines = dir.jobLines := by
    simp only [jobSection, Section.lines, jobLines, List.map_cons, List.map_nil, Field.line_quoted]
    rfl
  have htests : dir.testSections.flatMap Section.lines = dir.testLines := by
    cases hdata : dir.testsData with
    | none => simp [testSections, testLines, hdata]
    | some data =>
        have hfields : (data.map testField).map Field.line = data.map testLine := by
          rw [List.map_map]
          refine List.map_congr_left fun record _ ↦ ?_
          rw [Function.comp_apply, testField, Field.line_quoted]
          rfl
        have hname : ".tests]".toList = ".tests".toList ++ "]".toList := rfl
        simp only [testSections, testLines, hdata, List.flatMap_cons, List.flatMap_nil,
          List.append_nil, Section.lines, hfields, hname, List.append_assoc, List.cons_append]
  rw [sections, List.flatMap_cons, hjob, htests]

/-! ## The overall status in the document -/

section Patch

variable (overall : Status)

/-- A line that does not begin like the pending status stays as it is. -/
theorem patch_cons {c : Char} (hc : c ≠ 's') (rest : List Char) :
    patchStatus overall (c :: rest) = c :: rest := by
  rw [patchStatus, if_neg]
  intro hpending
  obtain ⟨tail, htail⟩ := List.isPrefixOf_iff_prefix.mp hpending
  exact hc (List.cons.inj htail).1.symm

/-- A line about a finished job stays as it is. -/
theorem patch_status_line (status : Status) :
    patchStatus overall (quoted "status".toList status.text) =
      quoted "status".toList status.text := by
  rw [patchStatus, if_neg]
  cases status <;> decide

/-- In the first section the status is replaced. -/
theorem patch_summary (env : Environment) :
    (summarySection env "pending".toList).lines.map (patchStatus overall) =
      (summarySection env overall.text).lines := by
  have hstatus : patchStatus overall (quoted "status".toList "pending".toList) =
      quoted "status".toList overall.text := by
    rw [patchStatus, if_pos (by decide), List.drop_length, List.append_nil]
  rw [summary_section_lines, summary_section_lines]
  simp only [List.map_cons, List.map_nil, hstatus]
  rfl

/-- The lines about a finished job stay as they are. -/
theorem patch_sections {dir : ResultDir} {status : Status}
    (hstatus : dir.statusValue = status.text) :
    ∀ line ∈ dir.sections.flatMap Section.lines, patchStatus overall line = line := by
  have hjob : ∀ line ∈ dir.jobLines, patchStatus overall line = line := by
    simp only [ResultDir.jobLines, hstatus, List.forall_mem_cons]
    exact ⟨patch_cons _ (by decide) _, patch_cons _ (by decide) _, patch_cons _ (by decide) _,
      patch_cons _ (by decide) _, patch_status_line overall status, patch_cons _ (by decide) _,
      patch_cons _ (by decide) _, patch_cons _ (by decide) _, rfl,
      fun _ hnil ↦ absurd hnil List.not_mem_nil⟩
  have htests : ∀ line ∈ dir.testLines, patchStatus overall line = line := by
    unfold ResultDir.testLines
    cases dir.testsData with
    | none => exact fun _ hnil ↦ absurd hnil List.not_mem_nil
    | some data =>
        intro line hline
        rcases List.mem_append.mp hline with hline | hline
        · rcases List.mem_cons.mp hline with rfl | hline
          · exact patch_cons _ (by decide) _
          · obtain ⟨record, -, rfl⟩ := List.mem_map.mp hline
            exact patch_cons _ (by decide) _
        · rw [List.mem_singleton.mp hline]
          rfl
  rw [dir.sections_lines]
  intro line hline
  rcases List.mem_append.mp hline with hline | hline
  · exact hjob line hline
  · exact htests line hline

end Patch

/-- `aggregate` writes the document with the overall status. -/
theorem aggregate_document (env : Environment) {dirs : List ResultDir}
    (hfinished : ∀ dir ∈ dirs, ∃ status : Status, dir.statusValue = status.text)
    (hlines : ∀ line ∈ (document env "pending".toList dirs).flatMap Section.lines, '\n' ∉ line) :
    aggregate env dirs =
      unlines ((document env (overallStatus env dirs).text dirs).flatMap Section.lines) := by
  have houtput : (aggregateJobs env dirs).output =
      unlines ((document env "pending".toList dirs).flatMap Section.lines) := by
    rw [aggregate_jobs_eq, document, List.flatMap_cons, summary_section_lines, List.flatMap_assoc]
    simp only [ResultDir.sections_lines]
    rfl
  obtain ⟨ls, hls⟩ : ∃ ls, ((dirs.filter (·.status.isSome)).flatMap ResultDir.sections).flatMap
      Section.lines = ls := ⟨_, rfl⟩
  have hkeep : ls.map (patchStatus (overallStatus env dirs)) = ls := by
    have hline : ∀ line ∈ ls, patchStatus (overallStatus env dirs) line = line := by
      intro line hline
      rw [← hls] at hline
      obtain ⟨s, hs, hline⟩ := List.mem_flatMap.mp hline
      obtain ⟨dir, hdir, hs⟩ := List.mem_flatMap.mp hs
      obtain ⟨status, hstatus⟩ := hfinished dir (List.mem_filter.mp hdir).1
      exact patch_sections _ hstatus line (List.mem_flatMap.mpr ⟨s, hs, hline⟩)
    rw [List.map_congr_left hline, List.map_id']
  rw [aggregate, sed, houtput, lines_unlines hlines, document, document, List.flatMap_cons,
    List.flatMap_cons, hls, List.map_append, patch_summary, hkeep]

end ThreadMetric.Ci
