import ThreadMetric.Benchmarks.DeadWorker
import ThreadMetric.Ci.CheckLoop
import ThreadMetric.Ports.Initialization
import ThreadMetric.Report.Startup
import ThreadMetric.Report.Totals

/-!
# What a test writes and what the check loop finds in it

A test prints its reporting interval, then either the message of a failed call or the lines of its
reporter, and `timeout` may kill it between any two characters. `total_found_iff` says when the
check loop finds a period total in what has been written, and `ended_found` that it always does if
the test has ended by itself.
-/

namespace ThreadMetric.Ci

open CStrings Initialization Parameters Printf ThreadMetric.Report Shell Startup Transition

variable {σ χ : Type} {w : ℕ}

/-! ## The text of a line -/

/-- The variable arguments of the call that prints the line. -/
def lineArgs : Line w → List (Arg w)
  | .header relativeTime => [.unsignedLong relativeTime]
  | .error => []
  | .periodTotal value => [.unsignedLong value]

/-- The title of a report does not depend on the width of `unsigned long`. -/
theorem title_eq (w : ℕ) (test : Benchmark) : (test.report w).title = (test.report 32).title := by
  cases test <;> rfl

/-- Nor does the ERROR line. -/
theorem error_text_eq (w : ℕ) (test : Benchmark) :
    (test.report w).errorText = (test.report 32).errorText := by
  cases test <;> rfl

/-- `'Time Period Total'`. -/
def totalPattern : List Char :=
  "Time Period Total".toList

/-- What is known about a title: there is one conversion, right before the newline at its end. -/
structure IsTitle (title : List Char) : Prop where
  nul_not_mem : nul ∉ title
  tokens : tokens title =
    (title.takeWhile (· ≠ '%')).map .plain ++ [.convert .unsignedLong, .plain '\n']
  no_total : ¬ totalPattern <:+: title.takeWhile (· ≠ '%')

/-- What is known about an ERROR line: there is no conversion. -/
structure IsErrorLine (text : List Char) : Prop where
  nul_not_mem : nul ∉ text
  tokens : tokens text = text.map .plain
  newline : text.getLast? = some '\n'
  no_total : ¬ totalPattern <:+: text

instance (title : List Char) : Decidable (IsTitle title) :=
  decidable_of_iff (_ ∧ _ ∧ _) ⟨fun ⟨h₁, h₂, h₃⟩ ↦ ⟨h₁, h₂, h₃⟩, fun ⟨h₁, h₂, h₃⟩ ↦ ⟨h₁, h₂, h₃⟩⟩

instance (text : List Char) : Decidable (IsErrorLine text) :=
  decidable_of_iff (_ ∧ _ ∧ _ ∧ _)
    ⟨fun ⟨h₁, h₂, h₃, h₄⟩ ↦ ⟨h₁, h₂, h₃, h₄⟩, fun ⟨h₁, h₂, h₃, h₄⟩ ↦ ⟨h₁, h₂, h₃, h₄⟩⟩

/-- The titles of the reporters. -/
theorem is_title (test : Benchmark) : IsTitle (test.report 32).title.toList := by
  cases test with
  | interruptPreemptionProcessing => exact of_literals rfl (by decide +kernel)
  | _ => exact of_literal rfl (by decide +kernel)

/-- Their ERROR lines. -/
theorem is_error_line (test : Benchmark) : IsErrorLine (test.report 32).errorText.toList := by
  cases test with
  | cooperativeScheduling | preemptiveScheduling => exact of_literals rfl (by decide +kernel)
  | _ => exact of_literal rfl (by decide +kernel)

/-- No format of a reporter contains the null character. -/
theorem nul_not_mem_format (test : Benchmark) (line : Line w) :
    nul ∉ (line.format (test.report w)).toList := by
  cases line with
  | header relativeTime =>
      show nul ∉ (test.report w).title.toList
      rw [title_eq]
      exact (is_title test).nul_not_mem
  | error =>
      show nul ∉ (test.report w).errorText.toList
      rw [error_text_eq]
      exact (is_error_line test).nul_not_mem
  | periodTotal value =>
      show nul ∉ "Time Period Total:  %lu\n\n".toList
      decide

/-- The format of the line. -/
def lineFormat (test : Benchmark) (line : Line w) : CString where
  chars := (line.format (test.report w)).toList
  nul_not_mem := nul_not_mem_format test line

/-- What `tm_printf` prints for the line. -/
def printLine (test : Benchmark) (line : Line w) : Option (List Char) :=
  (tmPrintf ((lineFormat test line).chars.length + 1) (lineFormat test line) (lineArgs line)).map
    Prod.fst

/-- What it prints for some lines. -/
def printLines (test : Benchmark) (lines : List (Line w)) : Option (List Char) :=
  (lines.mapM (printLine test)).map List.flatten

/-- The title of a report up to the relative time. -/
def titleFront (test : Benchmark) : List Char :=
  (test.report 32).title.toList.takeWhile (· ≠ '%')

/-- The text of the line. -/
def lineText (test : Benchmark) : Line w → List Char
  | .header relativeTime => titleFront test ++ (Nat.toDigits 10 relativeTime.toNat ++ ['\n'])
  | .error => (test.report 32).errorText.toList
  | .periodTotal value =>
      totalPattern ++ (":  ".toList ++ (Nat.toDigits 10 value.toNat ++ ['\n', '\n']))

/-- Plain characters are printed as they are. -/
theorem render_plain (text : List Char) (ts : List Token) (args : List (Arg w)) :
    render (text.map .plain ++ ts) args = text ++ render ts args := by
  induction text with
  | nil => rfl
  | cons c text ih =>
      show [c] ++ render (text.map .plain ++ ts) args = _
      rw [ih]
      rfl

/-- The tokens of the period totals. -/
theorem tokens_total : tokens "Time Period Total:  %lu\n\n".toList =
    (totalPattern ++ ":  ".toList).map .plain ++
      [.convert .unsignedLong, .plain '\n', .plain '\n'] := by
  decide

/-- `tm_printf` prints the text of the line. -/
theorem print_line_eq (hw : w = 32 ∨ w = 64) (test : Benchmark) (line : Line w) :
    printLine test line = some (lineText test line) := by
  have hlow : 32 ≤ w := by omega
  have hhigh : w ≤ 64 := by omega
  obtain ⟨htypes, htext⟩ :
      (lineArgs line).map Arg.type = argTypes (tokens (lineFormat test line).chars) ∧
        render (tokens (lineFormat test line).chars) (lineArgs line) = lineText test line := by
    cases line with
    | header relativeTime =>
        have htokens : tokens (lineFormat test (.header relativeTime)).chars =
            (titleFront test).map .plain ++ [.convert .unsignedLong, .plain '\n'] :=
          (congrArg (tokens ∘ String.toList) (title_eq w test)).trans (is_title test).tokens
        rw [htokens, render_plain]
        refine ⟨?_, rfl⟩
        rw [argTypes, List.filterMap_append, List.filterMap_map]
        have hplain : (titleFront test).filterMap (Token.argType ∘ .plain) = [] :=
          List.filterMap_eq_nil_iff.mpr fun _ _ ↦ rfl
        rw [hplain]
        rfl
    | error =>
        have htext := error_text_eq w test
        have htokens : tokens (lineFormat test (.error : Line w)).chars = _ :=
          (congrArg (tokens ∘ String.toList) htext).trans (is_error_line test).tokens
        have hrender := render_plain (test.report 32).errorText.toList [] ([] : List (Arg w))
        rw [List.append_nil] at hrender
        refine ⟨?_, ?_⟩
        · rw [htokens, argTypes, List.filterMap_map]
          exact (List.filterMap_eq_nil_iff.mpr fun _ _ ↦ rfl).symm
        · rw [htokens]
          exact hrender.trans (List.append_nil _)
    | periodTotal value =>
        have hformat : Line.format (test.report w) (.periodTotal value) =
            "Time Period Total:  %lu\n\n" := rfl
        have hchars : (lineFormat test (.periodTotal value)).chars =
            "Time Period Total:  %lu\n\n".toList := congrArg String.toList hformat
        rw [hchars, tokens_total, render_plain]
        refine ⟨?_, ?_⟩
        · rfl
        · rw [List.append_assoc]
          rfl
  have hprint : tmPrintf ((lineFormat test line).chars.length + 1) (lineFormat test line)
      (lineArgs line ++ []) = some _ :=
    tm_printf_eq hlow hhigh (lineFormat test line) htypes (Nat.lt_succ_self _)
  rw [List.append_nil, htext] at hprint
  rw [printLine, hprint]
  rfl

/-- So do the calls for several lines. -/
theorem print_lines_eq (hw : w = 32 ∨ w = 64) (test : Benchmark) (ls : List (Line w)) :
    printLines test ls = some (ls.flatMap (lineText test)) := by
  have hmap : ls.mapM (printLine test) = some (ls.map (lineText test)) := by
    induction ls with
    | nil => rfl
    | cons line ls ih =>
        rw [List.mapM_cons, print_line_eq hw, ih]
        rfl
  rw [printLines, hmap, List.flatMap_def]
  rfl

/-! ## Where the words of a period total stand -/

/-- Texts between which a pattern without newlines is not split. -/
theorem infix_ended_append_iff {pattern text : List Char} (hne : pattern ≠ [])
    (hnewline : '\n' ∉ pattern) (hlast : text.getLast? = some '\n') (rest : List Char) :
    pattern <:+: text ++ rest ↔ pattern <:+: text ∨ pattern <:+: rest := by
  obtain ⟨body, rfl⟩ := List.getLast?_eq_some_iff.mp hlast
  rw [List.append_assoc, List.singleton_append, infix_append_cons_iff hnewline,
    infix_append_cons_iff hnewline, List.infix_nil, or_iff_left hne]

/-- A line ends in a newline. -/
theorem getLast_line_text (test : Benchmark) (line : Line w) :
    (lineText test line).getLast? = some '\n' := by
  cases line with
  | header relativeTime =>
      rw [lineText, ← List.append_assoc, List.getLast?_concat]
  | error => exact (is_error_line test).newline
  | periodTotal value =>
      have hsplit : lineText test (.periodTotal value) =
          (totalPattern ++ (":  ".toList ++ (Nat.toDigits 10 value.toNat ++ ['\n']))) ++
            ['\n'] := by
        simp only [lineText, List.append_assoc, List.cons_append, List.nil_append]
      rw [hsplit, List.getLast?_concat]

/-- No null character is printed. -/
theorem nul_not_mem_line_text (test : Benchmark) (line : Line w) : nul ∉ lineText test line := by
  have hdigits : ∀ n, nul ∉ Nat.toDigits 10 n := Decimal.not_mem_to_digits rfl
  cases line with
  | header relativeTime =>
      have hfront : nul ∉ titleFront test := fun h ↦
        (is_title test).nul_not_mem ((List.takeWhile_prefix _).subset h)
      exact List.not_mem_append hfront (List.not_mem_append (hdigits _) (by decide))
  | error => exact (is_error_line test).nul_not_mem
  | periodTotal value =>
      have hwords : nul ∉ totalPattern ∧ nul ∉ ":  ".toList := by decide
      exact List.not_mem_append hwords.1 (List.not_mem_append hwords.2
        (List.not_mem_append (hdigits _) (by decide)))

/-- The words of a period total are neither empty nor do they contain digits or newlines. -/
theorem total_pattern_ne_nil : totalPattern ≠ [] := by
  decide

theorem newline_not_mem_total_pattern : '\n' ∉ totalPattern := by
  decide

theorem digits_not_mem_total_pattern (n : ℕ) : ∀ c ∈ Nat.toDigits 10 n, c ∉ totalPattern := by
  intro c hdigit hmem
  have hall : ∀ c ∈ totalPattern, c.isDigit = false := forall_of_all rfl
  exact Bool.noConfusion ((hall c hmem).symm.trans ((Decimal.is_numeral n).isDigit c hdigit))

/-- They stand in the lines with a period total only. -/
theorem infix_line_text_iff (test : Benchmark) (line : Line w) :
    totalPattern <:+: lineText test line ↔ ∃ value, line = .periodTotal value := by
  cases line with
  | header relativeTime =>
      refine iff_of_false ?_ fun ⟨_, h⟩ ↦ by cases h
      rw [lineText, infix_append_append_iff Nat.toDigits_ne_nil (digits_not_mem_total_pattern _)]
      rintro (h | h)
      · exact (is_title test).no_total h
      · exact absurd h (by decide)
  | error =>
      refine iff_of_false ?_ fun ⟨_, h⟩ ↦ by cases h
      exact (is_error_line test).no_total
  | periodTotal value =>
      refine iff_of_true ?_ ⟨value, rfl⟩
      exact (List.prefix_append _ _).isInfix

/-- After printed lines they are found exactly if there is such a line or they are in the rest. -/
theorem infix_lines_append_iff (test : Benchmark) (ls : List (Line w)) (rest : List Char) :
    totalPattern <:+: ls.flatMap (lineText test) ++ rest ↔
      (∃ value, .periodTotal value ∈ ls) ∨ totalPattern <:+: rest := by
  induction ls with
  | nil => simp only [List.flatMap_nil, List.nil_append, List.not_mem_nil, exists_false, false_or]
  | cons line ls ih =>
      rw [List.flatMap_cons, List.append_assoc, infix_ended_append_iff total_pattern_ne_nil
        newline_not_mem_total_pattern (getLast_line_text test line), infix_line_text_iff, ih,
        ← or_assoc]
      refine or_congr_left ⟨?_, ?_⟩
      · rintro (⟨value, rfl⟩ | ⟨value, h⟩)
        · exact ⟨value, List.mem_cons_self⟩
        · exact ⟨value, List.mem_cons_of_mem line h⟩
      · rintro ⟨value, h⟩
        rcases List.mem_cons.mp h with rfl | h
        · exact .inl ⟨value, rfl⟩
        · exact .inr ⟨value, h⟩

/-- A reporter has printed such a line exactly if it has printed a total. -/
theorem totals_ne_nil_iff (r : Reporter w) :
    r.totals ≠ [] ↔ ∃ value, .periodTotal value ∈ r.output := by
  rw [Reporter.totals, ne_eq, List.filterMap_eq_nil_iff]
  constructor
  · intro h
    by_contra hnone
    refine h fun line hline ↦ ?_
    cases line with
    | periodTotal value => exact absurd ⟨value, hline⟩ hnone
    | header | error => rfl
  · rintro ⟨value, hmem⟩ h
    cases h _ hmem

/-- In a line that is cut off they stand exactly if they have been printed as a whole. -/
theorem infix_part_iff (test : Benchmark) (line : Line w) {part : List Char}
    (hpart : part <+: lineText test line) :
    totalPattern <:+: part ↔
      (∃ value, line = .periodTotal value) ∧ totalPattern.length ≤ part.length := by
  constructor
  · intro h
    exact ⟨(infix_line_text_iff test line).mp (h.trans hpart.isInfix), h.length_le⟩
  · rintro ⟨⟨value, rfl⟩, hlength⟩
    have hwords : totalPattern <+: lineText test (.periodTotal value) := List.prefix_append _ _
    exact (List.prefix_of_prefix_length_le hwords hpart hlength).isInfix

/-! ## What has been written -/

/-- What a test can have written after its first characters, and whether the words of a period total
are among it. `timeout` kills the test in the line of `main`, in the message of a failed call, or in
or between the lines of its reporter. -/
inductive Written (test : Benchmark) (sys : Workers σ χ) (params : Params) (policy : Policy)
    (start : σ) (w : ℕ) (interval : List Char) : List Char → Prop → Prop where
  | interval {part : List Char} (hpart : part <+: interval) :
      Written test sys params policy start w interval part False
  | check {call : CheckedCall} {part : List Char} (hcall : call ∈ test.initialization)
      (hpart : part <+: call.message.chars) :
      Written test sys params policy start w interval (interval ++ part) False
  | running {s : Bench σ w} {text : List Char}
      (hreach : Reachable (Bench.next sys (test.report w) params policy) ⟨start, .start⟩ s)
      (htext : printLines test s.reporter.output = some text) :
      Written test sys params policy start w interval (interval ++ text) (s.reporter.totals ≠ [])
  | printing {s s' : Bench σ w} {line : Line w} {text last part : List Char}
      (hreach : Reachable (Bench.next sys (test.report w) params policy) ⟨start, .start⟩ s)
      (hnext : Bench.next sys (test.report w) params policy s .report = some s')
      (hline : s'.reporter.output = s.reporter.output ++ [line])
      (htext : printLines test s.reporter.output = some text)
      (hlast : printLine test line = some last) (hpart : part <+: last) :
      Written test sys params policy start w interval (interval ++ (text ++ part))
        (s.reporter.totals ≠ [] ∨
          (∃ value, line = .periodTotal value) ∧ totalPattern.length ≤ part.length)

/-- What is known about the line of `main` and the messages: the words of a period total are not in
them. -/
structure Silent (text : List Char) : Prop where
  nul_not_mem : nul ∉ text
  not_mem : 'P' ∉ text

/-- The words are not in a part of such a text. -/
theorem Silent.part_silent {text part : List Char} (h : Silent text) (hpart : part <+: text) :
    ¬ totalPattern <:+: part := by
  intro hwords
  have hmem : 'P' ∈ totalPattern := by decide
  exact h.not_mem (hpart.subset (hwords.subset hmem))

/-- The messages of failed calls. -/
theorem silent_message (call : CheckedCall) : Silent call.message.chars where
  nul_not_mem := call.message.nul_not_mem
  not_mem := by
    have hfatal : 'P' ∉ "FATAL: ".toList ∧ 'P' ∉ " failed\n".toList := by decide
    exact call.not_mem_message_text hfatal.1 hfatal.2 rfl

/-- A character in the line of `main` is in its words or in the numeral of an integer. -/
theorem not_mem_interval_line {d : Char}
    (hfront : d ∉ "Thread-Metric: reporting interval = ".toList) (hback : d ∉ " s\n".toList)
    (hsign : d ≠ '-') (hdigit : d.isDigit = false) (z : ℤ) :
    d ∉ intervalLine (Decimal.ofInt z) := by
  have hnumber : d ∉ Decimal.ofInt z := by
    have hdigits := Decimal.not_mem_to_digits hdigit z.natAbs
    unfold Decimal.ofInt
    split
    · exact List.not_mem_cons_of_ne_of_not_mem hsign hdigits
    · exact hdigits
  exact List.not_mem_append (List.not_mem_append hfront hnumber) hback

/-- What `main` prints is such a line. -/
theorem interval_line {semihosting : Bool} {getenv : String → Option CString}
    {argv : List CString} {g g' : Globals} {interval : List Char} (hw : w = 32 ∨ w = 64)
    (hmain : main semihosting w getenv argv g = some (g', interval)) :
    Silent interval ∧ interval.getLast? = some '\n' := by
  obtain ⟨g'', -, heq⟩ := main_eq (w := w) (by omega) (by omega) semihosting getenv argv g
  rw [hmain] at heq
  obtain ⟨-, rfl⟩ := Prod.mk.inj (Option.some.inj heq)
  refine ⟨⟨?_, ?_⟩, ?_⟩
  · exact not_mem_interval_line (by decide) (by decide) (by decide) rfl _
  · exact not_mem_interval_line (by decide) (by decide) (by decide) rfl _
  · have hend : " s\n".toList.getLast? = some '\n' := by decide
    exact List.getLast?_append.trans (congrArg (Option.or · _) hend)

/-! ## What the check loop finds -/

variable {semihosting : Bool} {getenv : String → Option CString} {argv : List CString}
  {g g' : Globals} {interval : List Char} {test : Benchmark} {sys : Workers σ χ}
  {params : Params} {policy : Policy} {start : σ} {t : Test}

/-- The words of a period total are in the text exactly if they have been written. -/
theorem Written.infix_iff {text : List Char} {begun : Prop} (hw : w = 32 ∨ w = 64)
    (hsilent : Silent interval) (hlast : interval.getLast? = some '\n')
    (h : Written test sys params policy start w interval text begun) :
    totalPattern <:+: text ↔ begun := by
  have hfront : ∀ rest, totalPattern <:+: interval ++ rest ↔ totalPattern <:+: rest := fun rest ↦
    (infix_ended_append_iff total_pattern_ne_nil newline_not_mem_total_pattern hlast rest).trans
      (or_iff_right (hsilent.part_silent (List.prefix_refl interval)))
  cases h with
  | interval hpart => exact iff_of_false (hsilent.part_silent hpart) not_false
  | @check call _ _ hpart =>
      rw [hfront]
      exact iff_of_false ((silent_message call).part_silent hpart) not_false
  | @running s text hreach htext =>
      rw [print_lines_eq hw, Option.some.injEq] at htext
      have hlines := infix_lines_append_iff test s.reporter.output []
      rw [List.append_nil, List.infix_nil, or_iff_left total_pattern_ne_nil] at hlines
      rw [hfront, ← htext, hlines, totals_ne_nil_iff]
  | @printing s s' line printed last part hreach hnext hline htext hlast hpart =>
      rw [print_lines_eq hw, Option.some.injEq] at htext
      rw [print_line_eq hw, Option.some.injEq] at hlast
      subst htext hlast
      rw [hfront, infix_lines_append_iff, totals_ne_nil_iff, infix_part_iff test line hpart]

/-- No null character has been written. -/
theorem Written.nul_not_mem {text : List Char} {begun : Prop} (hw : w = 32 ∨ w = 64)
    (hsilent : Silent interval) (h : Written test sys params policy start w interval text begun) :
    nul ∉ text := by
  have hlines : ∀ ls : List (Line w), nul ∉ ls.flatMap (lineText test) := fun ls hmem ↦ by
    obtain ⟨line, -, hnul⟩ := List.mem_flatMap.mp hmem
    exact nul_not_mem_line_text test line hnul
  cases h with
  | interval hpart => exact fun hmem ↦ hsilent.nul_not_mem (hpart.subset hmem)
  | @check call _ _ hpart =>
      refine List.not_mem_append hsilent.nul_not_mem fun hmem ↦ ?_
      exact (silent_message call).nul_not_mem (hpart.subset hmem)
  | running hreach htext =>
      rw [print_lines_eq hw, Option.some.injEq] at htext
      exact List.not_mem_append hsilent.nul_not_mem (htext ▸ hlines _)
  | @printing s s' line printed last part hreach hnext hline htext hlast hpart =>
      rw [print_lines_eq hw, Option.some.injEq] at htext
      rw [print_line_eq hw, Option.some.injEq] at hlast
      subst htext hlast
      refine List.not_mem_append hsilent.nul_not_mem (List.not_mem_append (hlines _) ?_)
      exact fun hmem ↦ nul_not_mem_line_text test line (hpart.subset hmem)

/-- The check loop finds a period total in what a test has written exactly if the words in front of
the number have been written, wherever the test has been killed. -/
theorem total_found_iff {begun : Prop} (hw : w = 32 ∨ w = 64)
    (hmain : main semihosting w getenv argv g = some (g', interval))
    (hwritten : Written test sys params policy start w interval t.output begun) :
    t.PrintsTotal ↔ begun := by
  obtain ⟨hsilent, hlast⟩ := interval_line hw hmain
  rw [← hwritten.infix_iff hw hsilent hlast]
  exact infix_substitution_iff total_pattern_ne_nil newline_not_mem_total_pattern
    (hwritten.nul_not_mem hw hsilent)

/-- The message test is killed after the words of its first total. -/
theorem cut_total_found :
    ∃ s : Bench DeadWorker.Worker 32, ∃ t : Test,
      t.output = intervalLine "30".toList ++
        (lineText .messageProcessing (.header (30 : BitVec 32)) ++ totalPattern) ∧
      (t.PrintsTotal ↔ s.reporter.totals ≠ [] ∨
        (∃ value : BitVec 32, Line.periodTotal 1 = .periodTotal value) ∧
          totalPattern.length ≤ totalPattern.length) := by
  let step := DeadWorker.next .messageProcessing .threadX .strict 32 ⟨30, 0⟩
  obtain ⟨s, s', hrun, hnext, hbefore, hafter⟩ :
      ∃ s s', run step (List.replicate 2 .report ++ List.replicate 4 (.work true) ++
          .wake :: List.replicate 3 .report) (DeadWorker.start 32) = some s ∧
        step s .report = some s' ∧ s.reporter.output = [.header 30] ∧
        s'.reporter.output = [.header 30] ++ [.periodTotal 1] :=
    ⟨_, _, rfl, rfl, rfl, rfl⟩
  obtain ⟨g', hinit, hmain⟩ := main_eq (w := 32) (by decide) (by decide) false (fun _ ↦ none) []
    ⟨0, ⟨30, 0⟩⟩
  obtain rfl : (⟨0, ⟨30, 0⟩⟩ : Globals) = g' := Option.some.inj hinit
  have hnumber : Decimal.ofInt (BitVec.ofInt 32 30).toInt = "30".toList := by decide
  have hwidth : 32 = 32 ∨ 32 = 64 := .inl rfl
  have htitle : printLines .messageProcessing s.reporter.output =
      some (lineText .messageProcessing (.header (30 : BitVec 32))) := by
    rw [hbefore, print_lines_eq hwidth, List.flatMap_singleton]
  have hwritten : Written .messageProcessing (DeadWorker.workers .messageProcessing .threadX)
      ⟨30, 0⟩ .strict (DeadWorker.start 32).workers 32 (intervalLine "30".toList) _ _ :=
    .printing (reachable_of_run hrun) hnext (hbefore ▸ hafter) htitle
      (print_line_eq hwidth .messageProcessing (.periodTotal 1)) (List.prefix_append _ _)
  refine ⟨s, ⟨"message_processing".toList, by decide, forall_of_all rfl, _⟩, rfl, ?_⟩
  exact total_found_iff hwidth (hmain.trans (by rw [← hnumber])) hwritten

/-- A test that has ended by itself has printed as many reports as `TM_TEST_CYCLES` says, which is
not zero, and the check loop finds a period total, whatever counters the reports are about. -/
theorem ended_found {s : Bench σ w} {text : List Char} (hw : w = 32 ∨ w = 64)
    (hmain : main semihosting w getenv argv g = some (g', interval))
    (hreach : Reachable (Bench.next sys (test.report w) params policy) ⟨start, .start⟩ s)
    (hexited : s.reporter.pc = .exited) (htext : printLines test s.reporter.output = some text)
    (houtput : t.output = interval ++ text) :
    t.PrintsTotal ∧ params.cycles ≠ 0 ∧ s.reporter.totals.length = params.cycles ∧
      s.reporter.headers.length = params.cycles := by
  have hpos : ∀ n figure, (test.report w).criterion = .balance n figure → 0 < n := by
    intro n figure h
    cases test <;> cases h <;> decide
  have hscheduled := Bench.scheduled_of_reachable hpos hreach
  have hcycles : params.cycles ≠ 0 := fun hzero ↦ (hscheduled.endless hzero).2 hexited
  have hinside := hscheduled.inside hcycles
  have hlength := hscheduled.length hcycles
  have hheaders := (Bench.regular_of_reachable hreach).length
  simp only [hexited, or_true, if_true, reduceCtorEq, or_self, if_false, Nat.add_zero,
    Reporter.InReport] at hinside hlength hheaders
  obtain ⟨hsilent, hlast⟩ := interval_line hw hmain
  have hwritten : Written test sys params policy start w interval t.output
      (s.reporter.totals ≠ []) := by
    rw [houtput]
    exact .running hreach htext
  refine ⟨?_, hcycles, hlength.trans hinside, hheaders.trans (hlength.trans hinside)⟩
  have hnul := hwritten.nul_not_mem hw hsilent
  refine (infix_substitution_iff total_pattern_ne_nil newline_not_mem_total_pattern hnul).mpr ?_
  refine (hwritten.infix_iff hw hsilent hlast).mpr fun hnil ↦ hcycles ?_
  rw [← hinside, ← hlength, hnil, List.length_nil]

/-- The message test with one cycle, whose worker dies at once: the loop finds the total of zero
below the ERROR line. -/
theorem ended_found_after_error :
    ∃ s : Bench DeadWorker.Worker 32, ∃ t : Test,
      s.reporter.output = [.header 30, .error, .periodTotal 0] ∧
      (t.PrintsTotal ∧ 1 ≠ 0 ∧ s.reporter.totals.length = 1 ∧
        s.reporter.headers.length = 1) := by
  obtain ⟨s, hrun, hexited, houtput⟩ :
      ∃ s, run (DeadWorker.next .messageProcessing .threadX .strict 32 ⟨30, 1⟩)
          (List.replicate 2 .report ++ .work false :: .wake :: List.replicate 8 .report)
          (DeadWorker.start 32) = some s ∧ s.reporter.pc = .exited ∧
        s.reporter.output = [.header 30, .error, .periodTotal 0] :=
    ⟨_, rfl, rfl, rfl⟩
  obtain ⟨g', hinit, hmain⟩ := main_eq (w := 32) (by decide) (by decide) false (fun _ ↦ none) []
    ⟨0, ⟨30, 1⟩⟩
  obtain rfl : (⟨0, ⟨30, 1⟩⟩ : Globals) = g' := Option.some.inj hinit
  have hreach : Reachable (Bench.next (DeadWorker.workers .messageProcessing .threadX)
      (Benchmark.messageProcessing.report 32) ⟨30, 1⟩ .strict) (DeadWorker.start 32) s :=
    reachable_of_run hrun
  let t : Test := {
    name := "message_processing".toList
    name_ne_nil := by decide
    name_word := forall_of_all rfl
    output := intervalLine (Decimal.ofInt (BitVec.ofInt 32 30).toInt) ++
      s.reporter.output.flatMap (lineText .messageProcessing) }
  exact ⟨s, t, houtput,
    ended_found (.inl rfl) hmain hreach hexited (print_lines_eq (.inl rfl) _ _) rfl⟩

end ThreadMetric.Ci
