import Mathlib.Data.List.DropRight
import Mathlib.Data.List.Infix

/-!
# Texts and lines

Shell tools exchange texts. They read a text line by line and print lines with a newline after
each; `lines` and `unlines` are these two directions. `commandSubstitution` is what a shell keeps
of the output of a command.
-/

namespace Shell

/-- A property that a test confirms for all elements of a literal. -/
theorem forall_of_all {α : Type} {p : α → Prop} [DecidablePred p] {l : List α}
    (h : l.all (p ·) = true) : ∀ c ∈ l, p c :=
  fun c hc ↦ of_decide_eq_true (List.all_eq_true.mp h c hc)

/-- A property of the characters of a literal. -/
theorem of_literal {p : List Char → Prop} {s : String} {l : List Char} (hs : s = String.ofList l)
    (h : p l) : p s.toList := by
  rw [hs, String.toList_ofList]
  exact h

/-- A property of the characters of two literals, one after the other. -/
theorem of_literals {p : List Char → Prop} {s : String} {l l' : List Char}
    (hs : s = String.ofList l ++ String.ofList l') (h : p (l ++ l')) : p s.toList := by
  rw [hs, String.toList_append, String.toList_ofList, String.toList_ofList]
  exact h

/-- The lines of a text, each ended by a newline. -/
def lines (text : List Char) : List (List Char) :=
  (text.splitOn '\n').dropLast

/-- The text of lines, with a newline after each. -/
def unlines (ls : List (List Char)) : List Char :=
  ls.flatMap (· ++ ['\n'])

@[simp] theorem unlines_nil : unlines [] = [] :=
  rfl

@[simp] theorem unlines_cons (line : List Char) (ls : List (List Char)) :
    unlines (line :: ls) = line ++ '\n' :: unlines ls := by
  simp [unlines]

@[simp] theorem unlines_append (first rest : List (List Char)) :
    unlines (first ++ rest) = unlines first ++ unlines rest :=
  List.flatMap_append

/-- A text begins with its first line. -/
theorem lines_cons {line : List Char} (hline : '\n' ∉ line) (rest : List Char) :
    lines (line ++ '\n' :: rest) = line :: lines rest := by
  rw [lines, List.splitOn_append_cons_self_of_not_mem hline,
    List.dropLast_cons_of_ne_nil (List.splitOn_ne_nil _ _)]
  rfl

/-- Printed lines are read back, before whatever follows them. -/
theorem lines_unlines_append {ls : List (List Char)} (hls : ∀ line ∈ ls, '\n' ∉ line)
    (rest : List Char) : lines (unlines ls ++ rest) = ls ++ lines rest := by
  induction ls with
  | nil => rfl
  | cons line ls ih =>
      have hline : '\n' ∉ line := hls line List.mem_cons_self
      have htail : ∀ other ∈ ls, '\n' ∉ other :=
        fun other hmem ↦ hls other (List.mem_cons_of_mem line hmem)
      rw [unlines_cons, List.append_assoc, List.cons_append, lines_cons hline, ih htail,
        List.cons_append]

/-- Printed lines are read back. -/
theorem lines_unlines {ls : List (List Char)} (hls : ∀ line ∈ ls, '\n' ∉ line) :
    lines (unlines ls) = ls := by
  have happend := lines_unlines_append hls []
  rw [List.append_nil] at happend
  rw [happend]
  exact List.append_nil ls

/-- A newline at the end of a text ends its last line. -/
theorem lines_newline (text : List Char) : lines (text ++ ['\n']) = text.splitOn '\n' := by
  rw [lines, List.splitOn_append_cons_self]
  exact List.dropLast_concat

/-- A part of a text between newlines contains none. -/
theorem newline_not_mem {text line : List Char} (hmem : line ∈ text.splitOn '\n') :
    '\n' ∉ line := by
  induction text generalizing line with
  | nil =>
      rw [List.splitOn_nil, List.mem_singleton] at hmem
      rw [hmem]
      exact List.not_mem_nil
  | cons c text ih =>
      rw [List.splitOn_cons_eq_if_modifyHead] at hmem
      split at hmem
      · cases hmem with
        | head => exact List.not_mem_nil
        | tail _ hmem => exact ih hmem
      · rename_i hc
        obtain ⟨first, rest, hsplit⟩ :=
          List.exists_cons_of_ne_nil (List.splitOn_ne_nil '\n' text)
        rw [hsplit, List.modifyHead_cons] at hmem
        cases hmem with
        | head =>
            intro hnewline
            cases hnewline with
            | head => exact hc rfl
            | tail _ hnewline =>
                exact ih (hsplit ▸ List.mem_cons_self) hnewline
        | tail _ hmem => exact ih (hsplit ▸ List.mem_cons_of_mem first hmem)

/-- The lines of a text with a newline after each are the text with one more newline. -/
theorem unlines_split (text : List Char) : unlines (text.splitOn '\n') = text ++ ['\n'] := by
  induction text with
  | nil => rfl
  | cons c text ih =>
      obtain ⟨first, rest, hsplit⟩ := List.exists_cons_of_ne_nil (List.splitOn_ne_nil '\n' text)
      rw [List.splitOn_cons_eq_if_modifyHead]
      split
      · rename_i hc
        rw [unlines_cons, ih, beq_iff_eq.mp hc]
        rfl
      · rw [hsplit, unlines_cons] at ih
        rw [hsplit, List.modifyHead_cons, unlines_cons, List.cons_append, ih]
        rfl

/-! ## Commands -/

/-- `$(…)`: the output of a command without null characters and without the newlines at its end. -/
def commandSubstitution (output : List Char) : List Char :=
  (output.filter (· ≠ '\x00')).rdropWhile (· = '\n')

/-- An argument of `echo` that is taken for options and not printed. -/
def isEchoOption (text : List Char) : Bool :=
  text.head? = some '-' && !text.tail.isEmpty && text.tail.all (· ∈ ['n', 'e', 'E'])

/-- `echo` with one argument. -/
def echo (text : List Char) : List Char :=
  if isEchoOption text then (if 'n' ∈ text then [] else ['\n']) else text ++ ['\n']

/-- A text with a character that no option has is printed. -/
theorem not_echo_option {text : List Char} {c : Char} (hmem : c ∈ text) (hdash : c ≠ '-')
    (hletter : c ∉ ['n', 'e', 'E']) : isEchoOption text = false := by
  rw [← Bool.not_eq_true]
  intro hoption
  cases text with
  | nil => cases hmem
  | cons d rest =>
      simp only [isEchoOption, Bool.and_eq_true, decide_eq_true_eq, List.head?_cons,
        Option.some.injEq, List.tail_cons, List.all_eq_true] at hoption
      rcases List.mem_cons.mp hmem with rfl | hrest
      · exact hdash hoption.1.1
      · exact hletter (hoption.2 c hrest)

/-- `grep` for a fixed text. -/
def grep (pattern text : List Char) : List Char :=
  unlines ((lines text).filter (pattern <:+: ·))

/-- `sed` with a command that changes each line by itself. -/
def sed (command : List Char → List Char) (text : List Char) : List Char :=
  unlines ((lines text).map command)

/-- The result of a command substitution contains no null character. -/
theorem nul_not_mem_substitution (output : List Char) :
    '\x00' ∉ commandSubstitution output := by
  intro hmem
  have hfiltered := List.of_mem_filter ((List.rdropWhile_prefix _ _).subset hmem)
  simp at hfiltered

/-- A command substitution yields text if the output has a character that it does not drop. -/
theorem substitution_ne_nil {output : List Char} {c : Char} (hmem : c ∈ output)
    (hnul : c ≠ '\x00') (hnewline : c ≠ '\n') : commandSubstitution output ≠ [] := by
  intro hnil
  rw [commandSubstitution, List.rdropWhile_eq_nil_iff] at hnil
  have hdropped := hnil c (List.mem_filter.mpr ⟨hmem, by simpa using hnul⟩)
  exact hnewline (by simpa using hdropped)

/-- A command substitution keeps every character but newlines and null characters. -/
theorem mem_substitution {output : List Char} {c : Char} (hmem : c ∈ output)
    (hnul : c ≠ '\x00') (hnewline : c ≠ '\n') : c ∈ commandSubstitution output := by
  have hkept : c ∈ (output.filter (· ≠ '\x00')).reverse :=
    List.mem_reverse.mpr (List.mem_filter.mpr ⟨hmem, decide_eq_true hnul⟩)
  rw [commandSubstitution, List.rdropWhile, List.mem_reverse]
  rw [← List.takeWhile_append_dropWhile (p := (· = '\n')) (l := (output.filter _).reverse)] at hkept
  rcases List.mem_append.mp hkept with hdropped | hkept
  · have hdrop := List.mem_takeWhile_imp hdropped
    exact absurd (of_decide_eq_true hdrop) hnewline
  · exact hkept

/-- Of a text with a newline at its end, a command substitution takes that one if the text itself
neither ends in a newline nor contains a null character. -/
theorem substitution_newline {text : List Char} (hnul : '\x00' ∉ text)
    (hlast : ∀ c ∈ text.getLast?, c ≠ '\n') : commandSubstitution (text ++ ['\n']) = text := by
  have hkeep : (text ++ ['\n']).filter (· ≠ '\x00') = text ++ ['\n'] := by
    rw [List.filter_eq_self]
    intro c hmem
    rcases List.mem_append.mp hmem with hmem | hmem
    · simpa using ne_of_mem_of_not_mem hmem hnul
    · simp [List.mem_singleton.mp hmem]
  rw [commandSubstitution, hkeep, List.rdropWhile_concat_pos _ _ _ (by simp)]
  cases htext : text.getLast? with
  | none => rw [List.getLast?_eq_none_iff.mp htext, List.rdropWhile_nil]
  | some c =>
      obtain ⟨first, rfl⟩ := List.getLast?_eq_some_iff.mp htext
      rw [List.rdropWhile_concat_neg _ _ _ (by simpa using hlast c htext)]

/-- What a command substitution keeps does not end in a newline. -/
theorem getLast_substitution (output : List Char) :
    ∀ c ∈ (commandSubstitution output).getLast?, c ≠ '\n' := by
  intro c hc
  have hne : commandSubstitution output ≠ [] := by
    intro hnil
    rw [hnil] at hc
    cases hc
  have hlast := List.rdropWhile_last_not _ _ hne
  have heq : (commandSubstitution output).getLast hne = c :=
    Option.some.inj ((List.getLast?_eq_some_getLast hne).symm.trans hc)
  rw [← heq]
  simpa [commandSubstitution] using hlast

/-- A command substitution gives back a word that `echo` prints. -/
theorem substitution_echo {text : List Char} (hoption : isEchoOption text = false)
    (hnul : '\x00' ∉ text) (hnewline : '\n' ∉ text) : commandSubstitution (echo text) = text := by
  rw [echo, hoption, if_neg Bool.false_ne_true]
  refine substitution_newline hnul fun c hc ↦ ?_
  exact ne_of_mem_of_not_mem (List.mem_of_mem_getLast? hc) hnewline

/-- Of printed lines the last of which is not empty, a command substitution takes one newline. -/
theorem substitution_unlines {ls : List (List Char)} {last : List Char}
    (hnul : '\x00' ∉ unlines (ls ++ [last])) (hlast : last ≠ []) (hline : '\n' ∉ last) :
    commandSubstitution (unlines (ls ++ [last])) ++ ['\n'] = unlines (ls ++ [last]) := by
  obtain ⟨text, htext⟩ : ∃ text, unlines (ls ++ [last]) = (text ++ last) ++ ['\n'] :=
    ⟨unlines ls, by simp⟩
  rw [htext] at hnul ⊢
  have hlast' : ∀ c ∈ (text ++ last).getLast?, c ≠ '\n' := by
    intro c hc
    rw [List.getLast?_append_of_ne_nil _ hlast] at hc
    exact ne_of_mem_of_not_mem (List.mem_of_mem_getLast? hc) hline
  rw [substitution_newline (fun hmem ↦ hnul (List.mem_append_left _ hmem)) hlast']

/-- A command substitution of printed lines takes the empty ones at the end; nothing that does not
depend on these is lost. -/
theorem lines_substitution {α : Type} {f : List (List Char) → α}
    (hempty : ∀ ls, f (ls ++ [[]]) = f ls) {ls : List (List Char)}
    (hls : ∀ line ∈ ls, '\n' ∉ line ∧ '\x00' ∉ line) :
    f (lines (commandSubstitution (unlines ls) ++ ['\n'])) = f ls := by
  induction ls using List.reverseRecOn with
  | nil => exact hempty []
  | append_singleton ls last ih =>
      have hinit := ih fun line hmem ↦ hls line (List.mem_append_left _ hmem)
      obtain ⟨hline, -⟩ := hls last (List.mem_append_right _ List.mem_cons_self)
      by_cases hlast : last = []
      · have hdrop : commandSubstitution (unlines (ls ++ [last])) =
            commandSubstitution (unlines ls) := by
          rw [hlast, commandSubstitution, unlines_append, List.filter_append]
          exact List.rdropWhile_concat_pos _ _ _ (decide_eq_true rfl)
        rw [hdrop, hinit, hlast, hempty]
      · have hnul : '\x00' ∉ unlines (ls ++ [last]) := by
          intro hmem
          obtain ⟨line, hmem, hchar⟩ := List.mem_flatMap.mp hmem
          rcases List.mem_append.mp hchar with hchar | hchar
          · exact (hls line hmem).2 hchar
          · exact absurd (List.mem_singleton.mp hchar) (by decide)
        rw [substitution_unlines hnul hlast hline,
          lines_unlines fun line hmem ↦ (hls line hmem).1]

/-- It keeps a line with a property that empty lines do not have. -/
theorem any_substitution {p : List Char → Bool} (hempty : p [] = false) {ls : List (List Char)}
    (hls : ∀ line ∈ ls, '\n' ∉ line ∧ '\x00' ∉ line) :
    (lines (commandSubstitution (unlines ls) ++ ['\n'])).any p = ls.any p := by
  refine lines_substitution (f := (List.any · p)) (fun ls ↦ ?_) hls
  rw [List.any_append, List.any_cons, hempty]
  exact Bool.or_false _

/-- A loop over the lines that does nothing on empty ones misses nothing. -/
theorem foldl_substitution {α : Type} {f : α → List Char → α} (hempty : ∀ a, f a [] = a)
    {ls : List (List Char)} (hls : ∀ line ∈ ls, '\n' ∉ line ∧ '\x00' ∉ line) (a : α) :
    (lines (commandSubstitution (unlines ls) ++ ['\n'])).foldl f a = ls.foldl f a := by
  refine lines_substitution (f := (List.foldl f a ·)) (fun ls ↦ ?_) hls
  rw [List.foldl_append]
  exact hempty _

/-- The matching lines of a variable, printed with a newline, are not empty if and only if one of
its lines matches. -/
theorem grep_ne_nil_iff {pattern : List Char} {c : Char} (hmem : c ∈ pattern) (hnul : c ≠ '\x00')
    (hnewline : c ≠ '\n') (raw : List Char) :
    commandSubstitution (grep pattern (raw ++ ['\n'])) ≠ [] ↔
      ∃ line ∈ raw.splitOn '\n', pattern <:+: line := by
  rw [grep, lines_newline]
  constructor
  · intro hne
    by_contra hnone
    have hempty : (raw.splitOn '\n').filter (pattern <:+: ·) = [] := by
      rw [List.filter_eq_nil_iff]
      intro line hline hmatch
      exact hnone ⟨line, hline, of_decide_eq_true hmatch⟩
    rw [hempty] at hne
    exact hne rfl
  · rintro ⟨line, hline, hpattern⟩
    have hkept : line ∈ (raw.splitOn '\n').filter (pattern <:+: ·) :=
      List.mem_filter.mpr ⟨hline, decide_eq_true hpattern⟩
    refine substitution_ne_nil ?_ hnul hnewline
    exact List.mem_flatMap.mpr
      ⟨line, hkept, List.mem_append_left _ (hpattern.subset hmem)⟩

/-- A variable printed with a newline, each line changed. -/
theorem sed_newline (command : List Char → List Char) (raw : List Char) :
    sed command (raw ++ ['\n']) = unlines ((raw.splitOn '\n').map command) := by
  rw [sed, lines_newline]

/-! ## Words -/

/-- The characters of `IFS` unless it is set: blank, tab and newline. -/
def isIfs (c : Char) : Bool :=
  c = ' ' ∨ c = '\t' ∨ c = '\n'

/-- The words into which a shell splits an expansion without quotes. -/
def words (text : List Char) : List (List Char) :=
  (text.splitOnP isIfs).filter (· ≠ [])

/-- A newline at the end of a text adds no word. -/
theorem words_newline (text : List Char) : words (text ++ ['\n']) = words text := by
  rw [words, List.splitOnP_append_cons _ _ rfl, List.splitOnP_nil, List.filter_append]
  exact List.append_nil _

/-- Printed lines without blanks are read back as words. -/
theorem words_unlines {ls : List (List Char)} (hne : ∀ line ∈ ls, line ≠ [])
    (hword : ∀ line ∈ ls, ∀ c ∈ line, isIfs c = false) : words (unlines ls) = ls := by
  induction ls with
  | nil => rfl
  | cons line ls ih =>
      have hrest : words (unlines ls) = ls :=
        ih (fun other hmem ↦ hne other (List.mem_cons_of_mem line hmem))
          fun other hmem ↦ hword other (List.mem_cons_of_mem line hmem)
      have hkeep : decide (line ≠ []) = true := decide_eq_true (hne line List.mem_cons_self)
      have hfirst : ∀ c ∈ line, isIfs c = false := hword line List.mem_cons_self
      rw [unlines_cons, words, List.splitOnP_append_cons_of_forall_mem hfirst '\n' rfl,
        List.filter_cons, if_pos hkeep, ← words, hrest]

/-- A command substitution of such lines has them as its words. -/
theorem words_substitution {ls : List (List Char)} (hne : ∀ line ∈ ls, line ≠ [])
    (hword : ∀ line ∈ ls, ∀ c ∈ line, isIfs c = false) (hnul : '\x00' ∉ unlines ls) :
    words (commandSubstitution (unlines ls)) = ls := by
  rcases List.eq_nil_or_concat ls with rfl | ⟨first, last, rfl⟩
  · rfl
  · rw [List.concat_eq_append] at hne hword hnul ⊢
    have hlast : last ∈ first ++ [last] := List.mem_append_right _ List.mem_cons_self
    have hline : '\n' ∉ last := by
      intro hmem
      exact Bool.noConfusion (hword last hlast '\n' hmem)
    rw [← words_newline, substitution_unlines hnul (hne last hlast) hline,
      words_unlines hne hword]

/-! ## Patterns -/

/-- A pattern without the character lies on one side of it. -/
theorem infix_append_cons_iff {pattern : List Char} {c : Char} (hc : c ∉ pattern)
    (first rest : List Char) :
    pattern <:+: first ++ c :: rest ↔ pattern <:+: first ∨ pattern <:+: rest := by
  constructor
  · intro h
    rcases List.infix_append_iff_ne_nil.mp h with h | h | ⟨_, after, -, hafter, rfl, -, hprefix⟩
    · exact .inl h
    · rcases List.infix_cons_iff.mp h with hprefix | h
      · cases pattern with
        | nil => exact .inl (List.nil_infix)
        | cons d pattern =>
            obtain ⟨rfl, -⟩ := List.cons_prefix_cons.mp hprefix
            exact absurd List.mem_cons_self hc
      · exact .inr h
    · cases after with
      | nil => exact absurd rfl hafter
      | cons d after =>
          obtain ⟨rfl, -⟩ := List.cons_prefix_cons.mp hprefix
          exact absurd (List.mem_append_right _ List.mem_cons_self) hc
  · rintro (h | h)
    · exact List.infix_append_of_infix_left h
    · exact List.infix_append_of_infix_right (List.infix_cons h)

/-- A pattern lies on one side of a text that has no character of it. -/
theorem infix_append_append_iff {pattern middle : List Char} (hne : middle ≠ [])
    (hmiddle : ∀ c ∈ middle, c ∉ pattern) (first rest : List Char) :
    pattern <:+: first ++ (middle ++ rest) ↔ pattern <:+: first ∨ pattern <:+: rest := by
  induction middle generalizing first with
  | nil => exact absurd rfl hne
  | cons c middle ih =>
      have hc : c ∉ pattern := hmiddle c List.mem_cons_self
      rw [List.cons_append, infix_append_cons_iff hc]
      rcases middle with _ | ⟨d, middle⟩
      · rfl
      · have hrest := ih (List.cons_ne_nil d middle)
          (fun e he ↦ hmiddle e (List.mem_cons_of_mem c he)) []
        rw [List.nil_append] at hrest
        rw [hrest]
        have hnil : pattern <:+: [] → pattern <:+: first := by
          intro h
          rw [List.infix_nil.mp h]
          exact List.nil_infix
        exact ⟨fun h ↦ h.elim .inl fun h ↦ h.elim (fun h ↦ .inl (hnil h)) .inr,
          fun h ↦ h.elim .inl fun h ↦ .inr (.inr h)⟩

/-- Printed lines contain a pattern if one of the lines does. -/
theorem infix_unlines_iff {pattern : List Char} (hne : pattern ≠ []) (hnewline : '\n' ∉ pattern)
    (ls : List (List Char)) : pattern <:+: unlines ls ↔ ∃ line ∈ ls, pattern <:+: line := by
  induction ls with
  | nil =>
      rw [unlines_nil, List.infix_nil]
      exact iff_of_false hne fun ⟨_, hmem, _⟩ ↦ List.not_mem_nil hmem
  | cons line ls ih =>
      rw [unlines_cons, infix_append_cons_iff hnewline, ih, List.exists_mem_cons_iff]

/-- `grep` finds a pattern in one of the lines of a command's output if it is in the output. -/
theorem infix_substitution_iff {pattern output : List Char} (hne : pattern ≠ [])
    (hnewline : '\n' ∉ pattern) (hnul : '\x00' ∉ output) :
    (∃ line ∈ (commandSubstitution output).splitOn '\n', pattern <:+: line) ↔
      pattern <:+: output := by
  have hkeep : output.filter (· ≠ '\x00') = output := by
    rw [List.filter_eq_self]
    intro c hmem
    exact decide_eq_true (ne_of_mem_of_not_mem hmem hnul)
  obtain ⟨dropped, hdropped, hsplit⟩ : ∃ dropped, (∀ c ∈ dropped, c = '\n') ∧
      commandSubstitution output ++ dropped = output := by
    refine ⟨(output.reverse.takeWhile (· = '\n')).reverse, fun c hmem ↦ ?_, ?_⟩
    · have htaken := List.mem_takeWhile_imp (List.mem_reverse.mp hmem)
      exact of_decide_eq_true htaken
    · rw [commandSubstitution, hkeep, List.rdropWhile, ← List.reverse_append,
        List.takeWhile_append_dropWhile, List.reverse_reverse]
  have hlast : pattern <:+: commandSubstitution output ++ ['\n'] ↔
      pattern <:+: commandSubstitution output := by
    rw [infix_append_cons_iff hnewline, List.infix_nil]
    exact or_iff_left hne
  rw [← infix_unlines_iff hne hnewline, unlines_split, hlast]
  rcases dropped with _ | ⟨c, dropped⟩
  · rw [List.append_nil] at hsplit
    rw [hsplit]
  · have hmiddle : ∀ d ∈ c :: dropped, d ∉ pattern :=
      fun d hmem ↦ hdropped d hmem ▸ hnewline
    have hiff := infix_append_append_iff (List.cons_ne_nil c dropped) hmiddle
      (commandSubstitution output) []
    rw [List.append_nil, hsplit, List.infix_nil, or_iff_left hne] at hiff
    exact hiff.symm

end Shell
