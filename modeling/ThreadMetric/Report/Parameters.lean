import ThreadMetric.Library.Strtol

/-!
# The run-time parameters

`tm_report_init` takes the two parameters from the environment and `tm_report_init_argv` from the
arguments of a semihosting target. Both convert their texts with `strtol`, for a `long` of `width`
bits, and test the result in the same way. `init_parameters` says that either leaves the fold of the
settings over the entries it is given, where an entry counts exactly if its text is a numeral in the
range of its parameter.
-/

namespace ThreadMetric.Parameters

open CStrings

/-- `INT_MAX`. -/
def intMax : ℤ := 2 ^ 31 - 1

/-- `tm_test_duration` and `tm_test_cycles`. -/
structure Settings where
  duration : ℤ
  cycles : ℤ
  deriving DecidableEq

/-- The global variables of the program. -/
structure Globals where
  errno : ℕ
  settings : Settings

/-- The conversion of a text and the test of its result: `errno = 0; val = strtol(text, &end, 10)`
followed by `errno == 0 && end != text && *end == '\0' && inRange(val) && val <= INT_MAX`, under
which `store` makes its assignment. -/
def convertText (width : ℕ) (inRange : ℤ → Bool) (store : Settings → ℤ → Settings)
    (text : List Char) (g : Globals) : Globals :=
  let c := strtol width text 0
  if c.errno = 0 ∧ c.stop ≠ 0 ∧ text[c.stop]? = some nul ∧ inRange c.val ∧ c.val ≤ intMax then
    { errno := c.errno, settings := store g.settings (c.val.bmod (2 ^ 32)) }
  else { g with errno := c.errno }

/-- `tm_test_duration = (int) val`. -/
def setDuration (s : Settings) (val : ℤ) : Settings := { s with duration := val }

/-- `tm_test_cycles = (int) val`. -/
def setCycles (s : Settings) (val : ℤ) : Settings := { s with cycles := val }

/-- `tm_report_init`. -/
def tmReportInit (semihosting : Bool) (width : ℕ) (getenv : String → Option CString)
    (g : Globals) : Globals :=
  if semihosting then g
  else
    let g := match getenv "TM_TEST_DURATION" with
      | some env => convertText width (fun val ↦ val > 0) setDuration env.memory g
      | none => g
    match getenv "TM_TEST_CYCLES" with
    | some env => convertText width (fun val ↦ val ≥ 0) setCycles env.memory g
    | none => g

/-- `"--duration="`. -/
def durationOption : List Char := "--duration=".toList

/-- `"--cycles="`. -/
def cyclesOption : List Char := "--cycles=".toList

/-- The body of the loop of `tm_report_init_argv`. -/
def handleArg (width : ℕ) (arg : CString) (g : Globals) : Option Globals := do
  if (← strncmp arg.memory (durationOption ++ [nul]) 11) = 0 then
    pure (convertText width (fun val ↦ val > 0) setDuration (arg.memory.drop 11) g)
  else if (← strncmp arg.memory (cyclesOption ++ [nul]) 9) = 0 then
    pure (convertText width (fun val ↦ val ≥ 0) setCycles (arg.memory.drop 9) g)
  else pure g

/-- The loop of `tm_report_init_argv` from index `i` on, for as many passes as are left. -/
def argLoop (width : ℕ) (argv : List CString) : ℕ → ℕ → Globals → Option Globals
  | 0, _, g => some g
  | left + 1, i, g => do
      let arg ← argv[i]?
      let g ← handleArg width arg g
      argLoop width argv left (i + 1) g

/-- `tm_report_init_argv`, where `argc` is the number of arguments. -/
def tmReportInitArgv (semihosting : Bool) (width : ℕ) (argv : List CString) (g : Globals) :
    Option Globals :=
  if semihosting then argLoop width argv (argv.length - 1) 1 g else some g

/-! ## What the parameters become -/

/-- A text given for one of the parameters. -/
inductive Entry where
  | duration (text : List Char)
  | cycles (text : List Char)

/-- The value of a text that is a numeral from `low` up to `INT_MAX`. -/
def setting (low : ℤ) (text : List Char) : Option ℤ :=
  (numeral? text).filter fun v ↦ low ≤ v ∧ v ≤ intMax

/-- The duration that an entry sets, if any. -/
def Entry.newDuration : Entry → Option ℤ
  | .duration text => setting 1 text
  | .cycles _ => none

/-- The number of cycles that an entry sets, if any. -/
def Entry.newCycles : Entry → Option ℤ
  | .duration _ => none
  | .cycles text => setting 0 text

/-- The settings after an entry. -/
def Settings.apply (s : Settings) (entry : Entry) : Settings where
  duration := entry.newDuration.getD s.duration
  cycles := entry.newCycles.getD s.cycles

/-- The entries of an environment. -/
def envEntries (getenv : String → Option CString) : List Entry :=
  ((getenv "TM_TEST_DURATION").map fun env ↦ .duration env.chars).toList ++
    ((getenv "TM_TEST_CYCLES").map fun env ↦ .cycles env.chars).toList

/-- The entry of a command-line argument, if it is one. -/
def argEntry (arg : CString) : Option Entry :=
  if durationOption <+: arg.chars then some (.duration (arg.chars.drop durationOption.length))
  else if cyclesOption <+: arg.chars then some (.cycles (arg.chars.drop cyclesOption.length))
  else none

/-- A value is set exactly for the numerals in the range. -/
theorem setting_eq_some_iff {low v : ℤ} {text : List Char} :
    setting low text = some v ↔ numeral? text = some v ∧ low ≤ v ∧ v ≤ intMax := by
  simp [setting, Option.filter_eq_some_iff]

/-- A value in the range of a parameter fits into every `long` that covers `int`. -/
theorem fits_of_range {width : ℕ} (hwidth : 32 ≤ width) {low v : ℤ} (hlow : 0 ≤ low) (hv : low ≤ v)
    (hmax : v ≤ intMax) : -2 ^ (width - 1) ≤ v ∧ v < 2 ^ (width - 1) := by
  have hlong : (2 : ℤ) ^ 31 ≤ 2 ^ (width - 1) := pow_le_pow_right₀ (by omega) (by omega)
  unfold intMax at hmax
  omega

/-- A conversion stores the value of a numeral in the range and changes nothing otherwise, for a
`long` of any width that covers `int`. -/
theorem convert_text_settings {width : ℕ} (hwidth : 32 ≤ width) (low : ℤ) (hlow : 0 ≤ low)
    {inRange : ℤ → Bool} (hrange : ∀ v, inRange v = true ↔ low ≤ v)
    (store : Settings → ℤ → Settings) (text : CString) (g : Globals) :
    (convertText width inRange store text.memory g).settings =
      match setting low text.chars with
      | some v => store g.settings v
      | none => g.settings := by
  unfold convertText
  cases hset : setting low text.chars with
  | some v =>
      obtain ⟨hnumeral, hin, hmax⟩ := setting_eq_some_iff.mp hset
      have hfits := fits_of_range hwidth hlow hin hmax
      obtain ⟨herrno, hstop, hread, hval⟩ := wholly_converted_iff.mpr ⟨hnumeral, hfits⟩
      have hint : v.bmod (2 ^ 32) = v := by
        unfold intMax at hmax
        exact Int.bmod_eq_of_le (by omega) (by omega)
      rw [if_pos ⟨herrno, hstop, hread, by rw [hval, hrange]; exact hin, by rw [hval]; exact hmax⟩,
        hval, hint]
  | none =>
      rw [if_neg]
      rintro ⟨herrno, hstop, hread, hin, hmax⟩
      obtain ⟨hnumeral, -⟩ := wholly_converted_iff.mp ⟨herrno, hstop, hread, rfl⟩
      have hsome := setting_eq_some_iff.mpr ⟨hnumeral, (hrange _).mp hin, hmax⟩
      rw [hset] at hsome
      cases hsome

/-- The conversion of a duration applies its entry. -/
theorem convert_duration {width : ℕ} (hwidth : 32 ≤ width) (text : CString) (g : Globals) :
    (convertText width (fun val ↦ val > 0) setDuration text.memory g).settings =
      g.settings.apply (.duration text.chars) := by
  rw [convert_text_settings hwidth 1 (by omega) (fun v ↦ by rw [decide_eq_true_iff]; omega)]
  simp only [Settings.apply, Entry.newDuration, Entry.newCycles]
  cases setting 1 text.chars <;> rfl

/-- The conversion of a number of cycles applies its entry. -/
theorem convert_cycles {width : ℕ} (hwidth : 32 ≤ width) (text : CString) (g : Globals) :
    (convertText width (fun val ↦ val ≥ 0) setCycles text.memory g).settings =
      g.settings.apply (.cycles text.chars) := by
  rw [convert_text_settings hwidth 0 (by omega) (fun v ↦ by rw [decide_eq_true_iff])]
  simp only [Settings.apply, Entry.newDuration, Entry.newCycles]
  cases setting 0 text.chars <;> rfl

/-- `tm_report_init` applies the entries of the environment. -/
theorem tm_report_init_settings {width : ℕ} (hwidth : 32 ≤ width)
    (getenv : String → Option CString) (g : Globals) :
    (tmReportInit false width getenv g).settings =
      (envEntries getenv).foldl Settings.apply g.settings := by
  unfold tmReportInit envEntries
  cases getenv "TM_TEST_DURATION" with
  | none =>
      cases getenv "TM_TEST_CYCLES" with
      | none => rfl
      | some cycles => exact convert_cycles hwidth cycles g
  | some duration =>
      cases getenv "TM_TEST_CYCLES" with
      | none => exact convert_duration hwidth duration g
      | some cycles =>
          have hboth := convert_cycles hwidth cycles
            (convertText width (fun val ↦ val > 0) setDuration duration.memory g)
          rw [convert_duration hwidth] at hboth
          exact hboth

/-- The text behind an option, in memory and as a string. -/
theorem option_text {arg : CString} {name : List Char} (hname : name <+: arg.chars) :
    arg.memory.drop name.length = (arg.drop name.length).memory :=
  arg.memory_drop hname.length_le

/-- One pass of the loop of `tm_report_init_argv` applies the entry of its argument. -/
theorem handle_arg_settings {width : ℕ} (hwidth : 32 ≤ width) (arg : CString) (g : Globals) :
    ∃ g', handleArg width arg g = some g' ∧
      g'.settings = (argEntry arg).elim g.settings g.settings.apply := by
  obtain ⟨first, hfirst, hduration⟩ :=
    strncmp_length arg.chars durationOption arg.nul_not_mem (by decide)
  obtain ⟨second, hsecond, hcycles⟩ :=
    strncmp_length arg.chars cyclesOption arg.nul_not_mem (by decide)
  have hfirst : strncmp arg.memory (durationOption ++ [nul]) 11 = some first := hfirst
  have hsecond : strncmp arg.memory (cyclesOption ++ [nul]) 9 = some second := hsecond
  simp only [handleArg, hfirst, hsecond, Option.bind_eq_bind, Option.bind_some]
  unfold argEntry
  by_cases hd : durationOption <+: arg.chars
  · rw [if_pos (hduration.mpr hd), if_pos hd]
    have htext : arg.memory.drop 11 = (arg.drop 11).memory := option_text hd
    exact ⟨_, rfl, by rw [htext, convert_duration hwidth]; rfl⟩
  · rw [if_neg (fun h ↦ hd (hduration.mp h)), if_neg hd]
    by_cases hc : cyclesOption <+: arg.chars
    · rw [if_pos (hcycles.mpr hc), if_pos hc]
      have htext : arg.memory.drop 9 = (arg.drop 9).memory := option_text hc
      exact ⟨_, rfl, by rw [htext, convert_cycles hwidth]; rfl⟩
    · rw [if_neg (fun h ↦ hc (hcycles.mp h)), if_neg hc]
      exact ⟨g, rfl, rfl⟩

/-- The loop of `tm_report_init_argv` applies the entries of the arguments that are left. -/
theorem arg_loop_settings {width : ℕ} (hwidth : 32 ≤ width) (argv : List CString) {left i : ℕ}
    (hleft : i + left = argv.length) (g : Globals) :
    ∃ g', argLoop width argv left i g = some g' ∧
      g'.settings = ((argv.drop i).filterMap argEntry).foldl Settings.apply g.settings := by
  induction left generalizing i g with
  | zero =>
      refine ⟨g, rfl, ?_⟩
      rw [List.drop_eq_nil_of_le (by omega)]
      rfl
  | succ left ih =>
      have hi : i < argv.length := by omega
      obtain ⟨middle, hmiddle, hsettings⟩ := handle_arg_settings hwidth argv[i] g
      have hleft' : i + 1 + left = argv.length := by omega
      obtain ⟨g', hloop, hrest⟩ := ih hleft' middle
      refine ⟨g', ?_, ?_⟩
      · simp only [argLoop, List.getElem?_eq_getElem hi, hmiddle, Option.bind_eq_bind,
          Option.bind_some]
        exact hloop
      · rw [hrest, hsettings, List.drop_eq_getElem_cons hi]
        cases hentry : argEntry argv[i] with
        | none =>
            rw [List.filterMap_cons_none hentry]
            rfl
        | some entry =>
            rw [List.filterMap_cons_some hentry]
            rfl

/-- `tm_report_init_argv` applies the entries of all arguments behind the first. -/
theorem tm_report_init_argv_settings {width : ℕ} (hwidth : 32 ≤ width) (argv : List CString)
    (g : Globals) :
    ∃ g', tmReportInitArgv true width argv g = some g' ∧
      g'.settings = (argv.tail.filterMap argEntry).foldl Settings.apply g.settings := by
  cases argv with
  | nil => exact ⟨g, rfl, rfl⟩
  | cons program args =>
      have hleft : 1 + ((program :: args).length - 1) = (program :: args).length := by
        rw [List.length_cons]
        omega
      exact arg_loop_settings hwidth (program :: args) hleft g

/-- The last valid entry for each parameter counts, whatever the entries for the other one. -/
theorem foldl_apply (entries : List Entry) (s : Settings) :
    entries.foldl Settings.apply s =
      ⟨(entries.filterMap Entry.newDuration).getLastD s.duration,
        (entries.filterMap Entry.newCycles).getLastD s.cycles⟩ := by
  have hlast : ∀ (f : Entry → Option ℤ) (entry : Entry) (entries : List Entry) (v : ℤ),
      (List.filterMap f (entry :: entries)).getLastD v =
        (entries.filterMap f).getLastD ((f entry).getD v) := by
    intro f entry entries v
    cases hentry : f entry with
    | none => rw [List.filterMap_cons_none hentry, Option.getD_none]
    | some u => rw [List.filterMap_cons_some hentry, List.getLastD_cons, Option.getD_some]
  induction entries generalizing s with
  | nil => rfl
  | cons entry entries ih =>
      rw [List.foldl_cons, ih, hlast, hlast]
      rfl

/-- Entries keep the parameters in their ranges. -/
theorem foldl_apply_range (entries : List Entry) {s : Settings} (hduration : 1 ≤ s.duration)
    (hcycles : 0 ≤ s.cycles) :
    1 ≤ (entries.foldl Settings.apply s).duration ∧
      0 ≤ (entries.foldl Settings.apply s).cycles := by
  induction entries generalizing s with
  | nil => exact ⟨hduration, hcycles⟩
  | cons entry entries ih =>
      refine ih ?_ ?_
      · show 1 ≤ entry.newDuration.getD s.duration
        cases hentry : entry.newDuration with
        | none => exact hduration
        | some v =>
            cases entry with
            | duration text => exact (setting_eq_some_iff.mp hentry).2.1
            | cycles text => cases hentry
      · show 0 ≤ entry.newCycles.getD s.cycles
        cases hentry : entry.newCycles with
        | none => exact hcycles
        | some v =>
            cases entry with
            | duration text => cases hentry
            | cycles text => exact (setting_eq_some_iff.mp hentry).2.1

/-- Whatever `errno` is at the start and whether `long` has 32 or 64 bits, both entry points leave
the fold of the settings over their entries, of which the last valid one for each parameter counts.
Both take the same texts for a parameter: those that `strtol` converts as a whole without an error
to a value from the least one of the parameter up to `INT_MAX`, which are the numerals of these
values. The parameters stay in their ranges. -/
theorem init_parameters (width : ℕ) (hwidth : width = 32 ∨ width = 64) (g : Globals) :
    (∀ getenv, (tmReportInit false width getenv g).settings =
      (envEntries getenv).foldl Settings.apply g.settings) ∧
    (∀ argv, ∃ g', tmReportInitArgv true width argv g = some g' ∧
      g'.settings = (argv.tail.filterMap argEntry).foldl Settings.apply g.settings) ∧
    (∀ arg text : CString,
      (arg.chars = durationOption ++ text.chars → argEntry arg = some (.duration text.chars)) ∧
      (arg.chars = cyclesOption ++ text.chars → argEntry arg = some (.cycles text.chars))) ∧
    (∀ (low : ℤ) (text : CString) (v : ℤ), 0 ≤ low →
      (setting low text.chars = some v ↔ WhollyConverted width text v ∧ low ≤ v ∧ v ≤ intMax) ∧
      (setting low text.chars = some v ↔
        (∃ p, Numeral text.chars p ∧ p.value = v) ∧ low ≤ v ∧ v ≤ intMax)) ∧
    (∀ entries : List Entry, entries.foldl Settings.apply g.settings =
      ⟨(entries.filterMap Entry.newDuration).getLastD g.settings.duration,
        (entries.filterMap Entry.newCycles).getLastD g.settings.cycles⟩) ∧
    (∀ entries : List Entry, 1 ≤ g.settings.duration → 0 ≤ g.settings.cycles →
      1 ≤ (entries.foldl Settings.apply g.settings).duration ∧
        0 ≤ (entries.foldl Settings.apply g.settings).cycles) := by
  have hlong : 32 ≤ width := by omega
  refine ⟨fun getenv ↦ tm_report_init_settings hlong getenv g,
    fun argv ↦ tm_report_init_argv_settings hlong argv g, ?_, ?_,
    fun entries ↦ foldl_apply entries g.settings,
    fun entries hduration hcycles ↦ foldl_apply_range entries hduration hcycles⟩
  · intro arg text
    have hother : ∀ rest : List Char, ¬ durationOption <+: cyclesOption ++ rest := by
      rintro rest ⟨more, hmore⟩
      have hthird : (durationOption ++ more)[2]? = (cyclesOption ++ rest)[2]? := by rw [hmore]
      have hdiffer : some 'd' = some 'c' := hthird
      revert hdiffer
      decide
    constructor
    · intro harg
      rw [argEntry, harg, if_pos (List.prefix_append _ _), List.drop_left]
    · intro harg
      rw [argEntry, harg, if_neg (hother _), if_pos (List.prefix_append _ _), List.drop_left]
  · intro low text v hlow
    have hsetting : setting low text.chars = some v ↔ _ := setting_eq_some_iff
    refine ⟨?_, by rw [hsetting, numeral_eq_some_iff]⟩
    rw [hsetting, wholly_converted_iff]
    constructor
    · rintro ⟨hnumeral, hin, hmax⟩
      exact ⟨⟨hnumeral, fits_of_range hlong hlow hin hmax⟩, hin, hmax⟩
    · rintro ⟨⟨hnumeral, -⟩, hin, hmax⟩
      exact ⟨hnumeral, hin, hmax⟩

/-- Of three durations the last one is out of range and the second one counts; the first argument
is the name of the program. -/
theorem init_parameters_argv :
    ∃ argv : List CString, argv.map CString.chars = ["--duration=5".toList, "--duration=9".toList,
        "--duration= +12".toList, "--cycles=3".toList, "--duration=0".toList] ∧
      ∃ g', tmReportInitArgv true 64 argv ⟨34, ⟨30, 0⟩⟩ = some g' ∧ g'.settings = ⟨12, 3⟩ := by
  let argv : List CString := [⟨"--duration=5".toList, by decide⟩,
    ⟨"--duration=9".toList, by decide⟩, ⟨"--duration= +12".toList, by decide⟩,
    ⟨"--cycles=3".toList, by decide⟩, ⟨"--duration=0".toList, by decide⟩]
  obtain ⟨-, hargv, -⟩ := init_parameters 64 (.inr rfl) ⟨34, ⟨30, 0⟩⟩
  obtain ⟨g', hrun, hsettings⟩ := hargv argv
  refine ⟨argv, rfl, g', hrun, ?_⟩
  rw [hsettings]
  decide

end ThreadMetric.Parameters
