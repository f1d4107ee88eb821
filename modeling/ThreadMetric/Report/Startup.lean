import ThreadMetric.Report.DigitBuffer
import ThreadMetric.Report.Parameters

/-!
# The start of a program

Before `main` starts the kernel it takes the parameters and prints the reporting interval.
`numbers_read_back` says what the two functions that print numbers write, when `strtol` reads it
back, and that the interval which `main` has printed is accepted as a parameter of the next run.
Only half of the values of an `unsigned long` are read back, because `strtol` returns a `long`:
`unsigned_not_read_back`.
-/

namespace ThreadMetric.Startup

open CStrings Parameters Printf Transition

/-- The format of the line that `main` prints. -/
def intervalFormat : CString where
  chars := "Thread-Metric: reporting interval = %d s\n".toList
  nul_not_mem := by decide

/-- `main` up to the start of the kernel: the global variables and what has been printed. -/
def main (semihosting : Bool) (w : ℕ) (getenv : String → Option CString) (argv : List CString)
    (g : Globals) : Option (Globals × List Char) := do
  let g ← tmReportInitArgv semihosting w argv (tmReportInit semihosting w getenv g)
  let (text, _) ← tmPrintf (w := w) (intervalFormat.chars.length + 1) intervalFormat
    [.int (BitVec.ofInt 32 g.settings.duration)]
  pure (g, text)

/-- The line for an interval. -/
def intervalLine (number : List Char) : List Char :=
  "Thread-Metric: reporting interval = ".toList ++ number ++ " s\n".toList

/-- `tm_print_unsigned_long` prints a numeral of its argument. Its index stays in `buf` through all
of its run, which ends. The text is read back as a whole exactly if the number fits into a `long`,
and otherwise as `LONG_MAX`. -/
structure PrintsUnsigned {w : ℕ} (val : BitVec w) : Prop where
  prints : ∀ p : Printer w,
    p.tmPrintUnsignedLong val = some (p.puts (Nat.toDigits 10 val.toNat))
  numeral : Decimal.IsNumeral (Nat.toDigits 10 val.toNat) val.toNat
  in_buf : ∀ buf output s, Reachable DigitBuffer.next (DigitBuffer.call val buf output) s →
    0 ≤ s.i ∧ s.i ≤ 20 ∧ (s.control ≠ .returned → (DigitBuffer.next s ()).isSome = true)
  returns : ∀ buf output, ∃ steps s, steps.length ≤ 43 ∧
    run DigitBuffer.next steps (DigitBuffer.call val buf output) = some s ∧
    s.control = .returned ∧ s.output = output ++ Nat.toDigits 10 val.toNat
  read_back : ∀ text : CString, text.chars = Nat.toDigits 10 val.toNat →
    (WhollyConverted w text val.toNat ↔ val.toNat < 2 ^ (w - 1))
  saturates : ∀ text : CString, text.chars = Nat.toDigits 10 val.toNat →
    2 ^ (w - 1) ≤ val.toNat → ∀ errno,
      strtol w text.memory errno = ⟨2 ^ (w - 1) - 1, text.chars.length, erange⟩

/-- `tm_print_int` prints the sign and the numeral of its argument, which `strtol` reads back. -/
structure PrintsInt (w : ℕ) (val : BitVec 32) : Prop where
  prints : ∀ p : Printer w, p.tmPrintInt val = some (p.puts (Decimal.ofInt val.toInt))
  numeral : ∃ text, Decimal.IsNumeral text val.toInt.natAbs ∧
    Decimal.ofInt val.toInt = if val.toInt < 0 then '-' :: text else text
  read_back : ∀ text : CString, text.chars = Decimal.ofInt val.toInt → ∀ errno,
    strtol w text.memory errno = ⟨val.toInt, text.chars.length, errno⟩

/-- `tm_report_init` accepts a text for the duration and sets the given value. -/
def AcceptsDuration (w : ℕ) (text : CString) (duration : ℤ) : Prop :=
  WhollyConverted w text duration ∧
    ∀ getenv g, getenv "TM_TEST_DURATION" = some text →
      (tmReportInit false w getenv g).settings.duration = duration

/-! ## Printed numbers -/

/-- What is printed for an `unsigned long`. -/
theorem prints_unsigned {w : ℕ} (hlow : 32 ≤ w) (hw : w ≤ 64) (val : BitVec w) :
    PrintsUnsigned val where
  prints p := Printer.tm_print_unsigned_long_eq hw p val
  numeral := Decimal.is_numeral val.toNat
  in_buf buf output s hs := by
    have hprints := DigitBuffer.reachable_prints (by omega) hw hs
    refine ⟨hprints.nonneg, hprints.le, fun hcontrol ↦ ?_⟩
    obtain ⟨s', hnext, -⟩ := DigitBuffer.advances (by omega) hprints hcontrol
    rw [hnext]
    rfl
  returns buf output := by
    obtain ⟨steps, s, hlength, hrun, hreturned⟩ :=
      DigitBuffer.call_returns (by omega) hw val buf output
    exact ⟨steps, s, hlength, hrun, hreturned,
      DigitBuffer.returned_output (by omega) hw (reachable_of_run hrun) hreturned⟩
  read_back text htext := by
    rw [← Decimal.of_int_natCast] at htext
    rw [wholly_converted_of_int htext]
    have hlong : ((2 ^ (w - 1) : ℕ) : ℤ) = 2 ^ (w - 1) := Nat.cast_pow 2 (w - 1)
    omega
  saturates text htext hlarge errno := by
    rw [← Decimal.of_int_natCast] at htext
    exact strtol_of_large (by exact_mod_cast hlarge) htext errno

/-- What is printed for an `int`. -/
theorem prints_int {w : ℕ} (hlow : 32 ≤ w) (hw : w ≤ 64) (val : BitVec 32) : PrintsInt w val where
  prints p := Printer.tm_print_int_eq hlow hw p val
  numeral := ⟨_, Decimal.is_numeral _, rfl⟩
  read_back text htext errno := by
    have hlong : (2 : ℤ) ^ 31 ≤ 2 ^ (w - 1) := pow_le_pow_right₀ (by omega) (by omega)
    have hleast := BitVec.le_toInt val
    have hmost := BitVec.toInt_lt (x := val)
    exact strtol_of_int (by omega) (by omega) htext errno

/-! ## The line of `main` -/

/-- `main` prints the line for the duration that it has set. -/
theorem main_eq {w : ℕ} (hlow : 32 ≤ w) (hw : w ≤ 64) (semihosting : Bool)
    (getenv : String → Option CString) (argv : List CString) (g : Globals) :
    ∃ g', tmReportInitArgv semihosting w argv (tmReportInit semihosting w getenv g) = some g' ∧
      main semihosting w getenv argv g =
        some (g', intervalLine (Decimal.ofInt (BitVec.ofInt 32 g'.settings.duration).toInt)) := by
  obtain ⟨g', hg'⟩ : ∃ g',
      tmReportInitArgv semihosting w argv (tmReportInit semihosting w getenv g) = some g' := by
    cases semihosting with
    | false => exact ⟨_, rfl⟩
    | true =>
        obtain ⟨g', hg', -⟩ := tm_report_init_argv_settings hlow argv
          (tmReportInit true w getenv g)
        exact ⟨g', hg'⟩
  refine ⟨g', hg', ?_⟩
  obtain ⟨d, hd⟩ : ∃ d, BitVec.ofInt 32 g'.settings.duration = d := ⟨_, rfl⟩
  have hprint : tmPrintf (intervalFormat.chars.length + 1) intervalFormat
      ([.int d] ++ ([] : List (Arg w))) = some _ :=
    tm_printf_eq hlow hw intervalFormat rfl (Nat.lt_succ_self _)
  have htext : render (tokens intervalFormat.chars) [(.int d : Arg w)] =
      intervalLine (Decimal.ofInt d.toInt) := rfl
  rw [List.append_nil, htext] at hprint
  rw [main, hg', hd]
  simp only [Option.bind_eq_bind, Option.bind_some, hd, hprint]
  rfl

/-- The numeral of an `int` from 1 on is accepted for the duration. -/
theorem accepts_duration {w : ℕ} (hlow : 32 ≤ w) {text : CString} {d : ℤ} (hpos : 1 ≤ d)
    (hmax : d ≤ intMax) (htext : text.chars = Decimal.ofInt d) : AcceptsDuration w text d := by
  have hfits := fits_of_range hlow (by decide) hpos hmax
  have hsetting : setting 1 text.chars = some d := by
    rw [setting_eq_some_iff, htext]
    exact ⟨numeral_eq_some_iff.mpr (numeral_of_int d), hpos, hmax⟩
  refine ⟨(wholly_converted_of_int htext).mpr hfits, fun getenv g hgetenv ↦ ?_⟩
  have hentry : Entry.newDuration (.duration text.chars) = some d := hsetting
  rw [tm_report_init_settings hlow, envEntries, hgetenv]
  cases getenv "TM_TEST_CYCLES" with
  | none =>
      show ((Entry.newDuration (.duration text.chars)).getD g.settings.duration) = d
      rw [hentry]
      rfl
  | some cycles =>
      show ((Entry.newDuration (.duration text.chars)).getD g.settings.duration) = d
      rw [hentry]
      rfl

/-- For a `long` of 32 or 64 bits, every number is printed as its numeral, and `strtol` reads the
numeral of an `int` back, and that of an `unsigned long` if it fits into a `long`. `main` returns,
and the duration in its line, if it is at least 1, is accepted as `TM_TEST_DURATION` and gives the
same setting. -/
theorem numbers_read_back (w : ℕ) (hw : w = 32 ∨ w = 64) :
    (∀ val : BitVec w, PrintsUnsigned val) ∧ (∀ val : BitVec 32, PrintsInt w val) ∧
      ∀ semihosting getenv argv g, ∃ g' text, main semihosting w getenv argv g = some (g', text) ∧
        (1 ≤ g'.settings.duration → g'.settings.duration ≤ intMax →
          ∃ number : CString, text = intervalLine number.chars ∧
            AcceptsDuration w number g'.settings.duration) := by
  have hlow : 32 ≤ w := by omega
  have hhigh : w ≤ 64 := by omega
  refine ⟨prints_unsigned hlow hhigh, prints_int hlow hhigh, fun semihosting getenv argv g ↦ ?_⟩
  obtain ⟨g', -, hmain⟩ := main_eq hlow hhigh semihosting getenv argv g
  refine ⟨g', _, hmain, fun hpos hmax ↦ ?_⟩
  have hint : (BitVec.ofInt 32 g'.settings.duration).toInt = g'.settings.duration := by
    unfold intMax at hmax
    rw [BitVec.toInt_ofInt]
    exact Int.bmod_eq_of_le (by omega) (by omega)
  exact ⟨⟨Decimal.ofInt g'.settings.duration, nul_not_mem_of_int _⟩, by rw [hint],
    accepts_duration hlow hpos hmax rfl⟩

/-- The environment that gives the number as the duration. -/
def durationOnly (number : CString) (name : String) : Option CString :=
  if name = "TM_TEST_DURATION" then some number else none

/-- On a target with 64 bits the least `int` and the largest `unsigned long` are printed, and `main`
prints the duration of its environment, which the next run accepts. -/
theorem numbers_read_back_twelve :
    ∃ number : CString, number.chars = "12".toList ∧
      PrintsInt 64 (BitVec.intMin 32) ∧ PrintsUnsigned (BitVec.allOnes 64) ∧
      ∃ g', main false 64 (durationOnly number) [] ⟨0, ⟨30, 0⟩⟩ =
          some (g', "Thread-Metric: reporting interval = 12 s\n".toList) ∧
        AcceptsDuration 64 number g'.settings.duration := by
  obtain ⟨hunsigned, hint, hmain⟩ := numbers_read_back 64 (.inr rfl)
  obtain ⟨twelve, htwelve⟩ : ∃ twelve : CString, twelve.chars = "12".toList :=
    ⟨⟨"12".toList, by decide⟩, rfl⟩
  obtain ⟨g', text, hrun, hread⟩ := hmain false (durationOnly twelve) [] ⟨0, ⟨30, 0⟩⟩
  obtain ⟨g'', hinit, hline⟩ := main_eq (w := 64) (by decide) (by decide) false
    (durationOnly twelve) [] ⟨0, ⟨30, 0⟩⟩
  rw [hrun] at hline
  obtain ⟨rfl, htext⟩ := Prod.mk.inj (Option.some.inj hline)
  have hsettings : g'.settings = ⟨12, 0⟩ := by
    have hentries : envEntries (durationOnly twelve) = [.duration "12".toList] := by
      rw [← htwelve]
      rfl
    rw [← Option.some.inj hinit, tm_report_init_settings (by decide), hentries]
    decide
  have hnumeral : Decimal.ofInt (BitVec.ofInt 32 g'.settings.duration).toInt = "12".toList := by
    rw [hsettings]
    decide
  obtain ⟨number, htext', haccepts⟩ :=
    hread (by rw [hsettings]; decide) (by rw [hsettings]; decide)
  have hnumber : number.chars = "12".toList := by
    rw [htext, hnumeral] at htext'
    exact (List.append_cancel_left (List.append_cancel_right htext')).symm
  obtain rfl : number = twelve := by
    cases number
    cases twelve
    cases hnumber
    cases htwelve
    rfl
  refine ⟨number, hnumber, hint _, hunsigned _, g', ?_, haccepts⟩
  rw [hrun, htext', hnumber]
  rfl

/-- The text of the largest `unsigned long` of 32 bits does not fit into a `long`, and `strtol`
returns `LONG_MAX` instead of the number. -/
theorem unsigned_not_read_back :
    ¬ ∀ w, w = 32 ∨ w = 64 → ∀ (val : BitVec w) (text : CString),
      (∀ p : Printer w, p.tmPrintUnsignedLong val = some (p.puts text.chars)) →
        ∀ errno, (strtol w text.memory errno).val = val.toNat := by
  intro h
  have hprints : ∀ p : Printer 32,
      p.tmPrintUnsignedLong (BitVec.allOnes 32) = some (p.puts "4294967295".toList) := by
    intro p
    rw [Printer.tm_print_unsigned_long_eq (by decide)]
    rfl
  have hread := h 32 (.inl rfl) (BitVec.allOnes 32) ⟨"4294967295".toList, by decide⟩ hprints 0
  have hmax : (strtol 32 (CString.memory ⟨"4294967295".toList, by decide⟩) 0).val =
      2147483647 := by
    decide +kernel
  rw [hmax] at hread
  exact absurd hread (by decide)

end ThreadMetric.Startup
