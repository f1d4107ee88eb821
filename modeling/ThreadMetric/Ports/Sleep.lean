import ThreadMetric.Kernel.Machine
import ThreadMetric.Report.Parameters

/-!
# The length of a sleep

Both ports turn the seconds of `tm_thread_sleep` into ticks by a multiplication of 32-bit unsigned
numbers. `sleep_exact_iff` says for which of the durations that the parameters can hold the product
is the exact one, which are those for which it is not too small, and up to which longer durations
never ask for a shorter sleep.
-/

namespace ThreadMetric.Sleep

open CStrings Kernel Parameters

/-- `TM_THREADX_TICKS_PER_SECOND` and `configTICK_RATE_HZ`. -/
def ticksPerSecond : Port → ℕ
  | .threadX => 100
  | .freeRTOS => 1000

/-- `pdMS_TO_TICKS`, which is exact on its argument. -/
def pdMsToTicks (ms : ℕ) : ℕ :=
  ms * ticksPerSecond .freeRTOS / 1000

/-- `tm_thread_sleep`: the number of ticks that the kernel is asked for. The ThreadX port computes
`((UINT) seconds) * TM_THREADX_TICKS_PER_SECOND` and the FreeRTOS port
`pdMS_TO_TICKS(seconds * 1000U)`. -/
def tmThreadSleep (port : Port) (seconds : BitVec 32) : ℕ :=
  match port with
  | .threadX => (seconds * BitVec.ofNat 32 (ticksPerSecond .threadX)).toNat
  | .freeRTOS => pdMsToTicks (seconds * 1000#32).toNat

/-- `tm_thread_sleep(tm_test_duration)`. -/
def sleepTicks (port : Port) (duration : ℤ) : ℤ :=
  tmThreadSleep port (BitVec.ofInt 32 duration)

/-- The longest duration whose ticks fit into 32 bits. -/
def longest (port : Port) : ℤ :=
  (2 ^ 32 - 1) / ticksPerSecond port

/-- The ticks of an `int` duration are the product modulo the word. -/
theorem sleep_ticks_eq (port : Port) {d : ℤ} (hpos : 1 ≤ d) (hmax : d ≤ intMax) :
    sleepTicks port d = d * ticksPerSecond port % 2 ^ 32 := by
  have hint : ((BitVec.ofInt 32 d).toNat : ℤ) = d := by
    unfold intMax at hmax
    rw [BitVec.toNat_ofInt]
    omega
  cases port with
  | threadX =>
      show ((BitVec.ofInt 32 d * 100#32).toNat : ℤ) = d * 100 % 2 ^ 32
      rw [BitVec.toNat_mul]
      push_cast
      rw [hint]
  | freeRTOS =>
      show (((BitVec.ofInt 32 d * 1000#32).toNat * 1000 / 1000 : ℕ) : ℤ) = d * 1000 % 2 ^ 32
      rw [Nat.mul_div_cancel _ (by decide), BitVec.toNat_mul]
      push_cast
      rw [hint]

/-- Up to the longest duration the product does not leave the word. -/
theorem sleep_ticks_of_le (port : Port) {d : ℤ} (hpos : 1 ≤ d) (hmax : d ≤ intMax)
    (hd : d ≤ longest port) : sleepTicks port d = d * ticksPerSecond port := by
  rw [sleep_ticks_eq port hpos hmax]
  cases port <;> simp only [longest, ticksPerSecond] at * <;> omega

/-- Beyond it the product is too small. -/
theorem sleep_ticks_of_lt (port : Port) {d : ℤ} (hpos : 1 ≤ d) (hmax : d ≤ intMax)
    (hd : longest port < d) : sleepTicks port d < d * ticksPerSecond port := by
  rw [sleep_ticks_eq port hpos hmax]
  cases port <;> simp only [longest, ticksPerSecond] at * <;> omega

/-- The first duration beyond the longest one asks for a shorter sleep. -/
theorem sleep_ticks_drop (port : Port) :
    sleepTicks port (longest port + 1) < sleepTicks port (longest port) := by
  cases port <;> decide

/-- For every duration that the parameters can hold: the kernel is asked for exactly its ticks, or
at least for its ticks, exactly up to 42949672 seconds under ThreadX and up to 4294967 seconds under
FreeRTOS; and up to no longer duration is it true that a longer one never asks for fewer ticks. -/
theorem sleep_exact_iff (port : Port) (d : ℤ) (hpos : 1 ≤ d) (hmax : d ≤ intMax) :
    (sleepTicks port d = d * ticksPerSecond port ↔ d ≤ longest port) ∧
    (d * ticksPerSecond port ≤ sleepTicks port d ↔ d ≤ longest port) ∧
    ((∀ a b, 1 ≤ a → a ≤ b → b ≤ d → sleepTicks port a ≤ sleepTicks port b) ↔
      d ≤ longest port) := by
  have hlongest : 1 ≤ longest port ∧ longest port ≤ intMax := by cases port <;> decide
  refine ⟨⟨fun hexact ↦ ?_, sleep_ticks_of_le port hpos hmax⟩, ⟨fun henough ↦ ?_, fun hd ↦ ?_⟩,
    ⟨fun hmono ↦ ?_, fun hd a b ha hab hb ↦ ?_⟩⟩
  · by_contra hlt
    have := sleep_ticks_of_lt port hpos hmax (lt_of_not_ge hlt)
    omega
  · by_contra hlt
    have := sleep_ticks_of_lt port hpos hmax (lt_of_not_ge hlt)
    omega
  · rw [sleep_ticks_of_le port hpos hmax hd]
  · by_contra hlt
    have hdrop := sleep_ticks_drop port
    have := hmono (longest port) (longest port + 1) hlongest.1 (by omega) (by omega)
    omega
  · rw [sleep_ticks_of_le port ha (by omega) (by omega),
      sleep_ticks_of_le port (by omega) (by omega) (by omega)]
    exact mul_le_mul_of_nonneg_right hab (by positivity)

/-- The duration of an hour is slept under FreeRTOS. -/
theorem sleep_exact_iff_hour :
    (sleepTicks .freeRTOS 3600 = 3600 * ticksPerSecond .freeRTOS ↔ 3600 ≤ longest .freeRTOS) ∧
    (3600 * ticksPerSecond .freeRTOS ≤ sleepTicks .freeRTOS 3600 ↔ 3600 ≤ longest .freeRTOS) ∧
    ((∀ a b, 1 ≤ a → a ≤ b → b ≤ 3600 → sleepTicks .freeRTOS a ≤ sleepTicks .freeRTOS b) ↔
      3600 ≤ longest .freeRTOS) ∧
    3600 ≤ longest .freeRTOS := by
  obtain ⟨hexact, henough, hmono⟩ := sleep_exact_iff .freeRTOS 3600 (by decide) (by decide)
  exact ⟨hexact, henough, hmono, by decide⟩

/-- With `TM_TEST_DURATION=42949673` the ThreadX kernel is asked for four ticks. -/
theorem long_duration_wraps :
    ¬ ∀ (port : Port) (getenv : String → Option CString) (g : Globals),
      1 ≤ g.settings.duration → g.settings.duration ≤ intMax →
      sleepTicks port (tmReportInit false 64 getenv g).settings.duration =
        (tmReportInit false 64 getenv g).settings.duration * ticksPerSecond port := by
  intro h
  let getenv : String → Option CString := fun name ↦
    if name = "TM_TEST_DURATION" then some ⟨"42949673".toList, by decide⟩ else none
  have hexact := h .threadX getenv ⟨0, ⟨30, 0⟩⟩ (by decide) (by decide)
  have hset : (tmReportInit false 64 getenv ⟨0, ⟨30, 0⟩⟩).settings = ⟨42949673, 0⟩ := by
    rw [tm_report_init_settings (by decide)]
    decide
  rw [hset] at hexact
  revert hexact
  decide

end ThreadMetric.Sleep
